/-
# The secret cache

`SecretCache.OnChange` publishes the certificates that the DAG's hosts and clusters
use. TLS contexts refer to secrets by name: a filter chain to the certificate of
its host or to the fallback certificate, a cluster to the client certificate that
is presented to the upstream. Extension clusters have a client certificate as well,
and `GetSecrets` does not visit them.
-/

import Sesame.XdsCache.Cluster
import Sesame.XdsCache.FilterChains

namespace Sesame.Envoy

open Lib Dag
open Api (Bytes tlsCertKey tlsPrivateKeyKey)

/-- What an `envoy_tls_v3.Secret` holds: a certificate with its key, the files of
both, or the file of a CA certificate. -/
inductive SecretType
  | tlsCertificate (privateKey certificateChain : Bytes)
  | tlsCertificateFiles (privateKey certificateChain : String)
  | validationContext (trustedCa : String)

/-- `envoy_tls_v3.Secret`. -/
structure EnvoySecret where
  name : String
  type : SecretType

def secret (lib : Stdlib) (s : Dag.Secret) : EnvoySecret where
  name := secretname lib s
  type := .tlsCertificate (s.object.value tlsPrivateKeyKey) (s.object.value tlsCertKey)

structure MetricsTLS where
  caFile : String := ""
  certFile : String := ""
  keyFile : String := ""

def statsSecrets (metricsTLS : Option MetricsTLS) : List EnvoySecret :=
  match metricsTLS with
  | none => []
  | some tls =>
    (if tls.certFile ≠ "" ∧ tls.keyFile ≠ "" then
      [{ name := "metrics-tls-certificate",
         type := .tlsCertificateFiles tls.keyFile tls.certFile }]
    else []) ++
    (if tls.caFile ≠ "" then
      [{ name := "metrics-ca-certificate", type := .validationContext tls.caFile }]
    else [])

/-- The secrets that the TLS context of a filter chain refers to. -/
def FilterChain.secretNames (fc : FilterChain) : List String :=
  fc.transportSocket.toList.map (·.sdsSecretName)

/-- The secrets that the TLS context of a cluster refers to. -/
def EnvoyCluster.secretNames (c : EnvoyCluster) : List String :=
  (c.transportSocket.bind (·.clientSecretName)).toList

variable {lib : Stdlib} {name : String}

/-- A cluster refers to its client certificate. -/
theorem exists_of_mem_secretNames_cluster {c : Cluster} (h : name ∈ (cluster lib c).secretNames) :
    ∃ cert, c.clientCertificate = some cert ∧ secretname lib cert = name := by
  cases hprotocol : c.protocol <;>
    simp [cluster, hprotocol, EnvoyCluster.secretNames, upstreamTLSContext, clusterDefaults] at h
  all_goals exact h

/-- An extension cluster refers to its client certificate if it is reached over
TLS. -/
theorem mem_secretNames_extensionCluster {ec : ExtensionCluster} :
    name ∈ (extensionCluster lib ec).secretNames ↔
      ec.protocol = .h2 ∧
        ∃ cert, ec.clientCertificate = some cert ∧ secretname lib cert = name := by
  cases hprotocol : ec.protocol <;>
    simp [extensionCluster, hprotocol, EnvoyCluster.secretNames, upstreamTLSContext,
      clusterDefaults]

end Sesame.Envoy

namespace Sesame.XdsCache

open Lib Dag Envoy
open Api (NamespacedName)

structure SecretCache where
  values : Map String EnvoySecret := ∅
  staticValues : Map String EnvoySecret := ∅

namespace SecretCache

def newSecretsCache (secrets : List EnvoySecret) : SecretCache where
  staticValues := secrets.foldl (fun values s => values.insert s.name s) ∅

def onChange (lib : Stdlib) (ord : MapOrder) (c : SecretCache) (root : DAG) : SecretCache :=
  { c with
    values := (root.getSecrets ord).foldl
      (fun secrets s => secrets.insertNew (secretname lib s) (secret lib s)) ∅ }

/-- The cache has a secret of the name. -/
def Serves (c : SecretCache) (name : String) : Prop :=
  (c.values.lookup name).isSome = true ∨ (c.staticValues.lookup name).isSome = true
  deriving Decidable

end SecretCache

/-- A host or a cluster of the DAG uses a secret of the name: as certificate or
fallback certificate of an attached host, or as client certificate of a cluster that
routes or TCP proxies forward to. -/
def UsesSecret (lib : Stdlib) (ord : MapOrder) (root : DAG) (name : String) : Prop :=
  (∃ vh, Attached root vh ∧
    ∃ s ∈ vh.secret.toList ++ vh.fallbackCertificate.toList, secretname lib s = name) ∨
  ∃ c ∈ root.getClusters ord, ∃ s, c.clientCertificate = some s ∧ secretname lib s = name

variable {lib : Stdlib} {ord : MapOrder} {cfg : ListenerConfig} {root : DAG}

theorem SecretCache.serves_onChange {c : SecretCache} {name : String} :
    (c.onChange lib ord root).Serves name ↔
      UsesSecret lib ord root name ∨ (c.staticValues.lookup name).isSome = true := by
  refine or_congr_left ?_
  rw [SecretCache.onChange, Map.lookup_foldl_insertNew]
  simp only [AList.lookup_empty, Option.none_or, Option.isSome_map, List.find?_isSome,
    decide_eq_true_eq, DAG.getSecrets, List.mem_append, List.mem_flatMap, Option.mem_toList,
    UsesSecret, Attached]
  constructor
  · rintro ⟨s, ⟨l, hl, vh, hvh, hs⟩ | ⟨c, hc, hs⟩, hname⟩
    · exact .inl ⟨vh, ⟨l, hl, hvh⟩, s, hs, hname⟩
    · exact .inr ⟨c, hc, s, hs, hname⟩
  · rintro (⟨vh, ⟨l, hl, hvh⟩, s, hs, hname⟩ | ⟨c, hc, s, hs, hname⟩)
    · exact ⟨s, .inl ⟨l, hl, vh, hvh, hs⟩, hname⟩
    · exact ⟨s, .inr ⟨c, hc, hs⟩, hname⟩

/-! ## References of TLS contexts -/

/-- Every secret that a listener or a cluster refers to is in the secret cache. -/
structure SecretsResolve (listeners : Map String Envoy.Listener)
    (clusters : Map String EnvoyCluster) (cache : SecretCache) : Prop where
  downstream : ∀ name l, listeners.lookup name = some l → ∀ fc ∈ l.filterChains,
    ∀ s ∈ FilterChain.secretNames fc, cache.Serves s
  upstream : ∀ name c, clusters.lookup name = some c → ∀ s ∈ c.secretNames, cache.Serves s

/-- The client certificate of every extension cluster that is published and reached
over TLS is used elsewhere in the DAG, or is a static secret. -/
def ExtensionCertificatesUsed (lib : Stdlib) (ord : MapOrder) (root : DAG)
    (staticValues : Map String EnvoySecret) : Prop :=
  ∀ name ec, root.getExtensionClusters.lookup name = some ec →
    (∀ c ∈ root.getClusters ord, clustername lib c ≠ name) → ec.protocol = .h2 →
    ∀ cert, ec.clientCertificate = some cert →
      UsesSecret lib ord root (secretname lib cert) ∨
        (staticValues.lookup (secretname lib cert)).isSome = true

/-- A filter chain refers to the certificate of its host or to the fallback
certificate. -/
theorem SecureChain.usesSecret {hosts : List SecureVirtualHost} {fc : FilterChain}
    (h : SecureChain lib cfg hosts fc) (hhosts : ∀ vh ∈ hosts, Attached root vh) {s : String}
    (hs : s ∈ FilterChain.secretNames fc) : UsesSecret lib ord root s := by
  obtain ⟨vh, hvh, hchain | ⟨fallback, hfallback, hchain⟩⟩ := h
  · obtain ⟨filters, -, rfl⟩ := map_eq_ok.mp hchain
    cases hsecret : vh.secret with
    | none => simp [FilterChain.secretNames, filterChainTLS, ListenerConfig.secureTLSContext,
        hsecret] at hs
    | some sec =>
      have hname : s = secretname lib sec := by
        simpa [FilterChain.secretNames, filterChainTLS, ListenerConfig.secureTLSContext,
          hsecret, downstreamTLSContext] using hs
      exact .inl ⟨vh, hhosts vh hvh, sec, by simp [hsecret], hname.symm⟩
  · obtain ⟨cm, hcm, -, -⟩ := cfg.fallbackConnectionManager_ok envoyHTTPSListener
    rw [ListenerConfig.fallbackFilterChain, hcm] at hchain
    cases hchain
    have hname : s = secretname lib fallback := by
      simpa [FilterChain.secretNames, filterChainTLSFallback, downstreamTLSContext] using hs
    exact .inl ⟨vh, hhosts vh hvh, fallback, by simp [hfallback], hname.symm⟩

/-- In a built DAG every reference of a TLS context is served exactly when the client
certificates of the extension clusters are used elsewhere, or are static secrets. -/
theorem secrets_resolve_iff (lib : Stdlib) (cfg : ListenerConfig) (cache : SecretCache)
    {ord : MapOrder} {dbc : DagBuilderConfig} {source : KubernetesCache} {root : DAG}
    (hbuild : Builder.build lib ord dbc source = .ok root) :
    ∃ listeners, listenersOf lib cfg root = .ok listeners ∧
      (SecretsResolve listeners (ClusterCache.onChange lib ord root) (cache.onChange lib ord root) ↔
        ExtensionCertificatesUsed lib ord root cache.staticValues) := by
  obtain ⟨dag, -, hdag, rfl⟩ := Builder.build_eq hbuild
  have hattached : ∀ vh ∈ ListenerProcessor.httpsHosts ord dag,
      Attached (ListenerProcessor.run ord dag) vh :=
    fun vh hvh => (ListenerProcessor.mem_secureVirtualHosts_run hdag).mpr hvh
  obtain ⟨listeners, hlisteners, -, hcases⟩ := listenersOf_run lib cfg ord hdag
  refine ⟨listeners, hlisteners, ?_⟩
  constructor
  · intro hresolve name ec hec hnone hprotocol cert hcert
    have hlookup : (ClusterCache.onChange lib ord (ListenerProcessor.run ord dag)).lookup name =
        some (extensionCluster lib ec) := by
      have hfind : ((ListenerProcessor.run ord dag).getClusters ord).find?
          (fun c => clustername lib c = name) = none := by
        simpa [List.find?_eq_none] using hnone
      rw [ClusterCache.lookup_onChange, hfind, hec]
      rfl
    exact SecretCache.serves_onChange.mp (hresolve.upstream name _ hlookup _
      (mem_secretNames_extensionCluster.mpr ⟨hprotocol, cert, hcert, rfl⟩))
  · intro hused
    constructor
    · intro name l hl fc hfc s hs
      rcases hcases name l hl fc hfc with ⟨cm, -, rfl⟩ | hchain
      · cases hs
      · exact SecretCache.serves_onChange.mpr (.inl (SecureChain.usesSecret hchain hattached hs))
    · intro name c hc s hs
      rw [ClusterCache.lookup_onChange] at hc
      rw [SecretCache.serves_onChange]
      cases hfind : ((ListenerProcessor.run ord dag).getClusters ord).find?
          (fun c => clustername lib c = name) with
      | some first =>
        rw [hfind] at hc
        cases hc
        obtain ⟨cert, hcert, hname⟩ := exists_of_mem_secretNames_cluster hs
        exact .inl (.inr ⟨first, List.mem_of_find?_eq_some hfind, cert, hcert, hname⟩)
      | none =>
        rw [hfind, Option.map_none, Option.none_or] at hc
        obtain ⟨ec, hec, rfl⟩ := Option.map_eq_some_iff.mp hc
        obtain ⟨hprotocol, cert, hcert, rfl⟩ := mem_secretNames_extensionCluster.mp hs
        exact hused name ec hec (by simpa [List.find?_eq_none] using hfind) hprotocol cert hcert

/-- An ExtensionService `n/e` for the service `n/s`, a client certificate, and
possibly a root proxy that reaches the same service over TLS. -/
def extensionCache (proxied : Bool) : KubernetesCache where
  secrets := Api.byName (·.toObjectMeta) [Api.certificate "n" "cert"]
  services := Api.byName (·.toObjectMeta) [Api.webService "n" "s"]
  extensions := Api.byName (·.toObjectMeta)
    [{ name := "e", ns := "n", services := [{ name := "s", port := 80 }] }]
  httpproxies :=
    if proxied then
      Api.byName (·.toObjectMeta)
        [{ name := "p", ns := "n", virtualHost := some { fqdn := "h" },
           routes := [{ services := [{ name := "s", port := 80, protocol := some "tls" }] }] }]
    else ∅

/-- The configuration with that client certificate. -/
def clientCertConfig : DagBuilderConfig where
  clientCert := some ⟨"n", "cert"⟩

def extensionDAG (proxied : Bool) : DAG :=
  match Builder.build .plain .storage clientCertConfig (extensionCache proxied) with
  | .ok root => root
  | .error _ => {}

instance (lib : Stdlib) (ord : MapOrder) (root : DAG) (name : String) :
    Decidable (UsesSecret lib ord root name) :=
  decidable_of_iff
    ((∃ l ∈ root.listeners, ∃ vh ∈ l.secureVirtualHosts,
      ∃ s ∈ vh.secret.toList ++ vh.fallbackCertificate.toList, secretname lib s = name) ∨
    ∃ c ∈ root.getClusters ord, ∃ s ∈ c.clientCertificate, secretname lib s = name)
    (or_congr (by simp only [Attached]; grind) Iff.rfl)

/-- The secret cache of a server whose metrics are served without TLS. -/
def plainMetricsCache : SecretCache := .newSecretsCache (statsSecrets none)

/-- With the proxy, the client certificate is served for both clusters. -/
theorem shared_client_certificate_served :
    Builder.build .plain .storage clientCertConfig (extensionCache true) =
        .ok (extensionDAG true) ∧
      ∃ listeners, listenersOf .plain {} (extensionDAG true) = .ok listeners ∧
        SecretsResolve listeners
          (ClusterCache.onChange .plain .storage (extensionDAG true))
          (plainMetricsCache.onChange .plain .storage (extensionDAG true)) := by
  have hbuild : Builder.build .plain .storage clientCertConfig (extensionCache true) =
      .ok (extensionDAG true) := rfl
  have hused : ∀ e ∈ (extensionDAG true).getExtensionClusters.toList,
      ∀ cert ∈ e.2.clientCertificate,
        UsesSecret .plain .storage (extensionDAG true) (secretname .plain cert) := by
    decide +kernel
  obtain ⟨listeners, hlisteners, hiff⟩ := secrets_resolve_iff .plain {} plainMetricsCache hbuild
  refine ⟨hbuild, listeners, hlisteners, hiff.mpr ?_⟩
  intro name ec hec _ _ cert hcert
  exact .inl (hused (name, ec) (Map.mem_toList.mpr hec) cert hcert)

/-- Alone, the extension cluster refers to a client certificate that the secret cache
does not have. -/
theorem extension_client_certificate_dangles :
    Builder.build .plain .storage clientCertConfig (extensionCache false) =
        .ok (extensionDAG false) ∧
      ∃ name c s, (ClusterCache.onChange .plain .storage
          (extensionDAG false)).lookup name = some c ∧ s ∈ c.secretNames ∧
        ¬ (plainMetricsCache.onChange .plain .storage (extensionDAG false)).Serves
          s := by
  have hdangling : ∃ e ∈ (ClusterCache.onChange .plain .storage
      (extensionDAG false)).toList, ∃ s ∈ e.2.secretNames,
      ¬ (plainMetricsCache.onChange .plain .storage (extensionDAG false)).Serves
        s := by
    decide +kernel
  obtain ⟨e, he, s, hs, hnot⟩ := hdangling
  exact ⟨rfl, e.1, e.2, s, Map.mem_toList.mp he, hs, hnot⟩

end Sesame.XdsCache
