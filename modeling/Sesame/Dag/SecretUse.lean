/-
# Which secrets reach the DAG

Secrets enter the DAG as certificates and fallback certificates of secure hosts,
as CA certificates for clients and for upstreams, and as the client certificate
that Envoy presents to upstreams. An object may use a secret of its own namespace
and one that a TLSCertificateDelegation delegates to it; the client certificate is
chosen by the operator.

Every site checks the delegation but one: the CA certificate for clients of a root
proxy is looked up without a check.
-/

import Sesame.Dag.CacheRuns
import Sesame.Dag.HostContents

namespace Sesame.Dag

open List
open Lib Api
open Status (DetailedCondition)

variable {name : NamespacedName} {validate : Api.Secret → Except String Unit} {ns : String}
  {s : Secret}

/-! ## Rules for the secrets of a DAG -/

/-- What is asked of the secrets that objects use, and of the certificates that are
presented to upstreams. -/
structure SecretRules where
  used : Secret → Prop
  presented : Secret → Prop

namespace SecretRules

variable (rules : SecretRules)

/-- A CA certificate meets the rules. -/
def Validation (pvc : Option PeerValidationContext) : Prop :=
  ∀ ca, pvc.bind (·.caCertificate) = some ca → rules.used ca

/-- The secrets of a cluster meet the rules. -/
structure ClusterMeets (c : Cluster) : Prop where
  upstream : rules.Validation c.upstreamValidation
  client : ∀ s, c.clientCertificate = some s → rules.presented s

/-- The secrets of an extension cluster meet the rules. -/
structure ExtensionMeets (e : ExtensionCluster) : Prop where
  upstream : rules.Validation e.upstreamValidation
  client : ∀ s, e.clientCertificate = some s → rules.presented s

/-- The secrets of the clusters of a route meet the rules. -/
def RouteMeets (r : Route) : Prop := ∀ c ∈ r.allClusters, rules.ClusterMeets c

/-- The secrets of the routes of a host meet the rules. -/
def HostMeets (v : VirtualHost) : Prop := ∀ key r, v.routes.lookup key = some r → rules.RouteMeets r

/-- The secrets of a secure host meet the rules. -/
structure SecureHostMeets (s : SecureVirtualHost) : Prop where
  routes : rules.HostMeets s.toVirtualHost
  certificate : ∀ sec, s.secret = some sec → rules.used sec
  fallback : ∀ sec, s.fallbackCertificate = some sec → rules.used sec
  clients : rules.Validation s.downstreamValidation
  tcpProxy : ∀ clusters, s.tcpProxy = some clusters → ∀ c ∈ clusters, rules.ClusterMeets c
  authorization : ∀ e, s.authorizationService = some e → rules.ExtensionMeets e

/-- The secrets of a DAG meet the rules. -/
structure Meets (dag : DAG) : Prop where
  hosts : ∀ host v, dag.virtualHosts.lookup host = some v → rules.HostMeets v
  secureHosts : ∀ host s, dag.secureVirtualHosts.lookup host = some s → rules.SecureHostMeets s
  extensions : ∀ e ∈ dag.extensionClusters, rules.ExtensionMeets e

def contents : Contents where
  route _ r := rules.RouteMeets r
  certificate := rules.used
  fallback := rules.used
  clients dv := rules.Validation (some dv)
  tcpCluster := rules.ClusterMeets
  authorization := rules.ExtensionMeets

variable {rules}

theorem meets_of_within {dag : DAG} (h : dag.Within rules.contents)
    (hextensions : ∀ e ∈ dag.extensionClusters, rules.ExtensionMeets e) : rules.Meets dag where
  hosts host v hv := (h.hosts host v hv).routes
  secureHosts host s hs := by
    have hhost := h.secureHosts host s hs
    refine ⟨hhost.plain.routes, hhost.certificate, hhost.fallback, ?_, hhost.tcpProxy,
      hhost.authorization⟩
    cases hdv : s.downstreamValidation with
    | none =>
      intro ca hca
      cases hca
    | some dv => exact hhost.clients dv hdv
  extensions := hextensions

end SecretRules

/-! ## The rules of the cluster -/

/-- The secret lives in the namespace of the object that uses it, or a
TLSCertificateDelegation in the secret's namespace names the secret and lists that
namespace, or is exactly `["*"]`. -/
def KubernetesCache.MayUse (source : KubernetesCache) (s : Secret) : Prop :=
  let secret := namespacedNameOf s.object.toObjectMeta
  secret.ns = s.attachedFor ∨
    ∃ name d, source.tlscertificatedelegations.lookup name = some d ∧ d.ns = secret.ns ∧
      ∃ cd ∈ d.delegations, cd.secretName = secret.name ∧
        (s.attachedFor ∈ cd.targetNamespaces ∨ cd.targetNamespaces = ["*"])

/-- Objects use secrets they may use, and the certificate presented to upstreams is
the one that the operator configured. -/
def clusterRules (source : KubernetesCache) (clientCert : Option NamespacedName) : SecretRules where
  used := source.MayUse
  presented s := clientCert = some (namespacedNameOf s.object.toObjectMeta)

variable {lib : Stdlib} {ord : MapOrder} {dbc : DagBuilderConfig} {source : KubernetesCache}
  {clientCert : Option NamespacedName}

theorem delegationPermitted_iff {secret : NamespacedName} {targetNamespace : String} :
    source.delegationPermitted ord secret targetNamespace = true ↔
      secret.ns = targetNamespace ∨
        ∃ name d, source.tlscertificatedelegations.lookup name = some d ∧ d.ns = secret.ns ∧
          ∃ cd ∈ d.delegations, cd.secretName = secret.name ∧
            (targetNamespace ∈ cd.targetNamespaces ∨ cd.targetNamespaces = ["*"]) := by
  simp only [KubernetesCache.delegationPermitted, Bool.or_eq_true, decide_eq_true_eq,
    any_eq_true, Bool.and_eq_true, ord.mem_values]
  constructor
  · rintro (hown | ⟨d, ⟨name, hd⟩, hns, cd, hcd, htarget, hname⟩)
    · exact .inl hown
    · exact .inr ⟨name, d, hd, hns, cd, hcd, hname.symm, htarget.symm⟩
  · rintro (hown | ⟨name, d, hd, hns, cd, hcd, hname, htarget⟩)
    · exact .inl hown
    · exact .inr ⟨d, ⟨name, hd⟩, hns, cd, hcd, htarget.symm, hname.symm⟩

variable (hkeyed : source.SecretsKeyed)

include hkeyed

/-- A secret that was looked up may be used iff its delegation is permitted. -/
theorem mayUse_iff (h : source.lookupSecret name validate ns = .ok s) :
    source.MayUse s ↔ source.delegationPermitted ord name ns = true := by
  obtain ⟨hlookup, hfor, -⟩ := KubernetesCache.lookupSecret_eq_ok h
  have hname := hkeyed name s.object hlookup
  rw [delegationPermitted_iff, KubernetesCache.MayUse, hname, hfor]

theorem presented_of_lookup (h : source.lookupSecret name validate ns = .ok s) :
    (clusterRules source (some name)).presented s :=
  congrArg some (hkeyed name s.object (KubernetesCache.lookupSecret_eq_ok h).1).symm

/-- A CA certificate that was looked up with permission meets the rules. -/
theorem validation_of_lookup {uv : Option UpstreamValidation} {pvc : Option PeerValidationContext}
    (hpermitted : source.delegationPermitted ord name ns = true)
    (h : source.lookupUpstreamValidation lib uv name ns = .ok pvc) :
    (clusterRules source clientCert).Validation pvc := by
  intro ca hca
  cases uv with
  | none =>
    cases h
    cases hca
  | some uv =>
    rw [KubernetesCache.lookupUpstreamValidation] at h
    split at h
    · cases h
    rename_i cacert hcacert
    split at h
    · cases h
    · cases h
      cases hca
      exact (mayUse_iff hkeyed hcacert).mpr hpermitted

/-! ## Ingresses and ExtensionServices -/

namespace IngressProcessor

variable {p : IngressProcessor}

theorem routeMeets {ing : Ingress} {rule : IngressRule} {r : Route}
    (hr : IsRouteOf lib ord p source ing rule r) :
    (clusterRules source p.clientCertificate).RouteMeets r := by
  obtain ⟨path, pathType, service, cert, serviceName, servicePort, hcert, hroute⟩ := hr
  simp only [route, Option.bind_eq_bind, Option.bind_eq_some_iff] at hroute
  obtain ⟨reqHP, -, respHP, -, pathMatchCondition, -, hr⟩ := hroute
  cases hr
  intro c hc
  obtain rfl := mem_singleton.mp hc
  refine ⟨fun ca hca => ?_, fun sec hsec => ?_⟩
  · cases hca
  · rw [clientCertSecret] at hcert
    split at hcert
    · cases hcert
      cases hsec
    · next name hname =>
      obtain ⟨sec', hfound, rfl⟩ := Option.map_eq_some_iff.mp hcert
      cases hsec
      rw [hname]
      exact presented_of_lookup hkeyed (toOption_eq_some.mp hfound)

theorem adds_contents :
    Adds lib ord p source (clusterRules source p.clientCertificate).contents where
  name _ := trivial
  certificate _ _ _ _ _ _ hsec := (mayUse_iff hkeyed hsec.1).mpr hsec.2
  route _ _ _ w hw := by
    obtain ⟨_, _, -, -, hfor⟩ := routesOf_isFor hw
    exact routeMeets hkeyed hfor.route

end IngressProcessor

namespace ExtensionServiceProcessor

variable {p : ExtensionServiceProcessor}

variable {ext : ExtensionService}

theorem baseExtension_meets (ext : ExtensionService) (validCondition : DetailedCondition) :
    (clusterRules source p.clientCertificate).ExtensionMeets
      (baseExtension lib p source ext validCondition).extension where
  upstream ca hca := by cases hca
  client sec hsec := by
    have hcert : (clientCertificateSecret lib p source
        (extensionTimeouts lib ext validCondition).2).1 = some sec := hsec
    rw [clientCertificateSecret] at hcert
    cases hname : p.clientCertificate with
    | none =>
      rw [hname] at hcert
      cases hcert
    | some name =>
      rw [hname] at hcert
      dsimp only at hcert
      split at hcert
      · next sec' hfound =>
        cases hcert
        exact presented_of_lookup hkeyed hfound
      · cases hcert

theorem attachValidation_meets {st st' : BuildState}
    (hst : (clusterRules source clientCert).ExtensionMeets st.extension)
    (h : (attachValidation lib ord source ext st).1 = some st') :
    (clusterRules source clientCert).ExtensionMeets st'.extension := by
  rcases attachValidation_extension h with heq | ⟨v, uv, hpermitted, huv, heq⟩
  · rw [heq]
    exact hst
  · rw [heq]
    exact ⟨validation_of_lookup hkeyed hpermitted huv, hst.client⟩

theorem buildExtensionService_meets {validCondition : DetailedCondition} {e : ExtensionCluster}
    (h : (buildExtensionService lib ord p source ext validCondition).1 = some e) :
    (clusterRules source p.clientCertificate).ExtensionMeets e := by
  obtain ⟨st, hst, rfl, -⟩ := buildExtensionService_eq_some h
  have hattached :=
    attachValidation_meets hkeyed (baseExtension_meets hkeyed ext validCondition) hst
  refine foldlRecOn ext.services _
    (motive := fun st : BuildState => SecretRules.ExtensionMeets _ st.extension) hattached ?_
  intro st hst target _
  rcases addTarget_cases lib source ext target with ⟨_, -, heq⟩ | ⟨_, _, -, -, heq⟩
  · rw [heq]
    exact hst
  · rw [heq]
    exact ⟨hst.upstream, hst.client⟩

end ExtensionServiceProcessor

/-! ## HTTPProxies -/

namespace HTTPProxyProcessor

variable {p : HTTPProxyProcessor}

variable {clientCert : Option NamespacedName} {validCond : DetailedCondition} {proxy : HTTPProxy}
  {lbPolicy : LoadBalancerStrategy} {vhost : VirtualHostSpec} {tls : TLS}
  {dv : PeerValidationContext} {extensions : List ExtensionCluster}

theorem upstreamValidation_meets {service : ServiceRef} {protocol : UpstreamProtocol}
    {uv : Option PeerValidationContext}
    (h : upstreamValidation lib ord source validCond proxy service protocol = .ok uv) :
    (clusterRules source clientCert).Validation uv := by
  have hnone : (clusterRules source clientCert).Validation none := by
    intro ca hca
    cases hca
  unfold upstreamValidation at h
  split at h
  · cases h
    exact hnone
  split at h
  · dsimp only at h
    split at h
    · next hpermitted => exact validation_of_lookup hkeyed hpermitted (require_eq_ok h)
    · cases h
  · cases h
    exact hnone

theorem clientCertificateSecret_presented {cert : Option Secret}
    (h : clientCertificateSecret lib p source validCond = .ok cert) {sec : Secret}
    (hsec : cert = some sec) : (clusterRules source p.clientCertificate).presented sec := by
  rw [clientCertificateSecret] at h
  cases hname : p.clientCertificate with
  | none =>
    rw [hname] at h
    cases h
    cases hsec
  | some name =>
    rw [hname] at h
    obtain ⟨sec', hlookup, rfl⟩ := map_eq_ok.mp (require_eq_ok h)
    cases hsec
    exact presented_of_lookup hkeyed hlookup

theorem routeCluster_meets {spec : RouteSpec} {st : RouteState} {service : ServiceRef}
    {s : Service} {c : Cluster}
    (h : routeCluster lib ord p source proxy spec lbPolicy st service s = .ok c) :
    (clusterRules source p.clientCertificate).ClusterMeets c := by
  have hspec := routeCluster_spec h
  exact ⟨upstreamValidation_meets hkeyed hspec.validation,
    fun sec hsec => clientCertificateSecret_presented hkeyed hspec.certificate hsec⟩

theorem Puts.meets {host : String} {r : Route} (h : Puts lib ord p source extensions host r) :
    (clusterRules source p.clientCertificate).RouteMeets r := by
  obtain ⟨proxy, vhost, -, -, -, hr⟩ := h
  refine computeRoutes_inv ⟨?_, ?_, ?_⟩ _ _ _ _ .start r hr
  · intro pos spec r _ _ hr c hc
    obtain ⟨lbPolicy, st, service, svc, -, hcluster⟩ := hr.allClusters hc
    exact routeCluster_meets hkeyed hcluster
  · intro pos inc _ _ _ c hc
    cases hc
  · intro r routingPrefix m hr _ _ _ rewrite _
    exact ⟨hr, hr⟩

omit hkeyed in
/-- The clusters of TCP proxies carry no secrets. -/
theorem tcpClusters_meet {rules : SecretRules} {httpproxy : HTTPProxy} {tcpproxy : TCPProxySpec}
    {services : List ServiceRef} {clusters : List Cluster}
    (h : tcpClusters lib p source httpproxy tcpproxy lbPolicy services = .ok clusters) :
    ∀ c ∈ clusters, rules.ClusterMeets c := by
  induction services generalizing clusters with
  | nil =>
    cases h
    intro c hc
    cases hc
  | cons service rest ih =>
    unfold tcpClusters at h
    split at h
    · cases h
    split at h
    · cases h
    obtain ⟨more, hrest, rfl⟩ := map_eq_ok.mp h
    refine forall_mem_cons.mpr ⟨⟨?_, ?_⟩, ih hrest⟩
    · intro ca hca
      cases hca
    · intro sec hsec
      cases hsec

variable (lib ord source proxy vhost) in
/-- A root attaches the CA certificate `name` for its clients: it is computed and
its certificate is accepted, no fallback certificate is asked for, and the CA
certificate is there. -/
structure AttachesClientCA (name : NamespacedName) (ca : Secret) : Prop where
  computed : IsComputedRoot source proxy vhost
  tls : ∃ tls sec cv, vhost.tls = some tls ∧ IsCertificateOf lib ord source proxy tls sec ∧
    tls.enableFallbackCertificate = false ∧ tls.clientValidation = some cv ∧
    cv.caCertificate ≠ "" ∧ name = namespacedNameFrom cv.caCertificate proxy.ns
  found : source.lookupSecret name (KubernetesCache.validCA lib) proxy.ns = .ok ca

variable (lib ord source) in
/-- Every CA certificate that a root attaches for its clients is delegated to it. -/
def ClientCAsDelegated : Prop :=
  ∀ proxy vhost name ca, AttachesClientCA lib ord source proxy vhost name ca →
    source.delegationPermitted ord name proxy.ns = true

theorem Validates.meets (hdelegated : ClientCAsDelegated lib ord source)
    (h : Validates lib ord source dv) : (clusterRules source clientCert).Validation (some dv) := by
  obtain ⟨proxy, vhost, tls, sec, cv, hroot, htls, hcert, hfallback, hcv, hdv⟩ := h
  intro ca hca
  rcases hdv with ⟨-, hnone⟩ | ⟨hnamed, ca', hsome, hfound⟩
  · simp [hnone] at hca
  · obtain rfl : ca' = ca := by simpa [hsome] using hca
    have hattaches : AttachesClientCA lib ord source proxy vhost
        (namespacedNameFrom cv.caCertificate proxy.ns) ca' :=
      ⟨hroot, ⟨tls, sec, cv, htls, hcert, hfallback, hcv, hnamed, rfl⟩, hfound⟩
    exact (mayUse_iff hkeyed hfound).mpr (hdelegated proxy vhost _ ca' hattaches)

theorem adds_contents (hdelegated : ClientCAsDelegated lib ord source)
    (hextensions : ∀ e ∈ extensions, (clusterRules source p.clientCertificate).ExtensionMeets e) :
    Adds lib ord p source extensions (clusterRules source p.clientCertificate).contents where
  name _ := trivial
  certificate _ _ _ hcert := (mayUse_iff hkeyed hcert.found).mpr hcert.permitted
  fallback _ _ _ hfound hpermitted := (mayUse_iff hkeyed hfound).mpr hpermitted
  clients _ h := h.meets hkeyed hdelegated
  authorization := hextensions
  tcpCluster _ _ _ _ h := by
    obtain ⟨httpproxy, tcpproxy, lbPolicy, -, -, -, hclusters⟩ := h
    exact tcpClusters_meet hclusters
  route _ _ h := h.meets hkeyed

omit hkeyed

/-! ## A CA certificate stays attached -/

/-- The secure host of the fqdn validates clients against a CA certificate. -/
def ValidatesClients (fqdn : String) (dv : PeerValidationContext) (dag : DAG) : Prop :=
  (dag.ensureSecureVirtualHost fqdn).downstreamValidation = some dv

theorem ensureSecureVirtualHost_put (dag : DAG) (host : String) (s : SecureVirtualHost) :
    (dag.putSecureVirtualHost host s).ensureSecureVirtualHost host = s := by
  rw [DAG.ensureSecureVirtualHost, DAG.getSecureVirtualHost, DAG.putSecureVirtualHost,
    AList.lookup_insert, Option.getD_some]

theorem ValidatesClients.exists_host {fqdn : String} {dag : DAG}
    (h : ValidatesClients fqdn dv dag) :
    ∃ svh, dag.secureVirtualHosts.lookup fqdn = some svh ∧ svh.downstreamValidation = some dv := by
  rw [ValidatesClients, DAG.ensureSecureVirtualHost, DAG.getSecureVirtualHost] at h
  cases hsvh : dag.secureVirtualHosts.lookup fqdn with
  | none =>
    rw [hsvh] at h
    cases h
  | some svh =>
    rw [hsvh] at h
    exact ⟨svh, rfl, h⟩

/-- Without a fallback certificate, a CA certificate that is found is attached
whatever becomes of the rest of the host. -/
theorem setUpSecureHost_downstreamValidation {cv : DownstreamValidation} {ca : Secret}
    (hfallback : tls.enableFallbackCertificate = false) (hcv : tls.clientValidation = some cv)
    (hnamed : cv.caCertificate ≠ "")
    (hfound : source.lookupSecret (namespacedNameFrom cv.caCertificate proxy.ns)
      (KubernetesCache.validCA lib) proxy.ns = .ok ca) (dag : DAG) (h : HostState) :
    (setUpSecureHost lib ord p source dag proxy vhost tls h).final.svhost.downstreamValidation =
      some
        { caCertificate := some ca
          skipClientCertValidation := cv.skipClientCertValidation } := by
  have hskip : attachFallback lib ord p source proxy vhost tls h = .ok h := by
    simp [attachFallback, hfallback]
  have hattach : ∃ h', attachClientValidation lib source proxy tls h = .ok h' ∧
      h'.svhost.downstreamValidation = some
        { caCertificate := some ca, skipClientCertValidation := cv.skipClientCertValidation } := by
    simp [attachClientValidation, hcv, hnamed, hfound]
  obtain ⟨h', hh', hdv⟩ := hattach
  rw [setUpSecureHost, hskip, ok_bind, hh', ok_bind]
  exact (attachAuthorization_step lib dag h').inv (P := fun svh => svh.downstreamValidation = _) hdv
    fun _ _ _ _ _ _ hs => hs

theorem closedUnderRoot_validatesClients (htls : vhost.tls = some tls)
    (hsetUp : ∀ dag h, (setUpSecureHost lib ord p source dag proxy vhost tls
      h).final.svhost.downstreamValidation = some dv) :
    ClosedUnderRoot lib ord p source proxy vhost (ValidatesClients vhost.fqdn dv) where
  same d d' same h := by
    rw [ValidatesClients, same.ensureSecureVirtualHost]
    exact h
  tls d tls' sec vc htls' _ _ := by
    obtain rfl : tls' = tls := Option.some.inj (htls'.symm.trans htls)
    rw [ValidatesClients, ensureSecureVirtualHost_put]
    exact hsetUp _ _
  tcp d clusters _ h := by
    rw [ValidatesClients, ensureSecureVirtualHost_put]
    exact h
  plain _ _ _ _ _ _ h := h
  secured d cp rlp s _ _ h := by
    rw [ValidatesClients, ensureSecureVirtualHost_put, securedHost, addSecureRoutes_eq]
    exact h

/-- A CA certificate that a root attaches for its clients is in the DAG at the end
of the run. -/
theorem AttachesClientCA.validatesClients {ca : Secret}
    (h : AttachesClientCA lib ord source proxy vhost name ca) (dag : DAG) :
    ∃ svh dv, (run lib ord p source dag).secureVirtualHosts.lookup vhost.fqdn = some svh ∧
      svh.downstreamValidation = some dv ∧ dv.caCertificate = some ca := by
  obtain ⟨tls, sec, cv, htls, hcert, hfallback, hcv, hnamed, rfl⟩ := h.tls
  obtain ⟨key, hcached⟩ := h.computed.cached
  have hclosed : ClosedUnderRoot lib ord p source proxy vhost (ValidatesClients vhost.fqdn _) :=
    closedUnderRoot_validatesClients htls fun dag h' =>
      setUpSecureHost_downstreamValidation hfallback hcv hnamed h.found dag h'
  obtain ⟨st, d, -, hframe, ⟨hnot, -⟩ | ⟨-, same⟩⟩ := run_root lib ord p hcached h.computed.root dag
  · exact absurd h.computed hnot
  · have htlsPart : ValidatesClients vhost.fqdn
        { caCertificate := some ca, skipClientCertValidation := cv.skipClientCertValidation }
        (attachTLS lib ord p source proxy vhost (startOf st proxy)).final.state.dag := by
      rw [ValidatesClients, attachTLS_final lib ord p htls hcert, ensureSecureVirtualHost_put]
      exact setUpSecureHost_downstreamValidation hfallback hcv hnamed h.found _ _
    have hroot := hclosed.after_rest htlsPart
    rw [computeRoot, checkRoot_of_accepted h.computed.accepted, ok_bind] at same
    obtain ⟨svh, hsvh, hdv⟩ := (hclosed.same _ _ same hroot).exists_host
    refine ⟨svh, _, ?_, hdv, rfl⟩
    rw [hframe.secureVirtualHosts vhost.fqdn (fun h => h rfl)]
    exact hsvh

end HTTPProxyProcessor

omit hkeyed

/-! ## All processors -/

/-- The secrets that the Ingress, ExtensionService and HTTPProxy processors attach
meet the rules exactly when every CA certificate for clients is delegated. -/
theorem secrets_permitted_iff (hkeyed : source.SecretsKeyed) {dag : DAG}
    (hdag : Builder.beforeGateway lib ord dbc source = .ok dag) :
    (clusterRules source dbc.clientCert).Meets dag ↔
      HTTPProxyProcessor.ClientCAsDelegated lib ord source := by
  constructor
  · intro hmeets proxy vhost name ca hattaches
    obtain ⟨d, -, rfl⟩ := Builder.beforeGateway_eq hdag
    obtain ⟨svh, dv, hsvh, hdv, hca⟩ :=
      hattaches.validatesClients (p := dbc.httpProxyProcessor)
        (ExtensionServiceProcessor.run lib ord dbc.extensionServiceProcessor source d)
    have hused := (hmeets.secureHosts _ svh hsvh).clients ca (by rw [hdv]; exact hca)
    exact (mayUse_iff hkeyed hattaches.found).mp hused
  · intro hdelegated
    have hextensions : ∀ e ∈ dag.extensionClusters,
        (clusterRules source dbc.clientCert).ExtensionMeets e := by
      intro e he
      obtain ⟨name, ext, -, validCondition, hbuilt, -⟩ := Builder.beforeGateway_extensions hdag e he
      exact ExtensionServiceProcessor.buildExtensionService_meets
        (p := dbc.extensionServiceProcessor) hkeyed hbuilt
    exact SecretRules.meets_of_within
      (Builder.beforeGateway_within hdag (IngressProcessor.adds_contents hkeyed)
        (HTTPProxyProcessor.adds_contents hkeyed hdelegated hextensions)) hextensions

/-- A root in the namespace `n` that validates clients against the CA certificate
`ca` of a namespace, and no delegation. -/
def clientCACache (caNamespace : String) : KubernetesCache where
  secrets := byName (·.toObjectMeta)
    [certificate "n" "cert",
     { name := "ca", ns := caNamespace, type := .generic,
       data := (∅ : Map String Bytes).insert caCertificateKey [1] }]
  httpproxies := byName (·.toObjectMeta)
    [{ name := "p", ns := "n",
       virtualHost := some
         { fqdn := "h",
           tls := some
             { secretName := "cert",
               clientValidation := some { caCertificate := caNamespace ++ "/ca" } } },
       routes := [{ requestRedirectPolicy := some {} }] }]

def clientCADAG (caNamespace : String) : DAG :=
  match Builder.beforeGateway .plain .storage {} (clientCACache caNamespace) with
  | .ok dag => dag
  | .error _ => {}

theorem secretsKeyed_of_toList {source : KubernetesCache}
    (h : ∀ e ∈ source.secrets.toList, namespacedNameOf e.2.toObjectMeta = e.1) :
    source.SecretsKeyed :=
  fun name sec hsec => h (name, sec) (Map.mem_toList.mpr hsec)

/-- With the CA certificate in the namespace of the root, all secrets may be used. -/
theorem own_client_ca_permitted :
    Builder.beforeGateway .plain .storage {} (clientCACache "n") =
        .ok (clientCADAG "n") ∧
      (clusterRules (clientCACache "n") none).Meets (clientCADAG "n") := by
  have hbuild : Builder.beforeGateway .plain .storage {} (clientCACache "n") =
      .ok (clientCADAG "n") := rfl
  have hkeyed : (clientCACache "n").SecretsKeyed := secretsKeyed_of_toList (by decide +kernel)
  refine ⟨hbuild, (secrets_permitted_iff hkeyed hbuild).mpr ?_⟩
  intro proxy vhost name ca hattaches
  obtain ⟨key, hproxy⟩ := hattaches.computed.cached
  obtain ⟨tls, sec, cv, htls, -, -, hcv, -, rfl⟩ := hattaches.tls
  have hroot := hattaches.computed.root
  have hpermitted : ∀ e ∈ (clientCACache "n").httpproxies.toList, ∀ vhost ∈ e.2.virtualHost,
      ∀ tls ∈ vhost.tls, ∀ cv ∈ tls.clientValidation,
      (clientCACache "n").delegationPermitted .storage
        (namespacedNameFrom cv.caCertificate e.2.ns) e.2.ns = true := by
    decide +kernel
  exact hpermitted (key, proxy) (Map.mem_toList.mpr hproxy) vhost hroot tls htls cv hcv

/-- A root in `n` validates clients against a CA certificate of the namespace
`other`, which has delegated nothing. -/
theorem foreign_client_ca_attached :
    Builder.beforeGateway .plain .storage {} (clientCACache "other") =
        .ok (clientCADAG "other") ∧
      (clientCACache "other").SecretsKeyed ∧
      (clientCACache "other").tlscertificatedelegations = ∅ ∧
      ∃ svh ca, (clientCADAG "other").secureVirtualHosts.lookup "h" = some svh ∧
        svh.valid = true ∧
        svh.downstreamValidation.bind (·.caCertificate) = some ca ∧
        namespacedNameOf ca.object.toObjectMeta = ⟨"other", "ca"⟩ ∧ ca.attachedFor = "n" ∧
        ¬ (clientCACache "other").MayUse ca := by
  have hhost : ∃ svh ∈ (clientCADAG "other").secureVirtualHosts.lookup "h",
      ∃ ca ∈ svh.downstreamValidation.bind (·.caCertificate), svh.valid = true ∧
        namespacedNameOf ca.object.toObjectMeta = ⟨"other", "ca"⟩ ∧ ca.attachedFor = "n" := by
    decide +kernel
  obtain ⟨svh, hsvh, ca, hca, hvalid, hname, hfor⟩ := hhost
  refine ⟨rfl, secretsKeyed_of_toList (by decide +kernel), rfl, svh, ca, hsvh, hvalid, hca, hname,
    hfor, ?_⟩
  rw [KubernetesCache.MayUse, hname, hfor]
  rintro (hown | ⟨name, d, hd, -⟩)
  · exact absurd hown (by decide)
  · cases hd

end Sesame.Dag
