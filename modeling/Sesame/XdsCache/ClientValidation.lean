/-
# Client certificates

A root proxy that asks for client certificates names a CA certificate to check
them with. If it names one that is not there, the root gets no valid secure host.
If it names none and does not skip the check either, an error is recorded, but the
secure host is served all the same, and without a CA certificate to check against.
-/

import Sesame.Dag.SecureSetUp
import Sesame.XdsCache.Listener

namespace Sesame.XdsCache

open Lib Dag Envoy
open Api (NamespacedName HTTPProxy VirtualHostSpec TLS DownstreamValidation Bytes)
open HTTPProxyProcessor

/-- A secure host has a CA certificate for its clients, and the downstream TLS
context of its filter chain requires client certificates and trusts that CA. -/
structure ChecksClients (cfg : ListenerConfig) (lib : Stdlib) (svh : SecureVirtualHost) : Prop where
  validated : svh.downstreamValidation.isSome = true
  nonempty : getCACertificate svh.downstreamValidation ≠ []
  context : ∃ ctx vc, cfg.secureTLSContext lib svh = some ctx ∧
    ctx.requireClientCertificate = true ∧ ctx.validationContext = some vc ∧
    vc.trustedCa = some (getCACertificate svh.downstreamValidation)

/-- A valid secure host of the name checks its clients, and one that is not valid
has neither routes nor a TCP proxy. -/
def ClientsChecked (cfg : ListenerConfig) (lib : Stdlib) (root : DAG) (fqdn : String) : Prop :=
  ∀ svh, root.secureVirtualHosts.lookup fqdn = some svh →
    (svh.valid = true → ChecksClients cfg lib svh) ∧
    (svh.valid = false → svh.routes.entries = [] ∧ svh.tcpProxy = none)

/-- A root gets a valid secure host, as far as client validation is concerned: it is
computed, its certificate is accepted, it does not ask for the fallback
certificate, its authorization resolves, and it has something to forward. -/
structure Serves (lib : Stdlib) (ord : MapOrder) (p : HTTPProxyProcessor)
    (source : KubernetesCache) (extensions : List ExtensionCluster) (proxy : HTTPProxy)
    (vhost : VirtualHostSpec) (tls : TLS) : Prop where
  computed : IsComputedRoot source proxy vhost
  certificate : ∃ sec, IsCertificateOf lib ord source proxy tls sec
  fallback : tls.enableFallbackCertificate = false
  authorization : AuthorizationResolves lib extensions proxy vhost
  forwards : Forwards lib ord p source proxy vhost

section

variable {lib : Stdlib} {ord : MapOrder} {source : KubernetesCache} {cfg : ListenerConfig}

variable {svh : SecureVirtualHost} {root : DAG} {fqdn : String}

theorem value_of_validCA {name : NamespacedName} {ns : String} {ca : Dag.Secret}
    (h : source.lookupSecret name (KubernetesCache.validCA lib) ns = .ok ca) :
    ca.object.value caCertificateKey ≠ [] := by
  have hvalid := (KubernetesCache.lookupSecret_eq_ok h).2.2
  rw [KubernetesCache.validCA] at hvalid
  intro hempty
  rw [if_pos hempty] at hvalid
  cases hvalid

theorem checksClients_of_ca {sec : Dag.Secret} {dv : PeerValidationContext} {ca : Dag.Secret}
    (hsec : svh.secret = some sec) (hdv : svh.downstreamValidation = some dv)
    (hca : dv.caCertificate = some ca) (hvalue : ca.object.value caCertificateKey ≠ []) :
    ChecksClients cfg lib svh := by
  have hcert : getCACertificate svh.downstreamValidation = ca.object.value caCertificateKey := by
    rw [hdv, getCACertificate, Option.bind_some, hca]
  refine ⟨by rw [hdv]; rfl, by rwa [hcert], ?_⟩
  rw [ListenerConfig.secureTLSContext, hsec]
  refine ⟨_, validationContext (getCACertificate svh.downstreamValidation) ""
    dv.skipClientCertValidation, rfl, ?_, ?_, ?_⟩
  · simp only [downstreamTLSContext, hdv, Option.isSome_some]
  · simp only [downstreamTLSContext, hdv, Option.map_some]
  · rw [hcert]
    simp [validationContext, hvalue]

theorem clientsChecked_of_none (h : root.secureVirtualHosts.lookup fqdn = none) :
    ClientsChecked cfg lib root fqdn := by
  intro svh hsvh
  rw [h] at hsvh
  cases hsvh

theorem clientsChecked_of_idle (h : root.secureVirtualHosts.lookup fqdn = some svh)
    (hroutes : svh.routes.entries = []) (htcp : svh.tcpProxy = none) :
    ClientsChecked cfg lib root fqdn := by
  intro svh' hsvh'
  obtain rfl : svh = svh' := Option.some.inj (h.symm.trans hsvh')
  have hvalid : svh.valid = false := by
    simp [SecureVirtualHost.valid, VirtualHost.valid, hroutes, htcp]
  refine ⟨fun h => ?_, fun _ => ⟨hroutes, htcp⟩⟩
  rw [hvalid] at h
  cases h

theorem clientsChecked_iff_of_valid (h : root.secureVirtualHosts.lookup fqdn = some svh)
    (hvalid : svh.valid = true) : ClientsChecked cfg lib root fqdn ↔ ChecksClients cfg lib svh := by
  constructor
  · intro hchecked
    exact (hchecked svh h).1 hvalid
  · intro hchecks svh' hsvh'
    obtain rfl : svh = svh' := Option.some.inj (h.symm.trans hsvh')
    refine ⟨fun _ => hchecks, fun hinvalid => ?_⟩
    rw [hvalid] at hinvalid
    cases hinvalid

end

/-- The clients of a root that validates them are checked exactly when it names a
CA certificate or gets no valid secure host for another reason. -/
theorem clients_checked_iff {lib : Stdlib} {ord : MapOrder} {dbc : DagBuilderConfig}
    {source : KubernetesCache} {cfg : ListenerConfig} {root : DAG}
    (hbuild : Builder.build lib ord dbc source = .ok root) {name : NamespacedName}
    {proxy : HTTPProxy} {vhost : VirtualHostSpec} {tls : TLS} {cv : DownstreamValidation}
    (hcached : source.httpproxies.lookup name = some proxy)
    (hvhost : proxy.virtualHost = some vhost) (htls : vhost.tls = some tls)
    (hcv : tls.clientValidation = some cv)
    (hingress : ¬ IngressProcessor.UsesHost source vhost.fqdn)
    (hgateway : ¬ GatewayAPIProcessor.UsesHost lib source vhost.fqdn) :
    ClientsChecked cfg lib root vhost.fqdn ↔
      (cv.caCertificate ≠ "" ∨
        ¬ Serves lib ord dbc.httpProxyProcessor source root.extensionClusters proxy vhost tls) := by
  obtain ⟨hcomputed, hidle⟩ := Builder.build_hosts hbuild hcached hvhost hingress hgateway
  by_cases hroot : IsComputedRoot source proxy vhost
  · have hhost : root.secureVirtualHosts.lookup vhost.fqdn = (rootHosts lib ord
        dbc.httpProxyProcessor source root.extensionClusters proxy vhost).secure :=
      congrArg Hosts.secure (hcomputed hroot)
    rcases tlsHost_validating lib ord dbc.httpProxyProcessor source root.extensionClusters proxy
        htls hcv with
      ⟨htlsHost, hcert⟩ | ⟨sec, r, hcert, hvalidating, htlsHost⟩
    · rw [rootHosts, htlsHost] at hhost
      exact iff_of_true (clientsChecked_of_none hhost) (.inr fun h => hcert h.certificate)
    · cases hvalidating with
      | abandoned bare why =>
        rw [rootHosts, htlsHost] at hhost
        refine iff_of_true (clientsChecked_of_idle hhost bare.routes bare.tcpProxy) ?_
        by_cases hempty : cv.caCertificate = ""
        · right
          intro h
          rcases why hempty with hfallback | hresolves
          · rw [h.fallback] at hfallback
            cases hfallback
          · exact hresolves h.authorization
        · exact .inl hempty
      | complete bare fallback resolves validation ca =>
        obtain ⟨final, hfinal, ⟨hsecret, hdv, -⟩, hforward⟩ :=
          rootHosts_secure (by rw [htls]; rfl) htlsHost bare
        rw [hfinal] at hhost
        rcases hforward with ⟨hforwards, hvalid⟩ | ⟨hnot, hroutes, htcp⟩
        · have hserves : Serves lib ord dbc.httpProxyProcessor source root.extensionClusters
              proxy vhost tls := ⟨hroot, ⟨sec, hcert⟩, fallback, resolves, hforwards⟩
          rw [clientsChecked_iff_of_valid hhost hvalid]
          rcases ca with ⟨hempty, hnone⟩ | ⟨hnamed, ca, hca, hfound⟩
          · refine iff_of_false (fun h => h.nonempty ?_) ?_
            · rw [hdv, validation, getCACertificate, Option.bind_some, hnone]
            · rintro (hnamed | hnot)
              · exact hnamed hempty
              · exact hnot hserves
          · refine iff_of_true ?_ (.inl hnamed)
            exact checksClients_of_ca (hsecret.trans bare.secret) (hdv.trans validation) hca
              (value_of_validCA hfound)
        · exact iff_of_true (clientsChecked_of_idle hhost hroutes htcp)
            (.inr fun h => hnot h.forwards)
  · have hhost : root.secureVirtualHosts.lookup vhost.fqdn = none :=
      congrArg Hosts.secure (hidle hroot)
    exact iff_of_true (clientsChecked_of_none hhost) (.inr fun h => hroot h.computed)

/-- The root `n/p` of the host `h`, which validates its clients with the CA certificate
of a name; the namespace has a certificate `cert` and a CA certificate `ca`. -/
def validatingProxy (caCertificate : String) : HTTPProxy where
  name := "p"
  ns := "n"
  virtualHost := some
    { fqdn := "h",
      tls := some { secretName := "cert", clientValidation := some { caCertificate } } }
  routes := [{ requestRedirectPolicy := some {} }]

def validatingCache (caCertificate : String) : KubernetesCache where
  secrets := Api.byName (·.toObjectMeta)
    [Api.certificate "n" "cert",
     { name := "ca", ns := "n", type := .generic,
       data := (∅ : Map String Bytes).insert caCertificateKey [1] }]
  httpproxies := Api.byName (·.toObjectMeta) [validatingProxy caCertificate]

def validatingDAG (caCertificate : String) : DAG :=
  match Builder.build .plain .storage {} (validatingCache caCertificate) with
  | .ok dag => dag
  | .error _ => {}

theorem validatingCache_ingress (ca host : String) :
    ¬ IngressProcessor.UsesHost (validatingCache ca) host := by
  rintro ⟨name, ing, hing, -⟩
  cases hing

theorem validatingCache_gateway (ca host : String) :
    ¬ GatewayAPIProcessor.UsesHost .plain (validatingCache ca) host := by
  rintro ⟨gateway, -, -, hgateway, -⟩
  cases hgateway

/-- With a CA certificate, the secure host of the root is valid and checks its clients. -/
theorem named_ca_checks_clients :
    Builder.build .plain .storage {} (validatingCache "ca") =
        .ok (validatingDAG "ca") ∧
      (∃ svh ∈ (validatingDAG "ca").secureVirtualHosts.lookup "h", svh.valid = true) ∧
      ClientsChecked {} .plain (validatingDAG "ca") "h" := by
  have hbuild : Builder.build .plain .storage {} (validatingCache "ca") =
      .ok (validatingDAG "ca") := rfl
  have hcached : (validatingCache "ca").httpproxies.lookup ⟨"n", "p"⟩ =
      some (validatingProxy "ca") := rfl
  refine ⟨hbuild, by decide +kernel, ?_⟩
  exact (clients_checked_iff hbuild hcached rfl rfl rfl (validatingCache_ingress "ca" "h")
    (validatingCache_gateway "ca" "h")).mpr (.inl (by decide))

/-- Without one, the secure host is valid too: its filter chain asks for client
certificates and trusts no CA. -/
theorem unnamed_ca_trusts_none :
    Builder.build .plain .storage {} (validatingCache "") =
        .ok (validatingDAG "") ∧
      ¬ IngressProcessor.UsesHost (validatingCache "") "h" ∧
      ¬ GatewayAPIProcessor.UsesHost .plain (validatingCache "") "h" ∧
      ∃ svh ∈ (validatingDAG "").secureVirtualHosts.lookup "h",
        svh.valid = true ∧
        (∃ dv ∈ svh.downstreamValidation,
          dv.caCertificate = none ∧ dv.skipClientCertValidation = false) ∧
        ∃ ctx ∈ ({} : ListenerConfig).secureTLSContext .plain svh,
          ctx.requireClientCertificate = true ∧
          ∃ vc ∈ ctx.validationContext, vc.trustedCa = none := by
  refine ⟨rfl, validatingCache_ingress "" "h", validatingCache_gateway "" "h", ?_⟩
  decide +kernel

end Sesame.XdsCache
