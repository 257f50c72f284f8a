/-
# Roots that are rejected

`computeHTTPProxy` writes to the secure host of its fqdn in several steps, and returns
early between them. An Ingress may have set up a host of the same name. A root that is
rejected after its first write leaves a part of its settings on that host, unless it
attaches no TCP proxy and writes what is there.
-/

import Sesame.Dag.SecureSetUp

namespace Sesame.Dag

open Lib Api

/-! ## Hosts of Ingresses -/

/-- A secure host of an Ingress: it has a certificate and none of the settings that only
an HTTPProxy has. -/
structure IngressHost (svh : SecureVirtualHost) : Prop where
  secret : svh.secret.isSome
  fallback : svh.fallbackCertificate = none
  tcpProxy : svh.tcpProxy = none
  clients : svh.downstreamValidation = none
  authorization : svh.authorizationService = none

/-- All secure hosts are hosts of Ingresses. -/
def IngressHosts (dag : DAG) : Prop :=
  ∀ host svh, dag.secureVirtualHosts.lookup host = some svh → IngressHost svh

variable {dag : DAG}

theorem IngressProcessor.run_ingressHosts {lib : Stdlib} {ord : MapOrder} {p : IngressProcessor}
    {source : KubernetesCache} {dag' : DAG} (hdag : IngressHosts dag)
    (hrun : run lib ord p source dag = .ok dag') : IngressHosts dag' := by
  refine run_inv ?_ ?_ hdag hrun
  · intro name ing _ w _ d hd
    refine Map.forall_lookup_insert ?_ hd
    rw [DAG.ensureSecureVirtualHost, DAG.getSecureVirtualHost]
    cases hold : d.secureVirtualHosts.lookup w.host with
    | none => exact ⟨rfl, rfl, rfl, rfl, rfl⟩
    | some old =>
      have hingress := hd w.host old hold
      exact ⟨rfl, hingress.fallback, hingress.tcpProxy, hingress.clients, hingress.authorization⟩
  · intro name ing _ w _ d hd
    refine RouteWrite.apply_inv (fun d hd => hd) (fun d svh hsvh hd => ?_) hd
    have hingress := hd _ svh hsvh
    exact Map.forall_lookup_insert ⟨hingress.secret, hingress.fallback, hingress.tcpProxy,
      hingress.clients, hingress.authorization⟩ hd

/-- A graph that the Ingress and the ExtensionService processors leave. -/
def LeftByIngresses (lib : Stdlib) (source : KubernetesCache) (dag : DAG) : Prop :=
  ∃ (ord : MapOrder) (ip : IngressProcessor) (ep : ExtensionServiceProcessor) (d : DAG),
    IngressProcessor.run lib ord ip source (Builder.emptyDAG source) = .ok d ∧
      dag = ExtensionServiceProcessor.run lib ord ep source d

theorem LeftByIngresses.ingressHosts {lib : Stdlib} {source : KubernetesCache}
    (h : LeftByIngresses lib source dag) : IngressHosts dag := by
  obtain ⟨ord, ip, ep, d, hrun, rfl⟩ := h
  have hd : IngressHosts d :=
    IngressProcessor.run_ingressHosts (fun host svh hsvh => by cases hsvh) hrun
  intro host svh hsvh
  have hsame := congrArg Hosts.secure
    (@ExtensionServiceProcessor.run_hostsFor lib ord ep source d host)
  exact hd host svh (hsame.symm.trans hsvh)

variable {svh : SecureVirtualHost}

/-- A host of an Ingress is served iff it has routes. -/
theorem IngressHost.valid_iff (h : IngressHost svh) :
    svh.valid = true ↔ svh.routes.entries ≠ [] := by
  simp [SecureVirtualHost.valid, VirtualHost.valid, h.secret, h.tcpProxy]

theorem IngressHost.of_servesAs {svh' : SecureVirtualHost} (h : IngressHost svh)
    (hserves : svh.ServesAs svh') : IngressHost svh' := by
  obtain ⟨secret, hobject, rfl⟩ := hserves
  refine ⟨?_, h.fallback, h.tcpProxy, h.clients, h.authorization⟩
  have hsome := congrArg Option.isSome hobject
  rw [Option.isSome_map, Option.isSome_map, h.secret] at hsome
  exact hsome.symm

/-- The secure hosts that were served are as they were, and no other one is served. -/
structure KeepsServed (dag dag' : DAG) : Prop where
  unchanged : ∀ host svh, dag.secureVirtualHosts.lookup host = some svh → svh.valid = true →
    ∃ svh', dag'.secureVirtualHosts.lookup host = some svh' ∧ svh.ServesAs svh'
  noneServed : ∀ host svh', dag'.secureVirtualHosts.lookup host = some svh' → svh'.valid = true →
    ∃ svh, dag.secureVirtualHosts.lookup host = some svh ∧ svh.valid = true

theorem DAG.SameHosts.secureVirtualHosts_eq {d d' : DAG} (h : d.SameHosts d') :
    d'.secureVirtualHosts = d.secureVirtualHosts := by
  obtain ⟨_, rfl⟩ := h
  rfl

namespace HTTPProxyProcessor

/-! ## What setting up a host writes -/

variable {lib : Stdlib} {ord : MapOrder} {p : HTTPProxyProcessor} {source : KubernetesCache}
  {extensions : List ExtensionCluster} {proxy : HTTPProxy} {vhost : VirtualHostSpec} {tls : TLS}
  {w : SecureVirtualHost} {s : ProxyState} {sec : Secret}

theorem attachFallback_writes (h : HostState) :
    (¬ PastFallback lib ord p source proxy vhost tls ∧ ∃ h',
        attachFallback lib ord p source proxy vhost tls h = .error h' ∧ h'.svhost = h.svhost) ∨
      (PastFallback lib ord p source proxy vhost tls ∧ ∃ h',
        attachFallback lib ord p source proxy vhost tls h = .ok h' ∧
        (FallbackAccepted lib ord p source proxy vhost tls → h'.svhost.fallbackCertificate.isSome) ∧
        (¬ FallbackAccepted lib ord p source proxy vhost tls → h'.svhost = h.svhost)) := by
  have hstep := @attachFallback_step lib ord p source proxy vhost tls h
  generalize attachFallback lib ord p source proxy vhost tls h = r at hstep ⊢
  cases hstep with
  | skipped disabled =>
    have hdisabled : ¬ tls.enableFallbackCertificate = true := Bool.eq_false_iff.mp disabled
    exact .inr ⟨fun h => absurd h hdisabled, h, rfl, fun h => absurd h.enabled hdisabled,
      fun _ => rfl⟩
  | rejected past => exact .inl ⟨past, _, rfl, rfl⟩
  | attached accepted => exact .inr ⟨fun _ => accepted, _, rfl, fun _ => rfl, absurd accepted⟩

theorem attachClientValidation_writes (h : HostState) :
    (¬ (tls.clientValidation = none ∨ ClientsAccepted lib source proxy tls) ∧ ∃ h',
        attachClientValidation lib source proxy tls h = .error h' ∧ h'.svhost = h.svhost) ∨
      ((tls.clientValidation = none ∨ ClientsAccepted lib source proxy tls) ∧ ∃ h',
        attachClientValidation lib source proxy tls h = .ok h' ∧
        h'.svhost.fallbackCertificate = h.svhost.fallbackCertificate ∧
        (ClientsAccepted lib source proxy tls → h'.svhost.downstreamValidation.isSome) ∧
        (¬ ClientsAccepted lib source proxy tls → h'.svhost = h.svhost)) := by
  have hstep := @attachClientValidation_step lib source proxy tls h
  generalize attachClientValidation lib source proxy tls h = r at hstep ⊢
  cases hstep with
  | skipped absent =>
    refine .inr ⟨.inl absent, h, rfl, rfl, ?_, fun _ => rfl⟩
    rintro ⟨cv, hcv, -⟩
    simp [absent] at hcv
  | rejected present _ missing =>
    exact .inl ⟨fun h => h.elim (by simp [present]) missing, _, rfl, rfl⟩
  | attached present ca =>
    have haccepted := ca.accepted present
    exact .inr ⟨.inr haccepted, _, rfl, rfl, fun _ => rfl, absurd haccepted⟩

theorem attachAuthorization_writes (hdag : dag.extensionClusters = extensions) (h : HostState) :
    (¬ AuthorizationAccepted extensions proxy vhost ∧
        (attachAuthorization lib dag proxy vhost h).final.svhost = h.svhost) ∨
      (AuthorizationAccepted extensions proxy vhost ∧
        ∃ ext failOpen timeout body,
        (attachAuthorization lib dag proxy vhost h).final.svhost =
          { h.svhost with
            authorizationService := some ext, authorizationFailOpen := failOpen,
            authorizationResponseTimeout := timeout,
            authorizationServerWithRequestBody := body }) := by
  subst hdag
  have hstep := @attachAuthorization_step lib proxy vhost dag h
  generalize attachAuthorization lib dag proxy vhost h = r at hstep ⊢
  cases hstep with
  | skipped absent =>
    refine .inl ⟨?_, rfl⟩
    rintro ⟨auth, hauth, -⟩
    simp [absent] at hauth
  | rejected _ missing => exact .inl ⟨missing, rfl⟩
  | @attached auth ext h' _ present version found host ends =>
    obtain ⟨failOpen, timeout, body, hhost⟩ := host
    refine .inr ⟨⟨auth, present, version, by rw [found]; rfl⟩, ext, failOpen, timeout, body, ?_⟩
    rw [← hhost]
    rcases ends with ⟨rfl, -⟩ | ⟨rfl, -⟩ <;> rfl

variable (lib ord p source) in
/-- What setting up a host writes to it, completely or not. -/
structure SetUpWrites (extensions : List ExtensionCluster) (proxy : HTTPProxy)
    (vhost : VirtualHostSpec) (tls : TLS) (before after : SecureVirtualHost) : Prop where
  serving : SameServing before after
  version : after.minTLSVersion = before.minTLSVersion
  fallback : FallbackAccepted lib ord p source proxy vhost tls → after.fallbackCertificate.isSome
  clients : PastFallback lib ord p source proxy vhost tls → ClientsAccepted lib source proxy tls →
    after.downstreamValidation.isSome
  authorization : PastClients lib ord p source proxy vhost tls →
    AuthorizationAccepted extensions proxy vhost → after.authorizationService.isSome
  nothing : ¬ FallbackAccepted lib ord p source proxy vhost tls →
    ¬ (PastFallback lib ord p source proxy vhost tls ∧ ClientsAccepted lib source proxy tls) →
    ¬ (PastClients lib ord p source proxy vhost tls ∧
      AuthorizationAccepted extensions proxy vhost) → after = before

theorem setUpSecureHost_writes (hdag : dag.extensionClusters = extensions) (h : HostState) :
    SetUpWrites lib ord p source extensions proxy vhost tls h.svhost
      (setUpSecureHost lib ord p source dag proxy vhost tls h).final.svhost := by
  obtain ⟨hserving, hversion⟩ : SameServing h.svhost
      (setUpSecureHost lib ord p source dag proxy vhost tls h).final.svhost ∧
      (setUpSecureHost lib ord p source dag proxy vhost tls h).final.svhost.minTLSVersion =
        h.svhost.minTLSVersion :=
    setUpSecureHost_inv (P := fun w =>
        SameServing h.svhost w ∧ w.minTLSVersion = h.svhost.minTLSVersion)
      ⟨⟨rfl, rfl, rfl, rfl⟩, rfl⟩ (fun _ _ _ _ _ h => h) (fun _ _ _ _ _ _ h => h)
      fun _ _ _ _ _ _ h => h
  generalize hw : (setUpSecureHost lib ord p source dag proxy vhost tls h).final.svhost = w
    at hserving hversion ⊢
  rw [setUpSecureHost] at hw
  rcases attachFallback_writes h with ⟨hpast, h₁, heq, hsame⟩ | ⟨hpast, h₁, heq, hfallback, hsame₁⟩
  · obtain rfl : h.svhost = w := by
      rw [← hw, heq, ← hsame]
      rfl
    exact ⟨hserving, hversion, fun h => absurd (fun _ => h) hpast, fun h => absurd h hpast,
      fun h => absurd h.1 hpast, fun _ _ _ => rfl⟩
  rw [heq, ok_bind] at hw
  rcases attachClientValidation_writes h₁ with
    ⟨hreached, h₂, heq, hsame⟩ | ⟨hreached, h₂, heq, hkept, hclients, hsame₂⟩
  · obtain rfl : h₁.svhost = w := by
      rw [← hw, heq, ← hsame]
      rfl
    exact ⟨hserving, hversion, hfallback, fun _ h => absurd (.inr h) hreached,
      fun h => absurd h.2 hreached, fun h _ _ => hsame₁ h⟩
  rw [heq, ok_bind] at hw
  rcases attachAuthorization_writes hdag h₂ with
    ⟨hnot, hsame⟩ | ⟨haccepted, ext, failOpen, timeout, body, hauth⟩
  · obtain rfl : h₂.svhost = w := hsame.symm.trans hw
    refine ⟨hserving, hversion, ?_, fun _ => hclients, fun _ h => absurd h hnot, ?_⟩
    · rw [hkept]
      exact hfallback
    · intro hno hnone _
      rw [hsame₂ fun h => hnone ⟨hpast, h⟩, hsame₁ hno]
  · rw [hauth] at hw
    subst hw
    refine ⟨hserving, hversion, ?_, fun _ => hclients, fun _ _ => rfl, ?_⟩
    · rw [hkept]
      exact hfallback
    · exact fun _ _ hno => absurd ⟨⟨hpast, hreached⟩, haccepted⟩ hno

theorem setUpSecureHost_ok_iff (hdag : dag.extensionClusters = extensions) (h : HostState) :
    (∃ h', setUpSecureHost lib ord p source dag proxy vhost tls h = .ok h') ↔
      PastClients lib ord p source proxy vhost tls ∧
        AuthorizationResolves lib extensions proxy vhost := by
  rw [setUpSecureHost]
  rcases attachFallback_writes h with ⟨hpast, h₁, heq, -⟩ | ⟨hpast, h₁, heq, -⟩
  · rw [heq]
    exact iff_of_false (not_exists_ok_of_error _) fun h => hpast h.1.1
  rw [heq, ok_bind]
  rcases attachClientValidation_writes h₁ with ⟨hreached, h₂, heq, -⟩ | ⟨hreached, h₂, heq, -⟩
  · rw [heq]
    exact iff_of_false (not_exists_ok_of_error _) fun h => hreached h.1.2
  rw [heq, ok_bind]
  subst hdag
  rw [(attachAuthorization_step lib dag h₂).ok_iff]
  exact ⟨fun hresolves => ⟨⟨hpast, hreached⟩, hresolves⟩, And.right⟩

/-! ## The parts of a root -/

section Parts

variable (lib : Stdlib) (ord : MapOrder) (p : HTTPProxyProcessor) (source : KubernetesCache)
  (extensions : List ExtensionCluster) (proxy : HTTPProxy) (vhost : VirtualHostSpec)

/-- The TLS part of a root with TLS does not end early. -/
def TLSCompletes : Prop :=
  ∃ tls, vhost.tls = some tls ∧
    ((tls.passthrough = true ∧ isBlank tls.secretName = true ∧ tls.clientValidation = none) ∨
      ((∃ sec, IsCertificateOf lib ord source proxy tls sec) ∧
        PastClients lib ord p source proxy vhost tls ∧
        AuthorizationResolves lib extensions proxy vhost))

/-- The TCP proxy of a root is attached to its secure host. -/
structure AttachesTCPProxy (clusters : List Cluster) : Prop where
  tls : TLSCompletes lib ord p source extensions proxy vhost
  resolves : tcpOutcome lib p source (includeFuel source) [] proxy = some (some clusters)

end Parts

/-- Without a certificate the TLS part writes no host. -/
theorem attachTLS_of_no_certificate
    (hnone : ∀ tls sec, vhost.tls = some tls → ¬ IsCertificateOf lib ord source proxy tls sec)
    (s : ProxyState) :
    s.state.dag.SameHosts (attachTLS lib ord p source proxy vhost s).final.state.dag := by
  rcases attachTLS_cases lib ord p source proxy vhost with
    ⟨f, hf, -, heq⟩ | ⟨f, tls, hf, -, -, -, heq⟩ | ⟨tls, sec, htls, hcert⟩
  · rw [heq]
    exact ⟨_, by rw [ProxyStep.final, hf.state]⟩
  · rw [heq]
    exact ⟨_, by rw [ProxyStep.final, hf.state]⟩
  · exact absurd hcert (hnone _ _ htls)

theorem attachTLS_ok_iff (hs : s.state.dag.extensionClusters = extensions) :
    (∃ s', attachTLS lib ord p source proxy vhost s = .ok s') ↔
      vhost.tls = none ∨ TLSCompletes lib ord p source extensions proxy vhost := by
  have hcompletes : ∀ {tls}, vhost.tls = some tls →
      (vhost.tls = none ∨ TLSCompletes lib ord p source extensions proxy vhost ↔
        PassesThrough tls ∨ (∃ sec, IsCertificateOf lib ord source proxy tls sec) ∧
          PastClients lib ord p source proxy vhost tls ∧
          AuthorizationResolves lib extensions proxy vhost) := by
    intro tls htls
    simp [TLSCompletes, PassesThrough, htls]
  rcases attachTLS_cases lib ord p source proxy vhost with
    ⟨f, -, hplain, heq⟩ | ⟨f, tls, -, htls, hpass, hcert, heq⟩ | ⟨tls, sec, htls, hcert⟩
  · rw [heq]
    exact iff_of_true ⟨_, rfl⟩ (hplain.imp_right fun ⟨tls, htls, hpass⟩ => ⟨tls, htls, .inl hpass⟩)
  · rw [heq, hcompletes htls]
    refine iff_of_false (not_exists_ok_of_error _) ?_
    rintro (h | ⟨⟨sec, hsec⟩, -⟩)
    · exact hpass h
    · exact hcert sec hsec
  · have hpass : ¬ PassesThrough tls := fun h => by cases hcert.terminates.symm.trans h.1
    rw [attachTLS_of_certificate lib ord p htls hcert, hcompletes htls, or_iff_right hpass,
      and_iff_right ⟨sec, hcert⟩, ← setUpSecureHost_ok_iff hs
        { svhost := withCertificate s.state.dag vhost.fqdn tls sec, validCond := s.validCond }]
    cases setUpSecureHost lib ord p source s.state.dag proxy vhost tls _ <;> simp

/-- A root ends before routes are added to its secure host: it returns early, or it is not
valid in the end and has no TLS or a TCP proxy. -/
def EndsEarly (proxy : HTTPProxy) (vhost : VirtualHostSpec) : ProxyStep → Prop
  | .error _ => True
  | .ok s => (vhost.tls = none ∨ proxy.tcpProxy.isSome = true) ∧ s.validCond.errors ≠ []

instance (proxy : HTTPProxy) (vhost : VirtualHostSpec) : DecidablePred (EndsEarly proxy vhost) := by
  intro step
  unfold EndsEarly
  split <;> infer_instance

theorem attachRoutes_secure
    (hearly : EndsEarly proxy vhost (attachRoutes lib ord p source proxy vhost s)) :
    (attachRoutes lib ord p source proxy vhost s).final.state.dag.secureVirtualHosts =
      s.state.dag.secureVirtualHosts := by
  have houtcome := @attachRoutes_outcome lib ord p source proxy vhost s
  generalize attachRoutes lib ord p source proxy vhost s = r at houtcome hearly ⊢
  cases houtcome with
  | noCORS _ same => exact same.secureVirtualHosts_eq
  | noLimits _ _ same => exact same.secureVirtualHosts_eq
  | plaintext _ _ _ same => exact same.secureVirtualHosts_eq
  | both _ _ hsecure _ =>
    obtain ⟨htls | htcp, -⟩ := hearly
    · simp [htls] at hsecure
    · simp [Option.isSome_iff_ne_none.mp htcp] at hsecure

/-- The secure host of a root that ends early: what the TLS part left, with the TCP proxy
if that is attached. -/
theorem computeRoot_secure (haccepted : Accepted source proxy)
    (hs : s.state.dag.extensionClusters = extensions)
    (hearly : EndsEarly proxy vhost (computeRoot lib ord p source proxy vhost s)) :
    (∃ clusters, AttachesTCPProxy lib ord p source extensions proxy vhost clusters ∧
        (computeRoot lib ord p source proxy vhost s).final.state.dag.secureVirtualHosts.lookup
            vhost.fqdn =
          some { (attachTLS lib ord p source proxy vhost s).final.state.dag.ensureSecureVirtualHost
              vhost.fqdn with tcpProxy := some clusters }) ∨
      ((∀ clusters, ¬ AttachesTCPProxy lib ord p source extensions proxy vhost clusters) ∧
        (computeRoot lib ord p source proxy vhost s).final.state.dag.secureVirtualHosts =
          (attachTLS lib ord p source proxy vhost s).final.state.dag.secureVirtualHosts) := by
  have hok := @attachTLS_ok_iff lib ord p source extensions proxy vhost s hs
  rw [computeRoot, checkRoot_of_accepted haccepted, ok_bind] at hearly ⊢
  cases htls : attachTLS lib ord p source proxy vhost s with
  | error s₁ =>
    refine .inr ⟨fun clusters hattaches => ?_, rfl⟩
    obtain ⟨_, h⟩ := hok.mpr (.inr hattaches.tls)
    rw [htls] at h
    cases h
  | ok s₁ =>
    rw [htls, ok_bind] at hearly
    rw [ok_bind]
    have hattaches : ∀ clusters, AttachesTCPProxy lib ord p source extensions proxy vhost clusters ↔
        tcpPart lib p source proxy vhost = some (some clusters) := by
      intro clusters
      have hcompletes := hok.mp ⟨s₁, htls⟩
      cases htcp : proxy.tcpProxy with
      | none =>
        have hnone := @tcpOutcome_of_none lib p source proxy htcp
        refine iff_of_false (fun h => ?_) (by simp [tcpPart, htcp, hnone])
        cases hnone.symm.trans h.resolves
      | some tcpproxy =>
        cases hplain : vhost.tls with
        | none =>
          refine iff_of_false (fun h => ?_) (by simp [tcpPart, htcp, hplain])
          obtain ⟨tls, hsome, -⟩ := h.tls
          cases hplain.symm.trans hsome
        | some tls =>
          rw [tcpPart, if_neg (by simp [hplain])]
          exact ⟨fun h => h.resolves, fun h => ⟨hcompletes.resolve_left (by simp [hplain]), h⟩⟩
    have hfollows := attachTCPProxy_outcome lib p source proxy vhost s₁
    generalize attachTCPProxy lib p source proxy vhost s₁ = r at hfollows hearly ⊢
    generalize tcpPart lib p source proxy vhost = outcome at hfollows hattaches
    cases hfollows with
    | rejected same => exact .inr ⟨by simp [hattaches], same.secureVirtualHosts_eq⟩
    | kept same =>
      rw [ok_bind] at hearly
      exact .inr ⟨by simp [hattaches],
        (attachRoutes_secure hearly).trans same.secureVirtualHosts_eq⟩
    | @attached s₂ clusters same =>
      rw [ok_bind] at hearly
      refine .inl ⟨clusters, (hattaches clusters).mpr rfl, ?_⟩
      show (attachRoutes lib ord p source proxy vhost s₂).final.state.dag.secureVirtualHosts.lookup
        vhost.fqdn = _
      rw [attachRoutes_secure hearly, same.secureVirtualHosts_eq, DAG.putSecureVirtualHost,
        Map.lookup_insert_eq, if_pos rfl]
      rfl

/-! ## When a rejected root changes nothing -/

section Condition

variable (lib : Stdlib) (ord : MapOrder) (p : HTTPProxyProcessor) (source : KubernetesCache)

/-- The certificate and the minimum TLS version are those of the host, and no setting that
only an HTTPProxy has is accepted. -/
structure WritesNothingNew (extensions : List ExtensionCluster) (proxy : HTTPProxy)
    (vhost : VirtualHostSpec) (tls : TLS) (sec : Secret) (svh : SecureVirtualHost) : Prop where
  secret : svh.secret.map (·.object) = some sec.object
  version : svh.minTLSVersion = Annotation.minTLSVersion tls.minimumProtocolVersion .v12
  fallback : ¬ FallbackAccepted lib ord p source proxy vhost tls
  clients : ¬ (PastFallback lib ord p source proxy vhost tls ∧ ClientsAccepted lib source proxy tls)
  authorization : ¬ (PastClients lib ord p source proxy vhost tls ∧
    AuthorizationAccepted extensions proxy vhost)

/-- The root attaches no TCP proxy, and if it has a certificate for a host that is served,
it writes what is there. -/
structure Harmless (dag : DAG) (proxy : HTTPProxy) (vhost : VirtualHostSpec) : Prop where
  noTCPProxy : ∀ clusters,
    ¬ AttachesTCPProxy lib ord p source dag.extensionClusters proxy vhost clusters
  nothingNew : ∀ svh, dag.secureVirtualHosts.lookup vhost.fqdn = some svh → svh.valid = true →
    ∀ tls sec, vhost.tls = some tls → IsCertificateOf lib ord source proxy tls sec →
      WritesNothingNew lib ord p source dag.extensionClusters proxy vhost tls sec svh

end Condition

/-- If all other hosts are the same, only the one host matters. -/
theorem keepsServed_iff {dag' : DAG} {fqdn : String} (hothers : ∀ host, host ≠ fqdn →
      dag'.secureVirtualHosts.lookup host = dag.secureVirtualHosts.lookup host) :
    KeepsServed dag dag' ↔
      (∀ svh, dag.secureVirtualHosts.lookup fqdn = some svh → svh.valid = true →
          ∃ svh', dag'.secureVirtualHosts.lookup fqdn = some svh' ∧ svh.ServesAs svh') ∧
        ∀ svh', dag'.secureVirtualHosts.lookup fqdn = some svh' → svh'.valid = true →
          ∃ svh, dag.secureVirtualHosts.lookup fqdn = some svh ∧ svh.valid = true := by
  constructor
  · exact fun h => ⟨h.unchanged fqdn, h.noneServed fqdn⟩
  · rintro ⟨hunchanged, hnone⟩
    constructor
    · intro host svh hsvh hvalid
      by_cases hhost : host = fqdn
      · subst hhost
        exact hunchanged svh hsvh hvalid
      · exact ⟨svh, by rw [hothers host hhost, hsvh], .refl svh⟩
    · intro host svh' hsvh' hvalid
      by_cases hhost : host = fqdn
      · subst hhost
        exact hnone svh' hsvh' hvalid
      · exact ⟨svh', by rw [← hothers host hhost, hsvh'], hvalid⟩

/-- A host that is set up again with what it has stays as it is. -/
theorem SetUpWrites.servesAs (hwrites : SetUpWrites lib ord p source extensions proxy vhost tls
      (withCertificate dag vhost.fqdn tls sec) w)
    (hsvh : dag.secureVirtualHosts.lookup vhost.fqdn = some svh)
    (hnew : WritesNothingNew lib ord p source extensions proxy vhost tls sec svh) :
    svh.ServesAs w := by
  refine ⟨some sec, hnew.secret, ?_⟩
  rw [hwrites.nothing hnew.fallback hnew.clients hnew.authorization, withCertificate,
    DAG.ensureSecureVirtualHost, DAG.getSecureVirtualHost, hsvh, Option.getD_some, ← hnew.version]

theorem SetUpWrites.nothingNew (hwrites : SetUpWrites lib ord p source extensions proxy vhost tls
      (withCertificate dag vhost.fqdn tls sec) w) (hserves : svh.ServesAs w)
    (hingress : IngressHost svh) :
    WritesNothingNew lib ord p source extensions proxy vhost tls sec svh := by
  have hleft := hingress.of_servesAs hserves
  obtain ⟨secret, hobject, hw⟩ := hserves
  have hsecret : w.secret = some sec := hwrites.serving.2.1
  have hversion : w.minTLSVersion = Annotation.minTLSVersion tls.minimumProtocolVersion .v12 :=
    hwrites.version
  refine ⟨?_, ?_, fun h => ?_, fun h => ?_, fun h => ?_⟩
  · rw [hobject, ← Option.map_some, ← hsecret, hw]
  · rw [← hversion, hw]
  · have hsome := hwrites.fallback h
    rw [hleft.fallback] at hsome
    cases hsome
  · have hsome := hwrites.clients h.1 h.2
    rw [hleft.clients] at hsome
    cases hsome
  · have hsome := hwrites.authorization h.1 h.2
    rw [hleft.authorization] at hsome
    cases hsome

/-- Setting up a host that is not served does not make it be served. -/
theorem SetUpWrites.served (hwrites : SetUpWrites lib ord p source extensions proxy vhost tls
      (withCertificate dag vhost.fqdn tls sec) w) (hdag : IngressHosts dag)
    (hvalid : w.valid = true) :
    ∃ svh, dag.secureVirtualHosts.lookup vhost.fqdn = some svh ∧ svh.valid = true := by
  obtain ⟨-, -, hroutes, htcp⟩ := hwrites.serving
  rw [withCertificate, DAG.ensureSecureVirtualHost, DAG.getSecureVirtualHost] at hroutes htcp
  cases hsvh : dag.secureVirtualHosts.lookup vhost.fqdn with
  | none =>
    rw [hsvh] at hroutes htcp
    rw [SecureVirtualHost.valid, VirtualHost.valid, hroutes, htcp] at hvalid
    simp at hvalid
  | some svh =>
    rw [hsvh, Option.getD_some] at hroutes htcp
    have hingress := hdag _ svh hsvh
    refine ⟨svh, rfl, hingress.valid_iff.mpr fun hempty => ?_⟩
    rw [SecureVirtualHost.valid, VirtualHost.valid, hroutes, htcp, hingress.tcpProxy,
      hempty] at hvalid
    simp at hvalid

/-- An accepted root that ends early. -/
theorem computeRoot_keeps_iff {st : State} (hdag : IngressHosts st.dag)
    (haccepted : Accepted source proxy)
    (hearly : EndsEarly proxy vhost (computeRoot lib ord p source proxy vhost (startOf st proxy))) :
    KeepsServed st.dag
        (computeRoot lib ord p source proxy vhost (startOf st proxy)).final.state.dag ↔
      Harmless lib ord p source st.dag proxy vhost := by
  have hframe : st.dag.Frame (· = vhost.fqdn)
      (computeRoot lib ord p source proxy vhost (startOf st proxy)).final.state.dag :=
    (closedUnderRoot_frame proxy vhost st.dag (H := (· = vhost.fqdn)) rfl).computeRoot
      (startOf st proxy) (DAG.Frame.refl _)
  rw [keepsServed_iff hframe.secureVirtualHosts]
  rcases computeRoot_secure haccepted (s := startOf st proxy) rfl hearly with
    ⟨clusters, hattaches, hfinal⟩ | ⟨hnone, hfinal⟩
  · -- The TCP proxy makes the host be served, and no host of an Ingress has one.
    refine iff_of_false ?_ fun h => h.noTCPProxy clusters hattaches
    rintro ⟨hunchanged, hserved⟩
    obtain ⟨svh, hsvh, hvalid⟩ := hserved _ hfinal (by simp [SecureVirtualHost.valid])
    obtain ⟨svh', hsvh', hserves⟩ := hunchanged svh hsvh hvalid
    have htcp := ((hdag _ svh hsvh).of_servesAs hserves).tcpProxy
    rw [Option.some.inj (hsvh'.symm.trans hfinal)] at htcp
    cases htcp
  rw [hfinal]
  by_cases hcert : ∃ tls sec, vhost.tls = some tls ∧ IsCertificateOf lib ord source proxy tls sec
  · obtain ⟨tls, sec, htls, hsec⟩ := hcert
    have hwrites := @setUpSecureHost_writes st.dag lib ord p source _ proxy vhost tls rfl
      { svhost := withCertificate st.dag vhost.fqdn tls sec
        validCond := (startOf st proxy).validCond }
    have hput : (attachTLS lib ord p source proxy vhost
        (startOf st proxy)).final.state.dag.secureVirtualHosts.lookup vhost.fqdn =
        some (setUpSecureHost lib ord p source st.dag proxy vhost tls
          { svhost := withCertificate st.dag vhost.fqdn tls sec
            validCond := (startOf st proxy).validCond }).final.svhost := by
      rw [attachTLS_final lib ord p htls hsec, DAG.putSecureVirtualHost, Map.lookup_insert_eq,
        if_pos rfl]
      rfl
    rw [hput]
    constructor
    · rintro ⟨hunchanged, -⟩
      refine ⟨hnone, fun svh hsvh hvalid tls' sec' htls' hsec' => ?_⟩
      rw [htls] at htls'
      cases htls'
      obtain rfl : sec = sec' := Except.ok.inj (hsec.found.symm.trans hsec'.found)
      obtain ⟨svh', hsvh', hserves⟩ := hunchanged svh hsvh hvalid
      rw [Option.some.inj hsvh'] at hwrites
      exact hwrites.nothingNew hserves (hdag _ svh hsvh)
    · intro hharmless
      constructor
      · intro svh hsvh hvalid
        exact ⟨_, rfl, hwrites.servesAs hsvh
          (hharmless.nothingNew svh hsvh hvalid tls sec htls hsec)⟩
      · rintro svh' ⟨⟩ hvalid
        exact hwrites.served hdag hvalid
  · have hsame := @attachTLS_of_no_certificate lib ord p source proxy vhost
      (fun tls sec htls hsec => hcert ⟨tls, sec, htls, hsec⟩) (startOf st proxy)
    rw [hsame.secureVirtualHosts_eq]
    refine iff_of_true
      ⟨fun svh hsvh _ => ⟨svh, hsvh, .refl svh⟩, fun svh hsvh hvalid => ⟨svh, hsvh, hvalid⟩⟩
      ⟨hnone, fun svh _ _ tls sec htls hsec => absurd ⟨tls, sec, htls, hsec⟩ hcert⟩

/-- A rejected root keeps the hosts that are served, and makes none be served, iff it
attaches no TCP proxy and, if it has a certificate for a host that is served, writes what is
there. -/
theorem rejected_keeps_iff {st : State} (hleft : LeftByIngresses lib source st.dag)
    (hroot : proxy.virtualHost = some vhost)
    (hearly : isBlank vhost.fqdn = true ∨
      EndsEarly proxy vhost (computeRoot lib ord p source proxy vhost (startOf st proxy))) :
    KeepsServed st.dag (computeHTTPProxy lib ord p source st proxy).dag ↔
      (isBlank vhost.fqdn = false → Accepted source proxy →
        Harmless lib ord p source st.dag proxy vhost) := by
  have hsecure : ∀ {d d' d'' : DAG}, d'.SameHosts d'' → (KeepsServed d d'' ↔ KeepsServed d d') := by
    rintro d d' _ ⟨_, rfl⟩
    exact ⟨fun h => ⟨h.unchanged, h.noneServed⟩, fun h => ⟨h.unchanged, h.noneServed⟩⟩
  rcases computeHTTPProxy_cases lib ord p st proxy with
    ⟨hskipped, same⟩ | ⟨vhost', hvhost, hnamed, haccepted, same⟩
  · rw [hsecure same]
    refine iff_of_true ⟨fun _ svh hsvh _ => ⟨svh, hsvh, .refl svh⟩,
      fun _ svh hsvh hvalid => ⟨svh, hsvh, hvalid⟩⟩ ?_
    exact fun hnamed haccepted => absurd haccepted (hskipped vhost hroot hnamed)
  · rw [hroot] at hvhost
    cases hvhost
    have hends := hearly.resolve_left (by rw [hnamed]; decide)
    rw [hsecure same, computeRoot_keeps_iff hleft.ingressHosts haccepted hends]
    exact ⟨fun h _ _ => h, fun h => h hnamed haccepted⟩

/-- An Ingress that serves the host `h` with the certificate `cert`. -/
def overlapCache : KubernetesCache where
  secrets := byName (·.toObjectMeta) [certificate "n" "cert", certificate "n" "other"]
  services := byName (·.toObjectMeta) [webService "n" "s"]
  ingresses := byName (·.toObjectMeta)
    [{ name := "i", ns := "n", tls := [{ hosts := ["h"], secretName := "cert" }],
       rules := [{ host := "h", http := some [{ path := "/", backend := webBackend "s" }] }] }]

def overlapDAG : DAG :=
  match IngressProcessor.run .plain .storage {} overlapCache (Builder.emptyDAG overlapCache) with
  | .ok dag => ExtensionServiceProcessor.run .plain .storage {} overlapCache dag
  | .error _ => {}

/-- A root for the same host, with a certificate. It asks for a fallback certificate. -/
def overlapHost (certificate : String) : VirtualHostSpec where
  fqdn := "h"
  tls := some { secretName := certificate, enableFallbackCertificate := true }

@[inherit_doc overlapHost]
def overlapRoot (certificate : String) : HTTPProxy where
  name := "p"
  ns := "n"
  virtualHost := some (overlapHost certificate)
  routes := [{ requestRedirectPolicy := some {} }]

theorem overlapDAG_left : LeftByIngresses .plain overlapCache overlapDAG :=
  ⟨.storage, {}, {}, _, rfl, rfl⟩

/-- With the certificate that is there, a rejected root changes nothing. -/
theorem rejected_root_same_certificate :
    EndsEarly (overlapRoot "cert") (overlapHost "cert")
      (computeRoot .plain .storage {} overlapCache (overlapRoot "cert") (overlapHost "cert")
        (startOf { dag := overlapDAG } (overlapRoot "cert"))) ∧
    KeepsServed overlapDAG
      (computeHTTPProxy .plain .storage {} overlapCache { dag := overlapDAG }
        (overlapRoot "cert")).dag := by
  have hearly : EndsEarly (overlapRoot "cert") (overlapHost "cert")
      (computeRoot .plain .storage {} overlapCache (overlapRoot "cert") (overlapHost "cert")
        (startOf { dag := overlapDAG } (overlapRoot "cert"))) := by decide +kernel
  refine ⟨hearly, (rejected_keeps_iff overlapDAG_left rfl (.inr hearly)).mpr fun _ _ => ⟨?_, ?_⟩⟩
  · rintro clusters ⟨-, hresolves⟩
    have hnone : tcpOutcome .plain {} overlapCache (includeFuel overlapCache) []
        (overlapRoot "cert") = some none := rfl
    rw [hnone] at hresolves
    cases hresolves
  · -- No fallback certificate is configured, so nothing after it is reached.
    have hfallback : ¬ FallbackAccepted .plain .storage {} overlapCache (overlapRoot "cert")
        (overlapHost "cert") { secretName := "cert", enableFallbackCertificate := true } := by
      rintro ⟨-, -, -, name, sec, hname, -⟩
      cases hname
    rintro svh hsvh hvalid tls sec ⟨⟩ hsec
    have hpast : ¬ PastFallback .plain .storage {} overlapCache (overlapRoot "cert")
        (overlapHost "cert") { secretName := "cert", enableFallbackCertificate := true } :=
      fun h => hfallback (h rfl)
    have hsame : ∀ svh ∈ overlapDAG.secureVirtualHosts.lookup "h",
        ∀ sec ∈ (overlapCache.lookupSecret ⟨"n", "cert"⟩ (validSecret .plain) "n").toOption,
        svh.secret.map (·.object) = some sec.object ∧ svh.minTLSVersion = .v12 := by decide +kernel
    have hfound : overlapCache.lookupSecret ⟨"n", "cert"⟩ (validSecret .plain) "n" = .ok sec :=
      hsec.found
    obtain ⟨hsecret, hversion⟩ := hsame svh hsvh sec (toOption_eq_some.mpr hfound)
    exact ⟨hsecret, hversion, hfallback, fun h => hpast h.1, fun h => hpast h.1.1⟩

/-- With another certificate, the host of the Ingress is served with the certificate of the
rejected root. -/
theorem rejected_root_replaces_certificate :
    LeftByIngresses .plain overlapCache overlapDAG ∧
    EndsEarly (overlapRoot "other") (overlapHost "other")
      (computeRoot .plain .storage {} overlapCache (overlapRoot "other") (overlapHost "other")
        (startOf { dag := overlapDAG } (overlapRoot "other"))) ∧
    (∃ svh ∈ overlapDAG.secureVirtualHosts.lookup "h",
      svh.valid = true ∧ svh.secret.map (·.object.name) = some "cert") ∧
    (∃ svh ∈ (computeHTTPProxy .plain .storage {} overlapCache { dag := overlapDAG }
        (overlapRoot "other")).dag.secureVirtualHosts.lookup "h",
      svh.valid = true ∧ svh.secret.map (·.object.name) = some "other") ∧
    ¬ KeepsServed overlapDAG
      (computeHTTPProxy .plain .storage {} overlapCache { dag := overlapDAG }
        (overlapRoot "other")).dag := by
  have hbefore : ∃ svh ∈ overlapDAG.secureVirtualHosts.lookup "h",
      svh.valid = true ∧ svh.secret.map (·.object.name) = some "cert" := by decide +kernel
  have hafter : ∃ svh ∈ (computeHTTPProxy .plain .storage {} overlapCache
      { dag := overlapDAG } (overlapRoot "other")).dag.secureVirtualHosts.lookup "h",
      svh.valid = true ∧ svh.secret.map (·.object.name) = some "other" := by decide +kernel
  refine ⟨overlapDAG_left, by decide +kernel, hbefore, hafter, fun h => ?_⟩
  obtain ⟨svh, hsvh, hvalid, hcert⟩ := hbefore
  obtain ⟨svh', hsvh', -, hother⟩ := hafter
  obtain ⟨_, hkept, secret, hobject, rfl⟩ := h.unchanged "h" svh hsvh hvalid
  rw [Option.mem_def, hkept] at hsvh'
  cases hsvh'
  have hname := congrArg (Option.map (·.name)) hobject
  rw [Option.map_map, Option.map_map] at hname
  exact absurd (hcert.symm.trans (hname.trans hother)) (by decide)

end HTTPProxyProcessor

end Sesame.Dag
