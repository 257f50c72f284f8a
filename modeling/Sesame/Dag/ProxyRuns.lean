/-
# Runs of the HTTPProxy processor

A root proxy writes the hosts of its fqdn and no other, and of several roots with
one fqdn none is computed. The hosts of an fqdn are therefore written by one call
of `computeRoot` at most.
-/

import Mathlib.Data.List.Induction
import Sesame.Dag.Traversal

namespace Sesame.Dag.HTTPProxyProcessor

open List
open Lib Api
open Status (DetailedCondition ErrorType)

variable {lib : Stdlib} {ord : MapOrder} {p : HTTPProxyProcessor} {source : KubernetesCache}

variable {dag : DAG} {name : NamespacedName} {tls : TLS} {fqdn : String} {proxy : HTTPProxy}
  {vhost : VirtualHostSpec} {clusters : List Cluster}

/-! ## What the parts write -/

theorem computeInclude_sameHosts {recurse : State → DetailedCondition → Position → Visit}
    (hrecurse : ∀ (st : State) vc pos, st.dag.SameHosts (recurse st vc pos).state.dag) {root : Root}
    {pos : Position} {v : Visit} (h : dag.SameHosts v.state.dag) (inc : Include) :
    dag.SameHosts (computeInclude lib source recurse root pos v inc).state.dag := by
  rcases computeInclude_eq lib source root pos inc with ⟨included, -, heq⟩ | ⟨-, _, _, _, -, heq⟩
  · rw [heq]
    exact (h.trans (hrecurse _ _ _)).status _
  · rw [heq]
    exact h

/-- Following the includes of a proxy changes no host. -/
theorem computeRoutes_sameHosts {root : Root} {enforceTLS : Bool} (fuel : Nat)
    (visited : List HTTPProxy) (st : State) (vc : DetailedCondition) (pos : Position) :
    st.dag.SameHosts
      (computeRoutes lib ord p source root enforceTLS fuel visited st vc pos).state.dag := by
  induction fuel generalizing visited st vc pos with
  | zero => exact DAG.SameHosts.refl _
  | succ fuel ih =>
    have hincludes : ∀ visited', st.dag.SameHosts (pos.proxy.includes.foldl
        (computeInclude lib source (computeRoutes lib ord p source root enforceTLS fuel visited')
          root pos) { state := st, validCond := vc }).state.dag := by
      intro visited'
      refine foldlRecOn _ _ (motive := fun v : Visit => st.dag.SameHosts v.state.dag)
        (DAG.SameHosts.refl _) fun v hv inc _ => ?_
      exact computeInclude_sameHosts (ih visited') hv inc
    unfold computeRoutes
    dsimp only
    split
    · exact DAG.SameHosts.refl _
    · split
      · exact DAG.SameHosts.refl _
      · rw [takeRoutes]
        split <;> exact hincludes _

variable (lib p source proxy) in
/-- Clusters that `tcpClusters` computes for the TCP proxy of a proxy or of one in the cache. -/
def IsTCPProxyOf (clusters : List Cluster) : Prop :=
  ∃ httpproxy tcpproxy lbPolicy,
    (httpproxy = proxy ∨ ∃ name, source.httpproxies.lookup name = some httpproxy) ∧
    httpproxy.tcpProxy = some tcpproxy ∧ tcpproxy.services ≠ [] ∧
    tcpClusters lib p source httpproxy tcpproxy lbPolicy tcpproxy.services = .ok clusters

theorem IsTCPProxyOf.of_included {dest : HTTPProxy}
    (hdest : source.httpproxies.lookup name = some dest)
    (h : IsTCPProxyOf lib p source dest clusters) : IsTCPProxyOf lib p source proxy clusters := by
  obtain ⟨httpproxy, tcpproxy, lbPolicy, hfound, hrest⟩ := h
  refine ⟨httpproxy, tcpproxy, lbPolicy, .inr ?_, hrest⟩
  rcases hfound with rfl | hcached
  · exact ⟨name, hdest⟩
  · exact hcached

theorem isTCPProxyOf_of_tcpOutcome {fuel : Nat} {visited : List HTTPProxy} {httpproxy : HTTPProxy}
    (h : tcpOutcome lib p source fuel visited httpproxy = some (some clusters)) :
    IsTCPProxyOf lib p source httpproxy clusters := by
  induction fuel generalizing visited httpproxy with
  | zero => cases h
  | succ fuel ih =>
    cases hfollowed : tcpFollowed source httpproxy with
    | none =>
      obtain ⟨outcome, record, hends, houtcome⟩ := exists_tcpEnds lib p hfollowed
      obtain rfl : outcome = _ := (houtcome fuel visited).1.symm.trans h
      cases hends with
      | clusters htcp hservices hclusters =>
        exact ⟨httpproxy, _, _, .inl rfl, htcp, hservices, hclusters⟩
    | some dest =>
      rw [tcpOutcome_followed fuel visited hfollowed] at h
      split at h
      · cases h
      · obtain ⟨name, hdest⟩ := cached_of_tcpFollowed hfollowed
        exact (ih h).of_included hdest

/-- The answer of `processHTTPProxyTCPProxy` as a step. -/
def ofAnswer : Bool × ProxyState → ProxyStep
  | (true, s) => .ok s
  | (false, s) => .error s

/-- What a TCP proxy part may do to the hosts of the name `host`. -/
inductive TCPFollows (host : String) (dag : DAG) : ProxyStep → Option (Option (List Cluster)) → Prop
  | rejected {s : ProxyState} (same : dag.SameHosts s.state.dag) :
      TCPFollows host dag (.error s) none
  | kept {s : ProxyState} (same : dag.SameHosts s.state.dag) :
      TCPFollows host dag (.ok s) (some none)
  | attached {s : ProxyState} {clusters : List Cluster}
      (same : DAG.SameHosts (dag.putSecureVirtualHost host
        { dag.ensureSecureVirtualHost host with tcpProxy := some clusters }) s.state.dag) :
      TCPFollows host dag (.ok s) (some (some clusters))

theorem TCPFollows.answer {host : String} {result : Bool × ProxyState}
    {outcome : Option (Option (List Cluster))} (h : TCPFollows host dag (ofAnswer result) outcome) :
    result.1 = outcome.isSome := by
  obtain ⟨_ | _, s⟩ := result <;> cases h <;> rfl

variable (lib p source) in
theorem processHTTPProxyTCPProxy_follows (host : String) (fuel : Nat) (visited : List HTTPProxy)
    (s : ProxyState) (httpproxy : HTTPProxy) :
    TCPFollows host s.state.dag
      (ofAnswer (processHTTPProxyTCPProxy lib p source host fuel visited s httpproxy))
      (tcpOutcome lib p source fuel visited httpproxy) := by
  induction fuel generalizing visited s httpproxy with
  | zero => exact .rejected (DAG.SameHosts.refl _)
  | succ fuel ih =>
    cases hfollowed : tcpFollowed source httpproxy with
    | none =>
      obtain ⟨outcome, record, -, hends⟩ := exists_tcpEnds lib p hfollowed
      rw [(hends fuel visited).1, (hends fuel visited).2]
      rcases outcome with - | - | clusters
      · exact .rejected (DAG.SameHosts.refl _)
      · exact .kept (DAG.SameHosts.refl _)
      · exact .attached (DAG.SameHosts.refl _)
    | some dest =>
      obtain ⟨tcpproxy, -, htcp, -⟩ := tcpFollowed_eq_some hfollowed
      rw [processHTTPProxyTCPProxy_followed host fuel visited s htcp hfollowed,
        tcpOutcome_followed fuel visited hfollowed]
      dsimp only
      split
      · exact .rejected (DAG.SameHosts.refl _)
      -- The included proxy writes to the host of the root.
      have hbelow := ih (visited ++ [httpproxy])
        ⟨⟨s.state.dag, s.state.orphaned.filter (· ≠ namespacedNameOf dest.toObjectMeta)⟩,
          (Status.Cache.proxyAccessor dest).conditionFor⟩ dest
      generalize processHTTPProxyTCPProxy lib p source host fuel _ _ dest = below at hbelow ⊢
      generalize tcpOutcome lib p source fuel _ dest = outcome at hbelow ⊢
      obtain ⟨_ | _, s'⟩ := below
      · cases hbelow with
        | rejected same => exact .rejected (same.status _)
      · cases hbelow with
        | kept same => exact .kept (same.status _)
        | attached same => exact .attached (same.status _)

variable (lib p source) in
/-- Where the TCP proxy part of a root leads, as in `tcpOutcome`. -/
def tcpPart (proxy : HTTPProxy) (vhost : VirtualHostSpec) : Option (Option (List Cluster)) :=
  if proxy.tcpProxy.isSome ∧ vhost.tls.isNone then none
  else tcpOutcome lib p source (includeFuel source) [] proxy

theorem tcpOutcome_of_none {httpproxy : HTTPProxy} (h : httpproxy.tcpProxy = none) :
    tcpOutcome lib p source (includeFuel source) [] httpproxy = some none := by
  rw [includeFuel, tcpOutcome, h]

variable (lib p source) in
theorem attachTCPProxy_outcome (proxy : HTTPProxy) (vhost : VirtualHostSpec) (s : ProxyState) :
    TCPFollows vhost.fqdn s.state.dag (attachTCPProxy lib p source proxy vhost s)
      (tcpPart lib p source proxy vhost) := by
  unfold attachTCPProxy tcpPart
  cases htcp : proxy.tcpProxy with
  | none =>
    rw [tcpOutcome_of_none htcp]
    exact .kept (DAG.SameHosts.refl _)
  | some tcpproxy =>
    cases vhost.tls with
    | none => exact .rejected (DAG.SameHosts.refl _)
    | some tls => exact processHTTPProxyTCPProxy_follows lib p source _ _ _ s proxy

/-- The host as far as it was set up, completely or not. -/
def HostStep.final : HostStep → HostState
  | .ok h => h
  | .error h => h

variable (lib ord source proxy) in
/-- The certificate of a proxy that terminates TLS. -/
structure IsCertificateOf (tls : TLS) (sec : Secret) : Prop where
  terminates : tls.passthrough = false
  named : isBlank tls.secretName = false
  found : source.lookupSecret (namespacedNameFrom tls.secretName proxy.ns) (validSecret lib)
    proxy.ns = .ok sec
  permitted : source.delegationPermitted ord (namespacedNameFrom tls.secretName proxy.ns)
    proxy.ns = true

/-- The secure host of a proxy with its certificate and nothing else. -/
def withCertificate (dag : DAG) (fqdn : String) (tls : TLS) (sec : Secret) : SecureVirtualHost :=
  { dag.ensureSecureVirtualHost fqdn with
    secret := some sec
    minTLSVersion := Annotation.minTLSVersion tls.minimumProtocolVersion .v12 }

/-- All that is done to a state is to record errors. -/
inductive RecordsErrors : (ProxyState → ProxyState) → Prop
  | nothing : RecordsErrors fun s => s
  | warned {c : Prop} [Decidable c] {reason message : String} :
      RecordsErrors fun s => if c then s.addError .tlsError reason message else s
  | rejected {f : ProxyState → ProxyState} {reason message : String} (before : RecordsErrors f) :
      RecordsErrors fun s => (f s).addError .tlsError reason message

theorem RecordsErrors.state {f : ProxyState → ProxyState} (h : RecordsErrors f) (s : ProxyState) :
    (f s).state = s.state := by
  induction h with
  | nothing => rfl
  | warned =>
    split <;> rfl
  | rejected _ ih => exact ih

/-- TLS is passed through. -/
def PassesThrough (tls : TLS) : Prop :=
  tls.passthrough = true ∧ isBlank tls.secretName = true ∧ tls.clientValidation = none

variable (lib ord p source) in
/-- The TLS part of a root only records errors, unless the root has a certificate. -/
theorem attachTLS_cases (proxy : HTTPProxy) (vhost : VirtualHostSpec) :
    (∃ f, RecordsErrors f ∧ (vhost.tls = none ∨ ∃ tls, vhost.tls = some tls ∧ PassesThrough tls) ∧
      ∀ s, attachTLS lib ord p source proxy vhost s = .ok (f s)) ∨
    (∃ f tls, RecordsErrors f ∧ vhost.tls = some tls ∧ ¬ PassesThrough tls ∧
      (∀ sec, ¬ IsCertificateOf lib ord source proxy tls sec) ∧
      ∀ s, attachTLS lib ord p source proxy vhost s = .error (f s)) ∨
    ∃ tls sec, vhost.tls = some tls ∧ IsCertificateOf lib ord source proxy tls sec := by
  unfold attachTLS attachSecret
  cases htls : vhost.tls with
  | none => exact .inl ⟨_, .nothing, .inl rfl, fun _ => rfl⟩
  | some tls =>
    by_cases hboth : ¬ isBlank tls.secretName = true ∧ tls.passthrough = true
    · simp only [if_pos hboth]
      refine .inr (.inl ⟨_, tls, .rejected .warned, rfl, fun h => hboth.1 h.2.1, fun sec h => ?_,
        fun _ => rfl⟩)
      simp [h.terminates] at hboth
    simp only [if_neg hboth]
    by_cases hneither : isBlank tls.secretName = true ∧ ¬ tls.passthrough = true
    · simp only [if_pos hneither]
      refine .inr (.inl ⟨_, tls, .rejected .warned, rfl, fun h => hneither.2 h.1, fun sec h => ?_,
        fun _ => rfl⟩)
      simp [h.named] at hneither
    simp only [if_neg hneither]
    by_cases hclients : tls.passthrough = true ∧ tls.clientValidation.isSome = true
    · simp only [if_pos hclients]
      refine .inr (.inl ⟨_, tls, .rejected .warned, rfl, fun h => ?_, fun sec h => ?_,
        fun _ => rfl⟩)
      · simp [h.2.2] at hclients
      · simp [h.terminates] at hclients
    simp only [if_neg hclients]
    by_cases hpass : tls.passthrough = true
    · simp only [if_pos hpass]
      exact .inl ⟨_, .warned, .inr ⟨tls, rfl, hpass, by simpa [hpass] using hboth,
        by simpa [hpass] using hclients⟩, fun _ => rfl⟩
    simp only [if_neg hpass]
    have hterminates : ¬ PassesThrough tls := fun h => hpass h.1
    cases hsec : source.lookupSecret (namespacedNameFrom tls.secretName proxy.ns) (validSecret lib)
        proxy.ns with
    | error err =>
      refine .inr (.inl ⟨_, tls, .rejected .warned, rfl, hterminates, fun sec h => ?_,
        fun _ => rfl⟩)
      simp [h.found] at hsec
    | ok sec =>
      by_cases hpermitted : source.delegationPermitted ord
          (namespacedNameFrom tls.secretName proxy.ns) proxy.ns = true
      · exact .inr (.inr ⟨tls, sec, rfl, by simpa using hpass, by simpa [hpass] using hneither,
          hsec, hpermitted⟩)
      · simp only [if_neg hpermitted]
        exact .inr (.inl ⟨_, tls, .rejected .warned, rfl, hterminates,
          fun sec h => hpermitted h.permitted, fun _ => rfl⟩)

variable (lib ord p) in
/-- A root whose certificate is accepted writes its secure host as far as it was
set up. -/
theorem attachTLS_of_certificate {sec : Secret} (htls : vhost.tls = some tls)
    (hcert : IsCertificateOf lib ord source proxy tls sec) (s : ProxyState) :
    attachTLS lib ord p source proxy vhost s =
      match setUpSecureHost lib ord p source s.state.dag proxy vhost tls
        { svhost := withCertificate s.state.dag vhost.fqdn tls sec, validCond := s.validCond } with
      | .ok h => .ok (s.putHost vhost.fqdn h)
      | .error h => .error (s.putHost vhost.fqdn h) := by
  have hsecret : attachTLS lib ord p source proxy vhost s =
      attachSecret lib ord p source proxy vhost tls s := by
    simp [attachTLS, htls, hcert.terminates, hcert.named]
  rw [hsecret, attachSecret, hcert.found]
  dsimp only
  rw [if_pos hcert.permitted]
  rfl

variable (lib ord p) in
theorem attachTLS_final {sec : Secret} (htls : vhost.tls = some tls)
    (hcert : IsCertificateOf lib ord source proxy tls sec) (s : ProxyState) :
    (attachTLS lib ord p source proxy vhost s).final.state.dag =
      s.state.dag.putSecureVirtualHost vhost.fqdn
        (setUpSecureHost lib ord p source s.state.dag proxy vhost tls
          { svhost := withCertificate s.state.dag vhost.fqdn tls sec,
            validCond := s.validCond }).final.svhost := by
  rw [attachTLS_of_certificate lib ord p htls hcert]
  cases setUpSecureHost lib ord p source s.state.dag proxy vhost tls
    { svhost := withCertificate s.state.dag vhost.fqdn tls sec, validCond := s.validCond } <;> rfl

/-! ## Routes -/

/-- The plaintext host of an fqdn with the routes of a root. -/
def plainHost (dag : DAG) (fqdn : String) (cp : Option CORSPolicy) (rlp : Option RateLimitPolicy)
    (routes : List Route) : VirtualHost :=
  addRoutes { dag.ensureVirtualHost fqdn with corsPolicy := cp, rateLimitPolicy := rlp } routes

/-- The secure host of an fqdn with the routes of a root. -/
def securedHost (dag : DAG) (fqdn : String) (cp : Option CORSPolicy)
    (rlp : Option RateLimitPolicy) (routes : List Route) : SecureVirtualHost :=
  addSecureRoutes
    { dag.ensureSecureVirtualHost fqdn with corsPolicy := cp, rateLimitPolicy := rlp } routes

theorem addSecureRoutes_eq (svh : SecureVirtualHost) (routes : List Route) :
    addSecureRoutes svh routes = { svh with toVirtualHost := addRoutes svh.toVirtualHost routes } :=
  SecureVirtualHost.foldl_addRoute svh routes

variable (lib ord p source proxy vhost) in
def rootRoutes (s : ProxyState) : List Route :=
  (computeRoutes lib ord p source { proxy, virtualHost := vhost } vhost.tls.isSome
    (includeFuel source) [] s.state s.validCond { proxy, chain := [] }).routes

variable (lib ord proxy vhost) in
/-- How the last part of a root ends. -/
inductive RoutesOutcome (dag : DAG) (routes : List Route) : ProxyStep → Prop
  | noCORS {s' : ProxyState} {err : String} (cors : toCORSPolicy lib vhost.corsPolicy = .error err)
      (same : DAG.SameHosts (dag.putVirtualHost vhost.fqdn (dag.ensureVirtualHost vhost.fqdn))
        s'.state.dag) : RoutesOutcome dag routes (.error s')
  | noLimits {s' : ProxyState} {cp : Option CORSPolicy} {err : String}
      (cors : toCORSPolicy lib vhost.corsPolicy = .ok cp)
      (limits : rateLimitPolicy lib ord vhost.rateLimitPolicy = .error err)
      (same : DAG.SameHosts (dag.putVirtualHost vhost.fqdn
        { dag.ensureVirtualHost vhost.fqdn with corsPolicy := cp }) s'.state.dag) :
      RoutesOutcome dag routes (.error s')
  | plaintext {s' : ProxyState} {cp : Option CORSPolicy} {rlp : Option RateLimitPolicy}
      (cors : toCORSPolicy lib vhost.corsPolicy = .ok cp)
      (limits : rateLimitPolicy lib ord vhost.rateLimitPolicy = .ok rlp)
      (only : ¬ (vhost.tls.isSome = true ∧ proxy.tcpProxy.isNone = true))
      (same : DAG.SameHosts
        (dag.putVirtualHost vhost.fqdn (plainHost dag vhost.fqdn cp rlp routes)) s'.state.dag) :
      RoutesOutcome dag routes (.ok s')
  | both {s' : ProxyState} {cp : Option CORSPolicy} {rlp : Option RateLimitPolicy}
      (cors : toCORSPolicy lib vhost.corsPolicy = .ok cp)
      (limits : rateLimitPolicy lib ord vhost.rateLimitPolicy = .ok rlp)
      (secure : vhost.tls.isSome = true ∧ proxy.tcpProxy.isNone = true)
      (same : DAG.SameHosts
        ((dag.putVirtualHost vhost.fqdn
          (plainHost dag vhost.fqdn cp rlp routes)).putSecureVirtualHost
          vhost.fqdn (securedHost dag vhost.fqdn cp rlp routes)) s'.state.dag) :
      RoutesOutcome dag routes (.ok s')

theorem attachRoutes_outcome (proxy : HTTPProxy) (vhost : VirtualHostSpec) (s : ProxyState) :
    RoutesOutcome lib ord proxy vhost s.state.dag (rootRoutes lib ord p source proxy vhost s)
      (attachRoutes lib ord p source proxy vhost s) := by
  have hsame : s.state.dag.SameHosts (computeRoutes lib ord p source
      { proxy, virtualHost := vhost } vhost.tls.isSome (includeFuel source) [] s.state s.validCond
      { proxy, chain := [] }).state.dag :=
    computeRoutes_sameHosts _ _ _ _ _
  unfold attachRoutes rootRoutes
  dsimp only
  generalize computeRoutes lib ord p source { proxy, virtualHost := vhost } vhost.tls.isSome
    (includeFuel source) [] s.state s.validCond { proxy, chain := [] } = v at hsame ⊢
  obtain ⟨⟨dag, orphaned⟩, validCond, routes⟩ := v
  obtain ⟨c, rfl⟩ := hsame
  split
  · next hcors => exact .noCORS hcors ⟨c, rfl⟩
  rename_i cp hcors
  split
  · next hlimits => exact .noLimits hcors hlimits ⟨c, DAG.putVirtualHost_putVirtualHost _ _ _ _⟩
  rename_i rlp hlimits
  split
  · next hsecure =>
    refine .both hcors hlimits hsecure ⟨c, ?_⟩
    simp only [ProxyState.putHost, DAG.putVirtualHost_putVirtualHost]
    rfl
  · next hplain =>
    refine .plaintext hcors hlimits hplain ⟨c, ?_⟩
    simp only [DAG.putVirtualHost_putVirtualHost]
    rfl

/-! ## One root -/

variable (lib ord p source proxy vhost) in
/-- What `I` must be closed under to survive the writes of a root before its routes. -/
structure ClosedUnderSetUp (I : DAG → Prop) : Prop where
  same : ∀ d d', DAG.SameHosts d d' → I d → I d'
  tls : ∀ d tls sec vc, vhost.tls = some tls → IsCertificateOf lib ord source proxy tls sec →
    I d → I (d.putSecureVirtualHost vhost.fqdn
      (setUpSecureHost lib ord p source d proxy vhost tls
        { svhost := withCertificate d vhost.fqdn tls sec, validCond := vc }).final.svhost)
  tcp : ∀ d clusters, IsTCPProxyOf lib p source proxy clusters → I d →
    I (d.putSecureVirtualHost vhost.fqdn
      { d.ensureSecureVirtualHost vhost.fqdn with tcpProxy := some clusters })

variable (lib ord p source proxy vhost) in
/-- What `I` must be closed under to survive the writes of a root. -/
structure ClosedUnderRoot (I : DAG → Prop) :
    Prop extends ClosedUnderSetUp lib ord p source proxy vhost I where
  plain : ∀ d cp rlp s rs, rs ⊆ rootRoutes lib ord p source proxy vhost s → I d →
    I (d.putVirtualHost vhost.fqdn (plainHost d vhost.fqdn cp rlp rs))
  secured : ∀ d cp rlp s, vhost.tls.isSome = true → proxy.tcpProxy = none → I d →
    I (d.putSecureVirtualHost vhost.fqdn
      (securedHost d vhost.fqdn cp rlp (rootRoutes lib ord p source proxy vhost s)))

namespace ClosedUnderSetUp

variable {proxy : HTTPProxy} {vhost : VirtualHostSpec} {I : DAG → Prop}
  (h : ClosedUnderSetUp lib ord p source proxy vhost I)

include h

theorem after_tls (s : ProxyState) (hdag : I s.state.dag) :
    I (attachTLS lib ord p source proxy vhost s).final.state.dag := by
  have hkept : ∀ {f}, RecordsErrors f → I (f s).state.dag := fun hf => by rwa [hf.state]
  rcases attachTLS_cases lib ord p source proxy vhost with
    ⟨f, hf, -, heq⟩ | ⟨f, tls, hf, -, -, -, heq⟩ | ⟨tls, sec, htls, hcert⟩
  · rw [heq]
    exact hkept hf
  · rw [heq]
    exact hkept hf
  · rw [attachTLS_final lib ord p htls hcert]
    exact h.tls _ tls sec _ htls hcert hdag

theorem after_tcpProxy (s : ProxyState) (hdag : I s.state.dag) :
    I (attachTCPProxy lib p source proxy vhost s).final.state.dag := by
  have hfollows := attachTCPProxy_outcome lib p source proxy vhost s
  generalize attachTCPProxy lib p source proxy vhost s = r at hfollows ⊢
  generalize hpart : tcpPart lib p source proxy vhost = outcome at hfollows
  cases hfollows with
  | rejected same => exact h.same _ _ same hdag
  | kept same => exact h.same _ _ same hdag
  | attached same =>
    rw [tcpPart] at hpart
    split at hpart
    · cases hpart
    · exact h.same _ _ same (h.tcp _ _ (isTCPProxyOf_of_tcpOutcome hpart) hdag)

end ClosedUnderSetUp

namespace ClosedUnderRoot

variable {proxy : HTTPProxy} {vhost : VirtualHostSpec} {I : DAG → Prop}
  (h : ClosedUnderRoot lib ord p source proxy vhost I)

include h

theorem after_routes {s : ProxyState} {r : ProxyStep} (hdag : I s.state.dag)
    (hr : RoutesOutcome lib ord proxy vhost s.state.dag
      (rootRoutes lib ord p source proxy vhost s) r) : I r.final.state.dag := by
  cases hr with
  -- A root that is rejected here writes the plaintext host without routes.
  | noCORS _ same => exact h.same _ _ same (h.plain _ _ _ s [] (nil_subset _) hdag)
  | noLimits _ _ same => exact h.same _ _ same (h.plain _ _ _ s [] (nil_subset _) hdag)
  | plaintext _ _ _ same =>
    exact h.same _ _ same (h.plain _ _ _ s _ (Subset.refl _) hdag)
  | both _ _ secure same =>
    exact h.same _ _ same (h.secured _ _ _ s secure.1 (Option.isNone_iff_eq_none.mp secure.2)
      (h.plain _ _ _ s _ (Subset.refl _) hdag))

/-- What holds after the TLS part of a root holds at its end. -/
theorem after_rest {s : ProxyState}
    (hs : I (attachTLS lib ord p source proxy vhost s).final.state.dag) :
    I (ProxyStep.final do
      let s ← attachTLS lib ord p source proxy vhost s
      let s ← attachTCPProxy lib p source proxy vhost s
      attachRoutes lib ord p source proxy vhost s).state.dag := by
  cases ht : attachTLS lib ord p source proxy vhost s with
  | error s₂ => rwa [ht] at hs
  | ok s₂ =>
    rw [ht] at hs
    have htcp := h.after_tcpProxy s₂ hs
    rw [ok_bind]
    cases hp : attachTCPProxy lib p source proxy vhost s₂ with
    | error s₃ => rwa [hp] at htcp
    | ok s₃ =>
      rw [hp] at htcp
      exact h.after_routes htcp (attachRoutes_outcome proxy vhost s₃)

/-- A root keeps what each of its writes keeps. -/
theorem computeRoot (s : ProxyState) (hdag : I s.state.dag) :
    I (computeRoot lib ord p source proxy vhost s).final.state.dag := by
  have hcheck : I (checkRoot source proxy s).final.state.dag := by
    unfold checkRoot
    split
    · exact hdag
    · split <;> exact hdag
  unfold HTTPProxyProcessor.computeRoot
  cases hc : checkRoot source proxy s with
  | error s₁ => rwa [hc] at hcheck
  | ok s₁ =>
    rw [hc] at hcheck
    exact h.after_rest (h.after_tls s₁ hcheck)

end ClosedUnderRoot

/-! ## All roots -/

/-- The proxy is a root for an fqdn, compared without case. -/
def IsRootFor (fqdn : String) (proxy : HTTPProxy) : Prop :=
  ∃ vhost, proxy.virtualHost = some vhost ∧ lowerName vhost.fqdn = fqdn

instance (fqdn : String) (proxy : HTTPProxy) : Decidable (IsRootFor fqdn proxy) :=
  decidable_of_iff (proxy.virtualHost.any fun vhost => lowerName vhost.fqdn = fqdn)
    (by simp [IsRootFor, Option.any_eq_true])

theorem proxiesByFqdn_concat (proxies : List HTTPProxy) (proxy : HTTPProxy) :
    proxiesByFqdn (proxies ++ [proxy]) =
      match proxy.virtualHost with
      | none => proxiesByFqdn proxies
      | some vhost =>
        (proxiesByFqdn proxies).insert (lowerName vhost.fqdn)
          (((proxiesByFqdn proxies).lookup (lowerName vhost.fqdn)).getD [] ++ [proxy]) := by
  unfold proxiesByFqdn
  rw [foldl_append]
  rfl

/-- The roots of an fqdn, in the order in which they were met. -/
theorem lookup_proxiesByFqdn (proxies : List HTTPProxy) (fqdn : String) :
    ((proxiesByFqdn proxies).lookup fqdn).getD [] = proxies.filter (IsRootFor fqdn) ∧
      ∀ group, (proxiesByFqdn proxies).lookup fqdn = some group → group ≠ [] := by
  induction proxies using reverseRecOn with
  | nil => exact ⟨rfl, by simp [proxiesByFqdn]⟩
  | append_singleton proxies proxy ih =>
    obtain ⟨hgroup, hnonempty⟩ := ih
    rw [proxiesByFqdn_concat, filter_append, ← hgroup]
    split
    · next hnone =>
      have hnot : ¬ IsRootFor fqdn proxy := by
        rintro ⟨vhost, hvhost, -⟩
        rw [hnone] at hvhost
        cases hvhost
      exact ⟨by simp [hnot], hnonempty⟩
    · next vhost hvhost =>
      by_cases hfqdn : fqdn = lowerName vhost.fqdn
      · have hroot : IsRootFor fqdn proxy := ⟨vhost, hvhost, hfqdn.symm⟩
        subst hfqdn
        simp [hroot]
      have hnot : ¬ IsRootFor fqdn proxy := by
        rintro ⟨vhost', hvhost', hfqdn'⟩
        rw [hvhost] at hvhost'
        cases hvhost'
        exact hfqdn hfqdn'.symm
      rw [Map.lookup_insert_eq, if_neg hfqdn]
      exact ⟨by simp [hnot], hnonempty⟩

/-- The proxies of a group that are computed. -/
def computedOf (group : String × List HTTPProxy) : List HTTPProxy :=
  match group.2 with
  | [proxy] => [proxy]
  | _ => []

section

variable (ord source)

/-- The roots by fqdn, in the order in which a run takes them. -/
def rootGroups : List (String × List HTTPProxy) :=
  ord.range "validHTTPProxies fqdns"
    (proxiesByFqdn (ord.values "validHTTPProxies" source.httpproxies))

/-- The proxies that a run computes: the included ones, and the roots that do not
share their fqdn. -/
def computedProxies : List HTTPProxy :=
  (ord.values "validHTTPProxies" source.httpproxies).filter
      (fun proxy => proxy.virtualHost.isNone) ++
    (rootGroups ord source).flatMap computedOf

end

theorem rejectDuplicates_sameHosts {st : State} (h : dag.SameHosts st.dag) (fqdn : String)
    (proxies : List HTTPProxy) : dag.SameHosts (rejectDuplicates lib fqdn proxies st).dag := by
  exact foldlRecOn _ _ (motive := fun st : State => dag.SameHosts st.dag) h
    fun st hst proxy _ => hst.status _

variable (lib ord source) in
theorem validHTTPProxies_eq (st : State) :
    (validHTTPProxies lib ord source st).1 = computedProxies ord source ∧
      st.dag.SameHosts (validHTTPProxies lib ord source st).2.dag := by
  unfold validHTTPProxies computedProxies rootGroups
  dsimp only
  generalize ord.range "validHTTPProxies fqdns"
    (proxiesByFqdn (ord.values "validHTTPProxies" source.httpproxies)) = groups
  generalize (ord.values "validHTTPProxies" source.httpproxies).filter
    (fun proxy => proxy.virtualHost.isNone) = included
  induction groups using reverseRecOn with
  | nil => exact ⟨by simp, DAG.SameHosts.refl _⟩
  | append_singleton groups group ih =>
    obtain ⟨hlist, hsame⟩ := ih
    rw [foldl_append, flatMap_append, ← append_assoc, ← hlist]
    simp only [foldl_cons, foldl_nil, flatMap_cons, flatMap_nil, append_nil]
    rcases group with ⟨key, _ | ⟨proxy, _ | ⟨other, more⟩⟩⟩
    · exact ⟨(append_nil _).symm, rejectDuplicates_sameHosts hsame _ _⟩
    · exact ⟨rfl, hsame⟩
    · exact ⟨(append_nil _).symm, rejectDuplicates_sameHosts hsame _ _⟩

theorem mem_computedOf {group : String × List HTTPProxy} :
    proxy ∈ computedOf group ↔ group.2 = [proxy] := by
  unfold computedOf
  split
  · next q hq => simp [hq, eq_comm]
  · next hnot => simpa using hnot proxy

theorem IsRootFor.unique {fqdn' : String} (h : IsRootFor fqdn proxy) (h' : IsRootFor fqdn' proxy) :
    fqdn = fqdn' := by
  obtain ⟨vhost, hvhost, rfl⟩ := h
  obtain ⟨vhost', hvhost', rfl⟩ := h'
  rw [hvhost] at hvhost'
  cases hvhost'
  rfl

/-- A group with one member has a root for its fqdn. -/
theorem isRootFor_of_singleton {proxies : List HTTPProxy}
    (h : (proxiesByFqdn proxies).lookup fqdn = some [proxy]) :
    proxy ∈ proxies ∧ IsRootFor fqdn proxy := by
  have hfilter := (lookup_proxiesByFqdn proxies fqdn).1
  rw [h, Option.getD_some] at hfilter
  have hmem : proxy ∈ proxies.filter (IsRootFor fqdn) := hfilter ▸ mem_singleton_self proxy
  rw [mem_filter] at hmem
  exact ⟨hmem.1, of_decide_eq_true hmem.2⟩

/-- Every proxy that is computed is in the cache. -/
theorem cached_of_mem_computedProxies (h : proxy ∈ computedProxies ord source) :
    ∃ name, source.httpproxies.lookup name = some proxy := by
  rcases mem_append.mp h with hincluded | hroot
  · exact ord.mem_values.mp (mem_of_mem_filter hincluded)
  · obtain ⟨group, hgroup, hproxy⟩ := mem_flatMap.mp hroot
    rw [mem_computedOf] at hproxy
    have hlookup := ord.mem_range.mp hgroup
    rw [hproxy] at hlookup
    exact ord.mem_values.mp (isRootFor_of_singleton hlookup).1

/-- No other proxy in the cache is a root for the fqdn. -/
def SoleRoot (source : KubernetesCache) (fqdn : String) : Prop :=
  ∀ name name' q q', source.httpproxies.lookup name = some q →
    source.httpproxies.lookup name' = some q' → IsRootFor fqdn q → IsRootFor fqdn q' → name = name'

instance (fqdn : String) : Decidable (SoleRoot source fqdn) :=
  decidable_of_iff
    (∀ e ∈ source.httpproxies.toList, ∀ e' ∈ source.httpproxies.toList,
      IsRootFor fqdn e.2 → IsRootFor fqdn e'.2 → e.1 = e'.1) (by
    simp only [Map.mem_toList, Prod.forall]
    grind [SoleRoot])

/-- The roots among the cached proxies are one proxy iff it is the sole root. -/
theorem filter_isRootFor_eq (hcached : source.httpproxies.lookup name = some proxy)
    (hroot : IsRootFor fqdn proxy) (site : String) :
    (ord.values site source.httpproxies).filter (IsRootFor fqdn) = [proxy] ↔
      SoleRoot source fqdn := by
  let roots := (ord.range site source.httpproxies).filter fun e => IsRootFor fqdn e.2
  have hvalues : (ord.values site source.httpproxies).filter (IsRootFor fqdn) =
      roots.map Prod.snd := by
    rw [MapOrder.values, filter_map]
    rfl
  have hmem : ∀ e, e ∈ roots ↔ source.httpproxies.lookup e.1 = some e.2 ∧ IsRootFor fqdn e.2 := by
    intro e
    rw [mem_filter, ord.mem_range, decide_eq_true_iff]
  have hnodup : (roots.map Prod.fst).Nodup :=
    (ord.nodup_range_keys site source.httpproxies).sublist (filter_sublist.map _)
  rw [hvalues]
  constructor
  · intro hsingle n n' q q' hn hn' hq hq'
    obtain ⟨e, he, -⟩ := map_eq_singleton_iff.mp hsingle
    have h := (hmem (n, q)).mpr ⟨hn, hq⟩
    have h' := (hmem (n', q')).mpr ⟨hn', hq'⟩
    rw [he, mem_singleton] at h h'
    exact congrArg Prod.fst (h.trans h'.symm)
  · intro hsole
    have hperm : roots.Perm [(name, proxy)] := by
      refine (perm_ext_iff_of_nodup hnodup.of_map (nodup_singleton _)).mpr fun e => ?_
      rw [hmem, mem_singleton]
      constructor
      · rintro ⟨hcached', hroot'⟩
        have hname := hsole e.1 name e.2 proxy hcached' hcached hroot' hroot
        rw [hname, hcached] at hcached'
        exact Prod.ext hname (Option.some.inj hcached').symm
      · rintro rfl
        exact ⟨hcached, hroot⟩
    rw [perm_singleton.mp hperm]
    rfl

variable (ord) in
/-- Of the proxies that are computed at most one is a root for an fqdn, and a root
is computed iff it does not share its fqdn. -/
theorem computedProxies_split (hcached : source.httpproxies.lookup name = some proxy)
    (hroot : IsRootFor fqdn proxy) :
    ∃ before after, (∀ q ∈ before ++ after, ¬ IsRootFor fqdn q) ∧
      ((¬ SoleRoot source fqdn ∧ computedProxies ord source = before ++ after) ∨
        (SoleRoot source fqdn ∧ computedProxies ord source = before ++ proxy :: after)) := by
  rw [computedProxies, rootGroups, ← filter_isRootFor_eq hcached hroot "validHTTPProxies"]
  obtain ⟨hfilter, -⟩ :=
    lookup_proxiesByFqdn (ord.values "validHTTPProxies" source.httpproxies) fqdn
  have hmem : proxy ∈ (ord.values "validHTTPProxies" source.httpproxies).filter
      (IsRootFor fqdn) := by
    rw [mem_filter]
    exact ⟨ord.mem_values.mpr ⟨name, hcached⟩, decide_eq_true hroot⟩
  generalize ord.values "validHTTPProxies" source.httpproxies = proxies at hfilter hmem ⊢
  rw [← hfilter] at hmem ⊢
  cases hlookup : (proxiesByFqdn proxies).lookup fqdn with
  | none => simp [hlookup] at hmem
  | some group =>
    rw [hlookup, Option.getD_some] at hmem
    have hnodup := ord.nodup_range_keys "validHTTPProxies fqdns" (proxiesByFqdn proxies)
    have hothers : ∀ other ∈ ord.range "validHTTPProxies fqdns" (proxiesByFqdn proxies),
        other.1 ≠ fqdn → ∀ q ∈ computedOf other, ¬ IsRootFor fqdn q := by
      intro other hother hne q hq hqroot
      rw [mem_computedOf] at hq
      have hlookup' := ord.mem_range.mp hother
      rw [hq] at hlookup'
      exact hne ((isRootFor_of_singleton hlookup').2.unique hqroot)
    have hentry : (fqdn, group) ∈ ord.range "validHTTPProxies fqdns" (proxiesByFqdn proxies) :=
      ord.mem_range.mpr hlookup
    obtain ⟨before, after, hgroups⟩ := append_of_mem hentry
    rw [hgroups] at hnodup hothers ⊢
    simp only [map_append, map_cons, nodup_append, nodup_cons, mem_cons, mem_map] at hnodup
    refine ⟨proxies.filter (fun proxy => proxy.virtualHost.isNone) ++ before.flatMap computedOf,
      after.flatMap computedOf, ?_, ?_⟩
    · intro q hq
      rw [append_assoc, mem_append, mem_append] at hq
      rcases hq with hq | hq | hq
      · rintro ⟨vhost, hvhost, -⟩
        simp [hvhost] at hq
      · obtain ⟨other, hother, hq⟩ := mem_flatMap.mp hq
        refine hothers other (mem_append_left _ hother) ?_ q hq
        exact hnodup.2.2 other.1 ⟨other, hother, rfl⟩ fqdn (.inl rfl)
      · obtain ⟨other, hother, hq⟩ := mem_flatMap.mp hq
        refine hothers other (mem_append_right _ (mem_cons_of_mem _ hother)) ?_ q hq
        rintro hfqdn
        exact hnodup.2.1.1 ⟨other, hother, hfqdn⟩
    · rw [Option.getD_some, flatMap_append, flatMap_cons]
      by_cases hsingle : group = [proxy]
      · right
        subst hsingle
        simp [computedOf, append_assoc]
      left
      have hnone : computedOf (fqdn, group) = [] := by
        refine eq_nil_iff_forall_not_mem.mpr fun q hq => hsingle ?_
        have hgroup : group = [q] := mem_computedOf.mp hq
        rw [hgroup, mem_singleton] at hmem
        rw [hgroup, hmem]
      simp [hsingle, hnone, append_assoc]

/-! ## Runs -/

theorem rejectOrphaned_sameHosts (st : State) :
    st.dag.SameHosts (rejectOrphaned ord source st).dag := by
  refine foldlRecOn _ _ (motive := fun st' : State => st.dag.SameHosts st'.dag)
    (DAG.SameHosts.refl _) fun st' hst' name _ => ?_
  split
  · exact hst'
  · exact hst'.status _

def startOf (st : State) (proxy : HTTPProxy) : ProxyState :=
  { state := st, validCond := (Status.Cache.proxyAccessor proxy).conditionFor }

/-- A proxy that is not a root changes no host, and a root changes what
`computeRoot` changes. -/
theorem computeHTTPProxy_hosts (st : State) (proxy : HTTPProxy) :
    (st.dag.SameHosts (computeHTTPProxy lib ord p source st proxy).dag ∧
        ∀ vhost, proxy.virtualHost = some vhost → isBlank vhost.fqdn = true) ∨
      ∃ vhost, proxy.virtualHost = some vhost ∧ isBlank vhost.fqdn = false ∧
        DAG.SameHosts (computeRoot lib ord p source proxy vhost (startOf st proxy)).final.state.dag
          (computeHTTPProxy lib ord p source st proxy).dag := by
  unfold computeHTTPProxy
  dsimp only
  split
  · next hnone => exact .inl ⟨(DAG.SameHosts.refl _).status _, by simp [hnone]⟩
  rename_i vhost hvhost
  split
  · next hblank =>
    refine .inl ⟨(DAG.SameHosts.refl _).status _, fun vhost' hvhost' => ?_⟩
    rw [hvhost] at hvhost'
    cases hvhost'
    exact hblank
  · next hblank =>
    exact .inr ⟨vhost, hvhost, Bool.eq_false_iff.mpr hblank, (DAG.SameHosts.refl _).status _⟩

/-- The checks of a root before its TLS part. -/
@[mk_iff]
structure Accepted (source : KubernetesCache) (proxy : HTTPProxy) : Prop where
  allowed : rootAllowed source proxy.ns = true
  defined : ¬ (proxy.routes = [] ∧ proxy.includes = [] ∧ proxy.tcpProxy.isNone = true)

instance (proxy : HTTPProxy) : Decidable (Accepted source proxy) :=
  decidable_of_iff' _ (accepted_iff source proxy)

theorem checkRoot_of_accepted (h : Accepted source proxy) (s : ProxyState) :
    checkRoot source proxy s = .ok s := by
  rw [checkRoot, if_neg (not_not.mpr h.allowed), if_neg h.defined]

theorem computeRoot_of_not_accepted (h : ¬ Accepted source proxy) (vhost : VirtualHostSpec)
    (s : ProxyState) : (computeRoot lib ord p source proxy vhost s).final.state = s.state := by
  have hcheck : ∃ s', checkRoot source proxy s = .error s' ∧ s'.state = s.state := by
    rw [checkRoot]
    split
    · exact ⟨_, rfl, rfl⟩
    · next hallowed =>
      split
      · exact ⟨_, rfl, rfl⟩
      · next hdefined => exact absurd ⟨not_not.mp hallowed, hdefined⟩ h
  obtain ⟨s', hs', hstate⟩ := hcheck
  rw [computeRoot, hs']
  exact hstate

variable (source proxy vhost) in
/-- The roots whose hosts a run sets up: they have an fqdn to themselves, are in
an allowed namespace and define something. -/
@[mk_iff]
structure IsComputedRoot : Prop where
  cached : ∃ name, source.httpproxies.lookup name = some proxy
  root : proxy.virtualHost = some vhost
  named : isBlank vhost.fqdn = false
  sole : SoleRoot source (lowerName vhost.fqdn)
  accepted : Accepted source proxy

instance (proxy : HTTPProxy) (vhost : VirtualHostSpec) :
    Decidable (IsComputedRoot source proxy vhost) :=
  decidable_of_iff ((∃ e ∈ source.httpproxies.toList, e.2 = proxy) ∧
      proxy.virtualHost = some vhost ∧ isBlank vhost.fqdn = false ∧
      SoleRoot source (lowerName vhost.fqdn) ∧ Accepted source proxy)
    (by simp [isComputedRoot_iff, Map.mem_toList])

variable (lib source proxy) in
/-- A proxy that the includes of such a root lead to. -/
def Reached : Prop :=
  ∃ root vhost, IsComputedRoot source root vhost ∧
    Relation.ReflTransGen (IncludeLink lib source) root proxy

theorem Reached.follow {lib : Stdlib} {a b : HTTPProxy} (h : Reached lib source a)
    (hlink : IncludeLink lib source a b) : Reached lib source b := by
  obtain ⟨root, vhost, hroot, hlinks⟩ := h
  exact ⟨root, vhost, hroot, hlinks.tail hlink⟩

variable (ord) in
theorem IsComputedRoot.mem_computedProxies (h : IsComputedRoot source proxy vhost) :
    proxy ∈ computedProxies ord source := by
  obtain ⟨name, hname⟩ := h.cached
  obtain ⟨before, after, -, ⟨hshared, -⟩ | ⟨-, hlist⟩⟩ :=
    computedProxies_split ord hname ⟨vhost, h.root, rfl⟩
  · exact absurd h.sole hshared
  · rw [hlist]
    exact mem_append_right _ mem_cons_self

/-- Every proxy that a run computes and that is a root has its fqdn to itself. -/
theorem sole_of_mem_computedProxies (h : proxy ∈ computedProxies ord source)
    (hvhost : proxy.virtualHost = some vhost) : SoleRoot source (lowerName vhost.fqdn) := by
  obtain ⟨name, hname⟩ := cached_of_mem_computedProxies h
  have hroot : IsRootFor (lowerName vhost.fqdn) proxy := ⟨vhost, hvhost, rfl⟩
  obtain ⟨before, after, hothers, hlist⟩ := computedProxies_split ord hname hroot
  rcases hlist with ⟨-, hlist⟩ | ⟨hsole, -⟩
  · rw [hlist] at h
    exact absurd hroot (hothers proxy h)
  · exact hsole

variable (lib ord p) in
/-- A proxy changes hosts only if it is a root with an fqdn that is accepted, and
then it changes what `computeRoot` changes. -/
theorem computeHTTPProxy_cases (st : State) (proxy : HTTPProxy) :
    ((∀ vhost, proxy.virtualHost = some vhost → isBlank vhost.fqdn = false →
          ¬ Accepted source proxy) ∧
        st.dag.SameHosts (computeHTTPProxy lib ord p source st proxy).dag) ∨
      ∃ vhost, proxy.virtualHost = some vhost ∧ isBlank vhost.fqdn = false ∧
        Accepted source proxy ∧
        DAG.SameHosts (computeRoot lib ord p source proxy vhost (startOf st proxy)).final.state.dag
          (computeHTTPProxy lib ord p source st proxy).dag := by
  rcases computeHTTPProxy_hosts st proxy with
    ⟨same, hblank⟩ | ⟨vhost, hvhost, hnamed, same⟩
  · left
    refine ⟨fun vhost hvhost hnamed => ?_, same⟩
    rw [hblank vhost hvhost] at hnamed
    cases hnamed
  · by_cases haccepted : Accepted source proxy
    · exact .inr ⟨vhost, hvhost, hnamed, haccepted, same⟩
    · left
      refine ⟨fun _ _ _ => haccepted, ?_⟩
      rw [computeRoot_of_not_accepted haccepted] at same
      exact same

/-- A run keeps what every root that is computed keeps. -/
theorem run_inv_of_roots {I : DAG → Prop} (hsame : ∀ d d', DAG.SameHosts d d' → I d → I d')
    (hroots : ∀ proxy vhost, IsComputedRoot source proxy vhost → ∀ st : State, I st.dag →
      I (computeRoot lib ord p source proxy vhost (startOf st proxy)).final.state.dag)
    (hdag : I dag) : I (run lib ord p source dag) := by
  refine hsame _ _ (rejectOrphaned_sameHosts _) ?_
  refine foldlRecOn _ _ (motive := fun st : State => I st.dag)
    (hsame _ _ (validHTTPProxies_eq lib ord source { dag }).2 hdag) fun st hst proxy hproxy => ?_
  rcases computeHTTPProxy_cases lib ord p st proxy with
    ⟨-, same⟩ | ⟨vhost, hvhost, hnamed, haccepted, same⟩
  · exact hsame _ _ same hst
  · refine hsame _ _ same (hroots proxy vhost ?_ st hst)
    have hcomputed : proxy ∈ computedProxies ord source :=
      (validHTTPProxies_eq lib ord source { dag }).1 ▸ hproxy
    exact ⟨cached_of_mem_computedProxies hcomputed, hvhost, hnamed,
      sole_of_mem_computedProxies hcomputed hvhost, haccepted⟩

/-- A run keeps what the writes of every root that is computed keep. -/
theorem run_inv {I : DAG → Prop} (hsame : ∀ d d', DAG.SameHosts d d' → I d → I d')
    (hroots : ∀ proxy vhost, IsComputedRoot source proxy vhost →
      ClosedUnderRoot lib ord p source proxy vhost I) (hdag : I dag) :
    I (run lib ord p source dag) :=
  run_inv_of_roots hsame
    (fun proxy vhost hroot _ hst => (hroots proxy vhost hroot).computeRoot _ hst) hdag

/-- A root writes the hosts of its fqdn only. -/
theorem closedUnderRoot_frame (proxy : HTTPProxy) (vhost : VirtualHostSpec) (dag : DAG)
    {H : String → Prop} (hfqdn : H vhost.fqdn) :
    ClosedUnderRoot lib ord p source proxy vhost (dag.Frame H) where
  same _ _ same h := h.trans (same.frame H)
  tls _ _ _ _ _ _ h := h.putSecureVirtualHost hfqdn _
  tcp _ _ _ h := h.putSecureVirtualHost hfqdn _
  plain _ _ _ _ _ _ h := h.putVirtualHost hfqdn _
  secured _ _ _ _ _ _ h := h.putSecureVirtualHost hfqdn _

theorem computeHTTPProxy_frame (st : State) (proxy : HTTPProxy) {H : String → Prop}
    (hfqdn : ∀ vhost, proxy.virtualHost = some vhost → H vhost.fqdn) :
    st.dag.Frame H (computeHTTPProxy lib ord p source st proxy).dag := by
  rcases computeHTTPProxy_hosts st proxy with
    ⟨same, -⟩ | ⟨vhost, hvhost, -, same⟩
  · exact same.frame H
  · exact ((closedUnderRoot_frame proxy vhost st.dag (hfqdn vhost hvhost)).computeRoot
      (startOf st proxy) (DAG.Frame.refl _)).trans (same.frame H)

variable (lib ord p) in
/-- Where the hosts of an fqdn come from: all other proxies frame them, and the
root itself writes them if it is computed. -/
theorem run_root (hcached : source.httpproxies.lookup name = some proxy)
    (hvhost : proxy.virtualHost = some vhost) (dag : DAG) :
    ∃ st d, dag.Frame (· ≠ vhost.fqdn) st.dag ∧
      d.Frame (· ≠ vhost.fqdn) (run lib ord p source dag) ∧
      ((¬ IsComputedRoot source proxy vhost ∧ st.dag.SameHosts d) ∨
        (IsComputedRoot source proxy vhost ∧
          DAG.SameHosts
            (computeRoot lib ord p source proxy vhost (startOf st proxy)).final.state.dag d)) := by
  have hroot : IsRootFor (lowerName vhost.fqdn) proxy := ⟨vhost, hvhost, rfl⟩
  obtain ⟨before, after, hothers, hlist⟩ := computedProxies_split ord hcached hroot
  rw [← (validHTTPProxies_eq lib ord source { dag }).1] at hlist
  -- A proxy that is not a root for the fqdn writes no host of that name.
  have hfold : ∀ (proxies : List HTTPProxy) (st : State),
      (∀ q ∈ proxies, ¬ IsRootFor (lowerName vhost.fqdn) q) →
      st.dag.Frame (· ≠ vhost.fqdn) (proxies.foldl (computeHTTPProxy lib ord p source) st).dag := by
    intro proxies st hproxies
    refine foldlRecOn _ _ (motive := fun st' : State => st.dag.Frame (· ≠ vhost.fqdn) st'.dag)
      (DAG.Frame.refl _) fun st' hst' q hq => hst'.trans (computeHTTPProxy_frame st' q ?_)
    intro vhost' hvhost' hsame
    exact hproxies q hq ⟨vhost', hvhost', congrArg lowerName hsame⟩
  have hbefore : ∀ q ∈ before, ¬ IsRootFor (lowerName vhost.fqdn) q :=
    fun q hq => hothers q (mem_append_left _ hq)
  have hafter : ∀ q ∈ after, ¬ IsRootFor (lowerName vhost.fqdn) q :=
    fun q hq => hothers q (mem_append_right _ hq)
  have hstart := (validHTTPProxies_eq lib ord source { dag }).2
  unfold run
  dsimp only
  generalize validHTTPProxies lib ord source { dag } = result at hlist hstart ⊢
  obtain ⟨proxies, st₀⟩ := result
  let st₁ := before.foldl (computeHTTPProxy lib ord p source) st₀
  have hst₁ : dag.Frame (· ≠ vhost.fqdn) st₁.dag :=
    (hstart.frame _).trans (hfold before st₀ hbefore)
  rcases hlist with ⟨hshared, rfl⟩ | ⟨hsole, rfl⟩
  · refine ⟨st₁, st₁.dag, hst₁, ?_, .inl ⟨fun h => hshared h.sole, DAG.SameHosts.refl _⟩⟩
    rw [foldl_append]
    exact (hfold after st₁ hafter).trans ((rejectOrphaned_sameHosts _).frame _)
  · refine ⟨st₁, (computeHTTPProxy lib ord p source st₁ proxy).dag, hst₁, ?_, ?_⟩
    · rw [foldl_append, foldl_cons]
      exact (hfold after _ hafter).trans ((rejectOrphaned_sameHosts _).frame _)
    · rcases computeHTTPProxy_cases lib ord p st₁ proxy with
        ⟨hnot, same⟩ | ⟨vhost', hvhost', hnamed, haccepted, same⟩
      · exact .inl ⟨fun h => hnot vhost hvhost h.named h.accepted, same⟩
      · obtain rfl : vhost = vhost' := Option.some.inj (hvhost.symm.trans hvhost')
        exact .inr ⟨⟨⟨name, hcached⟩, hvhost, hnamed, hsole, haccepted⟩, same⟩

end Sesame.Dag.HTTPProxyProcessor
