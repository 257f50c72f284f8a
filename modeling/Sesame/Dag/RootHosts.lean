/-
# The hosts of a root

What a root writes for its fqdn, as a function of the cache and of the extension
clusters alone: `rootHosts` says what the plaintext and the secure host of an fqdn
are in the end, without the DAG, the conditions and the statuses that
`computeHTTPProxy` threads through its parts. `run_hosts` shows that a run of the
processor leaves exactly these hosts, provided that nothing else wrote hosts of
that name before.
-/

import Sesame.Dag.Builder
import Sesame.Dag.RouteStatuses

namespace Sesame.Dag

open Lib Api
open Status (DetailedCondition)

/-- The hosts of one name. -/
structure Hosts where
  plain : Option VirtualHost := none
  secure : Option SecureVirtualHost := none

def DAG.hostsFor (dag : DAG) (fqdn : String) : Hosts where
  plain := dag.virtualHosts.lookup fqdn
  secure := dag.secureVirtualHosts.lookup fqdn

variable {dag' : DAG}

theorem DAG.Frame.hostsFor {H : String → Prop} {dag : DAG} (h : dag.Frame H dag') {fqdn : String}
    (hfqdn : ¬ H fqdn) : dag'.hostsFor fqdn = dag.hostsFor fqdn := by
  rw [DAG.hostsFor, h.virtualHosts fqdn hfqdn, h.secureVirtualHosts fqdn hfqdn]
  rfl

theorem DAG.SameHosts.hostsFor {dag : DAG} (h : dag.SameHosts dag') (fqdn : String) :
    dag'.hostsFor fqdn = dag.hostsFor fqdn := by
  obtain ⟨statusCache, rfl⟩ := h
  rfl

namespace HTTPProxyProcessor

variable (lib : Stdlib) (ord : MapOrder) (p : HTTPProxyProcessor) (source : KubernetesCache)
  (extensions : List ExtensionCluster) (proxy : HTTPProxy) (vhost : VirtualHostSpec)

variable {fqdn : String} {s s' : ProxyState} {dag : DAG} {secure : Option SecureVirtualHost}

/-! ## The abstract root -/

/-- The condition a root starts with. -/
def startCondition : DetailedCondition := (Status.Cache.proxyAccessor proxy).conditionFor

/-- The secure host of a step without the condition. -/
def HostStep.host : HostStep → Except SecureVirtualHost SecureVirtualHost
  | .ok h => .ok h.svhost
  | .error h => .error h.svhost

/-- The secure host of a root with an accepted certificate, before its routes; an
error is a host that was not set up completely. -/
def setUpHost (tls : TLS) (sec : Secret) : Except SecureVirtualHost SecureVirtualHost :=
  HostStep.host (setUpSecureHost lib ord p source { extensionClusters := extensions } proxy vhost
    tls
    { svhost :=
        { name := vhost.fqdn, secret := some sec,
          minTLSVersion := Annotation.minTLSVersion tls.minimumProtocolVersion .v12 }
      validCond := startCondition proxy })

/-- The TLS part: the secure host, if there is one; an error is an early return. -/
def tlsHost : Except (Option SecureVirtualHost) (Option SecureVirtualHost) :=
  match vhost.tls with
  | none => .ok none
  | some tls =>
    if ¬ isBlank tls.secretName ∧ tls.passthrough then .error none
    else if isBlank tls.secretName ∧ ¬ tls.passthrough then .error none
    else if tls.passthrough ∧ tls.clientValidation.isSome then .error none
    else if tls.passthrough then .ok none
    else
      let secretName := namespacedNameFrom tls.secretName proxy.ns
      match source.lookupSecret secretName (validSecret lib) proxy.ns with
      | .error _ => .error none
      | .ok sec =>
        if source.delegationPermitted ord secretName proxy.ns then
          match setUpHost lib ord p source extensions proxy vhost tls sec with
          | .error svh => .error (some svh)
          | .ok svh => .ok (some svh)
        else .error none

def tcpHost (secure : Option SecureVirtualHost) :
    Except (Option SecureVirtualHost) (Option SecureVirtualHost) :=
  if proxy.tcpProxy.isNone then .ok secure
  else if vhost.tls.isNone then .error secure
  else
    match tcpOutcome lib p source (includeFuel source) [] proxy with
    | none => .error secure
    | some none => .ok secure
    | some (some clusters) =>
      .ok (some { secure.getD { name := vhost.fqdn } with tcpProxy := some clusters })

def routesOf : List Route :=
  (computeRoutes lib ord p source { proxy, virtualHost := vhost } vhost.tls.isSome
    (includeFuel source) [] { dag := {} } (startCondition proxy) { proxy, chain := [] }).routes

/-- The last part: the routes go to the plaintext host and, with TLS and without a
TCP proxy, to the secure host. -/
def routeHosts (secure : Option SecureVirtualHost) : Hosts :=
  match toCORSPolicy lib vhost.corsPolicy with
  | .error _ => { plain := some { name := vhost.fqdn }, secure }
  | .ok cp =>
    match rateLimitPolicy lib ord vhost.rateLimitPolicy with
    | .error _ => { plain := some { name := vhost.fqdn, corsPolicy := cp }, secure }
    | .ok rlp =>
      { plain := some (addRoutes
          { name := vhost.fqdn, corsPolicy := cp, rateLimitPolicy := rlp }
          (routesOf lib ord p source proxy vhost))
        secure :=
          if vhost.tls.isSome ∧ proxy.tcpProxy.isNone then
            some (addSecureRoutes
              { secure.getD { name := vhost.fqdn } with
                corsPolicy := cp, rateLimitPolicy := rlp }
              (routesOf lib ord p source proxy vhost))
          else secure }

/-- Go on with the secure host of a part, unless it returned early. -/
def andThen (x : Except (Option SecureVirtualHost) (Option SecureVirtualHost))
    (next : Option SecureVirtualHost → Hosts) : Hosts :=
  match x with
  | .error secure => { secure }
  | .ok secure => next secure

def rootHosts : Hosts :=
  andThen (tlsHost lib ord p source extensions proxy vhost) fun secure =>
    andThen (tcpHost lib p source proxy vhost secure) fun secure =>
      routeHosts lib ord p source proxy vhost secure

/-! ## The parts of a root follow it -/

/-- The hosts of an fqdn and the extension clusters in a state. -/
structure Shows (fqdn : String) (s : ProxyState) (hosts : Hosts) : Prop where
  hosts : s.state.dag.hostsFor fqdn = hosts
  extensions : s.state.dag.extensionClusters = extensions

/-- A part ends as its abstraction, with the hosts that the abstraction says. -/
def Follows (fqdn : String) :
    ProxyStep → Except (Option SecureVirtualHost) (Option SecureVirtualHost) → Prop
  | .ok s, .ok secure => Shows extensions fqdn s { secure }
  | .error s, .error secure => Shows extensions fqdn s { secure }
  | _, _ => False

variable {lib ord p source extensions proxy vhost} {hosts : Hosts}

theorem Shows.sameHosts (h : Shows extensions fqdn s hosts)
    (same : s.state.dag.SameHosts s'.state.dag) : Shows extensions fqdn s' hosts := by
  obtain ⟨statusCache, heq⟩ := same
  constructor
  · rw [heq]
    exact h.hosts
  · rw [heq]
    exact h.extensions

theorem Shows.putSecureVirtualHost (h : Shows extensions fqdn s hosts) {svh : SecureVirtualHost}
    (same : DAG.SameHosts (s.state.dag.putSecureVirtualHost fqdn svh) s'.state.dag) :
    Shows extensions fqdn s' { hosts with secure := some svh } := by
  obtain ⟨statusCache, heq⟩ := same
  constructor
  · rw [heq, ← h.hosts]
    simp [DAG.hostsFor, DAG.putSecureVirtualHost]
  · rw [heq]
    exact h.extensions

theorem Shows.putVirtualHost (h : Shows extensions fqdn s hosts) {v : VirtualHost}
    (same : DAG.SameHosts (s.state.dag.putVirtualHost fqdn v) s'.state.dag) :
    Shows extensions fqdn s' { hosts with plain := some v } := by
  obtain ⟨statusCache, heq⟩ := same
  constructor
  · rw [heq, ← h.hosts]
    simp [DAG.hostsFor, DAG.putVirtualHost]
  · rw [heq]
    exact h.extensions

theorem Shows.ensureVirtualHost (h : Shows extensions fqdn s hosts) :
    s.state.dag.ensureVirtualHost fqdn = hosts.plain.getD { name := fqdn } := by
  rw [← h.hosts]
  rfl

theorem Shows.ensureSecureVirtualHost (h : Shows extensions fqdn s hosts) :
    s.state.dag.ensureSecureVirtualHost fqdn = hosts.secure.getD { name := fqdn } := by
  rw [← h.hosts]
  rfl

/-! ### TLS -/

section

variable {K E : DetailedCondition → DetailedCondition → Prop} (hkept : KeptByRecording K E)

variable {P : Prop} {h h' : HostState}

/-- Secure hosts under construction with related conditions; they are compared if `P`. -/
structure HostState.Alike (K : DetailedCondition → DetailedCondition → Prop) (P : Prop)
    (h h' : HostState) : Prop where
  condition : K h.validCond h'.validCond
  host : P → h.svhost = h'.svhost

open HostState (Alike)

theorem HostStep.host_eq {x y : HostStep} (h : Agree (Alike K True) (Alike K True) x y) :
    HostStep.host x = HostStep.host y := by
  rcases h.dest with ⟨_, _, rfl, rfl, hh⟩ | ⟨_, _, rfl, rfl, hh⟩
  · exact congrArg Except.error (hh.host trivial)
  · exact congrArg Except.ok (hh.host trivial)

include hkept

theorem HostState.Alike.reject (hh : Alike K P h h') {type : Status.ErrorType}
    (htype : type ≠ .orphanedError) (reason message : String) :
    Agree (Alike K P) (Alike K P) (h.reject type reason message) (h'.reject type reason message) :=
  ⟨hkept.addError hh.condition htype reason message, hh.host⟩

theorem attachFallback_agree (tls : TLS) (hh : Alike K P h h') :
    Agree (Alike K P) (Alike K P) (attachFallback lib ord p source proxy vhost tls h)
      (attachFallback lib ord p source proxy vhost tls h') := by
  unfold attachFallback
  split
  · exact hh.reject hkept (by decide) _ _
  split
  · exact hh.reject hkept (by decide) _ _
  split
  · split
    · exact hh.reject hkept (by decide) _ _
    · split
      · exact hh.reject hkept (by decide) _ _
      · split
        · exact ⟨hh.condition, fun hP => by rw [hh.host hP]⟩
        · exact hh.reject hkept (by decide) _ _
  · exact hh

theorem attachClientValidation_agree (tls : TLS) (hh : Alike K P h h') :
    Agree (Alike K P) (Alike K P) (attachClientValidation lib source proxy tls h)
      (attachClientValidation lib source proxy tls h') := by
  unfold attachClientValidation
  split
  · exact hh
  dsimp only
  split
  · split
    · exact hh.reject hkept (by decide) _ _
    · exact ⟨hh.condition, fun hP => by rw [hh.host hP]⟩
  · refine ⟨?_, fun hP => by rw [hh.host hP]⟩
    split
    · exact hh.condition
    · exact hkept.addError hh.condition (by decide) _ _

theorem attachAuthorization_agree (hext : dag.extensionClusters = dag'.extensionClusters)
    (hh : Alike K P h h') :
    Agree (Alike K P) (Alike K P) (attachAuthorization lib dag proxy vhost h)
      (attachAuthorization lib dag' proxy vhost h') := by
  unfold attachAuthorization DAG.getExtensionCluster
  rw [hext]
  split
  · exact hh
  dsimp only
  split
  · exact hh.reject hkept (by decide) _ _
  split
  · exact hh.reject hkept (by decide) _ _
  · split
    · refine ⟨hkept.addError hh.condition (by decide) _ _, fun hP => ?_⟩
      rw [HostState.svhost, hh.host hP]
    · exact ⟨hh.condition, fun hP => by rw [hh.host hP]⟩

variable (lib ord p source proxy vhost) in
theorem setUpSecureHost_agree (hext : dag.extensionClusters = dag'.extensionClusters) (tls : TLS)
    (hh : Alike K P h h') :
    Agree (Alike K P) (Alike K P) (setUpSecureHost lib ord p source dag proxy vhost tls h)
      (setUpSecureHost lib ord p source dag' proxy vhost tls h') := by
  apply (attachFallback_agree hkept tls hh).bind
  intro h₁ h₁' hh₁
  apply (attachClientValidation_agree hkept tls hh₁).bind
  intro h₂ h₂' hh₂
  exact attachAuthorization_agree hkept hext hh₂

end

theorem host_setUpSecureHost (h : dag.extensionClusters = extensions) (tls : TLS) (sec : Secret)
    (vc : DetailedCondition) :
    HostStep.host (setUpSecureHost lib ord p source dag proxy vhost tls
      { svhost :=
          { name := vhost.fqdn, secret := some sec,
            minTLSVersion := Annotation.minTLSVersion tls.minimumProtocolVersion .v12 }
        validCond := vc }) =
      setUpHost lib ord p source extensions proxy vhost tls sec :=
  HostStep.host_eq (setUpSecureHost_agree lib ord p source proxy vhost keptByRecording_any h tls
    ⟨trivial, fun _ => rfl⟩)

theorem attachTLS_follows (hs : Shows extensions vhost.fqdn s {}) :
    Follows extensions vhost.fqdn (attachTLS lib ord p source proxy vhost s)
      (tlsHost lib ord p source extensions proxy vhost) := by
  have hkept : ∀ {f}, RecordsErrors f → Shows extensions vhost.fqdn (f s) {} := fun hf =>
    ⟨by rw [hf.state, hs.hosts], by rw [hf.state, hs.extensions]⟩
  rcases attachTLS_cases lib ord p source proxy vhost with
    ⟨f, hf, hplain, heq⟩ | ⟨f, tls, hf, htls, hpass, hcert, heq⟩ | ⟨tls, sec, htls, hcert⟩
  · have hnone : tlsHost lib ord p source extensions proxy vhost = .ok none := by
      rcases hplain with htls | ⟨tls, htls, hpass, hblank, hclients⟩
      · rw [tlsHost, htls]
      · simp [tlsHost, htls, hpass, hblank, hclients]
    rw [heq, hnone]
    exact hkept hf
  · have hnone : tlsHost lib ord p source extensions proxy vhost = .error none := by
      rw [tlsHost, htls]
      dsimp only
      split_ifs with hboth hneither hclients hthrough hpermitted
      · rfl
      · rfl
      · rfl
      · exact absurd ⟨hthrough, by simpa [hthrough] using hboth,
          by simpa [hthrough] using hclients⟩ hpass
      · split
        · rfl
        · next sec hsec =>
          exact absurd ⟨by simpa using hthrough, by simpa [hthrough] using hneither, hsec,
            hpermitted⟩ (hcert sec)
      · split <;> rfl
    rw [heq, hnone]
    exact hkept hf
  · rw [attachTLS_of_certificate lib ord p htls hcert, withCertificate, hs.ensureSecureVirtualHost,
      Option.getD_none]
    simp only [tlsHost, htls, hcert.named, hcert.terminates, hcert.found, hcert.permitted]
    rw [← host_setUpSecureHost hs.extensions tls sec s.validCond]
    cases setUpSecureHost lib ord p source s.state.dag proxy vhost tls _ with
    | error h => exact hs.putSecureVirtualHost (DAG.SameHosts.refl _)
    | ok h => exact hs.putSecureVirtualHost (DAG.SameHosts.refl _)

/-! ### TCP proxies -/

theorem attachTCPProxy_follows (hs : Shows extensions vhost.fqdn s { secure }) :
    Follows extensions vhost.fqdn (attachTCPProxy lib p source proxy vhost s)
      (tcpHost lib p source proxy vhost secure) := by
  have hfollows := attachTCPProxy_outcome lib p source proxy vhost s
  have htcpHost : tcpHost lib p source proxy vhost secure =
      match tcpPart lib p source proxy vhost with
      | none => .error secure
      | some none => .ok secure
      | some (some clusters) =>
        .ok (some { secure.getD { name := vhost.fqdn } with tcpProxy := some clusters }) := by
    unfold tcpHost tcpPart
    cases htcp : proxy.tcpProxy with
    | none => rw [tcpOutcome_of_none htcp]; rfl
    | some tcpproxy => cases vhost.tls <;> rfl
  rw [htcpHost]
  generalize attachTCPProxy lib p source proxy vhost s = r at hfollows ⊢
  generalize tcpPart lib p source proxy vhost = outcome at hfollows ⊢
  cases hfollows with
  | rejected same => exact hs.sameHosts same
  | kept same => exact hs.sameHosts same
  | attached same =>
    rw [hs.ensureSecureVirtualHost] at same
    exact hs.putSecureVirtualHost same

/-! ### Routes -/

/-- The hosts after the last part, from those before it and the routes. -/
def routedHosts (lib : Stdlib) (ord : MapOrder) (proxy : HTTPProxy) (vhost : VirtualHostSpec)
    (hosts : Hosts) (routes : List Route) : Hosts :=
  let plain := hosts.plain.getD { name := vhost.fqdn }
  match toCORSPolicy lib vhost.corsPolicy with
  | .error _ => { hosts with plain := some plain }
  | .ok cp =>
    match rateLimitPolicy lib ord vhost.rateLimitPolicy with
    | .error _ => { hosts with plain := some { plain with corsPolicy := cp } }
    | .ok rlp =>
      { plain := some (addRoutes { plain with corsPolicy := cp, rateLimitPolicy := rlp } routes)
        secure :=
          if vhost.tls.isSome ∧ proxy.tcpProxy.isNone then
            some (addSecureRoutes
              { hosts.secure.getD { name := vhost.fqdn } with
                corsPolicy := cp, rateLimitPolicy := rlp } routes)
          else hosts.secure }

theorem attachRoutes_shows (hs : Shows extensions vhost.fqdn s hosts) :
    Shows extensions vhost.fqdn (attachRoutes lib ord p source proxy vhost s).final
      (routedHosts lib ord proxy vhost hosts (routesOf lib ord p source proxy vhost)) := by
  have houtcome := @attachRoutes_outcome lib ord p source proxy vhost s
  have hroutes : rootRoutes lib ord p source proxy vhost s =
      routesOf lib ord p source proxy vhost :=
    computeRoutes_routes_eq ..
  rw [hroutes] at houtcome
  generalize attachRoutes lib ord p source proxy vhost s = r at houtcome ⊢
  rw [routedHosts]
  cases houtcome with
  | noCORS cors same =>
    rw [cors, ← hs.ensureVirtualHost]
    exact hs.putVirtualHost same
  | noLimits cors limits same =>
    rw [cors, limits, ← hs.ensureVirtualHost]
    exact hs.putVirtualHost same
  | plaintext cors limits only same =>
    rw [cors, limits, ← hs.ensureVirtualHost]
    simp only [if_neg only]
    exact hs.putVirtualHost same
  | @both s' cp rlp cors limits secure same =>
    rw [cors, limits, ← hs.ensureVirtualHost, ← hs.ensureSecureVirtualHost]
    simp only [if_pos secure]
    have hplain : Shows extensions vhost.fqdn { s with state := { s.state with
        dag := s.state.dag.putVirtualHost vhost.fqdn (plainHost s.state.dag vhost.fqdn cp rlp
          (routesOf lib ord p source proxy vhost)) } } _ :=
      hs.putVirtualHost (DAG.SameHosts.refl _)
    exact hplain.putSecureVirtualHost same

theorem routeHosts_eq (secure : Option SecureVirtualHost) :
    routeHosts lib ord p source proxy vhost secure =
      routedHosts lib ord proxy vhost { secure } (routesOf lib ord p source proxy vhost) := by
  cases toCORSPolicy lib vhost.corsPolicy with
  | error err => rfl
  | ok cp => cases rateLimitPolicy lib ord vhost.rateLimitPolicy <;> rfl

theorem attachRoutes_follows (hs : Shows extensions vhost.fqdn s { secure }) :
    Shows extensions vhost.fqdn (attachRoutes lib ord p source proxy vhost s).final
      (routeHosts lib ord p source proxy vhost secure) := by
  rw [routeHosts_eq]
  exact attachRoutes_shows hs

/-! ## Runs -/

theorem Follows.bind {r : ProxyStep}
    {x : Except (Option SecureVirtualHost) (Option SecureVirtualHost)} {f : ProxyState → ProxyStep}
    {g : Option SecureVirtualHost → Hosts} (h : Follows extensions fqdn r x)
    (hnext : ∀ s secure, Shows extensions fqdn s { secure } →
      Shows extensions fqdn (f s).final (g secure)) :
    Shows extensions fqdn (ProxyStep.final (r >>= f)) (andThen x g) := by
  cases r with
  | error s =>
    cases x with
    | error secure => exact h
    | ok secure => exact h.elim
  | ok s =>
    cases x with
    | error secure => exact h.elim
    | ok secure => exact hnext s secure h

/-- A root that is accepted leaves the hosts that the abstract root says. -/
theorem computeRoot_follows (haccepted : Accepted source proxy)
    (hs : Shows extensions vhost.fqdn s {}) :
    Shows extensions vhost.fqdn (computeRoot lib ord p source proxy vhost s).final
      (rootHosts lib ord p source extensions proxy vhost) := by
  rw [computeRoot, checkRoot_of_accepted haccepted, ok_bind, rootHosts]
  apply (attachTLS_follows hs).bind
  intro s₁ secure hs₁
  apply (attachTCPProxy_follows hs₁).bind
  intro s₂ secure' hs₂
  exact attachRoutes_follows hs₂

variable (lib ord p) in
/-- The hosts of a root's fqdn after a run on a DAG that has no hosts of that name. -/
theorem run_hosts {name : NamespacedName} (hcached : source.httpproxies.lookup name = some proxy)
    (hvhost : proxy.virtualHost = some vhost) (hdag : dag.hostsFor vhost.fqdn = {}) :
    (IsComputedRoot source proxy vhost →
        (run lib ord p source dag).hostsFor vhost.fqdn =
          rootHosts lib ord p source dag.extensionClusters proxy vhost) ∧
      (¬ IsComputedRoot source proxy vhost →
        (run lib ord p source dag).hostsFor vhost.fqdn = {}) := by
  obtain ⟨st, d, hbefore, hafter, hroot⟩ := run_root lib ord p hcached hvhost dag
  have hst : Shows dag.extensionClusters vhost.fqdn (startOf st proxy) {} :=
    ⟨(hbefore.hostsFor (not_not.mpr rfl)).trans hdag, hbefore.extensionClusters⟩
  rcases hroot with ⟨hnot, same⟩ | ⟨hcomputed, same⟩
  · constructor
    · intro hcomputed
      exact absurd hcomputed hnot
    · intro _
      rw [hafter.hostsFor (not_not.mpr rfl), same.hostsFor]
      exact hst.hosts
  · constructor
    · intro _
      rw [hafter.hostsFor (not_not.mpr rfl), same.hostsFor]
      exact (computeRoot_follows hcomputed.accepted hst).hosts
    · intro hnot
      exact absurd hcomputed hnot

theorem run_extensionClusters (dag : DAG) :
    (run lib ord p source dag).extensionClusters = dag.extensionClusters := by
  have hframe : dag.Frame (fun _ => True) (run lib ord p source dag) :=
    run_inv (fun _ _ same h => h.trans (same.frame _))
      (fun proxy vhost _ => closedUnderRoot_frame proxy vhost _ trivial) (DAG.Frame.refl _)
  exact hframe.extensionClusters

end HTTPProxyProcessor

theorem ExtensionServiceProcessor.run_hostsFor {lib : Stdlib} {ord : MapOrder}
    {p : ExtensionServiceProcessor} {cache : KubernetesCache} (dag : DAG) (fqdn : String) :
    (run lib ord p cache dag).hostsFor fqdn = dag.hostsFor fqdn := by
  obtain ⟨-, hplain, hsecure⟩ : (run lib ord p cache dag).listeners = dag.listeners ∧ _ :=
    run_hosts dag
  rw [DAG.hostsFor, hplain, hsecure]
  rfl

open HTTPProxyProcessor (IsComputedRoot rootHosts)

/-- The hosts of a root's fqdn in the DAG that is built, when no Ingress and no
route of the Gateway uses the fqdn. -/
theorem Builder.build_hosts {lib : Stdlib} {ord : MapOrder} {dbc : DagBuilderConfig}
    {source : KubernetesCache} {root : DAG} (hbuild : Builder.build lib ord dbc source = .ok root)
    {name : NamespacedName} {proxy : HTTPProxy} {vhost : VirtualHostSpec}
    (hcached : source.httpproxies.lookup name = some proxy)
    (hvhost : proxy.virtualHost = some vhost)
    (hingress : ¬ IngressProcessor.UsesHost source vhost.fqdn)
    (hgateway : ¬ GatewayAPIProcessor.UsesHost lib source vhost.fqdn) :
    (IsComputedRoot source proxy vhost →
        root.hostsFor vhost.fqdn =
          rootHosts lib ord dbc.httpProxyProcessor source root.extensionClusters proxy vhost) ∧
      (¬ IsComputedRoot source proxy vhost → root.hostsFor vhost.fqdn = {}) := by
  obtain ⟨dag, hhosts, -, rfl⟩ := Builder.build_eq hbuild
  obtain ⟨d, hbefore, hdag⟩ := map_eq_ok.mp hhosts
  obtain ⟨d₀, hd₀, hd⟩ := Builder.beforeGateway_eq hbefore
  have hgatewayFrame : d.Frame (GatewayAPIProcessor.UsesHost lib source) dag := by
    rw [← hdag]
    split
    · exact GatewayAPIProcessor.run_frame d
    · exact DAG.Frame.refl d
  have hempty : (ExtensionServiceProcessor.run lib ord dbc.extensionServiceProcessor source
      d₀).hostsFor vhost.fqdn = {} := by
    rw [ExtensionServiceProcessor.run_hostsFor, (IngressProcessor.run_frame hd₀).hostsFor hingress]
    rfl
  have hroot : (ListenerProcessor.run ord dag).hostsFor vhost.fqdn = d.hostsFor vhost.fqdn := by
    rw [ListenerProcessor.run_eq]
    exact hgatewayFrame.hostsFor hgateway
  have hextensions : (ListenerProcessor.run ord dag).extensionClusters =
      (ExtensionServiceProcessor.run lib ord dbc.extensionServiceProcessor source
        d₀).extensionClusters := by
    rw [ListenerProcessor.run_eq]
    refine hgatewayFrame.extensionClusters.trans ?_
    rw [hd, HTTPProxyProcessor.run_extensionClusters]
  rw [hroot, hextensions, hd]
  exact HTTPProxyProcessor.run_hosts lib ord dbc.httpProxyProcessor hcached hvhost hempty

end Sesame.Dag
