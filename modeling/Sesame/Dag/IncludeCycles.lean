/-
# Include cycles

Following includes ends, whatever the proxies refer to, and a cycle shows in the
statuses. The call that closes a cycle records an error for its own proxy and commits
it before the calls on the path return; these may still find the same proxy valid, but
their commits do not undo the error. The closing include of a TCP proxy is recorded for
the proxy that holds it.
-/

import Sesame.Dag.RunStatuses

namespace Sesame.Dag

open List
open Lib Api
open Status (DetailedCondition ProxyUpdate settled_conditionFor)

namespace HTTPProxyProcessor

variable {lib : Stdlib} {ord : MapOrder} {p : HTTPProxyProcessor} {source : KubernetesCache}

/-! ## Every chain of calls ends -/

/-- No infinite chain of nested calls starts at a call on a path. -/
theorem Call.acc {fuel : Nat} {c : Call} (hfuel : Enough source fuel c.visited)
    (hpath : IsPath source c.visited) (hcached : Cached source c.pos.proxy) :
    Acc (flip (Call.Step lib source)) c := by
  induction fuel generalizing c with
  | zero =>
    obtain ⟨_, hzero⟩ := hfuel.pos hpath
    cases hzero
  | succ fuel ih =>
    apply Acc.intro
    intro c' hstep
    cases hstep with
    | follow expands inc_mem follows =>
      exact ih (hfuel.concat c.pos.proxy) (hpath.concat hcached expands.fresh)
        (cached_of_followed follows)

theorem TCPCall.acc {fuel : Nat} {c : TCPCall} (hfuel : Enough source fuel c.path)
    (hpath : IsPath source c.path) : Acc (flip (TCPCall.Step source)) c := by
  induction fuel generalizing c with
  | zero =>
    obtain ⟨_, hzero⟩ := hfuel.pos hpath
    cases hzero
  | succ fuel ih =>
    apply Acc.intro
    intro c' hstep
    cases hstep with
    | @follow dest follows fresh =>
      exact ih (hfuel.concat dest) (hpath.concat (cached_of_tcpFollowed follows) fresh)

/-! ## No call runs out of fuel -/

section

variable (lib ord p source) (root : Root) (enforceTLS : Bool)

/-- The body of the loop over the includes, if the call it makes may run out of fuel. -/
def computeIncludeChecked (recurse : State → DetailedCondition → Position → Option Visit)
    (pos : Position) (v : Visit) (inc : Include) : Option Visit :=
  match followed lib source pos.proxy inc with
  | none => some (computeInclude lib source (fun state validCond _ => { state, validCond }) root
      pos v inc)
  | some included =>
    (recurse v.state (Status.Cache.proxyAccessor included).conditionFor
      { proxy := included, chain := pos.chain ++ [inc.conditions] }).map fun below =>
        computeInclude lib source (fun _ _ _ => below) root pos v inc

/-- `computeRoutes`, with no visit for a call that has no fuel. -/
def computeRoutesChecked :
    Nat → List HTTPProxy → State → DetailedCondition → Position → Option Visit
  | 0, _, _, _, _ => none
  | fuel + 1, visited, state, validCond, pos =>
    if OnPath visited pos.proxy ∨ includeMatchConditionsIdentical pos.proxy.includes then
      -- These calls make no others.
      some (computeRoutes lib ord p source root enforceTLS 1 visited state validCond pos)
    else
      (pos.proxy.includes.foldlM (computeIncludeChecked lib source root
        (computeRoutesChecked fuel (visited ++ [pos.proxy])) pos) { state, validCond }).map
        (takeRoutes lib ord p source root enforceTLS (visited ++ [pos.proxy]) pos)

/-- `processHTTPProxyTCPProxy`, with no result for a call that has no fuel. -/
def processHTTPProxyTCPProxyChecked (host : String) :
    Nat → List HTTPProxy → ProxyState → HTTPProxy → Option (Bool × ProxyState)
  | 0, _, _, _ => none
  | fuel + 1, visited, s, httpproxy =>
    match tcpFollowed source httpproxy with
    | none => some (processHTTPProxyTCPProxy lib p source host 1 visited s httpproxy)
    | some dest =>
      if OnPath (visited ++ [httpproxy]) dest then
        some (processHTTPProxyTCPProxy lib p source host 1 visited s httpproxy)
      else
        let pu := Status.Cache.proxyAccessor dest
        let orphaned := s.state.orphaned.filter (· ≠ namespacedNameOf dest.toObjectMeta)
        (processHTTPProxyTCPProxyChecked host fuel (visited ++ [httpproxy])
          { state := { s.state with orphaned }, validCond := pu.conditionFor } dest).map
          fun (ok, below) => (ok,
            { state := below.state.commit { pu with valid := some below.validCond }
              validCond := (httpproxy.tcpProxy.map fun tcpproxy =>
                (tcpLoadBalancerPolicy lib tcpproxy s.validCond).2).getD s.validCond })

end

/-- With enough fuel, no call below a call on a path runs out of it. -/
theorem computeRoutesChecked_eq (root : Root) (enforceTLS : Bool) {fuel : Nat}
    {visited : List HTTPProxy} (hfuel : Enough source fuel visited) (hpath : IsPath source visited)
    (st : State) (vc : DetailedCondition) {pos : Position} (hcached : Cached source pos.proxy) :
    computeRoutesChecked lib ord p source root enforceTLS fuel visited st vc pos =
      some (computeRoutes lib ord p source root enforceTLS fuel visited st vc pos) := by
  induction fuel generalizing visited st vc pos with
  | zero =>
    obtain ⟨_, hzero⟩ := hfuel.pos hpath
    cases hzero
  | succ fuel ih =>
    rcases call_cases ⟨visited, pos⟩ with honPath | ⟨hfresh, hsame⟩ | hexpands
    · rw [computeRoutesChecked, if_pos (.inl honPath), computeRoutes_of_onPath honPath,
        computeRoutes_of_onPath honPath]
    · rw [computeRoutesChecked, if_pos (.inr hsame), computeRoutes_of_identical hfresh hsame,
        computeRoutes_of_identical hfresh hsame]
    · have hinclude : computeIncludeChecked lib source root (computeRoutesChecked lib ord p source
            root enforceTLS fuel (visited ++ [pos.proxy])) pos =
          fun v inc => pure (computeInclude lib source (computeRoutes lib ord p source root
            enforceTLS fuel (visited ++ [pos.proxy])) root pos v inc) := by
        funext v inc
        rw [computeIncludeChecked]
        rcases computeInclude_eq lib source root pos inc with
          ⟨included, hfollowed, heq⟩ | ⟨hnone, type, reason, message, -, heq⟩
        · simp only [hfollowed, heq]
          rw [ih (hfuel.concat pos.proxy) (hpath.concat hcached hexpands.fresh) _ _
            (cached_of_followed hfollowed)]
          rfl
        · simp only [hnone, heq]
          rfl
      have hgoes : ¬ (OnPath visited pos.proxy ∨
          includeMatchConditionsIdentical pos.proxy.includes = true) := by
        rintro (honPath | hsame)
        · exact hexpands.fresh honPath
        · exact Bool.eq_false_iff.mp hexpands.distinct hsame
      rw [computeRoutesChecked, if_neg hgoes, hinclude, foldlM_pure,
        computeRoutes_of_expands hexpands]
      rfl

theorem processHTTPProxyTCPProxyChecked_eq (host : String) {fuel : Nat} {visited : List HTTPProxy}
    {httpproxy : HTTPProxy} (hfuel : Enough source fuel visited)
    (hpath : IsPath source (visited ++ [httpproxy])) (s : ProxyState) :
    processHTTPProxyTCPProxyChecked lib p source host fuel visited s httpproxy =
      some (processHTTPProxyTCPProxy lib p source host fuel visited s httpproxy) := by
  induction fuel generalizing visited httpproxy s with
  | zero =>
    obtain ⟨_, hzero⟩ := hfuel.pos hpath.of_concat
    cases hzero
  | succ fuel ih =>
    rw [processHTTPProxyTCPProxyChecked]
    cases hfollowed : tcpFollowed source httpproxy with
    | none =>
      obtain ⟨outcome, record, -, hcall⟩ := exists_tcpEnds lib p hfollowed
      simp only [(hcall _ _).2]
    | some dest =>
      obtain ⟨tcpproxy, -, htcp, -⟩ := tcpFollowed_eq_some hfollowed
      simp only [processHTTPProxyTCPProxy_followed host _ visited s htcp hfollowed]
      by_cases honPath : OnPath (visited ++ [httpproxy]) dest
      · simp only [if_pos honPath]
      · simp only [if_neg honPath]
        rw [ih (hfuel.concat httpproxy) (hpath.concat (cached_of_tcpFollowed hfollowed) honPath),
          htcp]
        rfl

/-! ## The call that closes a cycle -/

section

variable {extensions : List ExtensionCluster} {proxy : HTTPProxy} {vhost : VirtualHostSpec}

variable {c : TCPCall} {s : ProxyState}

theorem callUpdate_fails (root : Root) (enforceTLS : Bool) {c : Call}
    (h : OnPath c.visited c.pos.proxy) :
    (callUpdate lib ord p source root enforceTLS (includeFuel source) c).Fails := by
  refine ⟨_, rfl, ?_⟩
  rw [callCondition, includeFuel, computeRoutes_of_onPath h]
  exact (settled_conditionFor c.pos.proxy).addError_status _ _ _

/-- The include that closes a cycle is recorded for the proxy of the call. -/
theorem processHTTPProxyTCPProxy_closes (h : c.Closes source) (host : String) (fuel : Nat)
    (hs : s.validCond.Settled) :
    (processHTTPProxyTCPProxy lib p source host (fuel + 1) c.visited s c.httpproxy).1 = false ∧
      (processHTTPProxyTCPProxy lib p source host (fuel + 1) c.visited s
        c.httpproxy).2.validCond.status = .false := by
  obtain ⟨dest, hfollowed, honPath⟩ := h
  obtain ⟨tcpproxy, -, htcp, -⟩ := tcpFollowed_eq_some hfollowed
  have hs' : SecondSettled s.validCond s.validCond := hs
  have hwarned : (tcpLoadBalancerPolicy lib tcpproxy s.validCond).2.Settled :=
    (tcpLoadBalancerPolicy_same lib keptByRecording_settled tcpproxy hs').2
  rw [processHTTPProxyTCPProxy_followed host fuel c.visited s htcp hfollowed]
  rw [if_pos (show OnPath (c.visited ++ [c.httpproxy]) dest from honPath)]
  exact ⟨rfl, hwarned.addError_status _ _ _⟩

theorem tcpUpdate_fails (host : String) (h : c.Closes source) :
    (tcpUpdate lib p source host (includeFuel source) c).Fails :=
  ⟨_, rfl, (processHTTPProxyTCPProxy_closes h host _ (settled_conditionFor c.httpproxy)).2⟩

theorem beforeTCPProxy_settled
    (h : beforeTCPProxy lib ord p source extensions proxy vhost = .ok s) :
    s.validCond.Settled := by
  have hlogged : Logged SecondSettled _
      (checkRoot source proxy (startOf { dag := { extensionClusters := extensions } } proxy) >>=
        attachTLS lib ord p source proxy vhost)
      (beforeTCPProxy lib ord p source extensions proxy vhost) [] :=
    beforeTCPProxy_logged keptByRecording_settled (settled_conditionFor proxy) rfl
  have hfinal := ProxyStep.final_agree hlogged.agree
  rwa [h] at hfinal

/-- A root that holds the closing include fails itself. -/
theorem rootCondition_fails
    (hstarted : beforeTCPProxy lib ord p source extensions proxy vhost = .ok s)
    (htls : vhost.tls.isSome = true) (h : (TCPCall.start proxy).Closes source) :
    (rootCondition lib ord p source extensions proxy vhost).status = .false := by
  have hcall : (processHTTPProxyTCPProxy lib p source vhost.fqdn (includeFuel source) [] s
      proxy).1 = false ∧ (processHTTPProxyTCPProxy lib p source vhost.fqdn (includeFuel source) []
      s proxy).2.validCond.status = .false :=
    processHTTPProxyTCPProxy_closes h vhost.fqdn _ (beforeTCPProxy_settled hstarted)
  have hsome : proxy.tcpProxy.isNone = false := by
    obtain ⟨dest, hfollowed, -⟩ := h
    obtain ⟨tcpproxy, -, htcp, -⟩ := tcpFollowed_eq_some hfollowed
    rw [show proxy.tcpProxy = some tcpproxy from htcp]
    rfl
  have hnone : vhost.tls.isNone = false := by
    rw [Option.isNone_eq_false_iff]
    exact htls
  have hroot : computeRoot lib ord p source proxy vhost (blankStart extensions proxy) =
      (beforeTCPProxy lib ord p source extensions proxy vhost >>=
        attachTCPProxy lib p source proxy vhost) >>= attachRoutes lib ord p source proxy vhost := by
    simp only [computeRoot, beforeTCPProxy, bind_assoc]
  rw [rootCondition, hroot, hstarted, ok_bind, attachTCPProxy, hsome, hnone]
  revert hcall
  generalize processHTTPProxyTCPProxy lib p source vhost.fqdn (includeFuel source) [] s proxy =
    result
  obtain ⟨ok, s'⟩ := result
  rintro ⟨hok, hstatus⟩
  obtain rfl : ok = false := hok
  exact hstatus

/-- The commit at the end of a root. -/
theorem rootUpdate_mem_proxyLog (h : IsComputedRoot source proxy vhost) :
    Event.commit { Status.Cache.proxyAccessor proxy with
        vhost := vhost.fqdn
        valid := some (rootCondition lib ord p source extensions proxy vhost) } ∈
      proxyLog lib ord p source extensions proxy := by
  simp [proxyLog, h.root, h.named]

theorem mem_proxyLog_of_mem_rootLog (h : IsComputedRoot source proxy vhost) {e : Event}
    (he : e ∈ rootLog lib ord p source extensions proxy vhost) :
    e ∈ proxyLog lib ord p source extensions proxy := by
  simp [proxyLog, h.root, h.named, he]

/-- A call that finds its proxy on its path makes the status of that proxy false. -/
theorem run_validStatus_of_onPath {dag : DAG} (hroot : IsComputedRoot source proxy vhost)
    (hstarted : ∃ s, beforeRoutes lib ord p source dag.extensionClusters proxy vhost = .ok s)
    {c : Call} (hcall : MakesCall lib source proxy c) (honPath : OnPath c.visited c.pos.proxy) :
    (run lib ord p source dag).statusCache.validStatus
      (namespacedNameOf c.pos.proxy.toObjectMeta) = some .false := by
  apply run_validStatus_of_commit (hroot.mem_computedProxies ord)
    (mem_proxyLog_of_mem_rootLog hroot
      ((commit_mem_rootLog hroot.cached).mpr (.inr ⟨hstarted, c, hcall, rfl⟩)))
  exact callUpdate_fails _ _ honPath

/-- A call that closes a cycle makes the status of the proxy false that holds the
include. -/
theorem run_validStatus_of_closes {dag : DAG} (hroot : IsComputedRoot source proxy vhost)
    (htls : vhost.tls.isSome = true)
    (hstarted : ∃ s, beforeTCPProxy lib ord p source dag.extensionClusters proxy vhost = .ok s)
    (hcall : Relation.ReflTransGen (TCPCall.Step source) (TCPCall.start proxy) c)
    (hcloses : c.Closes source) :
    (run lib ord p source dag).statusCache.validStatus
      (namespacedNameOf c.httpproxy.toObjectMeta) = some .false := by
  rcases Relation.reflTransGen_iff_eq_or_transGen.mp hcall with rfl | hbelow
  · obtain ⟨s, hs⟩ := hstarted
    apply run_validStatus_of_commit (hroot.mem_computedProxies ord) (rootUpdate_mem_proxyLog hroot)
    exact ⟨_, rfl, rootCondition_fails hs htls hcloses⟩
  · apply run_validStatus_of_commit (hroot.mem_computedProxies ord)
      (mem_proxyLog_of_mem_rootLog hroot
        ((commit_mem_rootLog hroot.cached).mpr (.inl ⟨hstarted, htls, c, hbelow, rfl⟩)))
    exact tcpUpdate_fails _ hcloses

end

end HTTPProxyProcessor

open HTTPProxyProcessor

variable {source : KubernetesCache}

/-- Following includes ends: no chain of nested calls is infinite, no call runs out of the
fuel that the model gives it, and more fuel than that changes no result. -/
structure Terminates (lib : Stdlib) (ord : MapOrder) (p : HTTPProxyProcessor)
    (source : KubernetesCache) (proxy : HTTPProxy) : Prop where
  calls : Acc (flip (Call.Step lib source)) (Call.start proxy)
  tcpCalls : Acc (flip (TCPCall.Step source)) (TCPCall.start proxy)
  computeRoutes : ∀ root enforceTLS fuel st vc, includeFuel source ≤ fuel →
    computeRoutes lib ord p source root enforceTLS fuel [] st vc { proxy, chain := [] } =
      computeRoutes lib ord p source root enforceTLS (includeFuel source) [] st vc
        { proxy, chain := [] }
  processHTTPProxyTCPProxy : ∀ host fuel s, includeFuel source ≤ fuel →
    processHTTPProxyTCPProxy lib p source host fuel [] s proxy =
      processHTTPProxyTCPProxy lib p source host (includeFuel source) [] s proxy
  routesChecked : ∀ root enforceTLS st vc,
    computeRoutesChecked lib ord p source root enforceTLS (includeFuel source) [] st vc
        { proxy, chain := [] } =
      some (HTTPProxyProcessor.computeRoutes lib ord p source root enforceTLS (includeFuel source)
        [] st vc { proxy, chain := [] })
  tcpChecked : ∀ host s,
    processHTTPProxyTCPProxyChecked lib p source host (includeFuel source) [] s proxy =
      some (HTTPProxyProcessor.processHTTPProxyTCPProxy lib p source host (includeFuel source) []
        s proxy)

theorem terminates {lib : Stdlib} {ord : MapOrder} {p : HTTPProxyProcessor} {proxy : HTTPProxy}
    (hcached : Cached source proxy) : Terminates lib ord p source proxy where
  calls := Call.acc (enough_includeFuel source _) (isPath_nil source) hcached
  tcpCalls := TCPCall.acc (enough_includeFuel source _) (isPath_start hcached)
  computeRoutes root enforceTLS fuel st vc hfuel :=
    computeRoutes_fuel lib ord p root enforceTLS
      (show Enough source fuel [] from hfuel) (enough_includeFuel source [])
      (isPath_nil source) st vc hcached
  processHTTPProxyTCPProxy host fuel s hfuel :=
    processHTTPProxyTCPProxy_fuel host (show Enough source fuel [] from hfuel)
      (enough_includeFuel source []) (isPath_start hcached) s
  routesChecked root enforceTLS st vc :=
    computeRoutesChecked_eq root enforceTLS (enough_includeFuel source []) (isPath_nil source) st
      vc hcached
  tcpChecked host s :=
    processHTTPProxyTCPProxyChecked_eq host (enough_includeFuel source []) (isPath_start hcached) s

/-- The calls of any cached proxy end and never hold a proxy twice on one path, and a cycle
that a root runs into shows in the statuses of the build: the proxy that is entered again
is not valid, nor is the proxy that holds the closing include of a TCP proxy. -/
theorem include_cycles_end_and_show (lib : Stdlib) (ord : MapOrder) (dbc : DagBuilderConfig)
    (source : KubernetesCache) :
    (∀ proxy, Cached source proxy →
      Terminates lib ord dbc.httpProxyProcessor source proxy ∧
      (∀ c, Relation.ReflTransGen (Call.Step lib source) (Call.start proxy) c →
        (c.visited.map nameOf).Nodup) ∧
      ∀ c, Relation.ReflTransGen (TCPCall.Step source) (TCPCall.start proxy) c →
        (c.path.map nameOf).Nodup) ∧
    ∀ root, Builder.build lib ord dbc source = .ok root →
      ∀ proxy vhost, IsComputedRoot source proxy vhost →
      ((∃ s, beforeRoutes lib ord dbc.httpProxyProcessor source root.extensionClusters proxy
          vhost = .ok s) →
        ∀ c, MakesCall lib source proxy c → OnPath c.visited c.pos.proxy →
          root.statusCache.validStatus (namespacedNameOf c.pos.proxy.toObjectMeta) = some .false) ∧
      ((∃ s, beforeTCPProxy lib ord dbc.httpProxyProcessor source root.extensionClusters proxy
          vhost = .ok s) → vhost.tls.isSome = true →
        ∀ c, Relation.ReflTransGen (TCPCall.Step source) (TCPCall.start proxy) c →
          c.Closes source →
          root.statusCache.validStatus (namespacedNameOf c.httpproxy.toObjectMeta) =
            some .false) := by
  constructor
  · intro proxy hcached
    refine ⟨terminates hcached, fun c hc => ?_, fun c hc => ?_⟩
    · exact (Call.Step.isPath hc (isPath_nil source) hcached).1.nodup
    · exact (TCPCall.Step.isPath hc (isPath_start hcached)).nodup
  · intro root hbuild proxy vhost hroot
    obtain ⟨dag, hext, hupdates⟩ := Builder.build_proxyUpdates hbuild
    simp only [Status.Cache.validStatus, hupdates, ← hext]
    constructor
    · intro hstarted c hcall honPath
      exact run_validStatus_of_onPath hroot hstarted hcall honPath
    · intro hstarted htls c hcall hcloses
      exact run_validStatus_of_closes hroot htls hstarted hcall hcloses

/-- A proxy that includes another one of the namespace `n`. -/
def including (name included : String) (virtualHost : Option VirtualHostSpec) : HTTPProxy where
  name := name
  ns := "n"
  virtualHost := virtualHost
  includes := [{ name := included }]

/-- A proxy whose TCP proxy includes another one of the namespace `n`. -/
def tcpIncluding (name included : String) (virtualHost : Option VirtualHostSpec) : HTTPProxy where
  name := name
  ns := "n"
  virtualHost := virtualHost
  tcpProxy := some { included := some { name := included } }

/-- The root `r` leads to the cycle of `a` and `b`, and the TCP proxy of the root `t` to that
of `c` and `d`. -/
def cyclicCache : KubernetesCache where
  httpproxies := byName (·.toObjectMeta)
    [including "r" "a" (some { fqdn := "h" }),
     including "a" "b" none,
     including "b" "a" none,
     tcpIncluding "t" "c" (some { fqdn := "g", tls := some { passthrough := true } }),
     tcpIncluding "c" "d" none] |>.insert ⟨"n", "d"⟩ (tcpIncluding "d" "c" none)

def cyclicDAG : DAG :=
  match Builder.build .plain .storage {} cyclicCache with
  | .ok dag => dag
  | .error _ => {}

theorem two_cycles_show :
    Builder.build .plain .storage {} cyclicCache = .ok cyclicDAG ∧
      cyclicDAG.statusCache.validStatus ⟨"n", "a"⟩ = some .false ∧
      cyclicDAG.statusCache.validStatus ⟨"n", "d"⟩ = some .false := by
  have hbuild : Builder.build .plain .storage {} cyclicCache = .ok cyclicDAG := rfl
  obtain ⟨-, hshow⟩ := include_cycles_end_and_show .plain .storage {} cyclicCache
  have hroot : IsComputedRoot cyclicCache (including "r" "a" (some { fqdn := "h" }))
      { fqdn := "h" } := by decide +kernel
  have htcpRoot : IsComputedRoot cyclicCache
      (tcpIncluding "t" "c" (some { fqdn := "g", tls := some { passthrough := true } }))
      { fqdn := "g", tls := some { passthrough := true } } := by decide +kernel
  apply And.intro hbuild
  constructor
  · let r := Call.start (including "r" "a" (some { fqdn := "h" }))
    let a := r.child { name := "a" } (including "a" "b" none)
    let b := a.child { name := "b" } (including "b" "a" none)
    have hra : Call.Step .plain cyclicCache r a := .follow ⟨by decide, rfl⟩ mem_cons_self rfl
    have hab : Call.Step .plain cyclicCache a b := .follow ⟨by decide, rfl⟩ mem_cons_self rfl
    have hba : Call.Step .plain cyclicCache b (b.child { name := "a" } (including "a" "b" none)) :=
      .follow ⟨by decide, rfl⟩ mem_cons_self rfl
    exact (hshow _ hbuild _ _ hroot).1 ⟨_, rfl⟩ _ (.tail (.tail (.single hra) hab) hba) (by decide)
  · let t := TCPCall.start
      (tcpIncluding "t" "c" (some { fqdn := "g", tls := some { passthrough := true } }))
    let c : TCPCall := { visited := t.path, httpproxy := tcpIncluding "c" "d" none }
    let d : TCPCall := { visited := c.path, httpproxy := tcpIncluding "d" "c" none }
    have htc : TCPCall.Step cyclicCache t c := .follow rfl (by decide)
    have hcd : TCPCall.Step cyclicCache c d := .follow rfl (by decide)
    have hcloses : d.Closes cyclicCache := ⟨tcpIncluding "c" "d" none, rfl, by decide⟩
    exact (hshow _ hbuild _ _ htcpRoot).2 ⟨_, rfl⟩ rfl d (.tail (.tail .refl htc) hcd) hcloses

end Sesame.Dag
