/-
# The status log of a root

While proxies are computed, the status cache and the set of orphaned proxies change in
three ways only: the update of a proxy is committed, a proxy is entered among the
orphaned ones, and a proxy is taken out of them. Which of these happen, and in which
order, does not depend on what the cache and the set hold. `callLog` and `tcpLog` list
them for the calls that follow includes, so that the statuses after a run can be read
off the calls it makes.
-/

import Sesame.Lib.Transition
import Sesame.Dag.ProxyRuns
import Sesame.Dag.RouteStatuses

namespace Sesame.Dag.HTTPProxyProcessor

open List
open Lib Api
open Status (DetailedCondition ProxyUpdate)

variable {fuel : Nat} {visited : List HTTPProxy} {pos : Position} {c : Call}

/-- A change to the statuses or to the orphaned proxies. -/
inductive Event
  | commit (update : ProxyUpdate)
  | orphan (name : NamespacedName)
  | adopt (name : NamespacedName)

/-- The part of the state that the log is about. -/
structure Record where
  statusCache : Status.Cache
  orphaned : List NamespacedName

/-- The part of a state that the log is about. -/
def State.record (st : State) : Record where
  statusCache := st.dag.statusCache
  orphaned := st.orphaned

namespace Record

/-- Apply one change. -/
def apply (r : Record) : Event → Record
  | .commit update => { r with statusCache := r.statusCache.commitProxy update }
  | .orphan name =>
    { r with orphaned := if name ∈ r.orphaned then r.orphaned else name :: r.orphaned }
  | .adopt name => { r with orphaned := r.orphaned.filter (· ≠ name) }

/-- Apply a log, the first change first. -/
def applyAll (r : Record) (log : List Event) : Record := log.foldl apply r

@[simp]
theorem applyAll_nil (r : Record) : r.applyAll [] = r := rfl

@[simp]
theorem applyAll_append (r : Record) (log log' : List Event) :
    r.applyAll (log ++ log') = (r.applyAll log).applyAll log' :=
  foldl_append

end Record

variable (lib : Stdlib) (ord : MapOrder) (p : HTTPProxyProcessor) (source : KubernetesCache)
  (root : Root) (enforceTLS : Bool)

/-! ## Includes -/

/-- The condition with which a call returns that started with a fresh one. -/
def callCondition (fuel : Nat) (c : Call) : DetailedCondition :=
  (computeRoutes lib ord p source root enforceTLS fuel c.visited { dag := {} }
    (Status.Cache.proxyAccessor c.pos.proxy).conditionFor c.pos).validCond

/-- The update that is committed for the proxy of a call. -/
def callUpdate (fuel : Nat) (c : Call) : ProxyUpdate :=
  { Status.Cache.proxyAccessor c.pos.proxy with
    valid := some (callCondition lib ord p source root enforceTLS fuel c) }

/-- What following one include adds to the log; `below` is the log of the call for the
included proxy. -/
def includeLog (fuel : Nat) (below : Call → List Event) (c : Call) (inc : Include) : List Event :=
  match followed lib source c.pos.proxy inc with
  | none => []
  | some included =>
    below (c.child inc included) ++
      [.commit (callUpdate lib ord p source root enforceTLS fuel (c.child inc included)),
        .adopt (nameOf included)]

/-- The log of a call. -/
def callLog : Nat → Call → List Event
  | 0, _ => []
  | fuel + 1, c =>
    if OnPath c.visited c.pos.proxy ∨ includeMatchConditionsIdentical c.pos.proxy.includes then []
    else
      c.pos.proxy.includes.flatMap
        (includeLog lib ord p source root enforceTLS fuel (callLog fuel) c)

variable {lib ord p source root enforceTLS}

variable (lib ord p source root enforceTLS) in
/-- The condition with which a call returns does not depend on the state. -/
theorem computeRoutes_validCond_eq (fuel : Nat) (visited : List HTTPProxy) (st st' : State)
    (vc : DetailedCondition) (pos : Position) :
    (computeRoutes lib ord p source root enforceTLS fuel visited st vc pos).validCond =
      (computeRoutes lib ord p source root enforceTLS fuel visited st' vc pos).validCond :=
  computeRoutes_kept lib ord p source root enforceTLS keptByRecording_eq fuel visited st st' rfl pos

theorem computeInclude_record (hbelow : ∀ (c' : Call) (st : State) (vc : DetailedCondition),
      (computeRoutes lib ord p source root enforceTLS fuel c'.visited st vc c'.pos).state.record =
        st.record.applyAll (callLog lib ord p source root enforceTLS fuel c')) (v : Visit)
    (inc : Include) :
    (computeInclude lib source (computeRoutes lib ord p source root enforceTLS fuel
        (c.visited ++ [c.pos.proxy])) root c.pos v inc).state.record =
      v.state.record.applyAll (includeLog lib ord p source root enforceTLS fuel
        (callLog lib ord p source root enforceTLS fuel) c inc) := by
  rcases computeInclude_eq lib source root c.pos inc with
    ⟨included, hfollowed, heq⟩ | ⟨hnone, type, reason, message, -, heq⟩
  · have hrecord := hbelow (c.child inc included) v.state
      (Status.Cache.proxyAccessor included).conditionFor
    have hcond := computeRoutes_validCond_eq lib ord p source root enforceTLS fuel
      (c.visited ++ [c.pos.proxy]) v.state { dag := {} }
      (Status.Cache.proxyAccessor included).conditionFor
      { proxy := included, chain := c.pos.chain ++ [inc.conditions] }
    rw [heq, includeLog, hfollowed]
    dsimp only
    rw [Record.applyAll_append, ← hrecord, hcond]
    rfl
  · rw [heq, includeLog, hnone]
    rfl

/-- The log of a call is what the call does to the record. -/
theorem computeRoutes_record (fuel : Nat) (c : Call) (st : State) (vc : DetailedCondition) :
    (computeRoutes lib ord p source root enforceTLS fuel c.visited st vc c.pos).state.record =
      st.record.applyAll (callLog lib ord p source root enforceTLS fuel c) := by
  induction fuel generalizing c st vc with
  | zero => rfl
  | succ fuel ih =>
    rw [callLog]
    rcases call_cases c with honPath | ⟨hfresh, hsame⟩ | hexpands
    · rw [computeRoutes_of_onPath honPath, if_pos (.inl honPath)]
      rfl
    · rw [computeRoutes_of_identical hfresh hsame, if_pos (.inr hsame)]
      rfl
    · have hloop : ∀ (incs : List Include) (v : Visit),
          (incs.foldl (computeInclude lib source (computeRoutes lib ord p source root enforceTLS
            fuel (c.visited ++ [c.pos.proxy])) root c.pos) v).state.record =
          v.state.record.applyAll (incs.flatMap (includeLog lib ord p source root enforceTLS fuel
            (callLog lib ord p source root enforceTLS fuel) c)) := by
        intro incs
        induction incs with
        | nil => exact fun _ => rfl
        | cons inc rest ihrest =>
          intro v
          rw [foldl_cons, ihrest, computeInclude_record ih, flatMap_cons, Record.applyAll_append]
      have hvisit := hloop c.pos.proxy.includes { state := st, validCond := vc }
      rw [computeRoutes_of_expands hexpands, takeRoutes, if_neg]
      · split <;> exact hvisit
      · rintro (honPath | hsame)
        · exact hexpands.fresh honPath
        · rw [hexpands.distinct] at hsame
          cases hsame

theorem callUpdate_fuel {n m : Nat} (hn : Enough source n c.visited)
    (hm : Enough source m c.visited) (hpath : IsPath source c.visited)
    (hcached : Cached source c.pos.proxy) :
    callUpdate lib ord p source root enforceTLS n c =
      callUpdate lib ord p source root enforceTLS m c := by
  rw [callUpdate, callCondition, computeRoutes_fuel lib ord p root enforceTLS hn hm hpath _ _
    hcached, callUpdate, callCondition]

/-- The log of a call: every call below it commits the update of its proxy and adopts it. -/
theorem mem_callLog (hfuel : Enough source fuel c.visited) (hpath : IsPath source c.visited)
    (hcached : Cached source c.pos.proxy) {e : Event} :
    e ∈ callLog lib ord p source root enforceTLS fuel c ↔
      ∃ c', Relation.TransGen (Call.Step lib source) c c' ∧
        (e = .commit (callUpdate lib ord p source root enforceTLS (includeFuel source) c') ∨
          e = .adopt (nameOf c'.pos.proxy)) := by
  induction fuel generalizing c with
  | zero =>
    obtain ⟨_, hzero⟩ := hfuel.pos hpath
    cases hzero
  | succ fuel ih =>
    rw [exists_transGen_iff, callLog]
    split
    · next hends =>
      refine iff_of_false not_mem_nil ?_
      rintro ⟨c₁, ⟨hexpands, -, -⟩, -⟩
      rw [hexpands.distinct] at hends
      exact hends.elim hexpands.fresh nofun
    · next hgoes =>
      have hexpands : c.Expands := by
        rw [not_or, Bool.not_eq_true] at hgoes
        exact ⟨hgoes.1, hgoes.2⟩
      let ofCall (c' : Call) : Prop :=
        e = .commit (callUpdate lib ord p source root enforceTLS (includeFuel source) c') ∨
          e = .adopt (nameOf c'.pos.proxy)
      have hinclude : ∀ inc included, followed lib source c.pos.proxy inc = some included →
          (e ∈ includeLog lib ord p source root enforceTLS fuel
              (callLog lib ord p source root enforceTLS fuel) c inc ↔
            ofCall (c.child inc included) ∨
              ∃ c', Relation.TransGen (Call.Step lib source) (c.child inc included) c' ∧
                ofCall c') := by
        intro inc included hfollowed
        have hfuel' : Enough source fuel (c.child inc included).visited := hfuel.concat c.pos.proxy
        have hpath' : IsPath source (c.child inc included).visited :=
          hpath.concat hcached hexpands.fresh
        have hcached' := cached_of_followed hfollowed
        rw [includeLog, hfollowed, mem_append, ih hfuel' hpath' hcached',
          callUpdate_fuel hfuel' (enough_includeFuel source _) hpath' hcached', or_comm,
          mem_pair]
        rfl
      rw [mem_flatMap]
      constructor
      · rintro ⟨inc, hinc, he⟩
        cases hfollowed : followed lib source c.pos.proxy inc with
        | none => simp [includeLog, hfollowed] at he
        | some included =>
          exact ⟨_, .follow hexpands hinc hfollowed, (hinclude inc included hfollowed).mp he⟩
      · rintro ⟨c₁, ⟨-, hinc, hfollowed⟩, he⟩
        exact ⟨_, hinc, (hinclude _ _ hfollowed).mpr he⟩

/-! ## TCP proxies -/

section

variable (lib p source) (host : String)

/-- The condition with which a call for a TCP proxy returns that started with a fresh
one. -/
def tcpCondition (fuel : Nat) (c : TCPCall) : DetailedCondition :=
  (processHTTPProxyTCPProxy lib p source host fuel c.visited
    { state := { dag := {} }
      validCond := (Status.Cache.proxyAccessor c.httpproxy).conditionFor } c.httpproxy).2.validCond

/-- The update that is committed for the proxy of a call. -/
def tcpUpdate (fuel : Nat) (c : TCPCall) : ProxyUpdate :=
  { Status.Cache.proxyAccessor c.httpproxy with
    valid := some (tcpCondition lib p source host fuel c) }

/-- The log of a call for a TCP proxy. -/
def tcpLog : Nat → TCPCall → List Event
  | 0, _ => []
  | fuel + 1, c =>
    match tcpFollowed source c.httpproxy with
    | none => []
    | some dest =>
      .adopt (namespacedNameOf dest.toObjectMeta) ::
        if OnPath c.path dest then []
        else
          tcpLog fuel { visited := c.path, httpproxy := dest } ++
            [.commit (tcpUpdate lib p source host fuel { visited := c.path, httpproxy := dest })]

variable {lib p source host}

section

variable {K E : DetailedCondition → DetailedCondition → Prop} (hkept : KeptByRecording K E)
  {vc' vc : DetailedCondition}

/-- Two answers that are the same, with related conditions. -/
def SameAnswer (K : DetailedCondition → DetailedCondition → Prop) (a b : Bool × ProxyState) :
    Prop :=
  a.1 = b.1 ∧ K a.2.validCond b.2.validCond

include hkept

variable (lib) in
theorem tcpLoadBalancerPolicy_same (tcpproxy : TCPProxySpec) (h : K vc vc') :
    (tcpLoadBalancerPolicy lib tcpproxy vc).1 = (tcpLoadBalancerPolicy lib tcpproxy vc').1 ∧
      K (tcpLoadBalancerPolicy lib tcpproxy vc).2 (tcpLoadBalancerPolicy lib tcpproxy vc').2 := by
  unfold tcpLoadBalancerPolicy
  split
  · exact ⟨rfl, hkept.warned _ _ _ _ _ h⟩
  · exact ⟨rfl, hkept.warned _ _ _ _ _ h⟩
  · exact ⟨rfl, h⟩

/-- What a call records at its end keeps conditions related. -/
theorem TCPEnds.kept {httpproxy : HTTPProxy} {outcome : Option (Option (List Cluster))}
    {record : DetailedCondition → DetailedCondition}
    (h : TCPEnds lib p source httpproxy outcome record) (hvc : K vc vc') :
    K (record vc) (record vc') := by
  cases h with
  | nothing => exact hvc
  | rejected tcpproxy warns reason message hroute =>
    refine hkept.addError ?_ hroute reason message
    cases warns with
    | false => exact hvc
    | true => exact (tcpLoadBalancerPolicy_same lib hkept tcpproxy hvc).2
  | clusters => exact (tcpLoadBalancerPolicy_same lib hkept _ hvc).2

variable (lib p source host) in
/-- A call answers the same whatever the states hold, and keeps conditions related. -/
theorem processHTTPProxyTCPProxy_kept (fuel : Nat) (visited : List HTTPProxy)
    {s s' : ProxyState} (h : K s.validCond s'.validCond) (httpproxy : HTTPProxy) :
    SameAnswer K (processHTTPProxyTCPProxy lib p source host fuel visited s httpproxy)
      (processHTTPProxyTCPProxy lib p source host fuel visited s' httpproxy) := by
  constructor
  · have hanswer := fun s => (processHTTPProxyTCPProxy_follows lib p source host fuel visited s
      httpproxy).answer
    exact (hanswer s).trans (hanswer s').symm
  · cases fuel with
    | zero => exact h
    | succ fuel =>
      cases hfollowed : tcpFollowed source httpproxy with
      | none =>
        obtain ⟨outcome, record, hends, hanswer⟩ := exists_tcpEnds lib p hfollowed
        rw [(hanswer fuel visited).2, (hanswer fuel visited).2]
        have hrecord := hends.kept hkept h
        rcases outcome with - | - | clusters
        all_goals exact hrecord
      | some dest =>
        obtain ⟨tcpproxy, -, htcp, -⟩ := tcpFollowed_eq_some hfollowed
        have hwarned := (tcpLoadBalancerPolicy_same lib hkept tcpproxy h).2
        rw [processHTTPProxyTCPProxy_followed host fuel visited _ htcp hfollowed,
          processHTTPProxyTCPProxy_followed host fuel visited _ htcp hfollowed]
        split
        · exact hkept.addError hwarned (by decide) _ _
        · exact hwarned

end

variable (lib p source host) in
/-- The answer of a call and its condition do not depend on the state. -/
theorem processHTTPProxyTCPProxy_eq (fuel : Nat) (visited : List HTTPProxy) (st st' : State)
    (vc : DetailedCondition) (httpproxy : HTTPProxy) :
    SameAnswer Eq
      (processHTTPProxyTCPProxy lib p source host fuel visited { state := st, validCond := vc }
        httpproxy)
      (processHTTPProxyTCPProxy lib p source host fuel visited { state := st', validCond := vc }
        httpproxy) :=
  processHTTPProxyTCPProxy_kept lib p source host keptByRecording_eq fuel visited
    (show vc = vc from rfl) httpproxy

/-- The log of a call is what the call does to the record. -/
theorem processHTTPProxyTCPProxy_record (fuel : Nat) (c : TCPCall) (s : ProxyState) :
    (processHTTPProxyTCPProxy lib p source host fuel c.visited s c.httpproxy).2.state.record =
      s.state.record.applyAll (tcpLog lib p source host fuel c) := by
  induction fuel generalizing c s with
  | zero => rfl
  | succ fuel ih =>
    rw [tcpLog]
    cases hfollowed : tcpFollowed source c.httpproxy with
    | none =>
      obtain ⟨outcome, record, -, hends⟩ := exists_tcpEnds lib p hfollowed
      rw [(hends fuel c.visited).2]
      rcases outcome with - | - | clusters
      all_goals rfl
    | some dest =>
      obtain ⟨tcpproxy, -, htcp, -⟩ := tcpFollowed_eq_some hfollowed
      rw [processHTTPProxyTCPProxy_followed host fuel c.visited s htcp hfollowed]
      dsimp only
      by_cases hcycle : OnPath c.path dest
      · rw [if_pos hcycle, if_pos (show OnPath (c.visited ++ [c.httpproxy]) dest from hcycle)]
        rfl
      rw [if_neg hcycle, if_neg (show ¬ OnPath (c.visited ++ [c.httpproxy]) dest from hcycle)]
      -- The included proxy is adopted first, then its call runs, then it is committed.
      let st : State := { s.state with
        orphaned := s.state.orphaned.filter (· ≠ namespacedNameOf dest.toObjectMeta) }
      have hbelow := ih { visited := c.path, httpproxy := dest }
        { state := st, validCond := (Status.Cache.proxyAccessor dest).conditionFor }
      have hcond := (processHTTPProxyTCPProxy_eq lib p source host fuel c.path st
        { dag := {} } (Status.Cache.proxyAccessor dest).conditionFor dest).2
      rw [Record.applyAll, foldl_cons, foldl_append]
      refine Eq.trans ?_ (congrArg (Record.applyAll · _) hbelow)
      rw [tcpUpdate, tcpCondition, ← hcond]
      rfl

theorem tcpUpdate_fuel {n m : Nat} {c : TCPCall} (hn : Enough source n c.visited)
    (hm : Enough source m c.visited) (hpath : IsPath source c.path) :
    tcpUpdate lib p source host n c = tcpUpdate lib p source host m c := by
  rw [tcpUpdate, tcpCondition, processHTTPProxyTCPProxy_fuel host hn hm hpath, tcpUpdate,
    tcpCondition]

/-- The log of a call: the call and every call below it adopt the proxy that their include
leads to, and every call below it commits the update of its proxy. -/
theorem mem_tcpLog {c : TCPCall} (hfuel : Enough source fuel c.visited)
    (hpath : IsPath source c.path) {e : Event} :
    e ∈ tcpLog lib p source host fuel c ↔
      (∃ c' dest, Relation.ReflTransGen (TCPCall.Step source) c c' ∧
        tcpFollowed source c'.httpproxy = some dest ∧
        e = .adopt (namespacedNameOf dest.toObjectMeta)) ∨
      ∃ c', Relation.TransGen (TCPCall.Step source) c c' ∧
        e = .commit (tcpUpdate lib p source host (includeFuel source) c') := by
  simp only [exists_and_left]
  induction fuel generalizing c with
  | zero =>
    have hlength := hpath.length_le
    rw [TCPCall.path, length_append, length_singleton] at hlength
    rw [Enough] at hfuel
    omega
  | succ fuel ih =>
    rw [exists_reflTransGen_iff, exists_transGen_iff, tcpLog]
    simp only [TCPCall.step_iff]
    cases hfollowed : tcpFollowed source c.httpproxy with
    | none => simp
    | some dest =>
      by_cases hcycle : OnPath c.path dest
      · simp [hcycle]
      have hpath' : IsPath source (TCPCall.path { visited := c.path, httpproxy := dest }) :=
        hpath.concat (cached_of_tcpFollowed hfollowed) hcycle
      have hfuel' : Enough source fuel c.path := hfuel.concat c.httpproxy
      dsimp only
      rw [if_neg hcycle, mem_cons, mem_append, mem_singleton, ih hfuel' hpath',
        tcpUpdate_fuel (c := ⟨c.path, dest⟩) hfuel' (enough_includeFuel source _) hpath']
      simp [hcycle, or_assoc, or_comm, or_left_comm]

end

end Sesame.Dag.HTTPProxyProcessor
