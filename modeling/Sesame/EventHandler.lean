/-
# The event handler

`EventHandler.Start` is one goroutine. It applies informer events to the cache,
delays the rebuild with a holdoff timer that every accepted event replaces, and
rebuilds the DAG when the pending timer has fired. A timer that is stopped too late
keeps a value in its channel, but the loop no longer looks at that channel.

A run interleaves events, expiring timers and rebuilds in any order. The invariant
relates the counter, the pending timer and the cache to the history of the run. The cache
in turn mirrors what it was told of the API server, as far as it accepts it; it has one
place for a Gateway and one for its class.
-/

import Sesame.Lib.Transition
import Sesame.Dag.Builder
import Sesame.Dag.CacheRuns

namespace Sesame

open Lib Dag Api

/-! ## Events -/

/-- What arrives on the update channel: `opAdd`, `opUpdate`, `opDelete`, the `bool`
of `OnElectedLeader`, or anything else. -/
inductive Op
  | add (obj : Object)
  | update (oldObj newObj : Object)
  | delete (obj : Object)
  | elected (value : Bool)
  | other

/-- An event with what it finds when it is received: the orders of the maps it
ranges over, and the time since the last rebuild. -/
structure Event where
  op : Op
  ord : MapOrder
  sinceRebuild : Int64

/-- `onUpdate`: the answer and the cache. The comparison of two versions of an object
leaves out status, resource version and managed fields. -/
def onUpdate (lib : Stdlib) (equal : Object → Object → Bool) (kc : KubernetesCache)
    (event : Event) : Except Panic (Bool × KubernetesCache) :=
  match event.op with
  | .add obj => kc.insert event.ord lib obj
  | .update oldObj newObj =>
    if equal oldObj newObj then .ok (false, kc)
    else
      let (remove, kc) := kc.remove oldObj
      (kc.insert event.ord lib newObj).map fun result => (remove || result.1, result.2)
  | .delete obj => .ok (kc.remove obj)
  | .elected value => .ok (value, kc)
  | .other => .ok (false, kc)

/-- The cache after a list of events. -/
def cacheAfter (lib : Stdlib) (equal : Object → Object → Bool) (kc : KubernetesCache)
    (events : List Event) : Except Panic KubernetesCache :=
  events.foldlM (fun kc event => (onUpdate lib equal kc event).map Prod.snd) kc

/-! ## The loop -/

/-- A timer runs, has a value in its channel, was stopped in time, or its value was
received. -/
inductive TimerState
  | armed
  | fired
  | stopped
  | drained
  deriving DecidableEq

/-- A holdoff timer. -/
structure Timer where
  delay : Int64
  state : TimerState := .armed

def Timer.stop (t : Timer) : Timer :=
  if t.state = .armed then { t with state := .stopped } else t

/-- The timer will deliver a value, or has delivered it into its channel. -/
def Timer.Due (t : Timer) : Prop := t.state = .armed ∨ t.state = .fired

/-- One entry of the history of a run. -/
inductive Entry
  | received (event : Event) (accepted : Bool)
  | rebuilt (dag : DAG)

/-- The configuration of an `EventHandler`. -/
structure EventHandler where
  builder : DagBuilderConfig := {}
  holdoffDelay : Int64 := 0
  holdoffMaxDelay : Int64 := 0

/-- The state of `Start`, with all timers it made; `timer` and `pending` are
positions in their list. The history has the newest entry first. -/
structure Loop where
  cache : KubernetesCache
  outstanding : Nat := 0
  timers : List Timer := []
  timer : Option Nat := none
  pending : Option Nat := none
  seq : Nat := 0
  sequence : Option Nat := none
  running : Bool := true
  history : List Entry := []

namespace Loop

/-- `incSequence`: the send does not wait for a receiver. -/
def incSequence (l : Loop) : Loop :=
  { l with seq := l.seq + 1, sequence := l.sequence.or (some (l.seq + 1)) }

/-- Replace the timer: the old one is stopped, and the loop waits for the new one. -/
def startTimer (l : Loop) (delay : Int64) : Loop :=
  let timers := l.timer.elim l.timers fun i => l.timers.modify i Timer.stop
  { l with
    timers := timers ++ [{ delay }]
    timer := some timers.length
    pending := some timers.length }

/-- The timer at `i` expires. -/
def fire (l : Loop) (i : Nat) : Option Loop :=
  match l.timers[i]? with
  | some t =>
    if t.state = .armed then
      some { l with timers := l.timers.set i { t with state := .fired } }
    else none
  | none => none

def receivePending (l : Loop) : Option Loop :=
  match l.pending with
  | none => none
  | some i =>
    match l.timers[i]? with
    | some t =>
      if t.state = .fired then
        some { l with timers := l.timers.set i { t with state := .drained } }
      else none
    | none => none

end Loop

namespace EventHandler

variable (lib : Stdlib) (equal : Object → Object → Bool) (e : EventHandler)

variable {i : Nat}

/-- The delay of the next timer. -/
def delay (sinceRebuild : Int64) : Int64 :=
  if e.holdoffMaxDelay < sinceRebuild then 0 else e.holdoffDelay

/-- The branch of the loop that receives an event. -/
def receive (l : Loop) (event : Event) : Option Loop :=
  match onUpdate lib equal l.cache event with
  | .error _ => none
  | .ok (true, cache) =>
    let l := { l with cache, outstanding := l.outstanding + 1 }
    some { l.startTimer (e.delay event.sinceRebuild) with
      history := .received event true :: l.history }
  | .ok (false, cache) =>
    some ({ l with cache, history := .received event false :: l.history }.incSequence)

/-- The branch of the loop that rebuilds; reading the counter for the log message
resets it. -/
def rebuild (l : Loop) (ord : MapOrder) : Option Loop :=
  l.receivePending.bind fun l =>
    let l := { l with outstanding := 0 }
    match Builder.build lib ord e.builder l.cache with
    | .error _ => none
    | .ok latestDAG => some ({ l with history := .rebuilt latestDAG :: l.history }.incSequence)

inductive Action
  | receive (event : Event)
  | fire (i : Nat)
  | rebuild (ord : MapOrder)
  | readSequence
  | stop

/-- `Start`, from a cache; a step that panics is not enabled. -/
def start (kc : KubernetesCache) : Machine Loop Action where
  init := { cache := kc }
  step l action :=
    match action with
    | .fire i => l.fire i
    | .readSequence => some { l with sequence := none }
    | .receive event => if l.running then receive lib equal e l event else none
    | .rebuild ord => if l.running then rebuild lib e l ord else none
    | .stop => if l.running then some { l with running := false } else none

/-! ## What the history says -/

/-- The number of accepted events since the last rebuild. -/
def acceptedSince : List Entry → Nat
  | [] => 0
  | .rebuilt _ :: _ => 0
  | .received _ true :: history => acceptedSince history + 1
  | .received _ false :: history => acceptedSince history

def eventsOf (history : List Entry) : List Event :=
  history.reverse.filterMap fun
    | .received event _ => some event
    | .rebuilt _ => none

theorem eventsOf_received (event : Event) (accepted : Bool) (history : List Entry) :
    eventsOf (.received event accepted :: history) = eventsOf history ++ [event] := by
  simp [eventsOf]

theorem eventsOf_rebuilt (dag : DAG) (history : List Entry) :
    eventsOf (.rebuilt dag :: history) = eventsOf history := by
  simp [eventsOf]

/-- The invariant of the loop. -/
structure Sound (kc : KubernetesCache) (l : Loop) : Prop where
  scheduled : 0 < l.outstanding → ∃ i t, l.pending = some i ∧ l.timers[i]? = some t ∧ t.Due
  counted : l.outstanding = acceptedSince l.history
  cached : cacheAfter lib equal kc (eventsOf l.history) = .ok l.cache
  rebuilt : ∀ later earlier dag, l.history = later ++ .rebuilt dag :: earlier →
    ∃ cache ord, cacheAfter lib equal kc (eventsOf earlier) = .ok cache ∧
      Builder.build lib ord e.builder cache = .ok dag

/-- The loop can go on to a rebuild from the current cache, with no event in between. -/
def RebuildFollows (kc : KubernetesCache) (l : Loop) : Prop :=
  ∀ ord dag, Builder.build lib ord e.builder l.cache = .ok dag →
    ∃ schedule l', (start lib equal e kc).replay (fun _ _ => True) l schedule = some l' ∧
      l'.history = .rebuilt dag :: l.history ∧ l'.outstanding = 0

variable {lib equal e} {kc : KubernetesCache} {l l' : Loop}

/-! ## The steps -/

theorem cacheAfter_concat {events : List Event} {event : Event} {answer : Bool}
    {cache cache' : KubernetesCache} (hbefore : cacheAfter lib equal kc events = .ok cache)
    (hevent : onUpdate lib equal cache event = .ok (answer, cache')) :
    cacheAfter lib equal kc (events ++ [event]) = .ok cache' := by
  rw [cacheAfter, List.foldlM_append, ← cacheAfter, hbefore, ok_bind, List.foldlM_cons, hevent]
  rfl

/-- The rebuilds of a history with one more event are those of the history. -/
theorem Sound.rebuilt_received (h : Sound lib equal e kc l) (event : Event) (accepted : Bool) :
    ∀ later earlier dag, .received event accepted :: l.history = later ++ .rebuilt dag :: earlier →
      ∃ cache ord, cacheAfter lib equal kc (eventsOf earlier) = .ok cache ∧
        Builder.build lib ord e.builder cache = .ok dag := by
  intro later earlier dag heq
  cases later with
  | nil => cases heq
  | cons entry later =>
    obtain ⟨-, hrest⟩ := List.cons.inj heq
    exact h.rebuilt later earlier dag hrest

theorem Sound.receive (h : Sound lib equal e kc l) {event : Event}
    (hstep : receive lib equal e l event = some l') : Sound lib equal e kc l' := by
  unfold EventHandler.receive at hstep
  split at hstep
  · cases hstep
  · next cache hupdate =>
    cases hstep
    refine ⟨fun _ => ⟨_, { delay := e.delay event.sinceRebuild }, rfl, ?_, .inl rfl⟩, ?_, ?_,
      h.rebuilt_received event true⟩
    · exact List.getElem?_concat_length
    · exact congrArg (· + 1) h.counted
    · rw [eventsOf_received]
      exact cacheAfter_concat h.cached hupdate
  · next cache hupdate =>
    cases hstep
    refine ⟨h.scheduled, h.counted, ?_, h.rebuilt_received event false⟩
    show cacheAfter lib equal kc (eventsOf (.received event false :: l.history)) = .ok cache
    rw [eventsOf_received]
    exact cacheAfter_concat h.cached hupdate

/-- A timer that expires changes its own state only. -/
theorem fire_eq (hstep : l.fire i = some l') :
    ∃ t, l.timers[i]? = some t ∧ t.state = .armed ∧
      l' = { l with timers := l.timers.set i { t with state := .fired } } := by
  unfold Loop.fire at hstep
  split at hstep
  · next t ht =>
    split at hstep
    · next harmed => exact ⟨t, ht, harmed, (Option.some.inj hstep).symm⟩
    · cases hstep
  · cases hstep

theorem Sound.fire (h : Sound lib equal e kc l) (hstep : l.fire i = some l') :
    Sound lib equal e kc l' := by
  obtain ⟨t, ht, -, rfl⟩ := fire_eq hstep
  refine ⟨fun hout => ?_, h.counted, h.cached, h.rebuilt⟩
  obtain ⟨j, t', hpending, ht', hdue⟩ := h.scheduled hout
  by_cases hij : i = j
  · subst hij
    refine ⟨i, { t with state := .fired }, hpending, ?_, .inr rfl⟩
    exact List.getElem?_set_self (List.getElem?_eq_some_iff.mp ht).1
  · refine ⟨j, t', hpending, ?_, hdue⟩
    rw [← ht']
    exact List.getElem?_set_ne hij

/-- A rebuild needs a pending timer that has fired, and takes its value. -/
theorem receivePending_eq (hstep : l.receivePending = some l') :
    ∃ i t, l.pending = some i ∧ l.timers[i]? = some t ∧ t.state = .fired ∧
      l' = { l with timers := l.timers.set i { t with state := .drained } } := by
  unfold Loop.receivePending at hstep
  split at hstep
  · cases hstep
  rename_i i hpending
  split at hstep
  · next t ht =>
    split at hstep
    · next hfired => exact ⟨i, t, hpending, ht, hfired, (Option.some.inj hstep).symm⟩
    · cases hstep
  · cases hstep

theorem Sound.rebuild (h : Sound lib equal e kc l) {ord : MapOrder}
    (hstep : rebuild lib e l ord = some l') : Sound lib equal e kc l' := by
  obtain ⟨received, hreceived, hbuild⟩ := Option.bind_eq_some_iff.mp hstep
  obtain ⟨i, t, -, -, -, rfl⟩ := receivePending_eq hreceived
  dsimp only at hbuild
  split at hbuild
  · cases hbuild
  rename_i dag hdag
  cases hbuild
  refine ⟨fun hout => absurd hout (lt_irrefl 0), rfl, ?_, ?_⟩
  · show cacheAfter lib equal kc (eventsOf (.rebuilt dag :: l.history)) = .ok l.cache
    rw [eventsOf_rebuilt]
    exact h.cached
  · intro later earlier dag' heq
    cases later with
    | nil =>
      -- The newest rebuild is from the cache of this state.
      cases heq
      exact ⟨l.cache, ord, h.cached, hdag⟩
    | cons entry later =>
      obtain ⟨-, hrest⟩ := List.cons.inj heq
      exact h.rebuilt later earlier dag' hrest

theorem Sound.step (h : Sound lib equal e kc l) {action : Action}
    (hstep : (start lib equal e kc).step l action = some l') : Sound lib equal e kc l' := by
  cases action with
  | fire i => exact h.fire hstep
  | readSequence =>
    cases hstep
    exact { h with }
  | receive event =>
    obtain ⟨-, hstep⟩ := Option.ite_none_right_eq_some.mp hstep
    exact h.receive hstep
  | rebuild ord =>
    obtain ⟨-, hstep⟩ := Option.ite_none_right_eq_some.mp hstep
    exact h.rebuild hstep
  | stop =>
    obtain ⟨-, hstep⟩ := Option.ite_none_right_eq_some.mp hstep
    cases hstep
    exact { h with }

/-! ## Runs -/

/-- Once the pending timer has fired, the loop rebuilds. -/
theorem rebuild_of_fired {t : Timer} (hpending : l.pending = some i) (ht : l.timers[i]? = some t)
    (hfired : t.state = .fired) {ord : MapOrder} {dag : DAG}
    (hbuild : Builder.build lib ord e.builder l.cache = .ok dag) :
    ∃ l', rebuild lib e l ord = some l' ∧ l'.history = .rebuilt dag :: l.history ∧
      l'.outstanding = 0 := by
  have hreceived : l.receivePending =
      some { l with timers := l.timers.set i { t with state := .drained } } := by
    simp only [Loop.receivePending, hpending, ht, hfired, if_true]
  rw [EventHandler.rebuild, hreceived, Option.bind_some]
  simp only [hbuild]
  exact ⟨_, rfl, rfl, rfl⟩

/-- While events are outstanding, the rebuild that covers them is due. -/
theorem Sound.rebuildFollows (h : Sound lib equal e kc l) (hrunning : l.running = true)
    (hout : 0 < l.outstanding) : RebuildFollows lib equal e kc l := by
  intro ord dag hbuild
  obtain ⟨i, t, hpending, ht, harmed | hfired⟩ := h.scheduled hout
  · let fired : Loop := { l with timers := l.timers.set i { t with state := .fired } }
    have hfire : l.fire i = some fired := by
      simp only [Loop.fire, ht, harmed, if_true, fired]
    have htimer : fired.timers[i]? = some { t with state := .fired } :=
      List.getElem?_set_self (List.getElem?_eq_some_iff.mp ht).1
    obtain ⟨l', hl', hhistory, hnone⟩ :=
      rebuild_of_fired (e := e) (l := fired) hpending htimer rfl hbuild
    refine ⟨[.fire i, .rebuild ord], l', ?_, hhistory, hnone⟩
    have hrunning' : fired.running = true := hrunning
    simp [Machine.replay, start, hfire, hrunning', hl']
  · obtain ⟨l', hl', hhistory, hnone⟩ := rebuild_of_fired hpending ht hfired hbuild
    refine ⟨[.rebuild ord], l', ?_, hhistory, hnone⟩
    simp [Machine.replay, start, hrunning, hl']

/-- In every state of a run: while events are outstanding the pending timer is due and
the loop can go on to a rebuild, the counter is the number of accepted events since the last
rebuild, the cache has the effect of every event received, and every rebuild was made
from the effect of every event received before it. -/
theorem start_sound (lib : Stdlib) (equal : Object → Object → Bool) (e : EventHandler)
    {kc : KubernetesCache} {l : Loop} (hreach : (start lib equal e kc).Reachable l) :
    Sound lib equal e kc l ∧
      (l.running = true → 0 < l.outstanding → RebuildFollows lib equal e kc l) := by
  have hsound : Sound lib equal e kc l := by
    refine Machine.ReachableBy.invariant ?_ (fun h _ hstep => h.step hstep) hreach
    refine ⟨fun hout => absurd hout (lt_irrefl 0), rfl, rfl, ?_⟩
    intro later earlier dag heq
    exact absurd heq.symm (List.append_ne_nil_of_right_ne_nil _ (List.cons_ne_nil _ _))
  exact ⟨hsound, hsound.rebuildFollows⟩

/-- Add a namespace, let the timer expire, and delete the namespace before the loop
looks at the timer: one rebuild covers both events. -/
theorem rebuild_covers_late_event :
    ∃ l, (start .plain (fun _ _ => false) {} {}).Reachable l ∧
      (l.outstanding = 0 ∧ (eventsOf l.history).length = 2 ∧ l.timers.length = 2) ∧
      Sound .plain (fun _ _ => false) {} {} l := by
  have hrun : ∃ l, (start .plain (fun _ _ => false) {} {}).Reachable l ∧
      l.outstanding = 0 ∧ (eventsOf l.history).length = 2 ∧ l.timers.length = 2 :=
    Machine.exists_reachableBy
      [.receive
        { op := .add (.namespaceObj { name := "n", ns := "" }), ord := .storage,
          sinceRebuild := 1 },
       .fire 0,
       .receive
        { op := .delete (.namespaceObj { name := "n", ns := "" }), ord := .storage,
          sinceRebuild := 2 },
       .fire 1, .rebuild .storage]
      (by decide +kernel)
  obtain ⟨l, hreach, hl⟩ := hrun
  exact ⟨l, hreach, hl, (start_sound .plain (fun _ _ => false) {} hreach).1⟩

end EventHandler

/-! ## The cache mirrors what it is told -/

/-- The objects told last, by key. -/
abbrev World := Key → Option Object

def World.after (w : World) (op : Op) : World := fun key =>
  match op with
  | .add obj | .update _ obj => if obj.key = some key then some obj else w key
  | .delete obj => if obj.key = some key then none else w key
  | .elected _ | .other => w key

/-- What can be told next: a new object, an object that the cache accepts, as the
controllers of the Gateway API add theirs again and again, or the next version of one. -/
def World.Expects (lib : Stdlib) (ingressClassName : String) (w : World) : Op → Prop
  | .add obj => obj.accepted lib ingressClassName = true ∨ ∀ key ∈ obj.key, w key = none
  | .update oldObj newObj => oldObj.key = newObj.key ∧ ∀ key ∈ oldObj.key, w key = some oldObj
  | .delete _ | .elected _ | .other => True

/-- The events tell of these objects. -/
inductive Tells (lib : Stdlib) (ingressClassName : String) : List Event → World → Prop
  | nothing : Tells lib ingressClassName [] fun _ => none
  | event {events : List Event} {w : World} {event : Event}
      (before : Tells lib ingressClassName events w)
      (expected : w.Expects lib ingressClassName event.op) :
      Tells lib ingressClassName (events ++ [event]) (w.after event.op)

/-- The cache holds the objects that it accepts. -/
def Mirrors (lib : Stdlib) (ingressClassName : String) (w : World) (kc : KubernetesCache) : Prop :=
  kc.ingressClassName = ingressClassName ∧
    ∀ key, kc.find key = (w key).filter (·.accepted lib ingressClassName)

variable {lib : Stdlib} {equal : Object → Object → Bool} {w : World} {kc kc' : KubernetesCache}
  {answer : Bool} {ingressClassName : String}

/-- One event keeps the cache up to date. -/
theorem Mirrors.onUpdate (hequal : ∀ a b, equal a b = true → a = b)
    (h : Mirrors lib ingressClassName w kc) {event : Event}
    (hexpected : w.Expects lib ingressClassName event.op)
    (hupdate : onUpdate lib equal kc event = .ok (answer, kc')) :
    Mirrors lib ingressClassName (w.after event.op) kc' := by
  unfold Sesame.onUpdate at hupdate
  unfold Mirrors World.after at *
  cases hop : event.op with
  | add obj =>
    rw [hop] at hexpected hupdate
    have hstored := KubernetesCache.find_insert hupdate
    grind [World.Expects]
  | delete obj =>
    rw [hop] at hupdate
    obtain rfl : (kc.remove obj).2 = kc' := congrArg Prod.snd (Except.ok.inj hupdate)
    have hcleared := KubernetesCache.find_remove kc obj
    grind
  | elected value | other =>
    rw [hop] at hupdate
    cases hupdate
    exact h
  | update oldObj newObj =>
    rw [hop] at hexpected hupdate
    dsimp only at hupdate
    split at hupdate
    · -- The skipped version is the one that the cache has.
      cases hupdate
      grind [World.Expects]
    · obtain ⟨result, hinsert, heq⟩ := map_eq_ok.mp hupdate
      cases heq
      have hcleared := KubernetesCache.find_remove kc oldObj
      have hstored := KubernetesCache.find_insert hinsert
      grind [World.Expects]

/-- After all that can be told, the cache holds the objects that it accepts, each as
it was told last, and nothing else. What the comparison of two versions leaves out is not
part of the objects here. -/
theorem cacheAfter_mirrors (hequal : ∀ a b, equal a b = true → a = b) {events : List Event}
    (htells : Tells lib ingressClassName events w) {rootNamespaces : List String}
    {configuredSecretRefs : List NamespacedName}
    (hafter : cacheAfter lib equal { rootNamespaces, ingressClassName, configuredSecretRefs }
      events = .ok kc) : Mirrors lib ingressClassName w kc := by
  induction htells generalizing kc with
  | nothing =>
    cases hafter
    refine ⟨rfl, fun key => ?_⟩
    cases key <;> rfl
  | event _ expected ih =>
    rw [cacheAfter, List.foldlM_append, ← cacheAfter] at hafter
    obtain ⟨before, hbefore, hevent⟩ := bind_eq_ok.mp hafter
    obtain ⟨after, hupdate, hnil⟩ := bind_eq_ok.mp hevent
    obtain ⟨result, hresult, rfl⟩ := map_eq_ok.mp hupdate
    cases hnil
    exact (ih hbefore).onUpdate hequal expected hresult

/-- A proxy that moves to another ingress class is no longer in the cache, and a second
Gateway has taken the place of the first. -/
theorem moved_proxy_dropped :
    let proxy : HTTPProxy := { name := "p", ns := "n" }
    let events : List Event := [⟨.add (.httpProxy proxy), .storage, 0⟩,
      ⟨.update (.httpProxy proxy) (.httpProxy { proxy with ingressClassName := "other" }),
        .storage, 0⟩,
      ⟨.add (.gateway { name := "a", ns := "n" }), .storage, 0⟩,
      ⟨.add (.gateway { name := "b", ns := "n" }), .storage, 0⟩]
    ∃ kc, cacheAfter .plain (fun _ _ => false) {} events = .ok kc ∧
      kc.find (.httpProxy ⟨"n", "p"⟩) = none ∧
      kc.find .gateway = some (.gateway { name := "b", ns := "n" }) := by
  intro proxy events
  have hmirrors := cacheAfter_mirrors ?_ (.event (.event (.event (.event .nothing ?_) ?_) ?_) ?_)
    (rfl : cacheAfter .plain (fun _ _ => false) {} events = .ok _)
  · exact ⟨_, rfl, (hmirrors.2 _).trans rfl, (hmirrors.2 _).trans rfl⟩
  · exact fun _ _ h => nomatch h
  · exact .inl rfl
  · exact ⟨rfl, fun _ hkey => if_pos hkey⟩
  · exact .inl rfl
  · exact .inl rfl

end Sesame
