/-
# Snapshots of the xDS caches

`SnapshotHandler.Refresh` and `OnChange` take a version, read the five caches one
after the other, and hand the result to every snapshotter. Only the last part holds a
lock, so calls of several goroutines interleave: a call that took its version and its
contents early can be the last one to generate. Snapshots are in order, and the last one
is current, if every call generates before the calls that took a later version.
-/

import Mathlib.Order.Nat
import Sesame.Lib.Transition

namespace Sesame.XdsCache

open List
open Lib

inductive ResourceType
  | endpoint
  | cluster
  | route
  | listener
  | secret
  deriving DecidableEq

/-- The order in which `generateNewSnapshot` reads the caches. -/
def ResourceType.order : List ResourceType := [.endpoint, .cluster, .route, .listener, .secret]

/-- What a snapshotter is given: the version, before it is formatted, and the
contents by type. -/
structure Snapshot (C : Type) where
  version : Nat
  resources : List (ResourceType × C)
  deriving DecidableEq

/-- A call of `Refresh` or `OnChange`: its caller has updated a cache, or it has its
version and what it read so far, or it is done. -/
inductive Call (C : Type)
  | updated
  | reading (version : Nat) (resources : List (ResourceType × C))
  | done
  deriving DecidableEq

/-- The version of a call that has taken one and has not generated yet. -/
def Call.version? {C : Type} : Call C → Option Nat
  | .reading version _ => some version
  | .updated | .done => none

/-- The caches, the calls, and what every snapshotter was given, newest first. The
history variable `begun` counts the calls that have taken a version. -/
structure SnapshotHandler (C : Type) where
  caches : ResourceType → C
  snapshotVersion : Nat := 0
  calls : List (Call C) := []
  snapshotters : List (List (Snapshot C)) := []
  begun : Nat := 0

def maxInt64 : Nat := 9223372036854775807

/-- What can happen next: a caller updates a cache for the first time or once more,
a call takes a version, reads a cache, or generates. -/
inductive SnapshotStep (C : Type)
  | start (type : ResourceType) (contents : C)
  | update (call : Nat) (type : ResourceType) (contents : C)
  | newVersion (call : Nat)
  | read (call : Nat)
  | generate (call : Nat)

namespace SnapshotHandler

variable {C : Type}

def setCache (s : SnapshotHandler C) (type : ResourceType) (contents : C) : SnapshotHandler C :=
  { s with caches := fun t => if t = type then contents else s.caches t }

def newSnapshotVersion (s : SnapshotHandler C) : Nat :=
  if s.snapshotVersion = maxInt64 then 1 else s.snapshotVersion + 1

/-- The contents of all caches, as a snapshot has them. -/
def current (s : SnapshotHandler C) : List (ResourceType × C) :=
  ResourceType.order.map fun t => (t, s.caches t)

/-- One step; `none` if the call is not at this point. -/
def step (s : SnapshotHandler C) : SnapshotStep C → Option (SnapshotHandler C)
  | .start type contents =>
    some { s.setCache type contents with calls := s.calls ++ [.updated] }
  | .update call type contents =>
    match s.calls[call]? with
    | some .updated => some (s.setCache type contents)
    | _ => none
  | .newVersion call =>
    match s.calls[call]? with
    | some .updated =>
      some { s with
        snapshotVersion := s.newSnapshotVersion
        calls := s.calls.set call (.reading s.newSnapshotVersion [])
        begun := s.begun + 1 }
    | _ => none
  | .read call =>
    match s.calls[call]? with
    | some (.reading version resources) =>
      match ResourceType.order[resources.length]? with
      | some t =>
        some { s with
          calls := s.calls.set call (.reading version (resources ++ [(t, s.caches t)])) }
      | none => none
    | _ => none
  | .generate call =>
    match s.calls[call]? with
    | some (.reading version resources) =>
      if resources.length = ResourceType.order.length then
        some { s with
          calls := s.calls.set call .done
          snapshotters := s.snapshotters.map ({ version, resources } :: ·) }
      else none
    | _ => none

end SnapshotHandler

/-- The calls on a handler with `n` snapshotters. -/
def snapshots {C : Type} (caches : ResourceType → C) (n : Nat) :
    Machine (SnapshotHandler C) (SnapshotStep C) where
  init := { caches, snapshotters := replicate n [] }
  step := SnapshotHandler.step

namespace SnapshotHandler

variable {C : Type} {s s' : SnapshotHandler C}

variable {call version : Nat} {resources : List (ResourceType × C)} {a : SnapshotStep C}

/-- Of the calls that have a version and have not generated, the one with the lowest
version generates. -/
def InOrder (s : SnapshotHandler C) : SnapshotStep C → Prop
  | .generate call => ∀ mine ∈ (s.calls[call]?).bind Call.version?,
      ∀ other ∈ s.calls.filterMap Call.version?, mine ≤ other
  | _ => True

instance (s : SnapshotHandler C) : DecidablePred s.InOrder := by
  intro a
  unfold InOrder
  split <;> infer_instance

/-! ## The invariant -/

/-- Every caller that updated a cache has gone on to take a version. -/
def NoneUpdated (s : SnapshotHandler C) : Prop := ∀ i : Nat, s.calls[i]? ≠ some .updated

/-- The call at `i` is reading. -/
def Reading (s : SnapshotHandler C) (i version : Nat)
    (resources : List (ResourceType × C)) : Prop :=
  s.calls[i]? = some (.reading version resources)

/-- Where the newest version is: not taken yet, with a call that is reading, or in the
last snapshot of every snapshotter. What was read under it is current unless an update
has not taken its version yet. -/
inductive Newest (s : SnapshotHandler C) : Prop
  | untaken (huntaken : ∀ call ∈ s.calls, call = .updated)
  | reading (i : Nat) (resources : List (ResourceType × C))
      (hreading : s.Reading i s.snapshotVersion resources)
      (hcurrent : s.NoneUpdated → ∀ r ∈ resources, r.2 = s.caches r.1)
  | generated (hgenerated : ∀ log ∈ s.snapshotters, ∃ snap rest, log = snap :: rest ∧
      snap.version = s.snapshotVersion ∧ (s.NoneUpdated → snap.resources = s.current))

/-- The invariant of runs in order with at most `maxInt64` calls. -/
structure Ordered (s : SnapshotHandler C) : Prop where
  counted : s.snapshotVersion = s.begun
  taken : ∀ i version resources, s.Reading i version resources → version ≤ s.snapshotVersion
  shape : ∀ i version resources, s.Reading i version resources →
    resources.map Prod.fst = ResourceType.order.take resources.length
  distinct : ∀ i j version resources resources', s.Reading i version resources →
    s.Reading j version resources' → i = j
  increasing : ∀ log ∈ s.snapshotters, (log.map (·.version)).Pairwise (· > ·)
  below : ∀ log ∈ s.snapshotters, ∀ snap ∈ log, snap.version ≤ s.snapshotVersion ∧
    ∀ i version resources, s.Reading i version resources → snap.version < version
  newest : s.Newest

theorem ordered_init (caches : ResourceType → C) (n : Nat) : Ordered (snapshots caches n).init where
  counted := rfl
  taken i version resources h := by simp [Reading, snapshots] at h
  shape i version resources h := by simp [Reading, snapshots] at h
  distinct i j version resources resources' h := by simp [Reading, snapshots] at h
  increasing log hlog := by
    obtain ⟨-, rfl⟩ := mem_replicate.mp hlog
    exact Pairwise.nil
  below log hlog := by
    obtain ⟨-, rfl⟩ := mem_replicate.mp hlog
    intro snap hsnap
    cases hsnap
  newest := .untaken fun call hcall => by cases hcall

/-! ## The steps -/

/-- A step that gives no call a version and generates nothing keeps what the invariant
says about versions. -/
theorem Ordered.of_versions (h : s.Ordered) (hversion : s'.snapshotVersion = s.snapshotVersion)
    (hbegun : s'.begun = s.begun) (hsnapshotters : s'.snapshotters = s.snapshotters)
    (hreading : ∀ {i version resources}, s'.Reading i version resources →
      ∃ resources', s.Reading i version resources')
    (hshape : ∀ i version resources, s'.Reading i version resources →
      resources.map Prod.fst = ResourceType.order.take resources.length)
    (hnewest : s'.Newest) : s'.Ordered where
  counted := by rw [hversion, hbegun, h.counted]
  taken i version resources hi := by
    obtain ⟨resources', hi'⟩ := hreading hi
    rw [hversion]
    exact h.taken i version resources' hi'
  shape := hshape
  distinct i j version _ _ hi hj := by
    obtain ⟨_, hi'⟩ := hreading hi
    obtain ⟨_, hj'⟩ := hreading hj
    exact h.distinct i j version _ _ hi' hj'
  increasing := by
    rw [hsnapshotters]
    exact h.increasing
  below := by
    rw [hsnapshotters, hversion]
    intro log hlog snap hsnap
    obtain ⟨hle, hlt⟩ := h.below log hlog snap hsnap
    refine ⟨hle, fun i version resources hi => ?_⟩
    obtain ⟨resources', hi'⟩ := hreading hi
    exact hlt i version resources' hi'
  newest := hnewest

/-- While an update has not taken its version, nothing needs to be current. -/
theorem Newest.of_waiting (h : s.Newest) (hversion : s'.snapshotVersion = s.snapshotVersion)
    (hsnapshotters : s'.snapshotters = s.snapshotters) (hwaiting : ¬ s'.NoneUpdated)
    (hreading : ∀ i version resources, s.Reading i version resources →
      s'.Reading i version resources)
    (huntaken : (∀ call ∈ s.calls, call = .updated) → ∀ call ∈ s'.calls, call = .updated) :
    s'.Newest := by
  cases h with
  | untaken h => exact .untaken (huntaken h)
  | reading i resources hi _ =>
    refine .reading i resources ?_ fun hnone => absurd hnone hwaiting
    rw [hversion]
    exact hreading i _ resources hi
  | generated hgenerated =>
    refine .generated fun log hlog => ?_
    rw [hsnapshotters] at hlog
    obtain ⟨snap, rest, hlog, hsnap, -⟩ := hgenerated log hlog
    exact ⟨snap, rest, hlog, hsnap.trans hversion.symm, fun hnone => absurd hnone hwaiting⟩

theorem Ordered.start (h : s.Ordered) (type : ResourceType) (contents : C) :
    Ordered { s.setCache type contents with calls := s.calls ++ [.updated] } := by
  have hreading : ∀ {i version resources},
      Reading { s.setCache type contents with calls := s.calls ++ [.updated] } i version resources ↔
        s.Reading i version resources := by
    intro i version resources
    rcases lt_trichotomy i s.calls.length with hlt | rfl | hgt
    · simp [Reading, getElem?_append_left hlt]
    · simp [Reading]
    · rw [Reading, Reading, getElem?_eq_none hgt.le,
        getElem?_eq_none (by simpa using Nat.succ_le_of_lt hgt)]
  refine h.of_versions rfl rfl rfl (fun hi => ⟨_, hreading.mp hi⟩)
    (fun i version resources hi => h.shape i version resources (hreading.mp hi)) ?_
  refine h.newest.of_waiting rfl rfl ?_ (fun i version resources hi => hreading.mpr hi) ?_
  · exact fun hnone => hnone s.calls.length getElem?_concat_length
  · intro huntaken
    exact forall_mem_append.mpr ⟨huntaken, forall_mem_singleton.mpr rfl⟩

theorem Ordered.update (h : s.Ordered) (hcall : s.calls[call]? = some .updated)
    (type : ResourceType) (contents : C) : (s.setCache type contents).Ordered :=
  h.of_versions rfl rfl rfl (fun hi => ⟨_, hi⟩) h.shape
    (h.newest.of_waiting rfl rfl (fun hnone => hnone call hcall) (fun _ _ _ hi => hi) id)

/-- Who is reading after one of the calls went on. -/
theorem reading_set {old next : Call C} (hcalls : s'.calls = s.calls.set call next)
    (hcall : s.calls[call]? = some old) {i : Nat} :
    s'.Reading i version resources ↔
      i = call ∧ next = .reading version resources ∨ i ≠ call ∧ s.Reading i version resources := by
  rw [Reading, hcalls, getElem?_set]
  by_cases heq : call = i
  · subst heq
    simp [(List.getElem?_eq_some_iff.mp hcall).1]
  · simp [heq, Ne.symm heq, Reading]

/-- A call that was reading goes on: it has the newest version, or that is where it was. -/
theorem Newest.set {next : Call C} (h : s.Newest) (hcall : s.Reading call version resources)
    (hcalls : s'.calls = s.calls.set call next) (hversion : s'.snapshotVersion = s.snapshotVersion)
    (hcaches : s'.caches = s.caches)
    (hmine : version = s.snapshotVersion →
      (s'.NoneUpdated → ∀ r ∈ resources, r.2 = s.caches r.1) → s'.Newest)
    (hgenerated : (∀ log ∈ s.snapshotters, ∃ snap rest, log = snap :: rest ∧
      snap.version = s.snapshotVersion ∧ (s'.NoneUpdated → snap.resources = s.current)) →
      s'.Newest) : s'.Newest := by
  have hnone : s'.NoneUpdated → s.NoneUpdated := by
    intro hnone i hi
    have hne : call ≠ i := by
      rintro rfl
      cases hi.symm.trans hcall
    exact hnone i (by rwa [hcalls, getElem?_set_ne hne])
  cases h with
  | untaken huntaken =>
    have hupdated := huntaken _ (mem_of_getElem? hcall)
    cases hupdated
  | reading i rs hi hcurrent =>
    by_cases hic : i = call
    · subst hic
      cases hi.symm.trans hcall
      exact hmine rfl fun hupdated => hcurrent (hnone hupdated)
    · refine .reading i rs ((reading_set hcalls hcall).mpr (.inr ⟨hic, hversion ▸ hi⟩)) ?_
      rw [hcaches]
      exact fun hupdated => hcurrent (hnone hupdated)
  | generated hlast =>
    apply hgenerated
    intro log hlog
    obtain ⟨snap, rest, hlog, hsnap, hcurrent⟩ := hlast log hlog
    exact ⟨snap, rest, hlog, hsnap, fun hupdated => hcurrent (hnone hupdated)⟩

theorem Ordered.newVersion (h : s.Ordered) (hcall : s.calls[call]? = some .updated)
    (hbelow : s.begun + 1 ≤ maxInt64) :
    Ordered { s with
      snapshotVersion := s.newSnapshotVersion
      calls := s.calls.set call (.reading s.newSnapshotVersion [])
      begun := s.begun + 1 } := by
  have hnew : s.newSnapshotVersion = s.snapshotVersion + 1 := by
    have hlt : s.snapshotVersion ≠ maxInt64 := by
      rw [h.counted]
      exact Nat.ne_of_lt hbelow
    rw [newSnapshotVersion, if_neg hlt]
  rw [hnew]
  constructor
  · exact congrArg (· + 1) h.counted
  · intro i version resources hi
    rcases (reading_set rfl hcall).mp hi with ⟨-, ⟨⟩⟩ | ⟨-, hold⟩
    · exact le_rfl
    · exact (h.taken i version resources hold).trans (Nat.le_succ _)
  · intro i version resources hi
    rcases (reading_set rfl hcall).mp hi with ⟨-, ⟨⟩⟩ | ⟨-, hold⟩
    · rfl
    · exact h.shape i version resources hold
  · intro i j version resources resources' hi hj
    rcases (reading_set rfl hcall).mp hi with ⟨rfl, ⟨⟩⟩ | ⟨-, hold⟩ <;>
      rcases (reading_set rfl hcall).mp hj with ⟨rfl, heq⟩ | ⟨-, hold'⟩
    · rfl
    · exact absurd (h.taken j _ _ hold') (Nat.not_succ_le_self _)
    · cases heq
      exact absurd (h.taken i _ _ hold) (Nat.not_succ_le_self _)
    · exact h.distinct i j version _ _ hold hold'
  · exact h.increasing
  · intro log hlog snap hsnap
    obtain ⟨hle, hlt⟩ := h.below log hlog snap hsnap
    refine ⟨hle.trans (Nat.le_succ _), fun i version resources hi => ?_⟩
    rcases (reading_set rfl hcall).mp hi with ⟨-, ⟨⟩⟩ | ⟨-, hold⟩
    · exact Nat.lt_succ_of_le hle
    · exact hlt i version resources hold
  · exact .reading call [] ((reading_set rfl hcall).mpr (.inl ⟨rfl, rfl⟩))
      fun _ r hr => absurd hr not_mem_nil

theorem Ordered.read (h : s.Ordered) (hcall : s.Reading call version resources) {t : ResourceType}
    (ht : ResourceType.order[resources.length]? = some t) :
    Ordered { s with
      calls := s.calls.set call (.reading version (resources ++ [(t, s.caches t)])) } := by
  refine h.of_versions rfl rfl rfl ?_ ?_
    (h.newest.set hcall rfl rfl rfl ?_ fun hlast => .generated hlast)
  · intro i v rs hi
    rcases (reading_set rfl hcall).mp hi with ⟨rfl, ⟨⟩⟩ | ⟨-, hold⟩
    · exact ⟨_, hcall⟩
    · exact ⟨_, hold⟩
  · intro i v rs hi
    rcases (reading_set rfl hcall).mp hi with ⟨-, ⟨⟩⟩ | ⟨-, hold⟩
    · have hlt := (List.getElem?_eq_some_iff.mp ht).1
      rw [map_append, h.shape _ _ _ hcall, length_append, length_singleton, take_add_one, ht]
      rfl
    · exact h.shape i v rs hold
  · intro hversion hcurrent
    refine .reading call _ ((reading_set rfl hcall).mpr (.inl ⟨rfl, by rw [hversion]⟩))
      fun hnone => ?_
    exact forall_mem_append.mpr ⟨hcurrent hnone, forall_mem_singleton.mpr rfl⟩

/-- Contents that are all current, read in full, are the current snapshot. -/
theorem eq_current (hshape : resources.map Prod.fst = ResourceType.order.take resources.length)
    (hlength : resources.length = ResourceType.order.length)
    (hcurrent : ∀ r ∈ resources, r.2 = s.caches r.1) : resources = s.current := by
  calc
    resources = resources.map fun r => (r.1, s.caches r.1) := by
      refine (map_id resources).symm.trans (map_congr_left fun r hr => ?_)
      exact Prod.ext rfl (hcurrent r hr)
    _ = (resources.map Prod.fst).map fun t => (t, s.caches t) := by rw [map_map]; rfl
    _ = s.current := by rw [hshape, hlength, take_length, current]

theorem Ordered.generate (h : s.Ordered) (hcall : s.Reading call version resources)
    (hlength : resources.length = ResourceType.order.length)
    (hfirst : ∀ i v rs, s.Reading i v rs → version ≤ v) :
    Ordered { s with
      calls := s.calls.set call .done
      snapshotters := s.snapshotters.map ({ version, resources } :: ·) } := by
  have hreading : ∀ {i v rs}, Reading { s with
      calls := s.calls.set call .done
      snapshotters := s.snapshotters.map ({ version, resources } :: ·) } i v rs →
      i ≠ call ∧ s.Reading i v rs := by
    intro i v rs hi
    exact ((reading_set rfl hcall).mp hi).resolve_left nofun
  constructor
  · exact h.counted
  · exact fun i v rs hi => h.taken i v rs (hreading hi).2
  · exact fun i v rs hi => h.shape i v rs (hreading hi).2
  · exact fun i j v rs rs' hi hj => h.distinct i j v rs rs' (hreading hi).2 (hreading hj).2
  · intro log' hlog'
    obtain ⟨log, hlog, rfl⟩ := mem_map.mp hlog'
    refine pairwise_cons.mpr ⟨fun v hv => ?_, h.increasing log hlog⟩
    obtain ⟨snap, hsnap, rfl⟩ := mem_map.mp hv
    exact (h.below log hlog snap hsnap).2 call version resources hcall
  · intro log' hlog' snap hsnap
    obtain ⟨log, hlog, rfl⟩ := mem_map.mp hlog'
    rcases mem_cons.mp hsnap with rfl | hold
    · refine ⟨h.taken call version resources hcall, fun i v rs hi => ?_⟩
      obtain ⟨hne, hi⟩ := hreading hi
      refine lt_of_le_of_ne (hfirst i v rs hi) fun heq => hne ?_
      exact h.distinct i call v rs resources hi (heq ▸ hcall)
    · obtain ⟨hle, hlt⟩ := h.below log hlog snap hold
      exact ⟨hle, fun i v rs hi => hlt i v rs (hreading hi).2⟩
  · refine h.newest.set hcall rfl rfl rfl ?_ ?_
    · intro hversion hcurrent
      refine .generated fun log' hlog' => ?_
      obtain ⟨log, -, rfl⟩ := mem_map.mp hlog'
      refine ⟨_, log, rfl, hversion, fun hnone => ?_⟩
      exact eq_current (h.shape call version resources hcall) hlength (hcurrent hnone)
    · -- The newest version is generated already, and this call has an older one.
      intro hgenerated
      refine .generated fun log' hlog' => ?_
      obtain ⟨log, hlog, rfl⟩ := mem_map.mp hlog'
      obtain ⟨snap, rest, heq, hversion, -⟩ := hgenerated log hlog
      have hlt := (h.below log hlog snap (heq ▸ mem_cons_self)).2 call version resources hcall
      exact absurd (hversion ▸ hlt) (not_lt.mpr (h.taken call version resources hcall))

/-! ## Runs -/

/-- Everything a step can do. -/
inductive Stepped (s : SnapshotHandler C) : SnapshotStep C → SnapshotHandler C → Prop
  | start (type : ResourceType) (contents : C) : Stepped s (.start type contents)
      { s.setCache type contents with calls := s.calls ++ [.updated] }
  | update {call : Nat} (type : ResourceType) (contents : C)
      (hcall : s.calls[call]? = some .updated) :
      Stepped s (.update call type contents) (s.setCache type contents)
  | newVersion {call : Nat} (hcall : s.calls[call]? = some .updated) : Stepped s (.newVersion call)
      { s with
        snapshotVersion := s.newSnapshotVersion
        calls := s.calls.set call (.reading s.newSnapshotVersion [])
        begun := s.begun + 1 }
  | read {call version : Nat} {resources : List (ResourceType × C)} {t : ResourceType}
      (hcall : s.Reading call version resources)
      (ht : ResourceType.order[resources.length]? = some t) : Stepped s (.read call)
      { s with calls := s.calls.set call (.reading version (resources ++ [(t, s.caches t)])) }
  | generate {call version : Nat} {resources : List (ResourceType × C)}
      (hcall : s.Reading call version resources)
      (hlength : resources.length = ResourceType.order.length) : Stepped s (.generate call)
      { s with
        calls := s.calls.set call .done
        snapshotters := s.snapshotters.map ({ version, resources } :: ·) }

theorem step_cases (hstep : s.step a = some s') : s.Stepped a s' := by
  cases a with
  | start type contents =>
    cases hstep
    exact .start type contents
  | update call type contents =>
    simp only [step] at hstep
    split at hstep
    · next hcall =>
      cases hstep
      exact .update type contents hcall
    · cases hstep
  | newVersion call =>
    simp only [step] at hstep
    split at hstep
    · next hcall =>
      cases hstep
      exact .newVersion hcall
    · cases hstep
  | read call =>
    simp only [step] at hstep
    split at hstep
    · next hcall =>
      split at hstep
      · next ht =>
        cases hstep
        exact .read hcall ht
      · cases hstep
    · cases hstep
  | generate call =>
    simp only [step] at hstep
    split at hstep
    · next hcall =>
      split at hstep
      · next hlength =>
        cases hstep
        exact .generate hcall hlength
      · cases hstep
    · cases hstep

theorem begun_le_of_step (hstep : s.step a = some s') : s.begun ≤ s'.begun := by
  cases step_cases hstep with
  | newVersion => exact Nat.le_succ _
  | _ => exact Nat.le_refl _

theorem Ordered.step (h : s.Ordered) (horder : s.InOrder a) (hstep : s.step a = some s')
    (hbelow : s'.begun ≤ maxInt64) : s'.Ordered := by
  cases step_cases hstep with
  | start type contents => exact h.start type contents
  | update type contents hcall => exact h.update hcall type contents
  | newVersion hcall => exact h.newVersion hcall hbelow
  | read hcall ht => exact h.read hcall ht
  | @generate call version resources hcall hlength =>
    refine h.generate hcall hlength fun i v rs hi => ?_
    refine horder version ?_ v (mem_filterMap.mpr ⟨_, mem_of_getElem? hi, rfl⟩)
    rw [show s.calls[call]? = some (.reading version resources) from hcall]
    rfl

theorem ordered_of_reachableBy {caches : ResourceType → C} {n : Nat}
    (hreach : (snapshots caches n).ReachableBy InOrder s) : s.begun ≤ maxInt64 → s.Ordered := by
  induction hreach with
  | init => exact fun _ => ordered_init caches n
  | step _ horder hstep ih =>
    intro hbelow
    exact (ih (le_trans (begun_le_of_step hstep) hbelow)).step horder hstep hbelow

end SnapshotHandler

open SnapshotHandler

/-- If every call generates before the calls that took a later version, the versions a
snapshotter sees increase, and once all calls are done its last snapshot has the current
contents of every cache. -/
theorem snapshots_current {C : Type} {caches : ResourceType → C} {n : Nat}
    {s : SnapshotHandler C} (hreach : (snapshots caches n).ReachableBy InOrder s)
    (hbelow : s.begun ≤ maxInt64) :
    (∀ log ∈ s.snapshotters, (log.map (·.version)).Pairwise (· > ·)) ∧
    (s.calls ≠ [] → (∀ call ∈ s.calls, call = .done) →
      ∀ log ∈ s.snapshotters, ∃ snap rest, log = snap :: rest ∧ snap.resources = s.current) := by
  have hordered := ordered_of_reachableBy hreach hbelow
  refine ⟨hordered.increasing, fun hcalls hdone log hlog => ?_⟩
  cases hordered.newest with
  | untaken huntaken =>
    obtain ⟨call, hcall⟩ := exists_mem_of_ne_nil _ hcalls
    have hcontra := (huntaken call hcall).symm.trans (hdone call hcall)
    cases hcontra
  | reading i resources hi =>
    have hcontra := hdone _ (mem_of_getElem? hi)
    cases hcontra
  | generated hgenerated =>
    obtain ⟨snap, rest, heq, -, hcurrent⟩ := hgenerated log hlog
    refine ⟨snap, rest, heq, hcurrent fun i hi => ?_⟩
    have hcontra := hdone _ (mem_of_getElem? hi)
    cases hcontra

def readAll (call : Nat) : List (SnapshotStep Nat) := replicate 5 (.read call)

/-- Two callers update caches and generate one after the other. -/
def inOrderSchedule : List (SnapshotStep Nat) :=
  [.start .endpoint 1, .newVersion 0] ++ readAll 0 ++ [.start .route 2, .newVersion 1] ++
    readAll 1 ++ [.generate 0, .generate 1]

/-- The first caller reads, the second one updates, reads and generates, and then the
first one generates. -/
def lateSchedule : List (SnapshotStep Nat) :=
  [.start .endpoint 1, .newVersion 0] ++ readAll 0 ++ [.start .route 2, .newVersion 1] ++
    readAll 1 ++ [.generate 1, .generate 0]

/-- Two snapshotters, and two calls that generate in the order of their versions. -/
theorem snapshots_current_two_calls : ∃ s : SnapshotHandler Nat,
    ((snapshots (fun _ => 0) 2).ReachableBy InOrder s ∧ s.begun ≤ maxInt64 ∧
      s.calls = [.done, .done]) ∧
    ∀ log ∈ s.snapshotters, (log.map (·.version)).Pairwise (· > ·) ∧
      ∃ snap rest, log = snap :: rest ∧ snap.resources = s.current := by
  have hrun : ∃ s, (snapshots (fun _ => 0) 2).ReachableBy InOrder s ∧
      s.begun ≤ maxInt64 ∧ s.calls = [.done, .done] :=
    Machine.exists_reachableBy inOrderSchedule (by decide +kernel)
  obtain ⟨s, hreach, hbegun, hcalls⟩ := hrun
  obtain ⟨hversions, hcurrent⟩ := snapshots_current hreach hbegun
  refine ⟨s, ⟨hreach, hbegun, hcalls⟩, fun log hlog => ⟨hversions log hlog, ?_⟩⟩
  refine hcurrent (by simp [hcalls]) (fun call hcall => ?_) log hlog
  simpa [hcalls] using hcall

/-- The versions then decrease, and the last snapshot has the old routes. -/
theorem late_snapshot_is_stale : ∃ s : SnapshotHandler Nat,
    (snapshots (fun _ => 0) 1).Reachable s ∧ s.calls = [.done, .done] ∧
      ∃ older newer, s.snapshotters = [[older, newer]] ∧ older.version < newer.version ∧
        older.resources ≠ s.current := by
  have hrun : ∃ s : SnapshotHandler Nat,
      (snapshots (fun _ => 0) 1).ReachableBy (fun _ _ => True) s ∧ s.calls = [.done, .done] ∧
        s.snapshotters = [[{ version := 1, resources := s.current.map fun r =>
            (r.1, if r.1 = .route then 0 else r.2) }, { version := 2, resources := s.current }]] ∧
        s.caches .route = 2 :=
    Machine.exists_reachableBy lateSchedule (by decide +kernel)
  obtain ⟨s, hreach, hcalls, hlogs, hroute⟩ := hrun
  refine ⟨s, hreach, hcalls, _, _, hlogs, Nat.one_lt_two, fun hcurrent => ?_⟩
  simp [current, ResourceType.order, hroute] at hcurrent

end Sesame.XdsCache
