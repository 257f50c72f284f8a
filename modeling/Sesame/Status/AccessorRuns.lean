/-
# Runs of proxy accessors

During a build any number of updates for one proxy are handed out, filled and
committed, in any nesting. An update is shared: the status cache keeps the update
itself and not a copy, so what is added to it later shows. A commit replaces the update
of the proxy as a whole, or is dropped as a whole; errors are never merged.
-/

import Sesame.Lib.Transition
import Sesame.Status.Commits

namespace Sesame.Status

open List
open Lib Api

/-! ## Steps -/

/-- The updates handed out so far, the one that the status cache holds for each proxy, and
as a history variable the updates that were committed, each as it was at that moment. -/
structure Session where
  updates : List ProxyUpdate := []
  stored : Map NamespacedName Nat := ∅
  committed : List (Nat × ProxyUpdate) := []

/-- What the users of the status cache do: `ProxyAccessor`, `ConditionFor(ValidCondition)`
on an update, `AddError` on its condition, and its commit function. -/
inductive AccessorCall
  | proxyAccessor (proxy : HTTPProxy)
  | conditionFor (id : Nat)
  | addError (id : Nat) (type : ErrorType) (reason message : String)
  | commit (id : Nat)

variable {pu : ProxyUpdate} {valid : DetailedCondition} {id : Nat}

namespace Session

/-- The update that the status cache holds for a proxy. -/
def storedUpdate (s : Session) (name : NamespacedName) : Option ProxyUpdate :=
  (s.stored.lookup name).bind fun id => s.updates[id]?

/-- The commit function of an update with a `Valid` condition. -/
def commit (s : Session) (id : Nat) (pu : ProxyUpdate) (valid : DetailedCondition) : Session :=
  let s := { s with committed := s.committed ++ [(id, pu)] }
  match (s.storedUpdate pu.fullname).bind (·.valid) with
  | some existing =>
    if existing.status = .false ∧ valid.status = .true then s
    else { s with stored := s.stored.insert pu.fullname id }
  | none => { s with stored := s.stored.insert pu.fullname id }

/-- One call. A call on an update that was not handed out, or on a condition that was not,
cannot be made. -/
def step (s : Session) : AccessorCall → Option Session
  | .proxyAccessor proxy => some { s with updates := s.updates ++ [Cache.proxyAccessor proxy] }
  | .conditionFor id =>
    (s.updates[id]?).map fun pu =>
      { s with updates := s.updates.set id { pu with valid := some pu.conditionFor } }
  | .addError id type reason message =>
    (s.updates[id]?).bind fun pu =>
      pu.valid.map fun valid =>
        { s with
          updates :=
            s.updates.set id { pu with valid := some (valid.addError type reason message) } }
  | .commit id =>
    (s.updates[id]?).map fun pu =>
      match pu.valid with
      | none => s
      | some valid => s.commit id pu valid

/-- The commit function on the cache of the builds, where an update is a value, is the one
here as long as no update is changed after its commit. -/
theorem lookup_commitProxy {s : Session} {c : Cache}
    (hc : ∀ name, c.proxyUpdates.lookup name = s.storedUpdate name)
    (hpu : s.updates[id]? = some pu) (hvalid : pu.valid = some valid) (name : NamespacedName) :
    (c.commitProxy pu).proxyUpdates.lookup name = (s.commit id pu valid).storedUpdate name := by
  have hwritten : (c.proxyUpdates.insert pu.fullname pu).lookup name =
      storedUpdate
        { s with
          committed := s.committed ++ [(id, pu)]
          stored := s.stored.insert pu.fullname id } name := by
    rw [Map.lookup_insert_eq, storedUpdate, Map.lookup_insert_eq]
    split
    · exact hpu.symm
    · exact hc name
  unfold Cache.commitProxy commit
  simp only [hvalid, hc pu.fullname]
  change _ = storedUpdate (match (s.storedUpdate pu.fullname).bind (·.valid) with
    | some existing => _
    | none => _) name
  cases (s.storedUpdate pu.fullname).bind (·.valid) with
  | none => exact hwritten
  | some existing =>
    dsimp only
    split
    · exact hc name
    · exact hwritten

end Session

def accessorMachine : Machine Session AccessorCall where
  init := {}
  step := Session.step

/-! ## The property and the condition -/

/-- The errors of the `Valid` condition of an update. -/
def ProxyUpdate.errors (pu : ProxyUpdate) : List SubCondition := pu.valid.elim [] (·.errors)

/-- The second list has every error type and reason of the first. -/
def Covered (errors errors' : List SubCondition) : Prop :=
  ∀ e ∈ errors, ∃ e' ∈ errors', e'.type = e.type ∧ e'.reason = e.reason
  deriving Decidable

instance (pu : ProxyUpdate) : Decidable pu.Fails :=
  decidable_of_iff (∃ vc ∈ pu.valid, vc.status = .false) Iff.rfl

namespace Session

/-- What the status of a proxy should tell: it is false iff a committed update was, and it
has the errors of all of them. -/
structure Complete (s : Session) (name : NamespacedName) : Prop where
  status : (∃ pu, s.storedUpdate name = some pu ∧ pu.Fails) ↔
    ∃ c ∈ s.committed, c.2.fullname = name ∧ c.2.Fails
  errors : ∀ c ∈ s.committed, c.2.fullname = name →
    ∃ pu, s.storedUpdate name = some pu ∧ Covered c.2.errors pu.errors

instance (s : Session) (name : NamespacedName) : Decidable (s.Complete name) :=
  decidable_of_iff
    (((∃ pu ∈ s.storedUpdate name, pu.Fails) ↔ ∃ c ∈ s.committed, c.2.fullname = name ∧ c.2.Fails) ∧
      ∀ c ∈ s.committed, c.2.fullname = name →
        ∃ pu ∈ s.storedUpdate name, Covered c.2.errors pu.errors)
    ⟨fun h => ⟨h.1, h.2⟩, fun h => ⟨h.status, h.errors⟩⟩

/-- A call that keeps the status of a proxy complete: no error is added to an update after
it was committed, and an update that fails is committed over another one that does only
if it has the errors of that one. -/
def Careful (name : NamespacedName) (s : Session) : AccessorCall → Prop
  | .addError id _ _ _ => ∀ pu ∈ s.updates[id]?, pu.fullname = name → ∀ c ∈ s.committed, c.1 ≠ id
  | .commit id => ∀ pu ∈ s.updates[id]?, pu.fullname = name → pu.Fails →
      ∀ old ∈ s.storedUpdate name, old.Fails → Covered old.errors pu.errors
  | _ => True

instance (name : NamespacedName) (s : Session) (call : AccessorCall) :
    Decidable (Careful name s call) := by
  unfold Careful
  split <;> infer_instance

end Session

/-! ## What one call preserves -/

theorem Covered.refl (errors : List SubCondition) : Covered errors errors :=
  fun e he => ⟨e, he, rfl, rfl⟩

theorem Covered.trans {errors errors' errors'' : List SubCondition} (h : Covered errors errors')
    (h' : Covered errors' errors'') : Covered errors errors'' := by
  intro e he
  obtain ⟨e', he', htype, hreason⟩ := h e he
  obtain ⟨e'', he'', htype', hreason'⟩ := h' e' he'
  exact ⟨e'', he'', htype'.trans htype, hreason'.trans hreason⟩

theorem covered_nil (errors : List SubCondition) : Covered [] errors := by
  intro e he
  cases he

/-- The condition of an update, if there is one, is false or has no errors. -/
def ProxyUpdate.Sound (pu : ProxyUpdate) : Prop :=
  ∀ vc, pu.valid = some vc → vc.Settled ∧ (vc.status = .true → vc.errors = [])

theorem ProxyUpdate.Sound.fails_or (h : pu.Sound) (hsome : pu.valid.isSome) :
    pu.Fails ∨ ¬ pu.Fails ∧ pu.errors = [] := by
  obtain ⟨vc, hvc⟩ := Option.isSome_iff_exists.mp hsome
  obtain ⟨hsettled, herrors⟩ := h vc hvc
  rcases hsettled.status with htrue | hfalse
  · right
    constructor
    · rintro ⟨vc', hvc', hfalse⟩
      rw [hvc] at hvc'
      cases hvc'
      rw [htrue] at hfalse
      cases hfalse
    · rw [ProxyUpdate.errors, hvc]
      exact herrors htrue
  · exact .inl ⟨vc, hvc, hfalse⟩

namespace Session

/-- What careful calls keep. Updates that were committed are still as they were. -/
structure Inv (name : NamespacedName) (s : Session) : Prop where
  sound : ∀ pu ∈ s.updates, pu.Sound
  current : ∀ c ∈ s.committed, c.2.fullname = name → s.updates[c.1]? = some c.2
  valid : ∀ c ∈ s.committed, c.2.valid.isSome = true
  stored : ∀ id, s.stored.lookup name = some id → ∃ c ∈ s.committed, c.1 = id ∧ c.2.fullname = name
  complete : s.Complete name

variable {name : NamespacedName} {s : Session} {s' : Session}

/-- The stored update is one that was committed. -/
theorem Inv.stored_committed (h : s.Inv name) (hpu : s.storedUpdate name = some pu) :
    ∃ id, s.stored.lookup name = some id ∧ (id, pu) ∈ s.committed ∧ pu.fullname = name := by
  obtain ⟨id, hid, hupdate⟩ := Option.bind_eq_some_iff.mp hpu
  obtain ⟨c, hc, rfl, hname⟩ := h.stored id hid
  rw [h.current c hc hname] at hupdate
  cases hupdate
  exact ⟨c.1, hid, hc, hname⟩

/-- A change to the updates keeps the invariant if the committed ones stay as they are. -/
theorem Inv.updates (h : s.Inv name) {updates : List ProxyUpdate}
    (hsound : ∀ pu ∈ updates, pu.Sound)
    (hkept : ∀ c ∈ s.committed, c.2.fullname = name → updates[c.1]? = some c.2) :
    Inv name { s with updates } := by
  have hstored : storedUpdate { s with updates } name = s.storedUpdate name := by
    unfold storedUpdate
    dsimp only
    cases hid : s.stored.lookup name with
    | none => rfl
    | some id =>
      obtain ⟨c, hc, rfl, hname⟩ := h.stored id hid
      exact (hkept c hc hname).trans (h.current c hc hname).symm
  constructor
  · exact hsound
  · exact hkept
  · exact h.valid
  · exact h.stored
  · constructor
    · rw [hstored]
      exact h.complete.status
    · rw [hstored]
      exact h.complete.errors

theorem sound_set {updates : List ProxyUpdate} (h : ∀ pu ∈ updates, pu.Sound) (id : Nat)
    (hpu : pu.Sound) : ∀ pu' ∈ updates.set id pu, pu'.Sound := by
  intro pu' hpu'
  rcases mem_or_eq_of_mem_set hpu' with hold | rfl
  · exact h pu' hold
  · exact hpu

theorem Inv.proxyAccessor (h : s.Inv name) (proxy : HTTPProxy) :
    Inv name { s with updates := s.updates ++ [Cache.proxyAccessor proxy] } := by
  apply h.updates
  · exact forall_mem_append.mpr ⟨h.sound, forall_mem_singleton.mpr nofun⟩
  · intro c hc hname
    have hcurrent := h.current c hc hname
    have hlt : c.1 < s.updates.length := by
      by_contra hge
      rw [getElem?_eq_none (not_lt.mp hge)] at hcurrent
      cases hcurrent
    rw [getElem?_append_left hlt, hcurrent]

theorem Inv.conditionFor (h : s.Inv name) (hpu : s.updates[id]? = some pu) :
    Inv name { s with updates := s.updates.set id { pu with valid := some pu.conditionFor } } := by
  have hsound := h.sound pu (mem_of_getElem? hpu)
  apply h.updates
  · apply sound_set h.sound
    intro vc hvc
    cases hvc
    cases hvalid : pu.valid with
    | none =>
      rw [ProxyUpdate.conditionFor, hvalid]
      exact ⟨⟨rfl, .inl rfl⟩, fun _ => rfl⟩
    | some vc =>
      rw [ProxyUpdate.conditionFor, hvalid]
      exact hsound vc hvalid
  · intro c hc hname
    have hcurrent := h.current c hc hname
    by_cases hid : id = c.1
    · -- The condition of a committed update exists already.
      subst hid
      obtain rfl : pu = c.2 := Option.some.inj (hpu.symm.trans hcurrent)
      obtain ⟨vc, hvc⟩ := Option.isSome_iff_exists.mp (h.valid c hc)
      have hsame : some (ProxyUpdate.conditionFor c.2) = (c.2).valid := by
        rw [ProxyUpdate.conditionFor, hvc, Option.getD_some]
      rw [hsame, getElem?_set_self', hcurrent]
      rfl
    · rw [getElem?_set_ne hid, hcurrent]

theorem Inv.addError (h : s.Inv name) (hpu : s.updates[id]? = some pu)
    (hvalid : pu.valid = some valid) (hfresh : pu.fullname = name → ∀ c ∈ s.committed, c.1 ≠ id)
    (type : ErrorType) (reason message : String) :
    Inv name
      { s with
        updates :=
          s.updates.set id { pu with valid := some (valid.addError type reason message) } } := by
  have hsound := (h.sound pu (mem_of_getElem? hpu) valid hvalid).1
  apply h.updates
  · apply sound_set h.sound
    intro vc hvc
    cases hvc
    constructor
    · exact hsound.addError type reason message
    · intro htrue
      rw [hsound.addError_status] at htrue
      cases htrue
  · intro c hc hname
    have hcurrent := h.current c hc hname
    have hne : id ≠ c.1 := by
      rintro rfl
      rw [hcurrent] at hpu
      cases hpu
      exact hfresh hname c hc rfl
    rw [getElem?_set_ne hne, hcurrent]

/-- A commit is dropped, if it would undo an error, or replaces the stored update. -/
theorem commit_cases (s : Session) (id : Nat) (hvalid : pu.valid = some valid) (hsound : pu.Sound) :
    ((∃ old, s.storedUpdate pu.fullname = some old ∧ old.Fails) ∧ ¬ pu.Fails ∧
        s.commit id pu valid = { s with committed := s.committed ++ [(id, pu)] }) ∨
      ((∀ old, s.storedUpdate pu.fullname = some old → old.Fails → pu.Fails) ∧
        s.commit id pu valid =
          { s with
            committed := s.committed ++ [(id, pu)]
            stored := s.stored.insert pu.fullname id }) := by
  have hfails : pu.Fails ↔ ¬ valid.status = .true := by
    rcases (hsound valid hvalid).1.status with htrue | hfalse
    · simp [ProxyUpdate.Fails, hvalid, htrue]
    · simp [ProxyUpdate.Fails, hvalid, hfalse]
  unfold commit
  dsimp only
  split
  · next existing hexisting =>
    obtain ⟨old, hold, hvc⟩ := Option.bind_eq_some_iff.mp hexisting
    split
    · next hskip =>
      exact .inl ⟨⟨old, hold, existing, hvc, hskip.1⟩, mt hfails.mp (not_not.mpr hskip.2), rfl⟩
    · next hwrite =>
      refine .inr ⟨?_, rfl⟩
      rintro old' hold' ⟨vc, hvc', hfalse⟩
      obtain rfl : old = old' := Option.some.inj (hold.symm.trans hold')
      obtain rfl : existing = vc := Option.some.inj (hvc.symm.trans hvc')
      exact hfails.mpr fun htrue => hwrite ⟨hfalse, htrue⟩
  · next hnone =>
    refine .inr ⟨?_, rfl⟩
    rintro old hold ⟨vc, hvc, -⟩
    have hbind : (s.storedUpdate pu.fullname).bind (·.valid) = none := hnone
    rw [hold, Option.bind_some, hvc] at hbind
    cases hbind

/-- A commit for another proxy changes nothing. -/
theorem Complete.commit_other (h : s.Complete name) (hname : pu.fullname ≠ name)
    (hcommitted : s'.committed = s.committed ++ [(id, pu)])
    (hstored : s'.storedUpdate name = s.storedUpdate name) : s'.Complete name := by
  have hmem : ∀ c ∈ s'.committed, c.2.fullname = name → c ∈ s.committed := by
    intro c hc hcname
    rw [hcommitted] at hc
    rcases mem_append.mp hc with hold | hnew
    · exact hold
    · rw [mem_singleton.mp hnew] at hcname
      exact absurd hcname hname
  constructor
  · rw [hstored, h.status]
    constructor
    · rintro ⟨c, hc, hcname, hfails⟩
      exact ⟨c, hcommitted ▸ mem_append_left _ hc, hcname, hfails⟩
    · rintro ⟨c, hc, hcname, hfails⟩
      exact ⟨c, hmem c hc hcname, hcname, hfails⟩
  · intro c hc hcname
    rw [hstored]
    exact h.errors c (hmem c hc hcname) hcname

/-- A commit for the proxy keeps the status complete if the update that is stored after it
has the errors of the one before and of the new one, and fails iff one of them does. -/
theorem Complete.commit_self (h : s.Complete name) (hname : pu.fullname = name)
    (hcommitted : s'.committed = s.committed ++ [(id, pu)]) {stored : ProxyUpdate}
    (hstored : s'.storedUpdate name = some stored) (hnew : Covered pu.errors stored.errors)
    (hold : ∀ old, s.storedUpdate name = some old → Covered old.errors stored.errors)
    (hfails : stored.Fails ↔ pu.Fails ∨ ∃ old, s.storedUpdate name = some old ∧ old.Fails) :
    s'.Complete name := by
  constructor
  · rw [hstored, hcommitted]
    simp only [Option.some.injEq, exists_eq_left']
    rw [hfails, h.status]
    constructor
    · rintro (hpu | ⟨c, hc, hcname, hcfails⟩)
      · exact ⟨(id, pu), mem_append_right _ (mem_singleton_self _), hname, hpu⟩
      · exact ⟨c, mem_append_left _ hc, hcname, hcfails⟩
    · rintro ⟨c, hc, hcname, hcfails⟩
      rcases mem_append.mp hc with hbefore | hlast
      · exact .inr ⟨c, hbefore, hcname, hcfails⟩
      · rw [mem_singleton.mp hlast] at hcfails
        exact .inl hcfails
  · intro c hc hcname
    refine ⟨stored, hstored, ?_⟩
    rw [hcommitted] at hc
    rcases mem_append.mp hc with hbefore | hlast
    · obtain ⟨old, holdStored, hcovered⟩ := h.errors c hbefore hcname
      exact hcovered.trans (hold old holdStored)
    · rw [mem_singleton.mp hlast]
      exact hnew

theorem Inv.commit (h : s.Inv name) (hpu : s.updates[id]? = some pu)
    (hvalid : pu.valid = some valid) (hcareful : pu.fullname = name → pu.Fails →
      ∀ old, s.storedUpdate name = some old → old.Fails → Covered old.errors pu.errors) :
    (s.commit id pu valid).Inv name := by
  have hsound := h.sound pu (mem_of_getElem? hpu)
  have hsome : pu.valid.isSome = true := by rw [hvalid]; rfl
  -- An update that does not fail has no errors to keep.
  have hlost : ∀ old, s.storedUpdate name = some old → ¬ old.Fails → old.errors = [] := by
    intro old hold hnot
    obtain ⟨i, -, hmem, hname⟩ := h.stored_committed hold
    have hcurrent := h.current _ hmem hname
    exact (((h.sound old (mem_of_getElem? hcurrent)).fails_or (h.valid _ hmem)).resolve_left hnot).2
  have hcommitted : ∀ stored : Map NamespacedName Nat,
      (∀ i, stored.lookup name = some i → s.stored.lookup name = some i ∨
        pu.fullname = name ∧ i = id) →
      Complete { s with committed := s.committed ++ [(id, pu)], stored } name →
      Inv name { s with committed := s.committed ++ [(id, pu)], stored } := by
    intro stored hstored hcomplete
    refine ⟨h.sound, forall_mem_append.mpr ⟨h.current, ?_⟩,
      forall_mem_append.mpr ⟨h.valid, ?_⟩, fun i hi => ?_, hcomplete⟩
    · exact forall_mem_singleton.mpr fun _ => hpu
    · exact forall_mem_singleton.mpr hsome
    · rcases hstored i hi with hold | ⟨hname, rfl⟩
      · obtain ⟨c, hc, hrest⟩ := h.stored i hold
        exact ⟨c, mem_append_left _ hc, hrest⟩
      · exact ⟨(i, pu), by simp, rfl, hname⟩
  rcases s.commit_cases id hvalid hsound with ⟨⟨old, hold, hfails⟩, hnot, heq⟩ | ⟨hkeeps, heq⟩
  · rw [heq]
    refine hcommitted s.stored (fun _ => .inl) ?_
    by_cases hname : pu.fullname = name
    · subst hname
      have hstored : storedUpdate { s with committed := s.committed ++ [(id, pu)] } pu.fullname =
          some old := hold
      apply h.complete.commit_self rfl rfl hstored
      · rw [((hsound.fails_or hsome).resolve_left hnot).2]
        exact covered_nil _
      · intro old' hold'
        rw [Option.some.inj (hold'.symm.trans hold)]
        exact Covered.refl _
      · exact iff_of_true hfails (.inr ⟨old, hold, hfails⟩)
    · exact h.complete.commit_other hname rfl rfl
  · rw [heq]
    by_cases hname : pu.fullname = name
    · subst hname
      have hinsert : (s.stored.insert pu.fullname id).lookup pu.fullname = some id :=
        AList.lookup_insert _
      refine hcommitted _ (fun i hi => .inr ⟨rfl, Option.some.inj (hi.symm.trans hinsert)⟩) ?_
      apply h.complete.commit_self rfl rfl (by simp [storedUpdate, hpu]) (Covered.refl _)
      · intro old hold
        by_cases hfails : old.Fails
        · exact hcareful rfl (hkeeps old hold hfails) old hold hfails
        · rw [hlost old hold hfails]
          exact covered_nil _
      · exact ⟨.inl, fun hfails => hfails.elim (fun h => h) fun ⟨old, hold, h⟩ => hkeeps old hold h⟩
    · have hother : (s.stored.insert pu.fullname id).lookup name = s.stored.lookup name :=
        AList.lookup_insert_ne (Ne.symm hname)
      refine hcommitted _ (fun i hi => .inl (hother ▸ hi)) ?_
      exact h.complete.commit_other hname rfl (by simp only [storedUpdate, hother])

theorem inv_init (name : NamespacedName) : Inv name {} := by
  constructor
  · intro pu hpu
    cases hpu
  · intro c hc
    cases hc
  · intro c hc
    cases hc
  · intro id hid
    cases hid
  · constructor
    · simp [storedUpdate]
    · intro c hc
      cases hc

/-- A careful call keeps the invariant. -/
theorem Inv.step (h : s.Inv name) {call : AccessorCall} (hcareful : Careful name s call)
    (hstep : s.step call = some s') : s'.Inv name := by
  cases call with
  | proxyAccessor proxy =>
    cases hstep
    exact h.proxyAccessor proxy
  | conditionFor id =>
    obtain ⟨pu, hpu, rfl⟩ := Option.map_eq_some_iff.mp hstep
    exact h.conditionFor hpu
  | addError id type reason message =>
    obtain ⟨pu, hpu, hadd⟩ := Option.bind_eq_some_iff.mp hstep
    obtain ⟨valid, hvalid, rfl⟩ := Option.map_eq_some_iff.mp hadd
    exact h.addError hpu hvalid (hcareful pu hpu) type reason message
  | commit id =>
    obtain ⟨pu, hpu, rfl⟩ := Option.map_eq_some_iff.mp hstep
    cases hvalid : pu.valid with
    | none => exact h
    | some valid => exact h.commit hpu hvalid (hcareful pu hpu)

end Session

/-- In every run of careful calls the status of the proxy is complete in every state. -/
theorem careful_runs_complete {name : NamespacedName} {s : Session}
    (h : accessorMachine.ReachableBy (Session.Careful name) s) : s.Complete name :=
  (h.invariant (Session.inv_init name) fun hinv hcareful hstep =>
    Session.Inv.step hinv hcareful hstep).complete

/-- A child that includes itself and refers to a service that does not exist: the inner
visit finds the cycle, the outer one the service. -/
def selfIncludingChild : List AccessorCall :=
  let child : HTTPProxy := { name := "c", ns := "n" }
  [.proxyAccessor child, .conditionFor 0,
    .proxyAccessor child, .conditionFor 1,
    .addError 1 .includeError "IncludeCreatesCycle" "include creates an include cycle",
    .commit 1,
    .addError 0 .serviceError "ServiceUnresolvedReference"
      "Spec.Routes unresolved service reference",
    .commit 0]

/-- The commit of the outer visit drops the error of the inner one. -/
theorem cycle_error_lost : ∃ s, accessorMachine.Reachable s ∧ ¬ s.Complete ⟨"n", "c"⟩ :=
  Machine.exists_reachableBy selfIncludingChild (by decide)

/-- The same calls without the second error keep the first one. -/
theorem cycle_error_kept :
    ∃ s, accessorMachine.ReachableBy (Session.Careful ⟨"n", "c"⟩) s ∧
      (s.storedUpdate ⟨"n", "c"⟩).isSome = true ∧ s.Complete ⟨"n", "c"⟩ := by
  obtain ⟨s, hs, hstored⟩ : ∃ s, accessorMachine.ReachableBy (Session.Careful ⟨"n", "c"⟩) s ∧
      (s.storedUpdate ⟨"n", "c"⟩).isSome = true :=
    Machine.exists_reachableBy (selfIncludingChild.eraseIdx 6) (by decide)
  exact ⟨s, hs, hstored, careful_runs_complete hs⟩

end Sesame.Status
