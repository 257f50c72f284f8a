/-
# Commits of proxy updates

An update whose `Valid` condition is true does not replace one whose condition is
false. The status of a proxy after any number of commits is therefore false iff it was
false before or one of the updates for it failed, in whatever order they were made.
-/

import Mathlib.Data.List.Induction
import Sesame.Status.Cache

namespace Sesame.Status

open List
open Lib Api

namespace DetailedCondition

variable {dc : DetailedCondition}

/-- A `Valid` condition that is true or false. -/
structure Settled (dc : DetailedCondition) : Prop where
  type : dc.type = validConditionType
  status : dc.status = .true ∨ dc.status = .false

theorem Settled.addError_status (h : dc.Settled) (type : ErrorType) (reason message : String) :
    (dc.addError type reason message).status = .false := by
  simp [addError, isPositivePolarity, h.type]

theorem Settled.addError (h : dc.Settled) (type : ErrorType) (reason message : String) :
    (dc.addError type reason message).Settled where
  type := h.type
  status := .inr (h.addError_status type reason message)

theorem Settled.addWarning (h : dc.Settled) (type : ErrorType) (reason message : String) :
    (dc.addWarning type reason message).Settled :=
  ⟨h.type, h.status⟩

end DetailedCondition

namespace ProxyUpdate

/-- The update has a `Valid` condition that is true or false. -/
def Settled (pu : ProxyUpdate) : Prop := ∃ vc, pu.valid = some vc ∧ vc.Settled

/-- The `Valid` condition of the update is false. -/
def Fails (pu : ProxyUpdate) : Prop := ∃ vc, pu.valid = some vc ∧ vc.status = .false

end ProxyUpdate

/-- The condition of a fresh accessor. -/
theorem settled_conditionFor (proxy : HTTPProxy) :
    (Cache.proxyAccessor proxy).conditionFor.Settled :=
  ⟨rfl, .inl rfl⟩

namespace Cache

variable {pu : ProxyUpdate} {name : NamespacedName} {updates : List ProxyUpdate}

/-- The status of the `Valid` condition that is recorded for a proxy. -/
def validStatus (c : Cache) (name : NamespacedName) : Option ConditionStatus :=
  ((c.proxyUpdates.lookup name).bind (·.valid)).map (·.status)

theorem lookup_commitProxy_ne (c : Cache) (hname : name ≠ pu.fullname) :
    (c.commitProxy pu).proxyUpdates.lookup name = c.proxyUpdates.lookup name := by
  have hinsert : (c.proxyUpdates.insert pu.fullname pu).lookup name =
      c.proxyUpdates.lookup name := by
    rw [Map.lookup_insert_eq, if_neg hname]
  unfold commitProxy
  split
  · rfl
  · split
    · split
      · rfl
      · exact hinsert
    · exact hinsert

theorem validStatus_commitProxy_ne (c : Cache) (hname : name ≠ pu.fullname) :
    (c.commitProxy pu).validStatus name = c.validStatus name := by
  rw [validStatus, lookup_commitProxy_ne c hname]
  rfl

/-- What a commit leaves for its proxy. -/
theorem validStatus_commitProxy_self (c : Cache) (h : pu.Settled) :
    ((c.commitProxy pu).validStatus pu.fullname = some .false ↔
        c.validStatus pu.fullname = some .false ∨ pu.Fails) ∧
      ((c.commitProxy pu).validStatus pu.fullname = some .true ↔
        ¬ (c.validStatus pu.fullname = some .false ∨ pu.Fails)) := by
  obtain ⟨vc, hvc, -, hstatus⟩ := h
  have hfails : pu.Fails ↔ vc.status = .false := by
    constructor
    · rintro ⟨vc', hvc', hfalse⟩
      rw [hvc] at hvc'
      cases hvc'
      exact hfalse
    · exact fun hfalse => ⟨vc, hvc, hfalse⟩
  have hstored : Cache.validStatus
      { c with proxyUpdates := c.proxyUpdates.insert pu.fullname pu } pu.fullname =
        some vc.status := by
    simp [validStatus, hvc]
  rw [hfails]
  simp only [commitProxy, hvc]
  cases hold : (c.proxyUpdates.lookup pu.fullname).bind (·.valid) with
  | none =>
    have hnone : c.validStatus pu.fullname = none := by simp [validStatus, hold]
    rw [hstored, hnone]
    rcases hstatus with hstatus | hstatus <;> simp [hstatus]
  | some existing =>
    have hsome : c.validStatus pu.fullname = some existing.status := by
      simp [validStatus, hold]
    dsimp only
    rw [hsome]
    split
    · next hskipped => simp [hsome, hskipped.1]
    rename_i hwritten
    rw [hstored]
    rcases hstatus with hstatus | hstatus
    · have hexisting : existing.status ≠ .false := fun h => hwritten ⟨h, hstatus⟩
      simp [hstatus, hexisting]
    · simp [hstatus]

/-- Some update for the proxy failed, now or before. -/
def Failed (c : Cache) (updates : List ProxyUpdate) (name : NamespacedName) : Prop :=
  c.validStatus name = some .false ∨ ∃ pu ∈ updates, pu.fullname = name ∧ pu.Fails

/-- The status of a proxy after commits, in terms of which updates were committed. -/
theorem validStatus_commits (c : Cache) (h : ∀ pu ∈ updates, pu.Settled) (name : NamespacedName) :
    ((updates.foldl commitProxy c).validStatus name = some .false ↔ c.Failed updates name) ∧
      ((updates.foldl commitProxy c).validStatus name = some .true ↔
        ¬ c.Failed updates name ∧
          (c.validStatus name = some .true ∨ ∃ pu ∈ updates, pu.fullname = name)) := by
  induction updates using reverseRecOn with
  | nil =>
    simp only [Failed, foldl_nil, not_mem_nil, false_and, exists_false, or_false, true_and]
    constructor
    · intro htrue
      exact ⟨by simp [htrue], htrue⟩
    · exact fun htrue => htrue.2
  | append_singleton updates pu ih =>
    have hbefore := ih fun u hu => h u (mem_append_left _ hu)
    have hpu := validStatus_commitProxy_self (updates.foldl commitProxy c)
      (h pu (mem_append_right _ (mem_singleton_self pu)))
    rw [foldl_append, foldl_cons, foldl_nil]
    by_cases hname : name = pu.fullname
    · subst hname
      have hfailed : c.Failed (updates ++ [pu]) pu.fullname ↔
          c.Failed updates pu.fullname ∨ pu.Fails := by
        simp [Failed, or_and_right, exists_or, or_assoc]
      rw [hpu.1, hpu.2, hbefore.1, hfailed]
      simp
    · have hne : pu.fullname ≠ name := fun h => hname h.symm
      have hfailed : c.Failed (updates ++ [pu]) name ↔ c.Failed updates name := by
        simp [Failed, or_and_right, exists_or, hne]
      rw [validStatus_commitProxy_ne _ hname, hbefore.1, hbefore.2, hfailed]
      simp [or_and_right, exists_or, hne]

/-! ## What is recorded in the end -/

/-- An update that is recorded after commits was recorded before, or is one of them. -/
theorem lookup_commits {c : Cache}
    (h : (updates.foldl commitProxy c).proxyUpdates.lookup name = some pu) :
    c.proxyUpdates.lookup name = some pu ∨ pu ∈ updates ∧ pu.fullname = name := by
  induction updates generalizing c with
  | nil => exact .inl h
  | cons u rest ih =>
    have hcommit : (c.commitProxy u).proxyUpdates.lookup name = some pu →
        c.proxyUpdates.lookup name = some pu ∨ u = pu ∧ u.fullname = name := by
      have hinsert : (c.proxyUpdates.insert u.fullname u).lookup name = some pu →
          c.proxyUpdates.lookup name = some pu ∨ u = pu ∧ u.fullname = name := by
        rw [Map.lookup_insert_eq]
        split
        · next hname => exact fun heq => .inr ⟨Option.some.inj heq, hname.symm⟩
        · exact .inl
      unfold commitProxy
      split
      · exact .inl
      · split
        · split
          · exact .inl
          · exact hinsert
        · exact hinsert
    rcases ih h with hbefore | ⟨hrest, hname⟩
    · rcases hcommit hbefore with hold | ⟨rfl, hname⟩
      · exact .inl hold
      · exact .inr ⟨mem_cons_self, hname⟩
    · exact .inr ⟨mem_cons_of_mem u hrest, hname⟩

theorem commitProxy_of_fails (c : Cache) (h : pu.Fails) :
    c.commitProxy pu = { c with proxyUpdates := c.proxyUpdates.insert pu.fullname pu } := by
  obtain ⟨vc, hvc, hfalse⟩ := h
  simp only [commitProxy, hvc, hfalse]
  split
  · rw [if_neg]
    exact fun hskipped => nomatch hskipped.2
  · rfl

/-- Updates that are all of one kind for a proxy, and all fail, leave an update of that
kind. -/
theorem exists_lookup_commits {c : Cache} {Q : ProxyUpdate → Prop}
    (h : ∀ pu ∈ updates, pu.fullname = name → pu.Fails ∧ Q pu)
    (hany : ∃ pu ∈ updates, pu.fullname = name) :
    ∃ pu, (updates.foldl commitProxy c).proxyUpdates.lookup name = some pu ∧ Q pu := by
  induction updates using reverseRecOn with
  | nil =>
    obtain ⟨pu, hpu, -⟩ := hany
    cases hpu
  | append_singleton updates last ih =>
    rw [foldl_append, foldl_cons, foldl_nil]
    by_cases hlast : last.fullname = name
    · obtain ⟨hfails, hlastQ⟩ := h last (by simp) hlast
      rw [commitProxy_of_fails _ hfails, hlast]
      exact ⟨last, by rw [Map.lookup_insert_eq, if_pos rfl], hlastQ⟩
    obtain ⟨pu, hpu, hname⟩ := hany
    have hbefore : pu ∈ updates := by
      rcases mem_append.mp hpu with hmem | hmem
      · exact hmem
      · rw [mem_singleton.mp hmem] at hname
        exact absurd hname hlast
    rw [lookup_commitProxy_ne _ fun heq => hlast heq.symm]
    exact ih (fun u hu => h u (mem_append_left _ hu)) ⟨pu, hbefore, hname⟩

end Cache

end Sesame.Status
