/-
# Guarded transition systems

A machine has one initial state and a partial step function on labelled steps.
`ReachableBy m guard` holds of the states of all runs in which every step meets
`guard` in the state it is taken from, so a guard may speak of the schedule as
well as of the state. An invariant is established once, by what one guarded step
preserves; a concrete run is replayed by evaluation.
-/

import Mathlib.Logic.Relation

namespace Sesame.Lib

universe u v

/-- A state machine; `step s i = none` when step `i` is not enabled in `s`. -/
structure Machine (σ : Type u) (ι : Type v) where
  init : σ
  step : σ → ι → Option σ

namespace Machine

variable {σ : Type u} {ι : Type v}

/-- The states of all runs whose steps meet `guard`. -/
inductive ReachableBy (m : Machine σ ι) (guard : σ → ι → Prop) : σ → Prop
  | init : ReachableBy m guard m.init
  | step {s s' : σ} {i : ι} (hs : ReachableBy m guard s) (hguard : guard s i)
      (hstep : m.step s i = some s') : ReachableBy m guard s'

/-- The states of all runs. -/
def Reachable (m : Machine σ ι) : σ → Prop := m.ReachableBy fun _ _ => True

variable {m : Machine σ ι} {guard : σ → ι → Prop}

/-- What holds initially and is kept by every guarded step holds along every
guarded run. -/
theorem ReachableBy.invariant {inv : σ → Prop} (hinit : inv m.init)
    (hkeep : ∀ {s s' : σ} {i : ι}, inv s → guard s i → m.step s i = some s' → inv s')
    {s : σ} (hs : m.ReachableBy guard s) : inv s := by
  induction hs with
  | init => exact hinit
  | step _ hguard hstep ih => exact hkeep ih hguard hstep

/-- Replay a schedule from a state; `none` if a step is not enabled or does not
meet the guard. -/
def replay (m : Machine σ ι) (guard : σ → ι → Prop) [∀ s i, Decidable (guard s i)] :
    σ → List ι → Option σ
  | s, [] => some s
  | s, i :: rest =>
    if guard s i then (m.step s i).bind fun s' => m.replay guard s' rest else none

variable [∀ s i, Decidable (guard s i)]

theorem ReachableBy.replay {s s' : σ} {schedule : List ι} (hs : m.ReachableBy guard s)
    (hreplay : m.replay guard s schedule = some s') : m.ReachableBy guard s' := by
  induction schedule generalizing s with
  | nil =>
    obtain rfl : s = s' := by simpa [Machine.replay] using hreplay
    exact hs
  | cons i rest ih =>
    rw [Machine.replay, Option.ite_none_right_eq_some, Option.bind_eq_some_iff] at hreplay
    obtain ⟨hguard, next, hstep, hnext⟩ := hreplay
    exact ih (hs.step hguard hstep) hnext

/-- A replay from the initial state that ends in a state with `p` shows that such a
state is reachable. -/
theorem exists_reachableBy {p : σ → Prop} [DecidablePred p] (schedule : List ι)
    (hreplay : ((m.replay guard m.init schedule).any fun s => p s) = true) :
    ∃ s, m.ReachableBy guard s ∧ p s := by
  obtain ⟨s, hs, hp⟩ := (Option.any_eq_true _ _).mp hreplay
  exact ⟨s, ReachableBy.init.replay hs, by simpa using hp⟩

end Machine

/-! ## The first step of a path -/

section

variable {α : Type u} {r : α → α → Prop} {a : α} {p : α → Prop}

theorem exists_reflTransGen_iff : (∃ b, Relation.ReflTransGen r a b ∧ p b) ↔
    p a ∨ ∃ a', r a a' ∧ ∃ b, Relation.ReflTransGen r a' b ∧ p b := by
  constructor
  · rintro ⟨b, hab, hb⟩
    rcases hab.cases_head with rfl | ⟨a', hstep, hrest⟩
    · exact .inl hb
    · exact .inr ⟨a', hstep, b, hrest, hb⟩
  · rintro (ha | ⟨a', hstep, b, hrest, hb⟩)
    · exact ⟨a, .refl, ha⟩
    · exact ⟨b, .head hstep hrest, hb⟩

theorem exists_transGen_iff : (∃ b, Relation.TransGen r a b ∧ p b) ↔
    ∃ a', r a a' ∧ (p a' ∨ ∃ b, Relation.TransGen r a' b ∧ p b) := by
  constructor
  · rintro ⟨b, hab, hb⟩
    obtain ⟨a', hstep, hrest⟩ := Relation.TransGen.head'_iff.mp hab
    rcases Relation.reflTransGen_iff_eq_or_transGen.mp hrest with rfl | hbelow
    · exact ⟨b, hstep, .inl hb⟩
    · exact ⟨a', hstep, .inr ⟨b, hbelow, hb⟩⟩
  · rintro ⟨a', hstep, ha' | ⟨b, hbelow, hb⟩⟩
    · exact ⟨a', .single hstep, ha'⟩
    · exact ⟨b, .head hstep hbelow, hb⟩

end

end Sesame.Lib
