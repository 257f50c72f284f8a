/-
# Includes with the same conditions

Two includes of a proxy with the same conditions would claim the same requests.
`includeMatchConditionsIdentical` looks for them with an index that moves along with the
outer loop, so it compares each include with the one before it, and it stops at the first
condition that the two share. Includes with the same conditions that are further apart
are not found, and neighbours that share one condition of several are.
-/

import Sesame.Dag.StatusLog

namespace Sesame.Dag

open List
open Lib Api
open Status (DetailedCondition)

namespace HTTPProxyProcessor

/-- Two includes have the same conditions, and some. -/
def SameConditions (a b : Include) : Prop :=
  a.conditions ≠ [] ∧ b.conditions ≠ [] ∧ ∀ c, c ∈ a.conditions ↔ c ∈ b.conditions

/-- Two includes at different positions have the same conditions. -/
def ClaimedTwice (includes : List Include) : Prop :=
  ∃ (i j : Nat) (a b : Include), i < j ∧ includes[i]? = some a ∧ includes[j]? = some b ∧
    SameConditions a b

/-- Two neighbouring includes are related. -/
def Neighbours (R : Include → Include → Prop) (includes : List Include) : Prop :=
  ∃ (i : Nat) (a b : Include), includes[i]? = some a ∧ includes[i + 1]? = some b ∧ R a b

/-- Two includes share a condition. -/
def Share (a b : Include) : Prop := ∃ c ∈ a.conditions, c ∈ b.conditions

/-- Two includes share a condition, and one of them has another that they do not share. -/
def SharePart (a b : Include) : Prop := Share a b ∧ ∃ c, ¬ (c ∈ a.conditions ↔ c ∈ b.conditions)

/-- Two includes have the same conditions and others stand between them. -/
def SameApart (includes : List Include) : Prop :=
  ∃ (i j : Nat) (a b : Include), i + 1 < j ∧ includes[i]? = some a ∧ includes[j]? = some b ∧
    SameConditions a b

/-- What the nested loop finds. -/
theorem includeMatchConditionsIdentical_iff (includes : List Include) :
    includeMatchConditionsIdentical includes = true ↔ Neighbours Share includes := by
  fun_induction includeMatchConditionsIdentical includes with
  | case1 a b rest ih =>
    rw [Bool.or_eq_true, ih]
    constructor
    · intro h
      rcases h with hshared | ⟨i, a', b', ha, hb, hshared⟩
      · obtain ⟨c, hcb, hany⟩ := any_eq_true.mp hshared
        obtain ⟨c', hca, heq⟩ := any_eq_true.mp hany
        cases of_decide_eq_true heq
        exact ⟨0, a, b, rfl, rfl, c, hca, hcb⟩
      · exact ⟨i + 1, a', b', ha, hb, hshared⟩
    · rintro ⟨i, a', b', ha, hb, c, hca, hcb⟩
      cases i with
      | zero =>
        cases ha
        cases hb
        left
        exact any_eq_true.mpr ⟨c, hcb, any_eq_true.mpr ⟨c, hca, decide_eq_true rfl⟩⟩
      | succ i => exact .inr ⟨i, a', b', ha, hb, c, hca, hcb⟩
  | case2 includes hshort =>
    apply iff_of_false Bool.false_ne_true
    rintro ⟨i, a, b, ha, hb, -⟩
    match includes, hshort with
    | [], _ => cases ha
    | [_], _ => cases hb
    | x :: y :: rest, hshort => exact hshort x y rest rfl

/-- The visit of a proxy whose includes clash. -/
def refusedVisit (st : State) (vc : DetailedCondition) : Visit where
  state := st
  validCond := vc.addError .includeError "DuplicateMatchConditions"
    "duplicate conditions defined on an include"

/-- The includes of a proxy are told apart as they should be: the check finds exactly the
includes with the same conditions, and a visit that closes no cycle refuses the proxy for
those and takes its includes and routes otherwise. -/
def ToldApart (proxy : HTTPProxy) : Prop :=
  (includeMatchConditionsIdentical proxy.includes = true ↔ ClaimedTwice proxy.includes) ∧
  ∀ lib ord p source root enforceTLS fuel visited st vc chain, ¬ OnPath visited proxy →
    (ClaimedTwice proxy.includes →
      computeRoutes lib ord p source root enforceTLS (fuel + 1) visited st vc
        { proxy, chain } = refusedVisit st vc) ∧
    (¬ ClaimedTwice proxy.includes →
      computeRoutes lib ord p source root enforceTLS (fuel + 1) visited st vc
        { proxy, chain } =
        takeRoutes lib ord p source root enforceTLS (visited ++ [proxy]) { proxy, chain }
          (afterIncludes lib ord p source root enforceTLS fuel visited st vc { proxy, chain }))

theorem share_iff {a b : Include} : Share a b ↔ SameConditions a b ∨ SharePart a b := by
  constructor
  · intro h
    obtain ⟨c, hca, hcb⟩ := h
    by_cases hsame : ∀ c, c ∈ a.conditions ↔ c ∈ b.conditions
    · exact .inl ⟨ne_nil_of_mem hca, ne_nil_of_mem hcb, hsame⟩
    · exact .inr ⟨⟨c, hca, hcb⟩, not_forall.mp hsame⟩
  · rintro (⟨hne, -, hsame⟩ | hpart)
    · obtain ⟨c, hc⟩ := exists_mem_of_ne_nil _ hne
      exact ⟨c, hc, (hsame c).mp hc⟩
    · exact hpart.1

theorem neighbours_share_iff {includes : List Include} :
    Neighbours Share includes ↔
      Neighbours SameConditions includes ∨ Neighbours SharePart includes := by
  simp only [Neighbours, share_iff, and_or_left, exists_or]

theorem claimedTwice_iff {includes : List Include} :
    ClaimedTwice includes ↔ Neighbours SameConditions includes ∨ SameApart includes := by
  constructor
  · rintro ⟨i, j, a, b, hlt, ha, hb, hsame⟩
    rcases Nat.eq_or_lt_of_le (Nat.succ_le_of_lt hlt) with rfl | hapart
    · exact .inl ⟨i, a, b, ha, hb, hsame⟩
    · exact .inr ⟨i, j, a, b, hapart, ha, hb, hsame⟩
  · rintro (⟨i, a, b, hrest⟩ | ⟨i, j, a, b, hapart, hrest⟩)
    · exact ⟨i, i + 1, a, b, i.lt_succ_self, hrest⟩
    · exact ⟨i, j, a, b, Nat.lt_of_succ_lt hapart, hrest⟩

/-- The includes of a proxy are told apart exactly if neighbours have the same conditions,
or neither of the two faults occurs, or both do: includes with the same conditions that
stand apart, and neighbours that share a part of their conditions. -/
theorem toldApart_iff (proxy : HTTPProxy) :
    ToldApart proxy ↔ Neighbours SameConditions proxy.includes ∨
      (SameApart proxy.includes ↔ Neighbours SharePart proxy.includes) := by
  have hfound := includeMatchConditionsIdentical_iff proxy.includes
  have hexact : (Neighbours Share proxy.includes ↔ ClaimedTwice proxy.includes) ↔
      Neighbours SameConditions proxy.includes ∨
        (SameApart proxy.includes ↔ Neighbours SharePart proxy.includes) := by
    rw [neighbours_share_iff, claimedTwice_iff]
    tauto
  rw [← hexact]
  constructor
  · intro h
    exact hfound.symm.trans h.1
  · intro h
    have hclaimed := hfound.trans h
    refine ⟨hclaimed, fun lib ord p source root enforceTLS fuel visited st vc chain hfresh => ?_⟩
    constructor
    · intro htwice
      exact computeRoutes_of_identical hfresh (hclaimed.mpr htwice) st vc
    · intro hdistinct
      have hexpands : Call.Expands ⟨visited, { proxy, chain }⟩ :=
        ⟨hfresh, Bool.eq_false_iff.mpr (mt hclaimed.mp hdistinct)⟩
      exact computeRoutes_of_expands hexpands st vc

/-- Two includes for one prefix with another one between them. -/
def includesApart : List Include :=
  [{ name := "a", conditions := [{ pathPrefix := "/a" }] },
    { name := "b", conditions := [{ pathPrefix := "/b" }] },
    { name := "c", conditions := [{ pathPrefix := "/a" }] }]

/-- Two includes for one prefix that a header tells apart. -/
def includesByHeader : List Include :=
  [{ name := "a", conditions := [{ pathPrefix := "/a" },
      { header := some { name := "x-env", exact := "prod" } }] },
    { name := "b", conditions := [{ pathPrefix := "/a" },
      { header := some { name := "x-env", exact := "dev" } }] }]

/-- Includes with the same conditions are missed, and includes with different conditions
are refused. -/
theorem includes_confused :
    (includeMatchConditionsIdentical includesApart = false ∧ ClaimedTwice includesApart) ∧
    includeMatchConditionsIdentical includesByHeader = true ∧ ¬ ClaimedTwice includesByHeader := by
  refine ⟨⟨by decide, 0, 2, _, _, by decide, rfl, rfl, by simp, by simp, fun c => Iff.rfl⟩,
    by decide, ?_⟩
  rintro ⟨i, j, a, b, hlt, ha, hb, -, -, hsame⟩
  have hprod := hsame { header := some { name := "x-env", exact := "prod" } }
  -- Only the first include asks for this header.
  match i, j with
  | 0, 1 =>
    cases ha
    cases hb
    exact absurd hprod (by decide)
  | _ + 1, 0 | 0, 0 | 1, 1 => omega
  | _ + 2, _ => cases ha
  | _, _ + 2 => cases hb

end HTTPProxyProcessor

end Sesame.Dag
