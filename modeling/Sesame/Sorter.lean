/-
# Sorting routes

The comparisons of `internal/sorter` for header conditions and for routes. Path
conditions, and header conditions up to inversion, are compared by a key from a
linear order. Two things are not: a header condition that is not inverted is less
than every condition with its key, itself included, and of two lists of header
conditions of one length each is less than the other if each has a smaller
condition at some position.
-/

import Mathlib.Data.Prod.Lex
import Mathlib.Data.String.Basic
import Sesame.Dag.Types
import Sesame.Lib.Sort

namespace Sesame.Sorter

open List
open Lib Dag

variable {a b : Route} {l r : List HeaderMatchCondition}

/-! ## Header conditions -/

/-- The closure `compareValue` of `headerMatchConditionSorter.Less`. -/
def compareValue (a b : HeaderMatchCondition) : Bool :=
  match compare a.value b.value with
  | .lt => true
  | .gt => false
  | .eq => !a.invert

/-- `headerMatchConditionSorter.Less`. -/
def headerMatchConditionLess (a b : HeaderMatchCondition) : Bool :=
  match compare a.name b.name with
  | .lt => true
  | .gt => false
  | .eq =>
    match a.matchType, b.matchType with
    | .exact, .exact => compareValue a b
    | .exact, .regex => true
    | .exact, .contains => true
    | .exact, .present => true
    | .regex, .regex => compareValue a b
    | .regex, .contains => true
    | .regex, .present => true
    | .contains, .contains => compareValue a b
    | .contains, .present => true
    | .present, .present => !a.invert
    | _, _ => false

/-- The place of a match type in the order. -/
def typeRank : HeaderMatchType → Nat
  | .exact => 0
  | .regex => 1
  | .contains => 2
  | .present => 3

/-- The value that is compared; `present` conditions have none. -/
def comparedValue (h : HeaderMatchCondition) : String :=
  if h.matchType = .present then "" else h.value

/-- What header conditions are compared by: the name, the match type, the value. -/
def conditionKey (h : HeaderMatchCondition) : Lex (String × Lex (Nat × String)) :=
  toLex (h.name, toLex (typeRank h.matchType, comparedValue h))

theorem compareValue_iff {a b : HeaderMatchCondition} :
    compareValue a b = true ↔ a.value < b.value ∨ a.value = b.value ∧ a.invert = false := by
  rw [compareValue]
  rcases lt_trichotomy a.value b.value with h | h | h
  · rw [compare_lt_iff_lt.mpr h]
    simp [h]
  · rw [compare_eq_iff_eq.mpr h]
    simp [h]
  · rw [compare_gt_iff_gt.mpr h]
    simp [h.not_gt, h.ne']

theorem headerMatchConditionLess_iff {a b : HeaderMatchCondition} :
    headerMatchConditionLess a b = true ↔
      conditionKey a < conditionKey b ∨ conditionKey a = conditionKey b ∧ a.invert = false := by
  rw [headerMatchConditionLess, conditionKey, conditionKey, Prod.Lex.toLex_lt_toLex, toLex_inj,
    Prod.mk.injEq, toLex_inj, Prod.mk.injEq, Prod.Lex.toLex_lt_toLex]
  rcases lt_trichotomy a.name b.name with h | h | h
  · rw [compare_lt_iff_lt.mpr h]
    simp [h]
  · rw [compare_eq_iff_eq.mpr h]
    cases ha : a.matchType <;> cases hb : b.matchType <;>
      simp [h, ha, hb, typeRank, comparedValue, compareValue_iff]
  · rw [compare_gt_iff_gt.mpr h]
    simp [h.not_gt, h.ne']

/-- The order of header conditions is strict and weak exactly on inverted ones. -/
theorem strictWeakOn_headerMatchConditionLess_iff (S : HeaderMatchCondition → Prop) :
    StrictWeakOn headerMatchConditionLess S ↔ ∀ h, S h → h.invert = true := by
  constructor
  · intro hweak h hh
    have hself := hweak.irrefl h hh
    rw [← Bool.not_eq_true, headerMatchConditionLess_iff, not_or] at hself
    cases hinvert : h.invert with
    | true => rfl
    | false => exact absurd ⟨rfl, hinvert⟩ hself.2
  · intro hinverted
    apply StrictWeakOn.of_le (R := fun a b => conditionKey a ≤ conditionKey b)
    · intro a b c _ _ _ hab hbc
      exact hab.trans hbc
    · intro a b _ _
      exact le_total _ _
    · intro a b ha _
      rw [headerMatchConditionLess_iff, not_le, hinverted a ha]
      simp

/-! ## Routes -/

def longestRouteByHeaderConditions (lhs rhs : Route) : Bool :=
  let l := lhs.headerMatchConditions
  let r := rhs.headerMatchConditions
  (l.length = r.length && (l.zip r).any fun pair => headerMatchConditionLess pair.1 pair.2) ||
    r.length < l.length

/-- `routeSorter.Less`. -/
def routeLess (a b : Route) : Bool :=
  match a.pathMatchCondition, b.pathMatchCondition with
  | .pathPrefix pa ta, .pathPrefix pb tb =>
    match compare pa pb with
    | .gt => true
    | .lt => false
    | .eq => if ta = tb then longestRouteByHeaderConditions a b else ta = .segment
  | .regex ra, .regex rb =>
    match compare ra rb with
    | .gt => true
    | .lt => false
    | .eq => longestRouteByHeaderConditions a b
  | .regex _, .pathPrefix _ _ => true
  | .exact pa, .exact pb =>
    match compare pa pb with
    | .gt => true
    | .lt => false
    | .eq => longestRouteByHeaderConditions a b
  | .exact _, .pathPrefix _ _ => true
  | .exact _, .regex _ => true
  | _, _ => false

/-- The place of a kind of path condition in the order. -/
def kindRank : PathMatchCondition → Nat
  | .exact _ => 0
  | .regex _ => 1
  | .pathPrefix _ _ => 2

/-- The text of a path condition. -/
def pathText : PathMatchCondition → String
  | .exact path => path
  | .regex expr => expr
  | .pathPrefix value _ => value

/-- The place of a prefix match type in the order. -/
def matchTypeRank : PathMatchCondition → Nat
  | .pathPrefix _ .string => 1
  | _ => 0

/-- What path conditions are compared by: the kind, the text, greatest first, and the
type of a prefix match. -/
def pathKey (c : PathMatchCondition) : Lex (Nat × Lex (Stringᵒᵈ × Nat)) :=
  toLex (kindRank c, toLex (OrderDual.toDual (pathText c), matchTypeRank c))

theorem pathKey_inj {c c' : PathMatchCondition} (h : pathKey c = pathKey c') : c = c' := by
  rw [pathKey, pathKey, toLex_inj, Prod.mk.injEq, toLex_inj, Prod.mk.injEq] at h
  obtain ⟨hkind, htext, htype⟩ := h
  cases c <;> cases c' <;> simp_all [kindRank, pathText]
  next t _ t' => cases t <;> cases t' <;> simp_all [matchTypeRank]

theorem longestRouteByHeaderConditions_iff :
    longestRouteByHeaderConditions a b = true ↔
      b.headerMatchConditions.length < a.headerMatchConditions.length ∨
      a.headerMatchConditions.length = b.headerMatchConditions.length ∧
        ∃ pair ∈ a.headerMatchConditions.zip b.headerMatchConditions,
          headerMatchConditionLess pair.1 pair.2 = true := by
  simp only [longestRouteByHeaderConditions, Bool.or_eq_true, Bool.and_eq_true,
    decide_eq_true_eq, any_eq_true]
  exact or_comm

/-- The comparison of two texts, greatest first, and of what decides a tie. -/
theorem greatestFirst_iff {p q : String} {tie : Bool} :
    (match compare p q with
      | .gt => true
      | .lt => false
      | .eq => tie) = true ↔ q < p ∨ p = q ∧ tie = true := by
  rcases lt_trichotomy p q with h | h | h
  · rw [compare_lt_iff_lt.mpr h]
    simp [h.not_gt, h.ne]
  · rw [compare_eq_iff_eq.mpr h]
    simp [h]
  · rw [compare_gt_iff_gt.mpr h]
    simp [h]

theorem routeLess_iff :
    routeLess a b = true ↔
      pathKey a.pathMatchCondition < pathKey b.pathMatchCondition ∨
      a.pathMatchCondition = b.pathMatchCondition ∧ longestRouteByHeaderConditions a b = true := by
  rw [routeLess, pathKey, pathKey, Prod.Lex.toLex_lt_toLex, Prod.Lex.toLex_lt_toLex]
  cases ha : a.pathMatchCondition <;> cases hb : b.pathMatchCondition <;>
    simp only [kindRank, pathText, greatestFirst_iff, OrderDual.toDual_lt_toDual,
      OrderDual.toDual_inj, Nat.lt_irrefl, Nat.reduceLT, Nat.reduceEqDiff, true_and, false_and,
      false_or, or_false, reduceCtorEq, Bool.false_eq_true,
      PathMatchCondition.exact.injEq, PathMatchCondition.regex.injEq,
      PathMatchCondition.pathPrefix.injEq]
  case exact.exact => simp only [matchTypeRank, Nat.lt_irrefl, and_false, or_false]
  case regex.regex => simp only [matchTypeRank, Nat.lt_irrefl, and_false, or_false]
  case pathPrefix.pathPrefix pa ta pb tb =>
    -- Between equal prefixes the match type decides.
    cases ta <;> cases tb <;>
      simp only [matchTypeRank, Nat.lt_irrefl, Nat.reduceLT, if_true, reduceCtorEq, if_false,
        decide_true, decide_false, Bool.false_eq_true, and_true, and_false, false_and, or_false]

/-- Two lists of header conditions cross: at one position the first has the smaller key,
at another one the second. -/
def Crossing (l r : List HeaderMatchCondition) : Prop :=
  (∃ pair ∈ l.zip r, conditionKey pair.1 < conditionKey pair.2) ∧
    ∃ pair ∈ r.zip l, conditionKey pair.1 < conditionKey pair.2

/-- Header conditions whose keys are not greater, position by position. -/
abbrev ConditionsLe : List HeaderMatchCondition → List HeaderMatchCondition → Prop :=
  Forall₂ fun h h' => conditionKey h ≤ conditionKey h'

/-- The order of routes that the comparison is meant to be the strict part of. -/
def RouteLe (a b : Route) : Prop :=
  pathKey a.pathMatchCondition < pathKey b.pathMatchCondition ∨
    a.pathMatchCondition = b.pathMatchCondition ∧
      (b.headerMatchConditions.length < a.headerMatchConditions.length ∨
        ConditionsLe a.headerMatchConditions b.headerMatchConditions)

theorem exists_lt_iff_not_conditionsLe (hlen : l.length = r.length) :
    (∃ pair ∈ l.zip r, conditionKey pair.1 < conditionKey pair.2) ↔ ¬ ConditionsLe r l := by
  have hflip : ConditionsLe r l ↔ Forall₂ (fun h h' => conditionKey h' ≤ conditionKey h) l r :=
    ⟨Forall₂.flip, Forall₂.flip⟩
  rw [hflip, forall₂_iff_zip]
  constructor
  · rintro ⟨pair, hpair, hlt⟩ ⟨-, hle⟩
    exact absurd (hle hpair) (not_le.mpr hlt)
  · intro hnot
    by_contra hnone
    apply hnot
    refine ⟨hlen, ?_⟩
    intro h h' hpair
    by_contra hlt
    exact hnone ⟨(h, h'), hpair, not_le.mp hlt⟩

theorem ConditionsLe.trans {m : List HeaderMatchCondition} (hlm : ConditionsLe l m)
    (hmr : ConditionsLe m r) : ConditionsLe l r := by
  induction hlm generalizing r with
  | nil => exact hmr
  | cons hhead _ ih =>
    cases hmr with
    | cons hhead' htail' => exact .cons (hhead.trans hhead') (ih htail')

theorem RouteLe.trans {c : Route} (hab : RouteLe a b) (hbc : RouteLe b c) : RouteLe a c := by
  rcases hab with hab | ⟨hpath, hab⟩
  · rcases hbc with hbc | ⟨hpath', -⟩
    · exact .inl (hab.trans hbc)
    · exact .inl (hpath' ▸ hab)
  · rcases hbc with hbc | ⟨hpath', hbc⟩
    · exact .inl (hpath ▸ hbc)
    · refine .inr ⟨hpath.trans hpath', ?_⟩
      rcases hab with hab | hab
      · rcases hbc with hbc | hbc
        · exact .inl (hbc.trans hab)
        · exact .inl (hbc.length_eq ▸ hab)
      · rcases hbc with hbc | hbc
        · exact .inl (hab.length_eq ▸ hbc)
        · exact .inr (ConditionsLe.trans hab hbc)

/-- Without crossing lists of header conditions, any two routes are in order. -/
theorem routeLe_total (hcrossing : a.pathMatchCondition = b.pathMatchCondition →
      a.headerMatchConditions.length = b.headerMatchConditions.length →
      ¬ Crossing a.headerMatchConditions b.headerMatchConditions) : RouteLe a b ∨ RouteLe b a := by
  rcases lt_trichotomy (pathKey a.pathMatchCondition) (pathKey b.pathMatchCondition) with
    hpath | hpath | hpath
  · exact .inl (.inl hpath)
  · have hpath := pathKey_inj hpath
    rcases lt_trichotomy a.headerMatchConditions.length b.headerMatchConditions.length with
      hlen | hlen | hlen
    · exact .inr (.inr ⟨hpath.symm, .inl hlen⟩)
    · by_cases hle : ConditionsLe a.headerMatchConditions b.headerMatchConditions
      · exact .inl (.inr ⟨hpath, .inr hle⟩)
      · refine .inr (.inr ⟨hpath.symm, .inr ?_⟩)
        by_contra hle'
        exact hcrossing hpath hlen ⟨(exists_lt_iff_not_conditionsLe hlen).mpr hle',
          (exists_lt_iff_not_conditionsLe hlen.symm).mpr hle⟩
    · exact .inl (.inr ⟨hpath, .inl hlen⟩)
  · exact .inr (.inl hpath)

/-- On inverted header conditions the comparison is the strict part of the order. -/
theorem routeLess_iff_not_routeLe (hinverted : ∀ h ∈ a.headerMatchConditions, h.invert = true) :
    routeLess a b = true ↔ ¬ RouteLe b a := by
  have hheaders : (∃ pair ∈ a.headerMatchConditions.zip b.headerMatchConditions,
        headerMatchConditionLess pair.1 pair.2 = true) ↔
      ∃ pair ∈ a.headerMatchConditions.zip b.headerMatchConditions,
        conditionKey pair.1 < conditionKey pair.2 := by
    apply exists_congr
    intro pair
    apply and_congr_right
    intro hpair
    rw [headerMatchConditionLess_iff, hinverted pair.1 (of_mem_zip hpair).1]
    simp
  rw [routeLess_iff, longestRouteByHeaderConditions_iff, hheaders, RouteLe, not_or, not_and_or,
    not_or, not_lt, not_lt]
  rcases lt_trichotomy (pathKey a.pathMatchCondition) (pathKey b.pathMatchCondition) with
    hpath | hpath | hpath
  · have hne : b.pathMatchCondition ≠ a.pathMatchCondition := by
      intro heq
      rw [heq] at hpath
      exact lt_irrefl _ hpath
    exact iff_of_true (.inl hpath) ⟨hpath.le, .inl hne⟩
  · have heq := pathKey_inj hpath
    rcases lt_trichotomy a.headerMatchConditions.length b.headerMatchConditions.length with
      hlen | hlen | hlen
    · apply iff_of_false
      · simp [heq, hlen.not_gt, hlen.ne]
      · simp [heq, hlen.not_ge]
    · rw [exists_lt_iff_not_conditionsLe hlen]
      simp [heq, hlen]
    · have hnot : ¬ ConditionsLe b.headerMatchConditions a.headerMatchConditions := by
        intro hle
        exact hlen.ne hle.length_eq
      simp [heq, hlen, hlen.le, hnot]
  · apply iff_of_false
    · rintro (hlt | ⟨heq, -⟩)
      · exact lt_asymm hlt hpath
      · rw [heq] at hpath
        exact lt_irrefl _ hpath
    · intro hle
      exact absurd hle.1 (not_le.mpr hpath)

/-- The order of routes is strict and weak exactly on routes whose header conditions are
inverted and do not cross. -/
theorem strictWeakOn_routeLess_iff (S : Route → Prop) :
    StrictWeakOn routeLess S ↔
      (∀ r, S r → ∀ h ∈ r.headerMatchConditions, h.invert = true) ∧
      ∀ a b, S a → S b → a.pathMatchCondition = b.pathMatchCondition →
        a.headerMatchConditions.length = b.headerMatchConditions.length →
        ¬ Crossing a.headerMatchConditions b.headerMatchConditions := by
  constructor
  · intro hweak
    constructor
    · intro r hr h hh
      have hself := hweak.irrefl r hr
      cases hinvert : h.invert with
      | true => rfl
      | false =>
        have hless : routeLess r r = true := by
          rw [routeLess_iff, longestRouteByHeaderConditions_iff]
          refine .inr ⟨rfl, .inr ⟨rfl, (h, h), ?_, ?_⟩⟩
          · rw [zip_eq_zipWith, zipWith_self, mem_map]
            exact ⟨h, hh, rfl⟩
          · rw [headerMatchConditionLess_iff]
            exact .inr ⟨rfl, hinvert⟩
        rw [hself] at hless
        cases hless
    · intro a b ha hb hpath hlen hcrossing
      have hless : ∀ {a b : Route}, a.pathMatchCondition = b.pathMatchCondition →
          a.headerMatchConditions.length = b.headerMatchConditions.length →
          (∃ pair ∈ a.headerMatchConditions.zip b.headerMatchConditions,
            conditionKey pair.1 < conditionKey pair.2) → routeLess a b = true := by
        intro a b hpath hlen hexists
        obtain ⟨pair, hpair, hlt⟩ := hexists
        rw [routeLess_iff, longestRouteByHeaderConditions_iff]
        exact .inr ⟨hpath, .inr ⟨hlen, pair, hpair, headerMatchConditionLess_iff.mpr (.inl hlt)⟩⟩
      have hba := hweak.asymm a b ha hb (hless hpath hlen hcrossing.1)
      rw [hless hpath.symm hlen.symm hcrossing.2] at hba
      cases hba
  · intro hgood
    obtain ⟨hinverted, hcrossing⟩ := hgood
    apply StrictWeakOn.of_le (R := RouteLe)
    · intro a b c _ _ _ hab hbc
      exact hab.trans hbc
    · intro a b ha hb
      exact routeLe_total (hcrossing a b ha hb)
    · intro a b ha _
      exact routeLess_iff_not_routeLe (hinverted a ha)

end Sesame.Sorter
