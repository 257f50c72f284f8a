/-
# Header conditions and their matchers

What the header conditions of a route ask of a request, operator by operator as the API
documents them, against what the matchers made from them ask of it.

`headerMatchConditions` makes one matcher for each condition, from the first operator that
is set in the order of its switch, and `headerMatchConditionsValid` accepts conditions
that set several. So the matchers are faithful exactly where the first operator implies
the others.
-/

import Sesame.Lib.Except
import Sesame.Dag.Conditions

namespace Sesame.Dag

open List
open Lib Api

variable {m n : HeaderMatchCondition} {ms : List HeaderMatchCondition} {c : HeaderCondition}

/-! ## Requests -/

/-- The value of a header: names are compared without case, and the values of a header
that is repeated are joined. -/
def headerValue (headers : List (String × String)) (name : String) : Option String :=
  match headers.filter fun h => lowerName h.1 = lowerName name with
  | [] => none
  | found => some (",".intercalate (found.map Prod.snd))

/-- Any value can be the value of a header. -/
theorem exists_headerValue (name : String) (value : Option String) :
    ∃ headers, headerValue headers name = value := by
  cases value with
  | none => exact ⟨[], rfl⟩
  | some v => exact ⟨[(name, v)], by simp [headerValue, String.intercalate_singleton]⟩

/-- What is left to the reader of a matcher: whether "not equal" and "does not contain"
hold of a header that is absent, and what a regular expression matches. -/
structure Reading where
  heldByAbsent : Bool
  matchesRegex : String → String → Bool

theorem toList_infix_empty {text : String} : text.toList <:+: "".toList ↔ text = "" := by
  rw [String.toList_empty, infix_nil, String.toList_eq_nil_iff]

namespace Reading

variable (rd : Reading)

/-- The values that a matcher accepts before it is inverted. -/
def Accepts (m : HeaderMatchCondition) (v : String) : Prop :=
  match m.matchType with
  | .exact => v = m.value
  | .contains => m.value.toList <:+: v.toList
  | .present => True
  | .regex => rd.matchesRegex m.value v = true

/-- A matcher is satisfied by the value of its header. -/
def Satisfied (m : HeaderMatchCondition) : Option String → Prop
  | some v => rd.Accepts m v ↔ m.invert = false
  | none => m.invert = true ∧ (m.matchType = .present ∨ rd.heldByAbsent = true)

/-- A header does not have a value with the property. -/
def Lacks (property : String → Prop) : Option String → Prop
  | some v => ¬ property v
  | none => rd.heldByAbsent = true

/-- Every operator that a condition sets is met by the value of its header. -/
structure Met (c : HeaderCondition) (value : Option String) : Prop where
  present : c.present = true → value.isSome
  notPresent : c.notPresent = true → value = none
  contains : c.contains ≠ "" → ∃ v, value = some v ∧ c.contains.toList <:+: v.toList
  notContains : c.notContains ≠ "" → rd.Lacks (c.notContains.toList <:+: ·.toList) value
  exact : c.exact ≠ "" → value = some c.exact
  notExact : c.notExact ≠ "" → rd.Lacks (· = c.notExact) value

/-- The matchers of a list of conditions say what its conditions say, and no condition is
dropped or weakened on the way. -/
def Faithful (conds : List MatchCondition) : Prop :=
  (∀ headers,
    (∀ m ∈ mergeHeaderMatchConditions conds, rd.Satisfied m (headerValue headers m.name)) ↔
    ∀ c ∈ conds.filterMap (·.header), rd.Met c (headerValue headers c.name)) ∧
  ∀ c ∈ conds.filterMap (·.header), ∀ headers,
    (∀ m ∈ headerMatchConditions [c], rd.Satisfied m (headerValue headers m.name)) ↔
      rd.Met c (headerValue headers c.name)

/-- Whatever meets the first operator that a condition sets, in the order of
`headerMatchConditions`, meets the other operators that it sets. -/
def FirstSuffices (c : HeaderCondition) : Prop :=
  if c.present then
    c.notPresent = false ∧ c.contains = "" ∧ c.notContains = "" ∧ c.exact = "" ∧ c.notExact = ""
  else if c.notPresent then
    c.contains = "" ∧ c.exact = "" ∧ (c.notContains = "" ∧ c.notExact = "" ∨ rd.heldByAbsent = true)
  else if c.contains ≠ "" then
    c.notContains = "" ∧ c.exact = "" ∧ ¬ c.contains.toList <:+: c.notExact.toList
  else if c.notContains ≠ "" then
    c.exact = "" ∧ (c.notExact = "" ∨ c.notContains.toList <:+: c.notExact.toList)
  else c.exact = "" ∨ c.notExact ≠ c.exact

variable {rd}

variable {name text v : String} {value : Option String}

theorem satisfied_present : rd.Satisfied { name, matchType := .present } value ↔ value.isSome := by
  cases value <;> simp [Satisfied, Accepts]

theorem satisfied_notPresent :
    rd.Satisfied { name, matchType := .present, invert := true } value ↔ value = none := by
  cases value <;> simp [Satisfied, Accepts]

theorem satisfied_contains :
    rd.Satisfied { name, value := text, matchType := .contains } value ↔
      ∃ v, value = some v ∧ text.toList <:+: v.toList := by
  cases value <;> simp [Satisfied, Accepts]

theorem satisfied_notContains :
    rd.Satisfied { name, value := text, matchType := .contains, invert := true } value ↔
      rd.Lacks (text.toList <:+: ·.toList) value := by
  cases value <;> simp [Satisfied, Accepts, Lacks]

theorem satisfied_exact :
    rd.Satisfied { name, value := text, matchType := .exact } value ↔ value = some text := by
  cases value <;> simp [Satisfied, Accepts]

theorem satisfied_notExact :
    rd.Satisfied { name, value := text, matchType := .exact, invert := true } value ↔
      rd.Lacks (· = text) value := by
  cases value <;> simp [Satisfied, Accepts, Lacks]

/-- A value without the text of an operator leaves the operator unset. -/
theorem Met.contains_eq_empty (h : rd.Met c (some v)) (hv : ¬ c.contains.toList <:+: v.toList) :
    c.contains = "" := by
  by_contra hset
  obtain ⟨v', hsome, hoccurs⟩ := h.contains hset
  cases hsome
  exact hv hoccurs

theorem Met.notContains_eq_empty (h : rd.Met c (some v)) (hv : c.notContains.toList <:+: v.toList) :
    c.notContains = "" := by
  by_contra hset
  exact h.notContains hset hv

theorem Met.exact_eq_empty (h : rd.Met c (some v)) (hv : v ≠ c.exact) : c.exact = "" := by
  by_contra hset
  exact hv (Option.some.inj (h.exact hset))

theorem Met.notExact_eq_empty (h : rd.Met c (some c.notExact)) : c.notExact = "" := by
  by_contra hset
  exact h.notExact hset rfl

/-- The first operator is one of those that are set. -/
theorem Met.satisfied {value : Option String} (h : rd.Met c value) :
    ∀ m ∈ headerMatchCondition c, rd.Satisfied m value := by
  rw [headerMatchCondition]
  split_ifs with hpresent hnotPresent hcontains hnotContains hexact hnotExact
  · simpa [satisfied_present] using h.present hpresent
  · simpa [satisfied_notPresent] using h.notPresent hnotPresent
  · simpa [satisfied_contains] using h.contains hcontains
  · simpa [satisfied_notContains] using h.notContains hnotContains
  · simpa [satisfied_exact] using h.exact hexact
  · simpa [satisfied_notExact] using h.notExact hnotExact
  · simp

theorem FirstSuffices.met (h : rd.FirstSuffices c) {value : Option String}
    (hfirst : ∀ m ∈ headerMatchCondition c, rd.Satisfied m value) : rd.Met c value := by
  rw [headerMatchCondition] at hfirst
  rw [FirstSuffices] at h
  split_ifs at h hfirst with hpresent hnotPresent hcontains hnotContains hexact hnotExact
  · simp only [Option.mem_some_iff, forall_eq', satisfied_present] at hfirst
    obtain ⟨v, rfl⟩ := Option.isSome_iff_exists.mp hfirst
    constructor <;> grind
  · simp only [Option.mem_some_iff, forall_eq', satisfied_notPresent] at hfirst
    subst hfirst
    constructor <;> grind [Lacks]
  · simp only [Option.mem_some_iff, forall_eq', satisfied_contains] at hfirst
    obtain ⟨v, rfl, hv⟩ := hfirst
    constructor <;> grind [Lacks]
  · simp only [Option.mem_some_iff, forall_eq', satisfied_notContains] at hfirst
    cases value with
    | none => constructor <;> grind [Lacks]
    | some v => constructor <;> grind [Lacks]
  · simp only [Option.mem_some_iff, forall_eq', satisfied_exact] at hfirst
    subst hfirst
    constructor <;> grind [Lacks]
  · simp only [Option.mem_some_iff, forall_eq', satisfied_notExact] at hfirst
    constructor <;> grind
  · constructor <;> grind

/-- A condition whose first operator implies the others sets no operator that some value
with the first one misses. -/
theorem firstSuffices_of_forall_met
    (h : ∀ value, (∀ m ∈ headerMatchCondition c, rd.Satisfied m value) → rd.Met c value) :
    rd.FirstSuffices c := by
  rw [headerMatchCondition] at h
  rw [FirstSuffices]
  split_ifs at h ⊢ with hpresent hnotPresent hcontains hnotContains hexact hnotExact
  · simp only [Option.mem_some_iff, forall_eq', satisfied_present] at h
    have hempty : rd.Met c (some "") := h _ rfl
    refine ⟨?_, ?_, (h (some _) rfl).notContains_eq_empty (infix_refl _), ?_,
      (h (some _) rfl).notExact_eq_empty⟩
    · by_contra hset
      cases hempty.notPresent ((Bool.not_eq_false _).mp hset)
    · by_contra hset
      exact hset (hempty.contains_eq_empty fun hoccurs => hset (toList_infix_empty.mp hoccurs))
    · by_contra hset
      exact hset (hempty.exact_eq_empty (Ne.symm hset))
  · simp only [Option.mem_some_iff, forall_eq', satisfied_notPresent] at h
    have habsent : rd.Met c none := h none rfl
    have hcontains : c.contains = "" := by
      by_contra hset
      obtain ⟨v, hv, -⟩ := habsent.contains hset
      cases hv
    have hexact : c.exact = "" := by
      by_contra hset
      cases habsent.exact hset
    have hothers := habsent.notContains
    have hothers' := habsent.notExact
    exact ⟨hcontains, hexact, by grind [Lacks]⟩
  · simp only [Option.mem_some_iff, forall_eq', satisfied_contains] at h
    have hmet : ∀ v : String, c.contains.toList <:+: v.toList → rd.Met c (some v) :=
      fun v hv => h _ ⟨v, rfl, hv⟩
    refine ⟨?_, ?_, ?_⟩
    · refine (hmet (c.contains ++ c.notContains) ?_).notContains_eq_empty ?_
      · rw [String.toList_append]
        exact (prefix_append _ _).isInfix
      · rw [String.toList_append]
        exact (suffix_append _ _).isInfix
    · refine (hmet (c.contains ++ c.exact) ?_).exact_eq_empty ?_
      · rw [String.toList_append]
        exact (prefix_append _ _).isInfix
      · intro heq
        have hlength := congrArg String.length heq
        rw [String.length_append] at hlength
        exact hcontains (String.length_eq_zero_iff.mp (by omega))
    · intro hoccurs
      have hempty := (hmet c.notExact hoccurs).notExact_eq_empty
      rw [hempty] at hoccurs
      exact hcontains (toList_infix_empty.mp hoccurs)
  · simp only [Option.mem_some_iff, forall_eq', satisfied_notContains] at h
    refine ⟨?_, ?_⟩
    · by_contra hset
      have hempty : rd.Met c (some "") :=
        h _ fun hoccurs => hnotContains (toList_infix_empty.mp hoccurs)
      exact hset (hempty.exact_eq_empty (Ne.symm hset))
    · by_contra hset
      rw [not_or] at hset
      exact hset.1 (h (some _) hset.2).notExact_eq_empty
  · simp only [Option.mem_some_iff, forall_eq', satisfied_exact] at h
    right
    intro heq
    rw [← heq] at h hexact
    exact hexact (h _ rfl).notExact_eq_empty
  · exact .inl (not_not.mp hexact)
  · exact .inl (not_not.mp hexact)

end Reading

theorem headerMatchCondition_name (h : m ∈ headerMatchCondition c) : m.name = c.name := by
  rw [headerMatchCondition] at h
  split_ifs at h <;> cases h <;> rfl

/-- The matchers of one condition are read at the value of its header. -/
theorem Reading.forall_satisfied_iff {rd : Reading} {conds : List HeaderCondition}
    {headers : List (String × String)} :
    (∀ m ∈ headerMatchConditions conds, rd.Satisfied m (headerValue headers m.name)) ↔
      ∀ c ∈ conds, ∀ m ∈ headerMatchCondition c, rd.Satisfied m (headerValue headers c.name) := by
  rw [headerMatchConditions]
  constructor
  · intro h c hc m hm
    have hsatisfied := h m (mem_filterMap.mpr ⟨c, hc, hm⟩)
    rwa [headerMatchCondition_name hm] at hsatisfied
  · intro h m hm
    obtain ⟨c, hc, hm⟩ := mem_filterMap.mp hm
    rw [headerMatchCondition_name hm]
    exact h c hc m hm

/-- The matchers of a list of conditions are faithful exactly if the first operator that
each condition sets implies the other operators that it sets. -/
theorem mergeHeaderMatchConditions_faithful_iff (rd : Reading) (conds : List MatchCondition) :
    rd.Faithful conds ↔ ∀ c ∈ conds.filterMap (·.header), rd.FirstSuffices c := by
  constructor
  · rintro ⟨-, hkept⟩ c hc
    apply Reading.firstSuffices_of_forall_met
    intro value hfirst
    obtain ⟨headers, rfl⟩ := exists_headerValue c.name value
    apply (hkept c hc headers).mp
    rw [Reading.forall_satisfied_iff, forall_mem_singleton]
    exact hfirst
  · intro h
    have hkept : ∀ c ∈ conds.filterMap (·.header), ∀ headers,
        (∀ m ∈ headerMatchCondition c, rd.Satisfied m (headerValue headers c.name)) ↔
          rd.Met c (headerValue headers c.name) :=
      fun c hc headers => ⟨(h c hc).met, Reading.Met.satisfied⟩
    constructor
    · intro headers
      rw [mergeHeaderMatchConditions, Reading.forall_satisfied_iff]
      exact forall₂_congr fun c hc => hkept c hc headers
    · intro c hc headers
      rw [Reading.forall_satisfied_iff, forall_mem_singleton]
      exact hkept c hc headers

/-- Envoy's reading of a header that is absent. -/
def strictReading : Reading where
  heldByAbsent := false
  matchesRegex _ _ := false

/-- A condition that asks for a whole value and for a part of it. -/
def wholeAndPart : List MatchCondition :=
  [{ header := some { name := "X-Env", contains := "prod", exact := "prod-eu" } }]

/-- The condition is accepted, and the matcher that is made for it only asks for the part. -/
theorem exact_dropped_beside_contains :
    headerMatchConditionsValid .plain wholeAndPart = .ok () ∧
    (∀ m ∈ mergeHeaderMatchConditions wholeAndPart,
      strictReading.Satisfied m (headerValue [("x-env", "prod-us")] m.name)) ∧
    ¬ ∀ c ∈ wholeAndPart.filterMap (·.header),
      strictReading.Met c (headerValue [("x-env", "prod-us")] c.name) := by
  have hvalue : headerValue [("x-env", "prod-us")] "X-Env" = some "prod-us" := by
    have hname : lowerName "x-env" = lowerName "X-Env" := by decide
    simp [headerValue, hname, String.intercalate_singleton]
  refine ⟨by decide, ?_, ?_⟩
  · rw [show mergeHeaderMatchConditions wholeAndPart =
      [{ name := "X-Env", value := "prod", matchType := .contains }] by decide,
      forall_mem_singleton, hvalue, Reading.satisfied_contains]
    exact ⟨_, rfl, by decide⟩
  · intro h
    have hmet := h _ (mem_singleton_self _)
    rw [hvalue] at hmet
    exact absurd (Option.some.inj (hmet.exact (by decide))) (by decide)

/-! ## Contradictory matchers -/

/-- Two matchers of one header that the validator looks for: two exact values, or a
matcher and its inversion. -/
def Contradictory (lib : Stdlib) (m n : HeaderMatchCondition) : Prop :=
  lib.toLower m.name = lib.toLower n.name ∧ m.matchType = n.matchType ∧
    (m.matchType = .exact ∧ m.invert = false ∧ n.invert = false ∨
      m.value = n.value ∧ m.invert ≠ n.invert)

variable {lib : Stdlib}

theorem Contradictory.symm (h : Contradictory lib m n) : Contradictory lib n m := by
  obtain ⟨hname, htype, hexact | hinverse⟩ := h
  · exact ⟨hname.symm, htype.symm, .inl ⟨htype ▸ hexact.1, hexact.2.2, hexact.2.1⟩⟩
  · exact ⟨hname.symm, htype.symm, .inr ⟨hinverse.1.symm, hinverse.2.symm⟩⟩

/-- The number of operators that a condition sets. -/
def operatorsSet (c : HeaderCondition) : Nat :=
  c.present.toNat + c.notPresent.toNat + (decide (c.contains ≠ "")).toNat +
    (decide (c.notContains ≠ "")).toNat + (decide (c.exact ≠ "")).toNat +
    (decide (c.notExact ≠ "")).toNat

/-- The condition that sets the operator of a matcher and no other. -/
def conditionOf (m : HeaderMatchCondition) : HeaderCondition :=
  match m.matchType, m.invert with
  | .present, false => { name := m.name, present := true }
  | .present, true => { name := m.name, notPresent := true }
  | .contains, false => { name := m.name, contains := m.value }
  | .contains, true => { name := m.name, notContains := m.value }
  | .exact, false => { name := m.name, exact := m.value }
  | .exact, true => { name := m.name, notExact := m.value }
  | .regex, _ => { name := m.name }

/-- The matchers that an operator can give. -/
inductive OfOperator : HeaderMatchCondition → Prop
  | present (name : String) (invert : Bool) : OfOperator { name, matchType := .present, invert }
  | contains (name : String) {value : String} (hvalue : value ≠ "") (invert : Bool) :
      OfOperator { name, value, matchType := .contains, invert }
  | exact (name : String) {value : String} (hvalue : value ≠ "") (invert : Bool) :
      OfOperator { name, value, matchType := .exact, invert }

theorem headerMatchCondition_conditionOf (h : OfOperator m) :
    headerMatchCondition (conditionOf m) = some m := by
  cases h with
  | present name invert => cases invert <;> rfl
  | contains name hvalue invert => cases invert <;> simp [conditionOf, headerMatchCondition, hvalue]
  | exact name hvalue invert => cases invert <;> simp [conditionOf, headerMatchCondition, hvalue]

/-- A condition with one operator is the condition of its matcher. -/
theorem eq_conditionOf (h : operatorsSet c = 1) : ∃ m, OfOperator m ∧ c = conditionOf m := by
  obtain ⟨name, present, notPresent, contains, notContains, exact, notExact⟩ := c
  simp only [operatorsSet, Nat.add_assoc] at h
  cases present with
  | true => exact ⟨_, .present name false, by simp_all [conditionOf]⟩
  | false =>
  cases notPresent with
  | true => exact ⟨_, .present name true, by simp_all [conditionOf]⟩
  | false =>
  by_cases hcontains : contains = ""
  case neg => exact ⟨_, .contains name hcontains false, by simp_all [conditionOf]⟩
  by_cases hnotContains : notContains = ""
  case neg => exact ⟨_, .contains name hnotContains true, by simp_all [conditionOf]⟩
  by_cases hexact : exact = ""
  case neg => exact ⟨_, .exact name hexact false, by simp_all [conditionOf]⟩
  by_cases hnotExact : notExact = ""
  case neg => exact ⟨_, .exact name hnotExact true, by simp_all [conditionOf]⟩
  simp_all

theorem conditionOf_inj (hm : OfOperator m) (hn : OfOperator n)
    (h : conditionOf m = conditionOf n) :
    m = n := by
  have hmatchers := congrArg headerMatchCondition h
  rw [headerMatchCondition_conditionOf hm, headerMatchCondition_conditionOf hn] at hmatchers
  exact Option.some.inj hmatchers

/-- A matcher that asks for one value. -/
def IsExact (m : HeaderMatchCondition) : Prop := m.matchType = .exact ∧ m.invert = false
  deriving Decidable

def lowered (lib : Stdlib) (m : HeaderMatchCondition) : HeaderMatchCondition :=
  { m with name := lib.toLower m.name }

def inverse (m : HeaderMatchCondition) : HeaderMatchCondition := { m with invert := !m.invert }

theorem OfOperator.lowered (h : OfOperator m) : OfOperator (lowered lib m) := by
  cases h with
  | present name invert => exact .present (lib.toLower name) invert
  | contains name hvalue invert => exact .contains (lib.toLower name) hvalue invert
  | exact name hvalue invert => exact .exact (lib.toLower name) hvalue invert

theorem OfOperator.inverse (h : OfOperator m) : OfOperator (inverse m) := by
  cases h with
  | present name invert => exact .present name (!invert)
  | contains name hvalue invert => exact .contains name hvalue (!invert)
  | exact name hvalue invert => exact .exact name hvalue (!invert)

/-- What a matcher clashes with has been seen: an exact value for its header, if it asks
for one, or the inverse condition. -/
def Refused (lib : Stdlib) (seen : SeenHeaders) (m : HeaderMatchCondition) : Prop :=
  IsExact m ∧ lib.toLower m.name ∈ seen.exact ∨
    conditionOf (lowered lib (inverse m)) ∈ seen.conditions

theorem headerConditionValid_refused {seen : SeenHeaders} (hm : OfOperator m)
    (h : Refused lib seen m) : ∃ e, headerConditionValid lib seen (conditionOf m) = .error e := by
  rw [Refused] at h
  cases hm with
  | present name invert =>
    cases invert <;> simp [IsExact, lowered, inverse, conditionOf] at h <;>
      exact ⟨_, by simp [headerConditionValid, conditionOf, h]; rfl⟩
  | contains name hvalue invert =>
    cases invert <;> simp [IsExact, lowered, inverse, conditionOf] at h <;>
      exact ⟨_, by simp [headerConditionValid, conditionOf, h, hvalue]; rfl⟩
  | exact name hvalue invert =>
    cases invert with
    | true =>
      simp [IsExact, lowered, inverse, conditionOf] at h
      exact ⟨_, by simp [headerConditionValid, conditionOf, h, hvalue]; rfl⟩
    | false =>
      by_cases hexact : lib.toLower name ∈ seen.exact
      · exact ⟨_, by simp [headerConditionValid, conditionOf, hexact, hvalue]; rfl⟩
      · simp [IsExact, lowered, inverse, conditionOf, hexact] at h
        exact ⟨_, by simp [headerConditionValid, conditionOf, hexact, h, hvalue]; rfl⟩

theorem headerConditionValid_accepted {seen : SeenHeaders} (hm : OfOperator m)
    (h : ¬ Refused lib seen m) :
    headerConditionValid lib seen (conditionOf m) =
      .ok { conditions := conditionOf (lowered lib m) :: seen.conditions
            exact := if IsExact m then lib.toLower m.name :: seen.exact else seen.exact } := by
  rw [Refused, not_or] at h
  cases hm with
  | present name invert =>
    cases invert <;> simp [IsExact, lowered, inverse, conditionOf] at h ⊢ <;>
      simp [headerConditionValid, h]
  | contains name hvalue invert =>
    cases invert <;> simp [IsExact, lowered, inverse, conditionOf] at h ⊢ <;>
      simp [headerConditionValid, h, hvalue]
  | exact name hvalue invert =>
    cases invert <;> simp [IsExact, lowered, inverse, conditionOf] at h ⊢ <;>
      simp [headerConditionValid, h, hvalue]

/-- What the validator has seen after the conditions of some matchers, the last one first. -/
def seenAfter (lib : Stdlib) (ms : List HeaderMatchCondition) : SeenHeaders where
  conditions := ms.map fun m => conditionOf (lowered lib m)
  exact := (ms.filter fun m => IsExact m).map fun m => lib.toLower m.name

/-- A matcher is refused exactly if it contradicts one that was seen. -/
theorem refused_seenAfter_iff {seen : List HeaderMatchCondition} (hseen : ∀ n ∈ seen, OfOperator n)
    (hm : OfOperator m) :
    Refused lib (seenAfter lib seen) m ↔ ∃ n ∈ seen, Contradictory lib n m := by
  constructor
  · rintro (⟨hexact, hname⟩ | hinverse)
    · obtain ⟨n, hn, hname⟩ := mem_map.mp hname
      obtain ⟨hn, hnexact⟩ := mem_filter.mp hn
      have hnexact : IsExact n := of_decide_eq_true hnexact
      exact ⟨n, hn, hname, hnexact.1.trans hexact.1.symm, .inl ⟨hnexact.1, hnexact.2, hexact.2⟩⟩
    · obtain ⟨n, hn, hcondition⟩ := mem_map.mp hinverse
      have heq : lowered lib n = lowered lib (inverse m) :=
        conditionOf_inj (hseen n hn).lowered hm.inverse.lowered hcondition
      injection heq with hname hvalue htype hinvert
      refine ⟨n, hn, hname, htype, .inr ⟨hvalue, ?_⟩⟩
      rw [hinvert]
      exact Bool.not_not_eq.mpr rfl
  · rintro ⟨n, hn, hname, htype, ⟨hexact, hninvert, hinvert⟩ | ⟨hvalue, hinvert⟩⟩
    · left
      refine ⟨⟨htype ▸ hexact, hinvert⟩, mem_map.mpr ⟨n, mem_filter.mpr ⟨hn, ?_⟩, hname⟩⟩
      exact decide_eq_true ⟨hexact, hninvert⟩
    · right
      refine mem_map.mpr ⟨n, hn, congrArg conditionOf ?_⟩
      have hflipped : n.invert = !m.invert := Bool.eq_not.mpr hinvert
      rw [lowered, lowered, inverse, hname, hvalue, htype, hflipped]

theorem seenAfter_cons (m : HeaderMatchCondition) (seen : List HeaderMatchCondition) :
    seenAfter lib (m :: seen) =
      { conditions := conditionOf (lowered lib m) :: (seenAfter lib seen).conditions
        exact := if IsExact m then lib.toLower m.name :: (seenAfter lib seen).exact
          else (seenAfter lib seen).exact } := by
  by_cases h : IsExact m <;> simp [seenAfter, h]

/-- The validator accepts the conditions of matchers that do not contradict each other. -/
theorem foldlM_headerConditionValid_iff (hms : ∀ m ∈ ms, OfOperator m) :
    (∃ s, (ms.map conditionOf).foldlM (headerConditionValid lib) {} = .ok s) ↔
      ms.Pairwise fun m n => ¬ Contradictory lib m n := by
  have haccept : ∀ seen m, (∀ n ∈ seen, OfOperator n) → OfOperator m →
      (∀ n ∈ seen, ¬ Contradictory lib n m) →
      headerConditionValid lib (seenAfter lib seen) (conditionOf m) =
        .ok (seenAfter lib (m :: seen)) := by
    intro seen m hseen hm hfree
    rw [seenAfter_cons]
    apply headerConditionValid_accepted hm
    rw [refused_seenAfter_iff hseen hm]
    rintro ⟨n, hn, hclash⟩
    exact hfree n hn hclash
  have hrefuse : ∀ seen m, (∀ n ∈ seen, OfOperator n) → OfOperator m →
      ∀ n ∈ seen, Contradictory lib n m →
        ∃ e, headerConditionValid lib (seenAfter lib seen) (conditionOf m) = .error e := by
    intro seen m hseen hm n hn hclash
    apply headerConditionValid_refused hm
    exact (refused_seenAfter_iff hseen hm).mpr ⟨n, hn, hclash⟩
  rw [foldlM_map]
  apply (foldlM_seen_iff (seenAfter lib) haccept hrefuse hms
    fun n hn => absurd hn not_mem_nil).trans
  exact and_iff_left fun n hn => absurd hn not_mem_nil

theorem exists_matchers {cs : List HeaderCondition} (h : ∀ c ∈ cs, operatorsSet c = 1) :
    ∃ ms : List HeaderMatchCondition, (∀ m ∈ ms, OfOperator m) ∧ cs = ms.map conditionOf := by
  induction cs with
  | nil => exact ⟨[], fun m hm => absurd hm not_mem_nil, rfl⟩
  | cons c cs ih =>
    obtain ⟨hc, hcs⟩ := forall_mem_cons.mp h
    obtain ⟨m, hm, rfl⟩ := eq_conditionOf hc
    obtain ⟨ms, hms, rfl⟩ := ih hcs
    exact ⟨m :: ms, forall_mem_cons.mpr ⟨hm, hms⟩, rfl⟩

theorem headerMatchConditions_map_conditionOf (hms : ∀ m ∈ ms, OfOperator m) :
    headerMatchConditions (ms.map conditionOf) = ms := by
  rw [headerMatchConditions, filterMap_map]
  calc ms.filterMap (headerMatchCondition ∘ conditionOf) = ms.filterMap some :=
        filterMap_congr fun m hm => headerMatchCondition_conditionOf (hms m hm)
    _ = ms := filterMap_some

/-- The verdict on conditions with one operator each. -/
theorem headerMatchConditionsValid_iff_pairwise {conds : List MatchCondition}
    (hone : ∀ c ∈ conds.filterMap (·.header), operatorsSet c = 1) :
    headerMatchConditionsValid lib conds = .ok () ↔
      (headerMatchConditions (conds.filterMap (·.header))).Pairwise
        fun m n => ¬ Contradictory lib m n := by
  obtain ⟨ms, hms, hcs⟩ := exists_matchers hone
  rw [hcs, headerMatchConditions_map_conditionOf hms, ← foldlM_headerConditionValid_iff hms,
    headerMatchConditionsValid, hcs, map_eq_ok]
  simp

/-- Conditions with one operator each are accepted exactly if no two of their matchers
contradict each other, in whatever order they are given. -/
theorem headerMatchConditionsValid_iff (lib : Stdlib) (conds : List MatchCondition)
    (hone : ∀ c ∈ conds.filterMap (·.header), operatorsSet c = 1) :
    (headerMatchConditionsValid lib conds = .ok () ↔
      (headerMatchConditions (conds.filterMap (·.header))).Pairwise
        fun m n => ¬ Contradictory lib m n) ∧
    ∀ conds' : List MatchCondition, conds.Perm conds' →
      (headerMatchConditionsValid lib conds = .ok () ↔
        headerMatchConditionsValid lib conds' = .ok ()) := by
  refine ⟨headerMatchConditionsValid_iff_pairwise hone, fun conds' hperm => ?_⟩
  have hheaders := hperm.filterMap (·.header)
  have hone' : ∀ c ∈ conds'.filterMap (·.header), operatorsSet c = 1 :=
    fun c hc => hone c (hheaders.mem_iff.mpr hc)
  rw [headerMatchConditionsValid_iff_pairwise hone, headerMatchConditionsValid_iff_pairwise hone']
  exact (hheaders.filterMap headerMatchCondition).pairwise_iff fun hfree hclash => hfree hclash.symm

/-- A value that is asked for and, under a name in other letters, refused. -/
def contradictoryCase : List MatchCondition :=
  [{ header := some { name := "X-Env", exact := "prod" } }, { pathPrefix := "/" },
    { header := some { name := "x-env", notExact := "prod" } }]

/-- The pair is found in both orders. -/
theorem contradictoryCase_refused :
    headerMatchConditionsValid .plain contradictoryCase ≠ .ok () ∧
      headerMatchConditionsValid .plain contradictoryCase.reverse ≠ .ok () := by
  have hone : ∀ c ∈ contradictoryCase.filterMap (·.header), operatorsSet c = 1 :=
    forall_mem_cons.mpr ⟨by decide, forall_mem_singleton.mpr (by decide)⟩
  obtain ⟨hverdict, horder⟩ := headerMatchConditionsValid_iff .plain contradictoryCase hone
  have hrefused : headerMatchConditionsValid .plain contradictoryCase ≠ .ok () := by
    rw [Ne, hverdict, show headerMatchConditions (contradictoryCase.filterMap (·.header)) =
      [{ name := "X-Env", value := "prod", matchType := .exact },
        { name := "x-env", value := "prod", matchType := .exact, invert := true }] by decide,
      pairwise_pair, not_not]
    exact ⟨by decide, rfl, .inr ⟨rfl, by decide⟩⟩
  exact ⟨hrefused, fun h => hrefused ((horder _ (reverse_perm _).symm).mpr h)⟩

end Sesame.Dag
