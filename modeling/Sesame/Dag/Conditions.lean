/-
# Match conditions of HTTPProxies

`internal/dag/conditions.go`: how the condition blocks along an include chain are
checked and merged into the conditions of a route.
-/

import Sesame.Annotation

namespace Sesame.Dag

open List
open Lib Api

/-- Replace every run of `/` by one `/`. -/
def collapseSlashes : List Char → List Char
  | '/' :: '/' :: rest => collapseSlashes ('/' :: rest)
  | c :: rest => c :: collapseSlashes rest
  | [] => []

theorem head?_collapseSlashes (l : List Char) : (collapseSlashes l).head? = l.head? := by
  fun_induction collapseSlashes l with
  | case1 rest ih => exact ih
  | case2 c rest _ ih => rfl
  | case3 => rfl

/-- What is appended to a text changes nothing before it. -/
theorem collapseSlashes_append_prefix (a b : List Char) :
    collapseSlashes a <+: collapseSlashes (a ++ b) := by
  fun_induction collapseSlashes a with
  | case1 rest ih => exact ih
  | case2 c rest hrun ih =>
    by_cases hcross : c = '/' ∧ ∃ rest', rest ++ b = '/' :: rest'
    · -- The run of slashes goes on in the appended text.
      obtain ⟨rfl, rest', hrest⟩ := hcross
      cases rest with
      | cons d rest =>
        cases hrest
        exact absurd rfl (hrun rest rfl)
      | nil =>
        rw [nil_append] at hrest
        rw [hrest, cons_append, nil_append, collapseSlashes]
        have hhead := head?_collapseSlashes ('/' :: rest')
        obtain ⟨tail, htail⟩ := head?_eq_some_iff.mp hhead
        rw [htail]
        exact ⟨tail, rfl⟩
    · rw [cons_append, collapseSlashes.eq_2 _ _ fun rest' hc hrest =>
        hcross ⟨hc, rest', hrest⟩]
      exact prefix_cons_inj c |>.mpr ih
  | case3 => exact nil_prefix

/-- No two slashes follow each other in a collapsed text. -/
theorem not_infix_collapseSlashes (l : List Char) : ¬ ['/', '/'] <:+: collapseSlashes l := by
  fun_induction collapseSlashes l with
  | case1 rest ih => exact ih
  | case2 c rest hrun ih =>
    rw [infix_cons_iff, not_or]
    refine ⟨fun hstart => ?_, ih⟩
    obtain ⟨rfl, hrest⟩ := cons_prefix_cons.mp hstart
    obtain ⟨tail, htail⟩ := hrest
    have hhead := head?_collapseSlashes rest
    rw [← htail] at hhead
    obtain ⟨rest', hrest'⟩ := head?_eq_some_iff.mp hhead.symm
    exact hrun rest' rfl hrest'
  | case3 => simp

/-- The prefix that `mergePathMatchConditions` computes. -/
def mergePrefixes (conds : List MatchCondition) : String :=
  let merged := collapseSlashes (conds.flatMap fun cond => cond.pathPrefix.toList)
  if merged = [] then "/" else String.ofList merged

/-- `mergePathMatchConditions`; the zero match type is the string prefix. -/
def mergePathMatchConditions (conds : List MatchCondition) : PathMatchCondition :=
  .pathPrefix (mergePrefixes conds) .string

/-- The loop of `pathMatchConditionsValid`, after `prefixCount` prefixes. -/
def pathMatchConditionsValidFrom : Nat → List MatchCondition → Except String Unit
  | _, [] => .ok ()
  | prefixCount, cond :: rest =>
    match cond.pathPrefix.toList with
    | [] =>
      if 1 < prefixCount then
        .error "more than one prefix is not allowed in a condition block"
      else pathMatchConditionsValidFrom prefixCount rest
    | c :: _ =>
      if c ≠ '/' then
        .error ("prefix conditions must start with /, " ++ cond.pathPrefix ++ " was supplied")
      else if 1 < prefixCount + 1 then
        .error "more than one prefix is not allowed in a condition block"
      else pathMatchConditionsValidFrom (prefixCount + 1) rest

def pathMatchConditionsValid (conds : List MatchCondition) : Except String Unit :=
  pathMatchConditionsValidFrom 0 conds

/-- The matcher for one header condition, if it sets an operator. -/
def headerMatchCondition (cond : HeaderCondition) : Option HeaderMatchCondition :=
  if cond.present then some { name := cond.name, matchType := .present }
  else if cond.notPresent then some { name := cond.name, matchType := .present, invert := true }
  else if cond.contains ≠ "" then
    some { name := cond.name, value := cond.contains, matchType := .contains }
  else if cond.notContains ≠ "" then
    some { name := cond.name, value := cond.notContains, matchType := .contains, invert := true }
  else if cond.exact ≠ "" then
    some { name := cond.name, value := cond.exact, matchType := .exact }
  else if cond.notExact ≠ "" then
    some { name := cond.name, value := cond.notExact, matchType := .exact, invert := true }
  else none

def headerMatchConditions (conditions : List HeaderCondition) : List HeaderMatchCondition :=
  conditions.filterMap headerMatchCondition

def mergeHeaderMatchConditions (conds : List MatchCondition) : List HeaderMatchCondition :=
  headerMatchConditions (conds.filterMap (·.header))

/-- What `headerMatchConditionsValid` has seen so far. -/
structure SeenHeaders where
  conditions : List HeaderCondition := []
  exact : List String := []

/-- One step of `headerMatchConditionsValid`. -/
def headerConditionValid (lib : Stdlib) (seen : SeenHeaders) (header : HeaderCondition) :
    Except String SeenHeaders := do
  let name := lib.toLower header.name
  let seen' : SeenHeaders ←
    if header.present then
      if { name, notPresent := true } ∈ seen.conditions then
        .error ("cannot specify contradictory 'present' and 'notpresent' conditions " ++
          "for the same route and header")
      else .ok seen
    else if header.notPresent then
      if { name, present := true } ∈ seen.conditions then
        .error ("cannot specify contradictory 'present' and 'notpresent' conditions " ++
          "for the same route and header")
      else .ok seen
    else if header.exact ≠ "" then
      if name ∈ seen.exact then
        .error "cannot specify duplicate header 'exact match' conditions in the same route"
      else if { name, notExact := header.exact } ∈ seen.conditions then
        .error ("cannot specify contradictory 'exact' and 'notexact' conditions " ++
          "for the same route and header")
      else .ok { seen with exact := name :: seen.exact }
    else if header.notExact ≠ "" then
      if { name, exact := header.notExact } ∈ seen.conditions then
        .error ("cannot specify contradictory 'exact' and 'notexact' conditions " ++
          "for the same route and header")
      else .ok seen
    else if header.contains ≠ "" then
      if { name, notContains := header.contains } ∈ seen.conditions then
        .error ("cannot specify contradictory 'contains' and 'notcontains' conditions " ++
          "for the same route and header")
      else .ok seen
    else if header.notContains ≠ "" then
      if { name, contains := header.notContains } ∈ seen.conditions then
        .error ("cannot specify contradictory 'contains' and 'notcontains' conditions " ++
          "for the same route and header")
      else .ok seen
    else .ok seen
  .ok { seen' with conditions := { header with name } :: seen'.conditions }

def headerMatchConditionsValid (lib : Stdlib) (conditions : List MatchCondition) :
    Except String Unit :=
  ((conditions.filterMap (·.header)).foldlM (headerConditionValid lib) {}).map fun _ => ()

end Sesame.Dag
