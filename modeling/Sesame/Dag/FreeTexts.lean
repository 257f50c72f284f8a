/-
# Routes whose keys can be read back

A host keeps one route for each key, and the key of a route joins texts that the user
chose. Whether a route of a root can be taken for another one depends on the match
conditions along its includes. If none of them contains a separator, no route of a root
does: the prefixes of a chain are joined at a slash, headers are not joined, and splitting
a route by its prefix only moves slashes.
-/

import Sesame.Dag.ProxyRuns
import Sesame.Dag.RouteKeys
import Sesame.Dag.RouteRuns

namespace Sesame.Dag

open List
open Lib Api

variable {conds : List MatchCondition}

/-! ## Prefixes -/

/-- Collapsing slashes joins nothing else. -/
theorem prefix_of_prefix_collapseSlashes {w l : List Char} (hw : '/' ∉ w)
    (h : w <+: collapseSlashes l) : w <+: l := by
  induction l generalizing w with
  | nil => exact h
  | cons c rest ih =>
    cases w with
    | nil => exact nil_prefix
    | cons d w =>
      have hhead := head?_collapseSlashes (c :: rest)
      obtain ⟨tail, htail⟩ := h
      rw [← htail] at hhead
      obtain rfl : d = c := Option.some.inj hhead
      have hne : d ≠ '/' := fun heq => hw (heq ▸ mem_cons_self)
      rw [collapseSlashes.eq_2 _ _ fun _ heq _ => hne heq] at htail
      have hrest : w <+: collapseSlashes rest := ⟨tail, (cons.inj htail).2⟩
      exact (prefix_cons_inj d).mpr (ih (fun hmem => hw (mem_cons_of_mem d hmem)) hrest)

theorem infix_of_infix_collapseSlashes {w l : List Char} (hw : '/' ∉ w)
    (h : w <:+: collapseSlashes l) : w <:+: l := by
  fun_induction collapseSlashes l with
  | case1 rest ih => exact infix_cons_iff.mpr (.inr (ih h))
  | case2 c rest hrun ih =>
    rcases infix_cons_iff.mp h with hstart | hrest
    · refine (prefix_of_prefix_collapseSlashes hw ?_).isInfix
      rw [collapseSlashes.eq_2 _ _ hrun]
      exact hstart
    · exact infix_cons_iff.mpr (.inr (ih hrest))
  | case3 => exact h

/-- A prefix that is not given or starts with a slash. -/
def Slashed (text : List Char) : Prop := text = [] ∨ ∃ rest, text = '/' :: rest

theorem slashed_flatMap (h : ∀ cond ∈ conds, Slashed cond.pathPrefix.toList) :
    Slashed (conds.flatMap fun cond => cond.pathPrefix.toList) := by
  induction conds with
  | nil => exact .inl rfl
  | cons cond rest ih =>
    rw [flatMap_cons]
    rcases h cond mem_cons_self with hempty | ⟨text, htext⟩
    · rw [hempty]
      exact ih fun c hc => h c (mem_cons_of_mem cond hc)
    · rw [htext]
      exact .inr ⟨_, rfl⟩

/-- Conditions that `pathMatchConditionsValid` accepts. -/
theorem slashed_of_valid (h : pathMatchConditionsValid conds = .ok ()) :
    ∀ cond ∈ conds, Slashed cond.pathPrefix.toList := by
  have hfrom : ∀ (n : Nat) (conds : List MatchCondition),
      pathMatchConditionsValidFrom n conds = .ok () →
      ∀ cond ∈ conds, Slashed cond.pathPrefix.toList := by
    intro n conds
    induction conds generalizing n with
    | nil =>
      intro _ cond hcond
      cases hcond
    | cons first rest ih =>
      intro hvalid cond hcond
      unfold pathMatchConditionsValidFrom at hvalid
      split at hvalid
      · next hempty =>
        split at hvalid
        · cases hvalid
        · rcases mem_cons.mp hcond with rfl | hrest
          · exact .inl hempty
          · exact ih n hvalid cond hrest
      · next c text htext =>
        split at hvalid
        · cases hvalid
        · next hslash =>
          split at hvalid
          · cases hvalid
          · rcases mem_cons.mp hcond with rfl | hrest
            · rw [not_not.mp hslash] at htext
              exact .inr ⟨text, htext⟩
            · exact ih (n + 1) hvalid cond hrest
  exact hfrom 0 conds h

section

variable {sep : Separator Char} (hslash : '/' ∉ sep.word)

include hslash

theorem Slashed.free_append {a b : List Char} (hb : Slashed b) (ha : sep.Free a)
    (hfree : sep.Free b) : sep.Free (a ++ b) := by
  rcases hb with rfl | ⟨rest, rfl⟩
  · rwa [append_nil]
  · exact .append_cons hslash ha (Separator.Free.of_append_right (a := ['/']) hfree)

theorem free_mergePrefixes (h : ∀ cond ∈ conds, Slashed cond.pathPrefix.toList)
    (hfree : ∀ cond ∈ conds, sep.Free cond.pathPrefix.toList) :
    sep.Free (mergePrefixes conds).toList := by
  have hnone : sep.Free [] := fun hsub => by
    rw [infix_nil] at hsub
    cases hsub
  have hjoined : sep.Free (conds.flatMap fun cond => cond.pathPrefix.toList) := by
    induction conds with
    | nil => exact hnone
    | cons cond rest ih =>
      have hrest := ih (fun c hc => h c (mem_cons_of_mem cond hc))
        fun c hc => hfree c (mem_cons_of_mem cond hc)
      rw [flatMap_cons]
      exact (slashed_flatMap fun c hc => h c (mem_cons_of_mem cond hc)).free_append hslash
        (hfree cond mem_cons_self) hrest
  unfold mergePrefixes
  dsimp only
  split
  · exact .append_cons hslash hnone hnone
  · rw [String.toList_ofList]
    exact fun hsub => hjoined (infix_of_infix_collapseSlashes hslash hsub)

end

/-- The texts that a match condition brings into the key of a route. -/
def MatchCondition.texts (cond : MatchCondition) : List (List Char) :=
  cond.pathPrefix.toList ::
    ((cond.header.bind headerMatchCondition).elim [] HeaderMatchCondition.texts)

/-- The texts of the conditions contain no separator, and their prefixes are valid. -/
structure FreeConditions (conds : List MatchCondition) : Prop where
  slashed : ∀ cond ∈ conds, Slashed cond.pathPrefix.toList
  free : ∀ cond ∈ conds, SeparatorFree (MatchCondition.texts cond)

theorem FreeConditions.append {conds' : List MatchCondition} (h : FreeConditions conds)
    (h' : FreeConditions conds') : FreeConditions (conds ++ conds') where
  slashed cond hcond := (mem_append.mp hcond).elim (h.slashed cond) (h'.slashed cond)
  free cond hcond := (mem_append.mp hcond).elim (h.free cond) (h'.free cond)

theorem nameSeparator_slash : '/' ∉ nameSeparator.word := by decide

theorem valueSeparator_slash : '/' ∉ valueSeparator.word := by decide

theorem FreeConditions.path (h : FreeConditions conds) :
    nameSeparator.Free (mergePrefixes conds).toList ∧
      valueSeparator.Free (mergePrefixes conds).toList := by
  constructor
  · exact free_mergePrefixes nameSeparator_slash h.slashed
      fun cond hcond => (h.free cond hcond _ mem_cons_self).1
  · exact free_mergePrefixes valueSeparator_slash h.slashed
      fun cond hcond => (h.free cond hcond _ mem_cons_self).2

theorem FreeConditions.headers (h : FreeConditions conds) :
    SeparatorFree ((mergeHeaderMatchConditions conds).flatMap (·.texts)) := by
  intro t ht
  obtain ⟨hc, hhc, ht⟩ := mem_flatMap.mp ht
  obtain ⟨header, hheader, hmatch⟩ := mem_filterMap.mp hhc
  obtain ⟨cond, hcond, hsome⟩ := mem_filterMap.mp hheader
  refine h.free cond hcond t (mem_cons_of_mem _ ?_)
  rw [hsome, Option.bind_some, hmatch]
  exact ht

/-! ## Routes of a root -/

namespace HTTPProxyProcessor

variable {lib : Stdlib} {ord : MapOrder} {p : HTTPProxyProcessor} {source : KubernetesCache}
  {proxy : HTTPProxy} {vhost : VirtualHostSpec}

/-- The blocks of match conditions of a proxy. -/
def conditionBlocks (proxy : HTTPProxy) : List (List MatchCondition) :=
  proxy.includes.map (·.conditions) ++ proxy.routes.map (·.conditions)

/-- No text of a block with valid prefixes contains a separator, unless the proxy is given up
for includes that repeat their conditions. -/
def FreeProxy (proxy : HTTPProxy) : Prop :=
  includeMatchConditionsIdentical proxy.includes = false → ∀ block ∈ conditionBlocks proxy,
    pathMatchConditionsValid block = .ok () →
      ∀ cond ∈ block, SeparatorFree (MatchCondition.texts cond)
  deriving Decidable

theorem FreeProxy.free (h : FreeProxy proxy)
    (hdistinct : includeMatchConditionsIdentical proxy.includes = false)
    (hblock : conds ∈ conditionBlocks proxy) (hvalid : pathMatchConditionsValid conds = .ok ()) :
    FreeConditions conds :=
  ⟨slashed_of_valid hvalid, h hdistinct conds hblock hvalid⟩

end HTTPProxyProcessor

end Sesame.Dag
