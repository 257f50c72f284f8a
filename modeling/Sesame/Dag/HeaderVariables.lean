/-
# The variables of header values

The passes of `escapeHeaderValue` over the dynamic variables take them in the order of a
map. Each pass uses up the percent signs around a name, and what it puts in joins the
texts around it. So one order can differ from another in two ways: two variables share a
percent sign, or the value of one completes the name of another. Where neither happens,
the passes come to one pass that replaces all variables at once.
-/

import Sesame.Dag.HeaderValues

namespace Sesame.Dag

open List
open Lib

variable {l : List Char} {vars vars' : List (String × String)} {y : List Char}

/-! ## The order of the variables -/

/-- All variables are replaced in one pass. -/
inductive Substitutes (vars : List (String × String)) : List Char → List Char → Prop
  | nil : Substitutes vars [] []
  | var {e : String × String} {rest out : List Char} (mem : e ∈ vars)
      (next : Substitutes vars rest out) :
      Substitutes vars (variableText e.1 ++ rest) (e.2.toList ++ out)
  | char {c : Char} {rest out : List Char}
      (free : ∀ e ∈ vars, ¬ variableText e.1 <+: c :: rest) (next : Substitutes vars rest out) :
      Substitutes vars (c :: rest) (c :: out)

theorem variableText_append (name : String) (rest : List Char) :
    variableText name ++ rest = '%' :: (name.toList ++ '%' :: rest) := by
  simp [variableText]

/-- Different variables do not start at the same place. -/
theorem name_eq_of_variableText {a b : String} (ha : '%' ∉ a.toList) (hb : '%' ∉ b.toList)
    {x : List Char} (h : variableText a ++ x = variableText b ++ y) : a = b ∧ x = y := by
  rw [variableText_append, variableText_append] at h
  injection h with _ h
  obtain ⟨hname, hrest⟩ := append_cons_inj ha hb h
  exact ⟨String.toList_injective hname, hrest⟩

namespace Substitutes

variable {vars : List (String × String)}

variable {out : List Char}

theorem unique (hfree : PercentFree vars) (hkeys : (vars.map Prod.fst).Nodup) {out' : List Char}
    (h : Substitutes vars l out) (h' : Substitutes vars l out') : out = out' := by
  induction h generalizing out' with
  | nil =>
    generalize hl : ([] : List Char) = l at h'
    cases h' with
    | nil => rfl
    | var mem next => cases hl
    | char free next => cases hl
  | @var e rest out mem next ih =>
    generalize hl : variableText e.1 ++ rest = l at h'
    cases h' with
    | nil => cases hl
    | @var e' rest' out' mem' next' =>
      obtain ⟨hname, rfl⟩ := name_eq_of_variableText (hfree e mem).1 (hfree e' mem').1 hl
      have he : e = e' := inj_on_of_nodup_map hkeys mem mem' hname
      rw [he, ih next']
    | char free next' => exact absurd ⟨rest, hl⟩ (free e mem)
  | @char c rest out free next ih =>
    generalize hl : c :: rest = l at h'
    cases h' with
    | nil => cases hl
    | @var e' rest' out' mem' next' => exact absurd ⟨rest', hl.symm⟩ (free e' mem')
    | char free' next' =>
      cases hl
      rw [ih next']

/-- Only the variables count, not their order. -/
theorem perm (hperm : vars.Perm vars') (h : Substitutes vars l out) : Substitutes vars' l out := by
  induction h with
  | nil => exact .nil
  | var mem next ih => exact .var (hperm.mem_iff.mp mem) ih
  | char free next ih => exact .char (fun e he => free e (hperm.mem_iff.mpr he)) ih

/-- What is before the first percent sign is kept. -/
theorem of_append {kept rest : List Char} (hkept : '%' ∉ kept)
    (h : Substitutes vars (kept ++ rest) out) :
    ∃ out', out = kept ++ out' ∧ Substitutes vars rest out' := by
  induction kept generalizing out with
  | nil => exact ⟨out, rfl, h⟩
  | cons c kept ih =>
    rw [mem_cons, not_or] at hkept
    generalize hl : c :: kept ++ rest = l at h
    cases h with
    | nil => cases hl
    | @var e rest' out' mem next =>
      rw [variableText_append] at hl
      injection hl with hc
      exact absurd hc.symm hkept.1
    | char free next =>
      cases hl
      obtain ⟨out', rfl, hrest⟩ := ih hkept.2 next
      exact ⟨out', rfl, hrest⟩

theorem refl (l : List Char) : Substitutes [] l l := by
  induction l with
  | nil => exact .nil
  | cons c l ih => exact .char (fun e he => absurd he not_mem_nil) ih

end Substitutes

/-- Neither of two variables can get in the way of the other: no percent sign of the text
stands between both, and no value completes a name that starts before it. -/
structure VariablesApart (vars : List (String × String)) (l : List Char) : Prop where
  unshared : ∀ a ∈ vars, ∀ b ∈ vars, a.1 ≠ b.1 →
    ¬ '%' :: (a.1.toList ++ '%' :: (b.1.toList ++ ['%'])) <:+: l
  uncompleted : ∀ a ∈ vars, ∀ b ∈ vars, a.1 ≠ b.1 → ∀ s,
    '%' :: (s ++ '%' :: (a.1.toList ++ ['%'])) <:+: l → ¬ s ++ a.2.toList <+: b.1.toList

/-- Values that occur in no name of another variable complete none. -/
theorem variablesApart_of_not_infix (hunshared : ∀ a ∈ vars, ∀ b ∈ vars, a.1 ≠ b.1 →
      ¬ '%' :: (a.1.toList ++ '%' :: (b.1.toList ++ ['%'])) <:+: l)
    (hvalues : ∀ a ∈ vars, ∀ b ∈ vars, a.1 ≠ b.1 → ¬ a.2.toList <:+: b.1.toList) :
    VariablesApart vars l where
  unshared := hunshared
  uncompleted a ha b hb hne s _ hprefix :=
    hvalues a ha b hb hne ((suffix_append s _).isInfix.trans hprefix.isInfix)

theorem VariablesApart.of_suffix {l' : List Char} (h : VariablesApart vars l) (hsuffix : l' <:+ l) :
    VariablesApart vars l' where
  unshared a ha b hb hne hoccurs := h.unshared a ha b hb hne (hoccurs.trans hsuffix.isInfix)
  uncompleted a ha b hb hne s hoccurs :=
    h.uncompleted a ha b hb hne s (hoccurs.trans hsuffix.isInfix)

/-! ### One pass -/

section

variable {a : String × String} (hname : '%' ∉ a.1.toList) (hvalue : '%' ∉ a.2.toList)

variable {x : List Char}

theorem percent_cases (l : List Char) : '%' ∉ l ∨ ∃ s rest, '%' ∉ s ∧ l = s ++ '%' :: rest := by
  by_cases hmem : '%' ∈ l
  · obtain ⟨s, rest, heq, hs⟩ := eq_append_cons_of_mem hmem
    exact .inr ⟨s, rest, hs, heq⟩
  · exact .inl hmem

theorem prefix_of_append_eq {s z : List Char} (hs : '%' ∉ s) (h : s ++ y = x ++ '%' :: z) :
    s <+: x := by
  rcases append_eq_append_iff.mp h with ⟨more, rfl, -⟩ | ⟨more, rfl, hmore⟩
  · exact prefix_append s more
  · cases more with
    | nil => rw [append_nil]
    | cons c more =>
      injection hmore with hc
      exact absurd (mem_append_right x (hc ▸ mem_cons_self)) hs

theorem infix_of_infix_append {c : Char} {w kept : List Char} (hc : c ∉ kept)
    (h : c :: w <:+: kept ++ l) : c :: w <:+: l := by
  induction kept with
  | nil => exact h
  | cons d kept ih =>
    rw [mem_cons, not_or] at hc
    rcases infix_cons_iff.mp h with hprefix | hoccurs
    · exact absurd (cons_prefix_cons.mp hprefix).1 hc.1
    · exact ih hc.2 hoccurs

include hvalue

/-- What comes before a percent sign after the pass was there before it, or the value has
become a part of it. -/
theorem replaceAll_variable_split {z : List Char} (hx : '%' ∉ x)
    (h : replaceAll (variableText a.1) a.2.toList 0 l = x ++ '%' :: z) :
    (∃ s more, l = s ++ variableText a.1 ++ more ∧ s ++ a.2.toList <+: x) ∨
      ∃ rest, l = x ++ '%' :: rest ∧ replaceAll (variableText a.1) a.2.toList 0 rest = z := by
  have hstart : variableText a.1 = '%' :: (a.1.toList ++ ['%']) := rfl
  rcases percent_cases l with hnone | ⟨s, rest, hs, rfl⟩
  · have hself : replaceAll (variableText a.1) a.2.toList 0 l = l :=
      replaceAll_eq_self fun hoccurs => hnone (hoccurs.subset mem_cons_self)
    rw [hself] at h
    exact absurd (h ▸ mem_append_right x mem_cons_self) hnone
  · rw [replaceAll_append_of_notMem hstart hs] at h
    by_cases hmatch : variableText a.1 <+: '%' :: rest
    · left
      obtain ⟨more, hmore⟩ := hmatch
      rw [← hmore, replaceAll_append (variableText_ne_nil a.1), ← append_assoc] at h
      refine ⟨s, more, by rw [← hmore, append_assoc], prefix_of_append_eq ?_ h⟩
      rw [mem_append, not_or]
      exact ⟨hs, hvalue⟩
    · right
      rw [replaceAll_cons hmatch] at h
      obtain ⟨rfl, hz⟩ := append_cons_inj hs hx h
      exact ⟨rest, rfl, hz⟩

/-- Two texts between percent signs after the pass. -/
theorem infix_of_infix_replaceAll (hx : '%' ∉ x) (hy : '%' ∉ y)
    (h : '%' :: (x ++ '%' :: (y ++ ['%'])) <:+: replaceAll (variableText a.1) a.2.toList 0 l) :
    (∃ s, '%' :: (s ++ '%' :: (a.1.toList ++ ['%'])) <:+: l ∧
      (s ++ a.2.toList <+: x ∨ s ++ a.2.toList <+: y)) ∨
      '%' :: (x ++ '%' :: (y ++ ['%'])) <:+: l := by
  induction l using replaceAll_induction (variableText_ne_nil a.1) with
  | nil =>
    rw [replaceAll_nil, infix_nil] at h
    cases h
  | replaced rest ih =>
    rw [replaceAll_append (variableText_ne_nil a.1)] at h
    have hlift := (suffix_append (variableText a.1) rest).isInfix
    rcases ih (infix_of_infix_append hvalue h) with ⟨s, hs, hjoined⟩ | hrest
    · exact .inl ⟨s, hs.trans hlift, hjoined⟩
    · exact .inr (hrest.trans hlift)
  | kept c rest hmatch ih =>
    rw [replaceAll_cons hmatch] at h
    rcases infix_cons_iff.mp h with hprefix | hoccurs
    · obtain ⟨rfl, z, hz⟩ := cons_prefix_cons.mp hprefix
      have hz : replaceAll (variableText a.1) a.2.toList 0 rest = x ++ '%' :: (y ++ '%' :: z) := by
        rw [← hz]
        simp
      rcases replaceAll_variable_split hvalue hx hz with ⟨s, more, rfl, hs⟩ | ⟨rest', rfl, hz'⟩
      · refine .inl ⟨s, (IsPrefix.isInfix ⟨more, ?_⟩), .inl hs⟩
        simp [variableText]
      · rcases replaceAll_variable_split hvalue hy hz' with ⟨s, more, rfl, hs⟩ | ⟨rest'', rfl, -⟩
        · refine .inl ⟨s, ⟨'%' :: x, more, ?_⟩, .inr hs⟩
          simp [variableText]
        · refine .inr (IsPrefix.isInfix ⟨rest'', ?_⟩)
          simp
    · rcases ih hoccurs with ⟨s, hs, hjoined⟩ | hrest
      · exact .inl ⟨s, infix_cons hs, hjoined⟩
      · exact .inr (infix_cons hrest)

end

/-- A pass leaves the other variables apart. -/
theorem VariablesApart.replaceAll {a : String × String} (hfree : PercentFree (a :: vars))
    (hkeys : ((a :: vars).map Prod.fst).Nodup) (h : VariablesApart (a :: vars) l) :
    VariablesApart vars (replaceAll (variableText a.1) a.2.toList 0 l) := by
  obtain ⟨ha, hvars⟩ := forall_mem_cons.mp hfree
  have hne : ∀ b ∈ vars, a.1 ≠ b.1 := by
    intro b hb heq
    exact (nodup_cons.mp hkeys).1 (mem_map.mpr ⟨b, hb, heq.symm⟩)
  have hcompleted : ∀ b ∈ vars, ∀ s, '%' :: (s ++ '%' :: (a.1.toList ++ ['%'])) <:+: l →
      ¬ s ++ a.2.toList <+: b.1.toList := fun b hb =>
    h.uncompleted a mem_cons_self b (mem_cons_of_mem a hb) (hne b hb)
  constructor
  · intro b hb c hc hbc hoccurs
    rcases infix_of_infix_replaceAll ha.2 (hvars b hb).1 (hvars c hc).1 hoccurs with
      ⟨s, hs, hjoined | hjoined⟩ | hoccurs
    · exact hcompleted b hb s hs hjoined
    · exact hcompleted c hc s hs hjoined
    · exact h.unshared b (mem_cons_of_mem a hb) c (mem_cons_of_mem a hc) hbc hoccurs
  · intro b hb c hc hbc s hoccurs hstarts
    have hs : '%' ∉ s := fun hmem =>
      (hvars c hc).1 (hstarts.subset (mem_append_left _ hmem))
    rcases infix_of_infix_replaceAll ha.2 hs (hvars b hb).1 hoccurs with
      ⟨s', hs', hjoined | hjoined⟩ | hoccurs
    · exact hcompleted c hc s' hs' (hjoined.trans ((prefix_append _ _).trans hstarts))
    · exact hcompleted b hb s' hs' hjoined
    · exact h.uncompleted b (mem_cons_of_mem a hb) c (mem_cons_of_mem a hc) hbc s hoccurs hstarts

/-- A pass over one variable and then one over the others at once is one over all of them. -/
theorem Substitutes.of_replaceAll {a : String × String} (hfree : PercentFree (a :: vars))
    (hkeys : ((a :: vars).map Prod.fst).Nodup) {out : List Char}
    (hapart : VariablesApart (a :: vars) l)
    (h : Substitutes vars (replaceAll (variableText a.1) a.2.toList 0 l) out) :
    Substitutes (a :: vars) l out := by
  obtain ⟨ha, hvars⟩ := forall_mem_cons.mp hfree
  have hne : ∀ b ∈ vars, a.1 ≠ b.1 := by
    intro b hb heq
    exact (nodup_cons.mp hkeys).1 (mem_map.mpr ⟨b, hb, heq.symm⟩)
  induction hlength : l.length using Nat.strong_induction_on generalizing l out with
  | _ length ih =>
    cases l with
    | nil =>
      rw [replaceAll_nil] at h
      generalize hnil : ([] : List Char) = l at h
      cases h with
      | nil => exact .nil
      | var mem next => cases hnil
      | char free next => cases hnil
    | cons c rest =>
      by_cases hmatch : variableText a.1 <+: c :: rest
      · obtain ⟨more, hmore⟩ := hmatch
        rw [← hmore] at h hapart hlength ⊢
        rw [replaceAll_append (variableText_ne_nil a.1)] at h
        obtain ⟨out', rfl, hnext⟩ := Substitutes.of_append ha.2 h
        refine .var mem_cons_self (ih more.length ?_
          (hapart.of_suffix (suffix_append _ _)) hnext rfl)
        rw [← hlength, length_append]
        simp [variableText]
      · rw [replaceAll_cons hmatch] at h
        generalize hl : c :: replaceAll (variableText a.1) a.2.toList 0 rest = l' at h
        cases h with
        | nil => cases hl
        | @var b rest' out' mem next =>
          rw [variableText_append] at hl
          injection hl with hc hl
          rcases replaceAll_variable_split ha.2 (hvars b mem).1 hl with
            ⟨s, more, rfl, hjoined⟩ | ⟨rest'', rfl, rfl⟩
          · refine absurd hjoined (hapart.uncompleted a mem_cons_self b
              (mem_cons_of_mem a mem) (hne b mem) s (IsPrefix.isInfix ⟨more, ?_⟩))
            rw [hc]
            simp [variableText]
          · rw [hc, ← variableText_append] at hapart hlength ⊢
            refine .var (mem_cons_of_mem a mem) (ih rest''.length ?_
              (hapart.of_suffix (suffix_append _ _)) next rfl)
            rw [← hlength, length_append]
            simp [variableText]
        | char free next =>
          cases hl
          have hrest : Substitutes (a :: vars) rest _ :=
            ih rest.length (by rw [← hlength, length_cons]; omega)
              (hapart.of_suffix (suffix_cons c rest)) next rfl
          refine .char (forall_mem_cons.mpr ⟨hmatch, fun b hb hstart => ?_⟩) hrest
          apply free b hb
          obtain ⟨more, hmore⟩ := hstart
          rw [variableText_append] at hmore
          injection hmore with hc hmore
          have hshared : ¬ variableText a.1 <+: '%' :: more := by
            rintro ⟨more', hmore'⟩
            refine hapart.unshared b (mem_cons_of_mem a hb) a mem_cons_self
              (hne b hb).symm (IsPrefix.isInfix ⟨more', ?_⟩)
            rw [← hc, ← hmore, ← hmore']
            simp [variableText]
          have hstart : variableText a.1 = '%' :: (a.1.toList ++ ['%']) := rfl
          rw [← hmore, replaceAll_append_of_notMem hstart (hvars b hb).1,
            replaceAll_cons hshared, ← hc, ← variableText_append]
          exact prefix_append _ _

/-- The passes replace all variables at once if these are apart. -/
theorem substitutes_substitute (hfree : PercentFree vars) (hkeys : (vars.map Prod.fst).Nodup)
    (hapart : VariablesApart vars l) : Substitutes vars l (substitute vars l) := by
  induction vars generalizing l with
  | nil => exact Substitutes.refl l
  | cons a vars ih =>
    have hrest : Substitutes vars (replaceAll (variableText a.1) a.2.toList 0 l)
        (substitute (a :: vars) l) :=
      ih (forall_mem_cons.mp hfree).2 (nodup_cons.mp hkeys).2 (hapart.replaceAll hfree hkeys)
    exact hrest.of_replaceAll hfree hkeys hapart

theorem VariablesApart.perm (hperm : vars.Perm vars') (h : VariablesApart vars l) :
    VariablesApart vars' l where
  unshared a ha b hb := h.unshared a (hperm.mem_iff.mpr ha) b (hperm.mem_iff.mpr hb)
  uncompleted a ha b hb := h.uncompleted a (hperm.mem_iff.mpr ha) b (hperm.mem_iff.mpr hb)

theorem substitute_perm (hperm : vars.Perm vars') (hfree : PercentFree vars)
    (hkeys : (vars.map Prod.fst).Nodup) (hapart : VariablesApart vars l) :
    substitute vars l = substitute vars' l := by
  have hfree' : PercentFree vars' := fun e he => hfree e (hperm.mem_iff.mpr he)
  have hkeys' : (vars'.map Prod.fst).Nodup := (hperm.map Prod.fst).nodup_iff.mp hkeys
  have hall := (substitutes_substitute hfree hkeys hapart).perm hperm
  exact hall.unique hfree' hkeys' (substitutes_substitute hfree' hkeys' (hapart.perm hperm))

/-- Header values whose variables are apart do not depend on the order of the map. -/
theorem escapeHeaderValue_order_free (value : String) (dynamicHeaders : Map String String)
    (hfree : ∀ name val, dynamicHeaders.lookup name = some val →
      '%' ∉ name.toList ∧ '%' ∉ val.toList)
    (hapart : VariablesApart dynamicHeaders.toList value.toList) (ord ord' : MapOrder) :
    escapeHeaderValue ord value dynamicHeaders = escapeHeaderValue ord' value dynamicHeaders := by
  have hvars : ∀ ord : MapOrder,
      PercentFree (ord.range ("escapeHeaderValue " ++ value) dynamicHeaders) :=
    fun ord e he => hfree e.1 e.2 (ord.mem_range.mp he)
  have hperm : ∀ ord : MapOrder, dynamicHeaders.toList.Perm
      (ord.range ("escapeHeaderValue " ++ value) dynamicHeaders) := fun ord => (ord.perm _ _).symm
  have hsubstitute := substitute_perm ((hperm ord).symm.trans (hperm ord')) (hvars ord)
    (ord.nodup_range_keys _ _) (hapart.perm (hperm ord))
  by_cases hpercent : '%' ∈ value.toList
  · rw [escapeHeaderValue_eq hpercent, escapeHeaderValue_eq hpercent,
      foldl_quotedVariable (hvars ord), foldl_quotedVariable (hvars ord'), hsubstitute]
  · rw [escapeHeaderValue_of_notMem hpercent, escapeHeaderValue_of_notMem hpercent]

/-- Two of the variables of a service. -/
def twoVariables : Map String String :=
  ((∅ : Map String String).insert "Sesame_NAMESPACE" "prod").insert "Sesame_SERVICE_NAME" "web"

theorem twoVariables_percentFree : ∀ name val, twoVariables.lookup name = some val →
    '%' ∉ name.toList ∧ '%' ∉ val.toList :=
  Map.forall_lookup_insert (by decide) (Map.forall_lookup_insert (by decide) nofun)

theorem forall_mem_pair {x y : String × String} {P : String × String → String × String → Prop}
    (hxy : P x y) (hyx : P y x) : ∀ a ∈ [x, y], ∀ b ∈ [x, y], a.1 ≠ b.1 → P a b := by
  intro a ha b hb hne
  rcases mem_pair.mp ha with rfl | rfl <;> rcases mem_pair.mp hb with rfl | rfl
  · exact absurd rfl hne
  · exact hxy
  · exact hyx
  · exact absurd rfl hne

/-- Variables with a text between them are replaced in any order. -/
theorem separated_variables_order_free :
    escapeHeaderValue .storage "%Sesame_NAMESPACE%/%Sesame_SERVICE_NAME%" twoVariables =
      escapeHeaderValue
        (MapOrder.reversedAt "escapeHeaderValue %Sesame_NAMESPACE%/%Sesame_SERVICE_NAME%")
        "%Sesame_NAMESPACE%/%Sesame_SERVICE_NAME%" twoVariables := by
  apply escapeHeaderValue_order_free _ _ twoVariables_percentFree
  have hvars : twoVariables.toList =
      [("Sesame_SERVICE_NAME", "web"), ("Sesame_NAMESPACE", "prod")] := by
    decide
  rw [hvars]
  apply variablesApart_of_not_infix
  · exact forall_mem_pair (by decide) (by decide)
  · exact forall_mem_pair (by decide) (by decide)

/-- A value in which one variable ends where the other starts. -/
def sharedPercent : String := "%Sesame_NAMESPACE%Sesame_SERVICE_NAME%"

/-- Whichever of the two is replaced first takes the percent sign between them. -/
theorem shared_percent_order :
    (∀ name val, twoVariables.lookup name = some val → '%' ∉ name.toList ∧ '%' ∉ val.toList) ∧
    escapeHeaderValue .storage sharedPercent twoVariables = "%%Sesame_NAMESPACEweb" ∧
    escapeHeaderValue (MapOrder.reversedAt ("escapeHeaderValue " ++ sharedPercent)) sharedPercent
      twoVariables = "prodSesame_SERVICE_NAME%%" :=
  ⟨twoVariables_percentFree, by decide, by decide⟩

end Sesame.Dag
