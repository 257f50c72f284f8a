/-
# Texts joined by separators

When parts of a text are joined without escaping, a part that contains the
separator can be confused with two parts. A separator whose first symbol does not
occur again in it cannot overlap itself, so parts that do not contain it can be
recovered: the first separator of the text is where the first part ends.
-/

import Mathlib.Data.List.Infix

namespace Sesame.Lib

open List

universe u

variable {α : Type u} {b a l : List α}

/-- A word that occurs across the boundary of two others, or in one of them. -/
theorem infix_append_cases (h : l <:+: a ++ b) :
    l <:+: a ∨ l <:+: b ∨ ∃ u v, l = u ++ v ∧ v ≠ [] ∧ u ≠ [] ∧ v <+: b := by
  rcases infix_append_iff.mp h with hleft | hright | ⟨u, v, rfl, hu, hv⟩
  · exact .inl hleft
  · exact .inr (.inl hright)
  · by_cases hempty : v = []
    · exact .inl (by simpa [hempty] using hu.isInfix)
    · by_cases hfirst : u = []
      · exact .inr (.inl (by simpa [hfirst] using hv.isInfix))
      · exact .inr (.inr ⟨u, v, rfl, hempty, hfirst, hv⟩)

/-- What is before the first occurrence of a symbol is the same in both readings of a text. -/
theorem append_cons_inj {x : α} {a' b' : List α} (ha : x ∉ a) (ha' : x ∉ a')
    (h : a ++ x :: b = a' ++ x :: b') : a = a' ∧ b = b' := by
  obtain ⟨more, rfl, hmore⟩ | ⟨more, rfl, hmore⟩ := append_eq_append_iff.mp h
  · cases more with
    | nil => exact ⟨(append_nil a).symm, (cons.inj hmore).2⟩
    | cons y more => simp_all
  · cases more with
    | nil => exact ⟨append_nil a', (cons.inj hmore).2.symm⟩
    | cons y more => simp_all

/-- A word without a symbol occurs on one side of that symbol. -/
theorem infix_append_cons {x : α} (hx : x ∉ l) (h : l <:+: a ++ x :: b) : l <:+: a ∨ l <:+: b := by
  have hstart : ∀ {v : List α}, v <+: x :: b → v ⊆ l → v = [] := by
    intro v hv hsub
    cases v with
    | nil => rfl
    | cons y v =>
      obtain ⟨rfl, -⟩ := cons_prefix_cons.mp hv
      exact absurd (hsub mem_cons_self) hx
  rcases infix_append_cases h with hleft | hright | ⟨u, v, rfl, hv, -, hprefix⟩
  · exact .inl hleft
  · rcases infix_cons_iff.mp hright with hprefix | hrest
    · rw [hstart hprefix (Subset.refl l)]
      exact .inl nil_infix
    · exact .inr hrest
  · exact absurd (hstart hprefix (subset_append_right u v)) hv

theorem intercalate_append {sep : List α} {xs ys : List (List α)} (hxs : xs ≠ []) (hys : ys ≠ []) :
    sep.intercalate (xs ++ ys) = sep.intercalate xs ++ sep ++ sep.intercalate ys := by
  induction xs with
  | nil => exact absurd rfl hxs
  | cons x xs ih =>
    cases xs with
    | nil =>
      cases ys with
      | nil => exact absurd rfl hys
      | cons y ys => simp [intercalate_cons_cons]
    | cons x' xs =>
      have hrest := ih (cons_ne_nil x' xs)
      rw [cons_append] at hrest
      rw [cons_append, cons_append, intercalate_cons_cons, hrest, intercalate_cons_cons]
      simp only [append_assoc]

/-- A separator: a word whose first symbol does not occur again in it. -/
structure Separator (α : Type u) where
  head : α
  rest : List α
  fresh : head ∉ rest

namespace Separator

variable (sep : Separator α)

def word : List α := sep.head :: sep.rest

/-- A text in which the separator does not occur. -/
def Free (l : List α) : Prop := ¬ sep.word <:+: l

variable {sep}

theorem Free.of_append_right (h : sep.Free (a ++ b)) : sep.Free b :=
  fun hsub => h (hsub.trans (suffix_append a b).isInfix)

/-- Text after a part keeps it free of the separator if it does not start with the
end of a separator. -/
theorem Free.append (ha : sep.Free a) (hb : sep.Free b)
    (hcross : ∀ v ∈ sep.rest.tails, v <+: b → v = []) : sep.Free (a ++ b) := by
  intro hsub
  rcases infix_append_cases hsub with hsub | hsub | ⟨u, v, hword, hv, hu, hprefix⟩
  · exact ha hsub
  · exact hb hsub
  · obtain ⟨x, u, rfl⟩ := exists_cons_of_ne_nil hu
    have hrest : sep.rest = u ++ v := by simpa [word] using (cons.inj hword).2
    have hmem : v ∈ sep.rest.tails := by simp [hrest]
    exact hv (hcross v hmem hprefix)

/-- Parts that are joined by a symbol the separator lacks. -/
theorem Free.append_cons {x : α} (hx : x ∉ sep.word) (ha : sep.Free a) (hb : sep.Free b) :
    sep.Free (a ++ x :: b) :=
  fun hsub => (infix_append_cons hx hsub).elim ha hb

instance [DecidableEq α] (l : List α) : Decidable (sep.Free l) :=
  inferInstanceAs (Decidable (¬ sep.word <:+: l))

/-- A separator cannot start inside another one: what stands before the first
separator is as long as the part before it. -/
private theorem gap_eq_nil {c b b' : List α} (hfree : sep.Free c)
    (h : sep.word ++ b = c ++ (sep.word ++ b')) : c = [] := by
  by_contra hc
  rw [append_eq_append_iff] at h
  rcases h with ⟨rest, hcrest, _⟩ | ⟨rest, hword, hrest⟩
  · exact hfree (hcrest ▸ (prefix_append sep.word rest).isInfix)
  · obtain ⟨x, c, rfl⟩ := exists_cons_of_ne_nil hc
    cases rest with
    | nil => exact hfree (by simp [hword])
    | cons y rest =>
      have hy : sep.head = y := by simpa [word] using (cons.inj hrest).1
      have hmem : y ∈ sep.rest := by
        have htail : sep.rest = c ++ y :: rest := by simpa [word] using (cons.inj hword).2
        simp [htail]
      exact sep.fresh (hy ▸ hmem)

/-- Free parts before the first separator can be recovered. -/
theorem split_unique {a' b' : List α} (ha : sep.Free a) (ha' : sep.Free a')
    (h : a ++ (sep.word ++ b) = a' ++ (sep.word ++ b')) : a = a' ∧ b = b' := by
  rw [append_eq_append_iff] at h
  rcases h with ⟨c, rfl, hc⟩ | ⟨c, rfl, hc⟩
  · obtain rfl := gap_eq_nil ha'.of_append_right hc
    simpa using hc
  · obtain rfl := gap_eq_nil ha.of_append_right hc
    simpa using hc.symm

/-- Over an alphabet that lacks a symbol of the separator every text is free. -/
theorem free_of_alphabet {A : Set α} (hsep : ¬ ∀ x ∈ sep.word, x ∈ A) (hl : ∀ x ∈ l, x ∈ A) :
    sep.Free l :=
  fun hsub => hsep fun x hx => hl x (hsub.subset hx)

end Separator

end Sesame.Lib
