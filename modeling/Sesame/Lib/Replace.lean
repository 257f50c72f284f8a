/-
# Replacing all occurrences

`replaceAll` reads a list once, from left to right, and puts another list in place of each
occurrence that does not overlap the one before it; what was put in is not read again.
Every fact below comes from the two ways in which it goes on: an occurrence is replaced as
a whole, or one element is kept.

Reading a list in a code (`replaceAll_flatMap`) says when it does not matter whether
elements or their code words are replaced.
-/

import Mathlib.Data.List.Infix

namespace Sesame.Lib

open List

variable {α β : Type} [DecidableEq α] {old : List α}

/-- `strings.ReplaceAll` for a non-empty `old`; `skip` characters of a match that
was replaced are still to be dropped. -/
def replaceAll (old new : List α) : Nat → List α → List α
  | _, [] => []
  | skip + 1, _ :: rest => replaceAll old new skip rest
  | 0, c :: rest =>
    if old <+: c :: rest then new ++ replaceAll old new (old.length - 1) rest
    else c :: replaceAll old new 0 rest

section

variable {old new : List α}

@[simp]
theorem replaceAll_nil (skip : Nat) : replaceAll old new skip [] = [] := by
  rw [replaceAll]

theorem replaceAll_skip (skip : Nat) (l : List α) :
    replaceAll old new skip l = replaceAll old new 0 (l.drop skip) := by
  induction skip generalizing l with
  | zero => rw [drop_zero]
  | succ skip ih =>
    cases l with
    | nil => rw [drop_nil, replaceAll_nil, replaceAll_nil]
    | cons c rest => rw [replaceAll, ih, drop_succ_cons]

/-- An occurrence is replaced as a whole. -/
theorem replaceAll_append (hold : old ≠ []) (rest : List α) :
    replaceAll old new 0 (old ++ rest) = new ++ replaceAll old new 0 rest := by
  obtain ⟨c, tail, rfl⟩ := exists_cons_of_ne_nil hold
  rw [cons_append, replaceAll, ← cons_append, if_pos (prefix_append _ _),
    replaceAll_skip, length_cons, Nat.add_sub_cancel, drop_left]

/-- An element at which no occurrence starts is kept. -/
theorem replaceAll_cons {c : α} {rest : List α} (h : ¬ old <+: c :: rest) :
    replaceAll old new 0 (c :: rest) = c :: replaceAll old new 0 rest := by
  rw [replaceAll, if_neg h]

/-- Induction along the reading of a list. -/
theorem replaceAll_induction {motive : List α → Prop} (hold : old ≠ []) (nil : motive [])
    (replaced : ∀ rest, motive rest → motive (old ++ rest))
    (kept : ∀ c rest, ¬ old <+: c :: rest → motive rest → motive (c :: rest)) (l : List α) :
    motive l := by
  induction hlength : l.length using Nat.strong_induction_on generalizing l with
  | _ n ih =>
    cases l with
    | nil => exact nil
    | cons c rest =>
      by_cases hmatch : old <+: c :: rest
      · obtain ⟨rest', hrest'⟩ := hmatch
        rw [← hrest'] at hlength ⊢
        apply replaced
        have hpos := length_pos_iff.mpr hold
        exact ih rest'.length (by rw [← hlength, length_append]; omega) rest' rfl
      · apply kept c rest hmatch
        exact ih rest.length (by rw [← hlength, length_cons]; omega) rest rfl

theorem mem_of_mem_replaceAll {l : List α} {c : α} (h : c ∈ replaceAll old new 0 l)
    (hold : old ≠ []) : c ∈ new ∨ c ∈ l := by
  induction l using replaceAll_induction hold with
  | nil =>
    rw [replaceAll_nil] at h
    exact .inr h
  | replaced rest ih =>
    rw [replaceAll_append hold, mem_append] at h
    rcases h with hnew | hrest
    · exact .inl hnew
    · exact (ih hrest).imp_right (mem_append_right old)
  | kept d rest hmatch ih =>
    rw [replaceAll_cons hmatch, mem_cons] at h
    rcases h with rfl | hrest
    · exact .inr mem_cons_self
    · exact (ih hrest).imp_right (mem_cons_of_mem d)

/-- A list without an occurrence stays as it is. -/
theorem replaceAll_eq_self {l : List α} (h : ¬ old <:+: l) : replaceAll old new 0 l = l := by
  induction l with
  | nil => rw [replaceAll_nil]
  | cons c rest ih =>
    rw [infix_cons_iff, not_or] at h
    rw [replaceAll_cons h.1, ih h.2]

/-- Elements that no occurrence starts with are kept. -/
theorem replaceAll_append_of_notMem {c : α} {tail : List α} (hold : old = c :: tail)
    {kept : List α} (hkept : c ∉ kept) (l : List α) :
    replaceAll old new 0 (kept ++ l) = kept ++ replaceAll old new 0 l := by
  induction kept with
  | nil => rfl
  | cons d kept ih =>
    rw [mem_cons, not_or] at hkept
    have hmatch : ¬ old <+: d :: (kept ++ l) := by
      rw [hold, cons_prefix_cons]
      exact fun h => hkept.1 h.1
    rw [cons_append, replaceAll_cons hmatch, ih hkept.2, cons_append]

end

/-- Renaming the elements does not change where a list occurs. -/
theorem replaceAll_map [DecidableEq β] {f : α → β} (hf : Function.Injective f) {new : List α}
    (hne : old ≠ []) (l : List α) :
    replaceAll (old.map f) (new.map f) 0 (l.map f) = (replaceAll old new 0 l).map f := by
  induction l using replaceAll_induction hne with
  | nil => rw [map_nil, replaceAll_nil, replaceAll_nil, map_nil]
  | replaced rest ih =>
    have hne' : old.map f ≠ [] := fun h => hne (map_eq_nil_iff.mp h)
    rw [map_append, replaceAll_append hne', replaceAll_append hne, ih, map_append]
  | kept c rest hmatch ih =>
    have hmatch' : ¬ old.map f <+: f c :: rest.map f := by
      rw [← map_cons, prefix_map_iff_of_injective hf]
      exact hmatch
    rw [map_cons, replaceAll_cons hmatch', replaceAll_cons hmatch, ih, map_cons]

/-! ## Codes -/

/-- The code words of a family tell its members apart, whatever follows them. -/
def IsCode (good : β → Prop) (f : β → List α) : Prop :=
  (∀ b, good b → f b ≠ []) ∧ ∀ a b, good a → good b → ∀ x y, f a ++ x = f b ++ y → a = b

omit [DecidableEq α] in
theorem IsCode.prefix_iff {good : β → Prop} {f : β → List α} (hf : IsCode good f)
    {a l : List β} (ha : ∀ b ∈ a, good b) (hl : ∀ b ∈ l, good b) :
    a.flatMap f <+: l.flatMap f ↔ a <+: l := by
  induction a generalizing l with
  | nil => exact iff_of_true nil_prefix nil_prefix
  | cons b a ih =>
    obtain ⟨hb, ha'⟩ := forall_mem_cons.mp ha
    cases l with
    | nil =>
      apply iff_of_false
      · rw [flatMap_cons, flatMap_nil, prefix_nil]
        exact append_ne_nil_of_left_ne_nil (hf.1 b hb) _
      · rw [prefix_nil]
        exact cons_ne_nil b a
    | cons d l =>
      obtain ⟨hd, hl'⟩ := forall_mem_cons.mp hl
      rw [flatMap_cons, flatMap_cons, cons_prefix_cons]
      constructor
      · intro h
        obtain ⟨z, hz⟩ := h
        rw [append_assoc] at hz
        cases hf.2 b d hb hd _ _ hz
        exact ⟨rfl, (ih ha' hl').mp ⟨z, append_cancel_left hz⟩⟩
      · rintro ⟨rfl, h⟩
        exact (prefix_append_right_inj _).mpr ((ih ha' hl').mpr h)

/-- Replacing code words is replacing elements, if an occurrence never starts inside a
code word that is kept. -/
theorem replaceAll_flatMap [DecidableEq β] {good : β → Prop} {f : β → List α}
    (hf : IsCode good f) {old new l : List β} (hne : old ≠ []) (hold : ∀ b ∈ old, good b)
    (hl : ∀ b ∈ l, good b)
    (hinner : ∀ b rest, b :: rest <:+ l → ¬ old <+: b :: rest → ∀ s t, f b = s ++ t → s ≠ [] →
      t ≠ [] → ¬ old.flatMap f <+: t ++ rest.flatMap f) :
    replaceAll (old.flatMap f) (new.flatMap f) 0 (l.flatMap f) =
      (replaceAll old new 0 l).flatMap f := by
  have hne' : old.flatMap f ≠ [] := by
    obtain ⟨b, tail, rfl⟩ := exists_cons_of_ne_nil hne
    exact append_ne_nil_of_left_ne_nil (hf.1 b (hold b mem_cons_self)) _
  induction l using replaceAll_induction hne with
  | nil => rw [flatMap_nil, replaceAll_nil, replaceAll_nil, flatMap_nil]
  | replaced rest ih =>
    have hrest : ∀ b ∈ rest, good b := fun b hb => hl b (mem_append_right old hb)
    rw [flatMap_append, replaceAll_append hne', replaceAll_append hne, flatMap_append,
      ih hrest fun b tail hsuffix => hinner b tail (hsuffix.trans (suffix_append _ _))]
  | kept b rest hmatch ih =>
    have hrest : ∀ d ∈ rest, good d := fun d hd => hl d (mem_cons_of_mem b hd)
    -- The code word is kept one letter after the other.
    have hkept : ∀ s t, f b = s ++ t →
        replaceAll (old.flatMap f) (new.flatMap f) 0 (t ++ rest.flatMap f) =
          t ++ replaceAll (old.flatMap f) (new.flatMap f) 0 (rest.flatMap f) := by
      intro s t
      induction t generalizing s with
      | nil =>
        intro _
        rfl
      | cons c t iht =>
        intro hsplit
        have hstart : ¬ old.flatMap f <+: c :: (t ++ rest.flatMap f) := by
          by_cases hs : s = []
          · rw [hs, nil_append] at hsplit
            rw [← cons_append, ← hsplit, ← flatMap_cons, hf.prefix_iff hold hl]
            exact hmatch
          · exact hinner b rest suffix_rfl hmatch s (c :: t) hsplit hs (cons_ne_nil c t)
        rw [cons_append, replaceAll_cons hstart, cons_append,
          iht (s ++ [c]) (by rw [hsplit, append_assoc, singleton_append])]
    rw [flatMap_cons, hkept [] (f b) rfl, replaceAll_cons hmatch, flatMap_cons,
      ih hrest fun d tail hsuffix => hinner d tail (hsuffix.trans (suffix_cons b rest))]

/-! ## Lists that differ in one element -/

/-- Two lists are equal but for `n` places, where one has `a` and the other has `b`. -/
inductive Differ (a b : α) : Nat → List α → List α → Prop
  | nil : Differ a b 0 [] []
  | same {n : Nat} {l l' : List α} (c : α) (rest : Differ a b n l l') :
      Differ a b n (c :: l) (c :: l')
  | differ {n : Nat} {l l' : List α} (rest : Differ a b n l l') :
      Differ a b (n + 1) (a :: l) (b :: l')

namespace Differ

variable {a b : α} {n m : Nat} {l l' : List α}

omit [DecidableEq α]

theorem refl (l : List α) : Differ a b 0 l l := by
  induction l with
  | nil => exact .nil
  | cons c l ih => exact .same c ih

theorem append {k k' : List α} (h : Differ a b n l l') (hk : Differ a b m k k') :
    Differ a b (n + m) (l ++ k) (l' ++ k') := by
  induction h with
  | nil =>
    rw [Nat.zero_add]
    exact hk
  | same c _ ih => exact .same c ih
  | differ _ ih =>
    rw [Nat.add_right_comm]
    exact .differ ih

theorem surround (h : Differ a b n l l') (x y : List α) :
    Differ a b n (x ++ l ++ y) (x ++ l' ++ y) := by
  have hall := ((refl x).append h).append (refl y)
  rwa [Nat.zero_add, Nat.add_zero] at hall

theorem eq_zero (hab : a ≠ b) (h : Differ a b n l l) : n = 0 := by
  induction l generalizing n with
  | nil =>
    cases h
    rfl
  | cons c l ih =>
    cases h with
    | same _ rest => exact ih rest
    | differ _ => exact absurd rfl hab

theorem symm (h : Differ a b n l l') : Differ b a n l' l := by
  induction h with
  | nil => exact .nil
  | same c _ ih => exact .same c ih
  | differ _ ih => exact .differ ih

theorem append_inv {x y : List α} (h : Differ a b n (x ++ y) l') :
    ∃ i j x' y', l' = x' ++ y' ∧ n = i + j ∧ Differ a b i x x' ∧ Differ a b j y y' := by
  induction x generalizing n l' with
  | nil => exact ⟨0, n, [], l', rfl, (Nat.zero_add n).symm, .nil, h⟩
  | cons c x ih =>
    cases h with
    | same _ rest =>
      obtain ⟨i, j, x', y', rfl, rfl, hx, hy⟩ := ih rest
      exact ⟨i, j, c :: x', y', rfl, rfl, .same c hx, hy⟩
    | differ rest =>
      obtain ⟨i, j, x', y', rfl, rfl, hx, hy⟩ := ih rest
      exact ⟨i + 1, j, b :: x', y', rfl, Nat.add_right_comm i j 1, .differ hx, hy⟩

theorem eq_of_notMem (ha : a ∉ l) (h : Differ a b n l l') : n = 0 ∧ l' = l := by
  induction h with
  | nil => exact ⟨rfl, rfl⟩
  | same c _ ih =>
    obtain ⟨rfl, rfl⟩ := ih fun hmem => ha (mem_cons_of_mem c hmem)
    exact ⟨rfl, rfl⟩
  | differ _ _ => exact absurd mem_cons_self ha

/-- A beginning without `a` is the beginning of both lists. -/
theorem of_append {rest : List α} (ha : a ∉ old) (h : Differ a b n (old ++ rest) l') :
    ∃ rest', l' = old ++ rest' ∧ Differ a b n rest rest' := by
  obtain ⟨i, j, x', y', rfl, rfl, hx, hy⟩ := h.append_inv
  obtain ⟨rfl, rfl⟩ := hx.eq_of_notMem ha
  rw [Nat.zero_add]
  exact ⟨y', rfl, hy⟩

/-- Lists without the two elements are replaced at the same places. -/
theorem replaceAll [DecidableEq α] {new : List α} (hne : old ≠ []) (ha : a ∉ old) (hb : b ∉ old)
    (h : Differ a b n l l') : Differ a b n (replaceAll old new 0 l) (replaceAll old new 0 l') := by
  induction l using replaceAll_induction hne generalizing n l' with
  | nil =>
    cases h
    rw [replaceAll_nil]
    exact .nil
  | replaced rest ih =>
    obtain ⟨rest', rfl, hrest⟩ := of_append ha h
    rw [replaceAll_append hne, replaceAll_append hne, ← Nat.zero_add n]
    exact (refl new).append (ih hrest)
  | kept c rest hmatch ih =>
    have hmatch' : ¬ old <+: l' := by
      rintro ⟨rest', rfl⟩
      obtain ⟨_, hstart, -⟩ := h.symm.of_append hb
      exact hmatch ⟨_, hstart.symm⟩
    cases h with
    | same _ hrest =>
      rw [replaceAll_cons hmatch, replaceAll_cons hmatch']
      exact .same c (ih hrest)
    | differ hrest =>
      rw [replaceAll_cons hmatch, replaceAll_cons hmatch']
      exact .differ (ih hrest)

/-- Putting one element or the other in place of a list shows wherever the list occurs. -/
theorem replaceAll_singleton [DecidableEq α] (hne : old ≠ []) (a b : α) (l : List α) :
    ∃ n, Differ a b n (Lib.replaceAll old [a] 0 l) (Lib.replaceAll old [b] 0 l) ∧
      (old <:+: l → 0 < n) := by
  induction l using replaceAll_induction hne with
  | nil =>
    refine ⟨0, by rw [replaceAll_nil, replaceAll_nil]; exact .nil, fun h => ?_⟩
    exact absurd (infix_nil.mp h) hne
  | replaced rest ih =>
    obtain ⟨n, hrest, -⟩ := ih
    refine ⟨n + 1, ?_, fun _ => Nat.succ_pos n⟩
    rw [replaceAll_append hne, replaceAll_append hne]
    exact .differ hrest
  | kept c rest hmatch ih =>
    obtain ⟨n, hrest, hpos⟩ := ih
    refine ⟨n, ?_, fun h => ?_⟩
    · rw [replaceAll_cons hmatch, replaceAll_cons hmatch]
      exact .same c hrest
    · exact hpos ((infix_cons_iff.mp h).resolve_left hmatch)

end Differ

end Sesame.Lib
