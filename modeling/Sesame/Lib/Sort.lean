/-
# Stable sorting

The insertion sort behind Go's `sort.Stable`: each element moves left past the
elements it is less than. For a strict weak order every stable sort gives this
result.

The comparison need not be an order. Whatever it is, the result is sorted by every
total preorder that it refines, and an element is never moved past one that it is
not less than.
-/

import Mathlib.Data.List.Perm.Basic

namespace Sesame.Lib

open List

variable {α : Type*} {less : α → α → Bool} {l : List α} {R : α → α → Prop} {x y : α} {S : α → Prop}

/-- Insert `x` into a list that is held back to front. -/
def insertFromRight (less : α → α → Bool) (x : α) : List α → List α
  | [] => [x]
  | y :: ys => if less x y then y :: insertFromRight less x ys else x :: y :: ys

/-- `sort.Stable`. -/
def sortStable (less : α → α → Bool) (l : List α) : List α :=
  (l.foldl (fun acc x => insertFromRight less x acc) []).reverse

theorem insertFromRight_perm (less : α → α → Bool) (x : α) (l : List α) :
    (insertFromRight less x l).Perm (x :: l) := by
  induction l with
  | nil => exact Perm.refl _
  | cons y ys ih =>
    unfold insertFromRight
    split
    · exact (ih.cons y).trans (Perm.swap x y ys)
    · exact Perm.refl _

private theorem foldl_insertFromRight_perm (less : α → α → Bool) (l acc : List α) :
    (l.foldl (fun acc x => insertFromRight less x acc) acc).Perm (l ++ acc) := by
  induction l generalizing acc with
  | nil => exact Perm.refl _
  | cons x xs ih =>
    refine (ih _).trans ?_
    have hx := (insertFromRight_perm less x acc).append_left xs
    exact hx.trans perm_middle

theorem sortStable_perm (less : α → α → Bool) (l : List α) : (sortStable less l).Perm l := by
  refine (reverse_perm _).trans ?_
  simpa using foldl_insertFromRight_perm less l []

@[simp]
theorem mem_sortStable : x ∈ sortStable less l ↔ x ∈ l := (sortStable_perm less l).mem_iff

theorem sublist_insertFromRight (less : α → α → Bool) (x : α) (l : List α) :
    l.Sublist (insertFromRight less x l) := by
  induction l with
  | nil => exact nil_sublist _
  | cons y ys ih =>
    rw [insertFromRight]
    split
    · exact ih.cons_cons y
    · exact sublist_cons_self x _

/-! ## What the result is sorted by -/

/-- Inserting keeps a list sorted, back to front, by a total preorder that the
comparison refines. -/
theorem pairwise_insertFromRight (hless : ∀ x y, S x → S y → less x y = true → R x y)
    (hnot : ∀ x y, S x → S y → less x y = false → R y x)
    (htrans : ∀ x y z, S x → S y → S z → R x y → R y z → R x z) (hx : S x) (hl : ∀ y ∈ l, S y)
    (hsorted : l.Pairwise fun a b => R b a) :
    (insertFromRight less x l).Pairwise fun a b => R b a := by
  induction l with
  | nil => exact pairwise_singleton _ x
  | cons y ys ih =>
    have hy := hl y mem_cons_self
    have hys : ∀ z ∈ ys, S z := fun z hz => hl z (mem_cons_of_mem y hz)
    obtain ⟨hhead, htail⟩ := pairwise_cons.mp hsorted
    rw [insertFromRight]
    cases hxy : less x y with
    | true =>
      apply pairwise_cons.mpr
      constructor
      · intro z hz
        rcases mem_cons.mp ((insertFromRight_perm less x ys).mem_iff.mp hz) with rfl | hz
        · exact hless z y hx hy hxy
        · exact hhead z hz
      · exact ih hys htail
    | false =>
      apply pairwise_cons.mpr
      constructor
      · intro z hz
        have hyx := hnot x y hx hy hxy
        rcases mem_cons.mp hz with rfl | hz
        · exact hyx
        · exact htrans z y x (hys z hz) hy hx (hhead z hz) hyx
      · exact hsorted

/-- A stable sort sorts by every total preorder that its comparison refines. -/
theorem pairwise_sortStable (hless : ∀ x y, x ∈ l → y ∈ l → less x y = true → R x y)
    (hnot : ∀ x y, x ∈ l → y ∈ l → less x y = false → R y x)
    (htrans : ∀ x y z, x ∈ l → y ∈ l → z ∈ l → R x y → R y z → R x z) :
    (sortStable less l).Pairwise R := by
  rw [sortStable, pairwise_reverse]
  -- The accumulator holds elements of `l`, sorted back to front.
  have hinv : (∀ y ∈ l.foldl (fun acc x => insertFromRight less x acc) [], y ∈ l) ∧
      (l.foldl (fun acc x => insertFromRight less x acc) []).Pairwise fun a b => R b a := by
    refine foldlRecOn l _ (motive := fun acc : List α =>
      (∀ y ∈ acc, y ∈ l) ∧ acc.Pairwise fun a b => R b a) ?_ ?_
    · exact ⟨fun y hy => absurd hy not_mem_nil, Pairwise.nil⟩
    · intro acc hacc x hx
      constructor
      · intro y hy
        rcases mem_cons.mp ((insertFromRight_perm less x acc).mem_iff.mp hy) with rfl | hy
        · exact hx
        · exact hacc.1 y hy
      · exact pairwise_insertFromRight hless hnot htrans hx hacc.1 hacc.2
  exact hinv.2

/-! ## Strict weak orders -/

/-- A comparison is a strict weak order on the elements with a property. -/
structure StrictWeakOn (less : α → α → Bool) (S : α → Prop) : Prop where
  irrefl : ∀ x, S x → less x x = false
  asymm : ∀ x y, S x → S y → less x y = true → less y x = false
  trans : ∀ x y z, S x → S y → S z → less x y = true → less y z = true → less x z = true
  incomparable_trans : ∀ x y z, S x → S y → S z → less x y = false → less y x = false →
    less y z = false → less z y = false → less x z = false ∧ less z x = false

/-- The strict part of a total preorder is a strict weak order. -/
theorem StrictWeakOn.of_le (htrans : ∀ x y z, S x → S y → S z → R x y → R y z → R x z)
    (htotal : ∀ x y, S x → S y → R x y ∨ R y x)
    (hless : ∀ x y, S x → S y → (less x y = true ↔ ¬ R y x)) : StrictWeakOn less S := by
  have hnot : ∀ x y, S x → S y → (less x y = false ↔ R y x) := by
    intro x y hx hy
    rw [← Bool.not_eq_true, hless x y hx hy, not_not]
  constructor
  · intro x hx
    rw [hnot x x hx hx]
    exact (htotal x x hx hx).elim id id
  · intro x y hx hy hxy
    rw [hnot y x hy hx]
    exact (htotal x y hx hy).resolve_right ((hless x y hx hy).mp hxy)
  · intro x y z hx hy hz hxy hyz
    rw [hless] at hxy hyz ⊢ <;> try assumption
    intro hzx
    have hyx := htrans y z x hy hz hx ((htotal y z hy hz).resolve_right hyz) hzx
    exact hxy hyx
  · intro x y z hx hy hz hxy hyx hyz hzy
    rw [hnot] at hxy hyx hyz hzy <;> try assumption
    constructor
    · rw [hnot x z hx hz]
      exact htrans z y x hz hy hx hyz hxy
    · rw [hnot z x hz hx]
      exact htrans x y z hx hy hz hyx hzy

/-- What is not less is a total preorder. -/
theorem StrictWeakOn.le_trans (h : StrictWeakOn less S) {z : α} (hx : S x) (hy : S y) (hz : S z)
    (hyx : less y x = false) (hzy : less z y = false) : less z x = false := by
  cases hzx : less z x with
  | false => rfl
  | true =>
    cases hxy : less x y with
    | true =>
      have hcycle := h.trans z x y hz hx hy hzx hxy
      rw [hzy] at hcycle
      cases hcycle
    | false =>
      cases hyz : less y z with
      | true =>
        have hcycle := h.trans y z x hy hz hx hyz hzx
        rw [hyx] at hcycle
        cases hcycle
      | false =>
        have hincomparable := h.incomparable_trans x y z hx hy hz hxy hyx hyz hzy
        rw [hincomparable.2] at hzx
        cases hzx

/-- For a strict weak order under which different elements are comparable, a stable
sort does not see the order of its input. -/
theorem sortStable_eq_of_perm {l' : List α} (h : StrictWeakOn less (· ∈ l))
    (hcomparable : ∀ x ∈ l, ∀ y ∈ l, less x y = false → less y x = false → x = y)
    (hperm : l'.Perm l) : sortStable less l' = sortStable less l := by
  have hsorted : ∀ l' : List α, l'.Perm l →
      (sortStable less l').Pairwise fun x y => less y x = false := by
    intro l' hperm
    have hmem : ∀ {x}, x ∈ l' → x ∈ l := hperm.mem_iff.mp
    apply pairwise_sortStable
    · intro x y hx hy hxy
      exact h.asymm x y (hmem hx) (hmem hy) hxy
    · intro x y _ _ hxy
      exact hxy
    · intro x y z hx hy hz hyx hzy
      exact h.le_trans (hmem hx) (hmem hy) (hmem hz) hyx hzy
  refine Perm.eq_of_pairwise ?_ (hsorted l' hperm) (hsorted l (Perm.refl l)) ?_
  · intro x y hx hy hyx hxy
    rw [mem_sortStable] at hx hy
    exact hcomparable x (hperm.mem_iff.mp hx) y hy hxy hyx
  · exact ((sortStable_perm less l').trans hperm).trans (sortStable_perm less l).symm

/-! ## Stability -/

/-- An element stays to the right of one that it is not less than. -/
theorem pair_sublist_insertFromRight (hyx : less y x = false) (hx : x ∈ l) :
    [y, x].Sublist (insertFromRight less y l) := by
  induction l with
  | nil => cases hx
  | cons z zs ih =>
    rw [insertFromRight]
    cases hyz : less y z with
    | true =>
      have hne : x ≠ z := by
        rintro rfl
        rw [hyx] at hyz
        cases hyz
      exact (ih ((mem_cons.mp hx).resolve_left hne)).cons z
    | false => exact (singleton_sublist.mpr hx).cons_cons y

/-- The first of two elements, of which the second is not less, stays first. -/
theorem pair_sublist_sortStable (hyx : less y x = false) (rest : List α) :
    [x, y].Sublist (sortStable less (x :: y :: rest)) := by
  have hpair : [y, x].Sublist
      ((x :: y :: rest).foldl (fun acc z => insertFromRight less z acc) []) := by
    rw [foldl_cons, foldl_cons]
    refine foldlRecOn rest _ (motive := fun acc : List α => [y, x].Sublist acc) ?_ ?_
    · exact pair_sublist_insertFromRight hyx (mem_singleton_self x)
    · intro acc hacc z _
      exact hacc.trans (sublist_insertFromRight less z acc)
  exact hpair.reverse

/-- In a list without repetition two elements have one order. -/
theorem not_pair_sublist_swap (hl : l.Nodup) (hxy : [x, y].Sublist l) : ¬ [y, x].Sublist l := by
  intro hyx
  induction l with
  | nil => cases hxy
  | cons z zs ih =>
    obtain ⟨hz, hzs⟩ := nodup_cons.mp hl
    cases hxy with
    | cons _ hxy =>
      cases hyx with
      | cons _ hyx => exact ih hzs hxy hyx
      | cons_cons _ _ => exact hz (hxy.subset (by simp))
    | cons_cons _ _ =>
      cases hyx with
      | cons _ hyx => exact hz (hyx.subset (by simp))
      | cons_cons _ hyx => exact hz (hyx.subset (by simp))

end Sesame.Lib
