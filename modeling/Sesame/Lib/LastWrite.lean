/-
# Writes of which the last one stays

Some elements of a list write a value, and the last value stays. It is the same for
every order of the list iff all elements that write one write the same value.
-/

import Mathlib.Data.List.Rotate
import Sesame.Lib.Maps

namespace Sesame.Lib

open List

universe u v

variable {α : Type u} {β : Type v} {f : α → Option β} {l l' : List α}

/-- The last value that an element of the list writes. -/
def lastWrite (f : α → Option β) (l : List α) : Option β := (l.filterMap f).getLast?

/-- All elements that write a value write the same one. -/
def WritesAgree (f : α → Option β) (l : List α) : Prop :=
  ∀ a ∈ l, ∀ b ∈ f a, ∀ a' ∈ l, ∀ b' ∈ f a', b = b'

/-- What one element of a list brings about and none undoes holds after the list. -/
theorem foldl_of_mem {σ : Type v} {step : σ → α → σ} {Q : σ → Prop}
    (hkeep : ∀ s, Q s → ∀ a ∈ l, Q (step s a)) {a : α} (ha : a ∈ l) (hset : ∀ s, Q (step s a))
    (s : σ) : Q (l.foldl step s) := by
  obtain ⟨before, after, rfl⟩ := append_of_mem ha
  rw [foldl_append, foldl_cons]
  refine foldlRecOn _ _ (hset _) ?_
  intro s hs b hb
  exact hkeep s hs b (mem_append_right _ (mem_cons_of_mem a hb))

theorem lastWrite_append (f : α → Option β) (l l' : List α) :
    lastWrite f (l ++ l') = (lastWrite f l').or (lastWrite f l) := by
  rw [lastWrite, filterMap_append, getLast?_append]
  rfl

theorem lastWrite_eq_none : lastWrite f l = none ↔ ∀ a ∈ l, f a = none := by
  rw [lastWrite, getLast?_eq_none_iff, filterMap_eq_nil_iff]

theorem isSome_lastWrite : (lastWrite f l).isSome ↔ ∃ a ∈ l, (f a).isSome := by
  rw [← Option.ne_none_iff_isSome, ne_eq, lastWrite_eq_none]
  simp [Option.isSome_iff_ne_none]

theorem exists_of_lastWrite {b : β} (h : lastWrite f l = some b) : ∃ a ∈ l, f a = some b :=
  mem_filterMap.mp (mem_of_getLast? h)

theorem lastWrite_map {γ : Type*} (g : β → γ) (f : α → Option β) (l : List α) :
    lastWrite (fun a => (f a).map g) l = (lastWrite f l).map g := by
  rw [lastWrite, lastWrite, ← getLast?_map, map_filterMap]

/-- A value for every write. -/
theorem lastWrite_bind {γ : Type*} {g : β → Option γ} (h : ∀ a ∈ l, ∀ b ∈ f a, (g b).isSome) :
    lastWrite (fun a => (f a).bind g) l = (lastWrite f l).bind g := by
  rw [lastWrite, lastWrite, ← filterMap_filterMap]
  have hall : ∀ b ∈ l.filterMap f, (g b).isSome := by
    intro b hb
    obtain ⟨a, ha, hab⟩ := mem_filterMap.mp hb
    exact h a ha b hab
  rcases eq_nil_or_concat (l.filterMap f) with hnil | ⟨init, last, heq⟩
  · rw [hnil]
    rfl
  · rw [heq] at hall ⊢
    obtain ⟨c, hc⟩ := Option.isSome_iff_exists.mp (hall last (by simp))
    simp [filterMap_append, hc]

theorem getLast?_flatMap (g : α → List β) (l : List α) :
    (l.flatMap g).getLast? = lastWrite (fun a => (g a).getLast?) l := by
  induction l with
  | nil => rfl
  | cons a l ih =>
    rw [flatMap_cons, getLast?_append, ih, ← singleton_append, lastWrite_append]
    congr 1
    rw [lastWrite]
    cases hlast : (g a).getLast? with
    | none => simp [hlast]
    | some b => simp [hlast]

theorem WritesAgree.lastWrite_perm (h : WritesAgree f l) (hperm : l'.Perm l) :
    lastWrite f l' = lastWrite f l := by
  cases hlast : lastWrite f l with
  | none =>
    rw [lastWrite_eq_none] at hlast ⊢
    exact fun a ha => hlast a (hperm.mem_iff.mp ha)
  | some b =>
    obtain ⟨a, ha, hb⟩ := exists_of_lastWrite hlast
    cases hlast' : lastWrite f l' with
    | none =>
      rw [lastWrite_eq_none] at hlast'
      rw [hlast' a (hperm.mem_iff.mpr ha)] at hb
      cases hb
    | some b' =>
      obtain ⟨a', ha', hb'⟩ := exists_of_lastWrite hlast'
      rw [h a ha b hb a' (hperm.mem_iff.mp ha') b' hb']

/-- Every element can be made the last one by a rotation. -/
theorem lastWrite_rotate {a : α} (ha : a ∈ l) {b : β} (hb : f a = some b) :
    ∃ k, lastWrite f (l.rotate k) = some b := by
  obtain ⟨before, after, rfl⟩ := append_of_mem ha
  refine ⟨(before ++ [a]).length, ?_⟩
  rw [← singleton_append, ← append_assoc, rotate_append_length_eq,
    lastWrite_append, lastWrite_append, lastWrite]
  simp [hb]

/-- If the value that is left, where `base` is the one without any write, is the same for
every rotation, then all writes agree. -/
theorem writesAgree_of_rotate (base : Option β)
    (h : ∀ k, (lastWrite f (l.rotate k)).or base = (lastWrite f l).or base) : WritesAgree f l := by
  intro a ha b hb a' ha' b' hb'
  obtain ⟨k, hk⟩ := lastWrite_rotate ha hb
  obtain ⟨k', hk'⟩ := lastWrite_rotate ha' hb'
  have hsame := (h k).trans (h k').symm
  rw [hk, hk'] at hsame
  exact Option.some.inj hsame

/-! ## Orders of range loops -/

namespace MapOrder

variable {sites : List String} {site : String} {κ : Type} {α : Type}

/-- The two orders are the same, except for the loops at some sites. -/
def SameExcept (sites : List String) (ord ord' : MapOrder) : Prop :=
  ∀ site ∉ sites, ∀ (α : Type) (l : List α), ord'.order site l = ord.order site l

/-- Start the loop at one site `k` entries later. -/
def rotatedAt (ord : MapOrder) (site : String) (k : Nat) : MapOrder where
  order s _ l := if s = site then (ord.order s l).rotate k else ord.order s l
  perm s _ l := by
    split
    · exact (rotate_perm _ k).trans (ord.perm s l)
    · exact ord.perm s l

theorem sameExcept_rotatedAt (ord : MapOrder) (hsite : site ∈ sites) (k : Nat) :
    SameExcept sites ord (ord.rotatedAt site k) := by
  intro s hs α l
  have hne : s ≠ site := by
    rintro rfl
    exact hs hsite
  exact if_neg hne

theorem sameExcept_reversedAt (hsite : site ∈ sites) :
    SameExcept sites .storage (.reversedAt site) := by
  intro s hs α l
  have hne : s ≠ site := by
    rintro rfl
    exact hs hsite
  exact if_neg hne

theorem SameExcept.range {ord ord' : MapOrder} (h : SameExcept sites ord ord')
    (hsite : site ∉ sites) (m : Map κ α) : ord'.range site m = ord.range site m :=
  h site hsite _ _

theorem values_rotatedAt (ord : MapOrder) (site : String) (k : Nat) (m : Map κ α) :
    (ord.rotatedAt site k).values site m = (ord.values site m).rotate k := by
  simp [values, range, rotatedAt, map_rotate]

theorem values_rotatedAt_of_ne (ord : MapOrder) {site' : String} (hne : site' ≠ site) (k : Nat)
    (m : Map κ α) : (ord.rotatedAt site k).values site' m = ord.values site' m := by
  simp [values, range, rotatedAt, hne]

end MapOrder

end Sesame.Lib
