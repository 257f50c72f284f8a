/-
# Computations that can fail

Rules for `Except`: running a successful step, taking a successful run apart,
invariants of loops whose body can fail, and comparing two computations that fail
together.
-/

import Mathlib.Data.List.Basic

namespace Sesame.Lib

open List

universe u v

variable {ε : Type u} {α β σ : Type v} {l : List α} {f step : σ → α → Except ε σ} {x : Except ε α}

@[simp]
theorem ok_bind (a : α) (f : α → Except ε β) : (Except.ok a >>= f) = f a := rfl

theorem not_exists_ok_of_error (e : ε) : ¬ ∃ a, (.error e : Except ε α) = .ok a := by
  rintro ⟨a, h⟩
  cases h

theorem bind_eq_ok {f : α → Except ε β} {b : β} :
    (x >>= f) = .ok b ↔ ∃ a, x = .ok a ∧ f a = .ok b := by
  cases x <;> simp [bind, Except.bind]

theorem map_eq_ok {f : α → β} {b : β} : x.map f = .ok b ↔ ∃ a, x = .ok a ∧ f a = b := by
  cases x <;> simp [Except.map]

theorem forM_eq_ok {f : α → Except ε Unit} {l : List α} :
    l.forM f = .ok () ↔ ∀ a ∈ l, f a = .ok () := by
  induction l with
  | nil => simp [pure, Except.pure]
  | cons a l ih =>
    rw [forall_mem_cons, ← ih, show (a :: l).forM f = (f a >>= fun _ => l.forM f) from rfl,
      bind_eq_ok]
    exact ⟨fun ⟨_, h, hl⟩ => ⟨h, hl⟩, fun ⟨h, hl⟩ => ⟨(), h, hl⟩⟩

theorem toOption_eq_some {a : α} : x.toOption = some a ↔ x = .ok a := by
  cases x <;> simp [Except.toOption]

/-- If every successful step keeps the invariant, so does every successful loop. -/
theorem foldlM_inv (inv : σ → Prop) (hstep : ∀ s, inv s → ∀ x ∈ l, ∀ s', f s x = .ok s' → inv s')
    {s s' : σ} (hs : inv s) (hrun : l.foldlM f s = .ok s') : inv s' := by
  induction l generalizing s with
  | nil =>
    cases hrun
    exact hs
  | cons x xs ih =>
    rw [foldlM_cons] at hrun
    obtain ⟨s₁, hx, hxs⟩ := bind_eq_ok.mp hrun
    exact ih (fun s hs y hy => hstep s hs y (mem_cons_of_mem x hy))
      (hstep s hs x mem_cons_self s₁ hx) hxs

/-- Loops whose steps are the same are the same. -/
theorem foldlM_congr {g : σ → α → Except ε σ} (h : ∀ s, ∀ x ∈ l, f s x = g s x) (s : σ) :
    l.foldlM f s = l.foldlM g s := by
  induction l generalizing s with
  | nil => rfl
  | cons x xs ih =>
    rw [foldlM_cons, foldlM_cons, h s x mem_cons_self]
    congr 1
    funext s'
    exact ih (fun s y hy => h s y (mem_cons_of_mem x hy)) s'

/-- A loop all of whose steps succeed. -/
theorem foldlM_eq_ok {g : σ → α → σ} (h : ∀ s, ∀ x ∈ l, f s x = .ok (g s x)) (s : σ) :
    l.foldlM f s = .ok (l.foldl g s) :=
  (foldlM_congr h s).trans (foldlM_pure ..)

/-- A loop with a step that always fails. -/
theorem foldlM_eq_error {x : α} (hx : x ∈ l) (h : ∀ s, ∃ e, f s x = .error e) (s : σ) :
    ∃ e, l.foldlM f s = .error e := by
  obtain ⟨before, after, rfl⟩ := append_of_mem hx
  rw [foldlM_append]
  cases before.foldlM f s with
  | error e => exact ⟨e, rfl⟩
  | ok s' =>
    obtain ⟨e, he⟩ := h s'
    rw [ok_bind, foldlM_cons, he]
    exact ⟨e, rfl⟩

/-- A loop that keeps what it has seen and refuses what clashes with it accepts the lists
without a clash. -/
theorem foldlM_seen_iff (state : List α → σ) {good : α → Prop} {clash : α → α → Prop}
    (haccept : ∀ seen x, (∀ y ∈ seen, good y) → good x → (∀ y ∈ seen, ¬ clash y x) →
      step (state seen) x = .ok (state (x :: seen)))
    (hrefuse : ∀ seen x, (∀ y ∈ seen, good y) → good x → ∀ y ∈ seen, clash y x →
      ∃ e, step (state seen) x = .error e) (hl : ∀ x ∈ l, good x) {seen : List α}
    (hseen : ∀ y ∈ seen, good y) :
    (∃ s, l.foldlM step (state seen) = .ok s) ↔
      l.Pairwise (fun y x => ¬ clash y x) ∧ ∀ y ∈ seen, ∀ x ∈ l, ¬ clash y x := by
  induction l generalizing seen with
  | nil => exact ⟨fun _ => ⟨.nil, fun y _ x hx => by cases hx⟩, fun _ => ⟨_, rfl⟩⟩
  | cons x xs ih =>
    have hx : good x := hl x mem_cons_self
    rw [foldlM_cons, pairwise_cons]
    by_cases hclash : ∃ y ∈ seen, clash y x
    · obtain ⟨y, hy, hyx⟩ := hclash
      obtain ⟨e, he⟩ := hrefuse seen x hseen hx y hy hyx
      rw [he]
      apply iff_of_false
      · exact not_exists_ok_of_error e
      · intro h
        exact h.2 y hy x mem_cons_self hyx
    · have hfree : ∀ y ∈ seen, ¬ clash y x := fun y hy hyx => hclash ⟨y, hy, hyx⟩
      rw [haccept seen x hseen hx hfree, ok_bind,
        ih (fun z hz => hl z (mem_cons_of_mem x hz)) (forall_mem_cons.mpr ⟨hx, hseen⟩),
        forall_mem_cons]
      constructor
      · rintro ⟨hpairs, hhead, hrest⟩
        exact ⟨⟨hhead, hpairs⟩, fun y hy => forall_mem_cons.mpr ⟨hfree y hy, hrest y hy⟩⟩
      · rintro ⟨⟨hhead, hpairs⟩, hall⟩
        exact ⟨hpairs, hhead, fun y hy z hz => hall y hy z (mem_cons_of_mem x hz)⟩

/-- A loop whose body succeeds just for some elements, and then takes a pure step. -/
theorem foldlM_eq_ok_iff {P : α → Prop} {g : σ → α → σ}
    (hstep : ∀ s x s', step s x = .ok s' ↔ P x ∧ s' = g s x) {l : List α} {s s' : σ} :
    l.foldlM step s = .ok s' ↔ (∀ x ∈ l, P x) ∧ s' = l.foldl g s := by
  induction l generalizing s with
  | nil => simp [pure, Except.pure, eq_comm]
  | cons x xs ih =>
    rw [foldlM_cons, bind_eq_ok, forall_mem_cons, foldl_cons]
    simp only [hstep, ih]
    constructor
    · rintro ⟨_, ⟨hx, rfl⟩, hxs, rfl⟩
      exact ⟨⟨hx, hxs⟩, rfl⟩
    · rintro ⟨⟨hx, hxs⟩, rfl⟩
      exact ⟨_, ⟨hx, rfl⟩, hxs, rfl⟩

theorem anyM_ne_true {f : α → Except ε Bool} (h : ∀ x ∈ l, f x ≠ .ok true) :
    l.anyM f ≠ .ok true := by
  induction l with
  | nil => exact fun h => by cases h
  | cons y ys ih =>
    rw [anyM]
    cases hy : f y with
    | error e => exact fun h => by cases h
    | ok answer =>
      cases answer with
      | true => exact absurd hy (h y mem_cons_self)
      | false => exact ih fun z hz => h z (mem_cons_of_mem y hz)

/-- A search that no element ends fails with the first element that fails. -/
theorem anyM_eq_error {f : α → Except ε Bool} (h : ∀ x ∈ l, f x ≠ .ok true) {x : α} (hx : x ∈ l)
    {e : ε} (he : f x = .error e) : ∃ e', l.anyM f = .error e' := by
  induction l with
  | nil => cases hx
  | cons y ys ih =>
    rw [anyM]
    cases hy : f y with
    | error e' => exact ⟨e', rfl⟩
    | ok answer =>
      cases answer with
      | true => exact absurd hy (h y mem_cons_self)
      | false =>
        rw [ok_bind]
        refine ih (fun z hz => h z (mem_cons_of_mem y hz)) ?_
        rcases mem_cons.mp hx with rfl | hmem
        · rw [he] at hy
          cases hy
        · exact hmem

theorem anyM_total {f : α → Except ε Bool} (h : ∀ x ∈ l, ∃ answer, f x = .ok answer) :
    ∃ answer, l.anyM f = .ok answer := by
  induction l with
  | nil => exact ⟨false, rfl⟩
  | cons y ys ih =>
    obtain ⟨answer, hy⟩ := h y mem_cons_self
    rw [anyM, hy, ok_bind]
    cases answer with
    | true => exact ⟨true, rfl⟩
    | false => exact ih fun z hz => h z (mem_cons_of_mem y hz)

/-! ## Two computations side by side -/

/-- Two computations fail together, with related errors, or have related results. -/
def Agree (E : ε → ε → Prop) (R : α → β → Prop) : Except ε α → Except ε β → Prop
  | .ok a, .ok b => R a b
  | .error e, .error e' => E e e'
  | _, _ => False

section Agree

variable {E : ε → ε → Prop} {R : α → β → Prop} {x : Except ε α} {y : Except ε β}

/-- Computations that agree both fail or both succeed. -/
theorem Agree.dest (h : Agree E R x y) :
    (∃ e e', x = .error e ∧ y = .error e' ∧ E e e') ∨ ∃ a b, x = .ok a ∧ y = .ok b ∧ R a b := by
  cases x with
  | error e =>
    cases y with
    | error e' => exact .inl ⟨e, e', rfl, rfl, h⟩
    | ok b => exact h.elim
  | ok a =>
    cases y with
    | error e' => exact h.elim
    | ok b => exact .inr ⟨a, b, rfl, rfl, h⟩

theorem Agree.bind {α' β' : Type v} {S : α' → β' → Prop} {f : α → Except ε α'}
    {g : β → Except ε β'} (h : Agree E R x y) (hnext : ∀ a b, R a b → Agree E S (f a) (g b)) :
    Agree E S (x >>= f) (y >>= g) := by
  rcases h.dest with ⟨e, e', rfl, rfl, he⟩ | ⟨a, b, rfl, rfl, hab⟩
  · exact he
  · exact hnext a b hab

theorem Agree.mono {E' : ε → ε → Prop} {R' : α → β → Prop} (h : Agree E R x y)
    (hE : ∀ e e', E e e' → E' e e') (hR : ∀ a b, R a b → R' a b) : Agree E' R' x y := by
  rcases h.dest with ⟨e, e', rfl, rfl, he⟩ | ⟨a, b, rfl, rfl, hab⟩
  · exact hE e e' he
  · exact hR a b hab

theorem Agree.exists_ok_iff (h : Agree E R x y) : (∃ a, x = .ok a) ↔ ∃ b, y = .ok b := by
  rcases h.dest with ⟨e, e', rfl, rfl, -⟩ | ⟨a, b, rfl, rfl, -⟩
  · exact iff_of_false (not_exists_ok_of_error e) (not_exists_ok_of_error e')
  · exact iff_of_true ⟨a, rfl⟩ ⟨b, rfl⟩

end Agree

theorem Agree.eq_of_not_ok {R : α → α → Prop} {y : Except ε α} (h : Agree Eq R x y)
    (hx : ¬ ∃ a, x = .ok a) : x = y := by
  rcases h.dest with ⟨e, e', rfl, rfl, rfl⟩ | ⟨a, b, rfl, -⟩
  · rfl
  · exact absurd ⟨a, rfl⟩ hx

/-- Loops agree whose steps agree on related states. -/
theorem Agree.foldlM {τ : Type v} {E : ε → ε → Prop} {R : σ → τ → Prop} {g : τ → α → Except ε τ}
    (hstep : ∀ s t, R s t → ∀ x ∈ l, Agree E R (f s x) (g t x)) {s : σ} {t : τ} (h : R s t) :
    Agree E R (l.foldlM f s) (l.foldlM g t) := by
  induction l generalizing s t with
  | nil => exact h
  | cons x xs ih =>
    rw [foldlM_cons, foldlM_cons]
    apply Agree.bind (hstep s t h x mem_cons_self)
    intro s' t' h'
    exact ih (fun s t h y hy => hstep s t h y (mem_cons_of_mem x hy)) h'

end Sesame.Lib
