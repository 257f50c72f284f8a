/-
# Lists that agree key by key

A program that files elements under keys and then visits the keys in an order of its
own returns a list whose order is fixed for each key only. Two such lists agree key by
key: under every key they hold related elements, in the same order. That is enough for
whatever reads the last element of a key, also when the key it reads is a finer one.
-/

import Mathlib.Data.List.Forall2

namespace Sesame.Lib

open List

universe u v w

variable {α : Type u} {κ : Type v} {ι : Type w} [DecidableEq κ] [DecidableEq ι]

/-- Two lists hold related elements under every key, in the same order. -/
def SameByKey (key : α → κ) (R : α → α → Prop) (l l' : List α) : Prop :=
  ∀ k, Forall₂ R (l.filter fun a => key a = k) (l'.filter fun a => key a = k)

variable {key : α → κ} {R : α → α → Prop} {l' l : List α}

theorem SameByKey.append {m m' : List α} (h : SameByKey key R l l') (hm : SameByKey key R m m') :
    SameByKey key R (l ++ m) (l' ++ m') := by
  intro k
  rw [filter_append, filter_append]
  exact rel_append (h k) (hm k)

end Sesame.Lib
