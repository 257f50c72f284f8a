/-
# Lua string literals

The lexical rules for double-quoted strings: what a literal denotes and where it
ends. A character stands for one byte.
-/

import Mathlib.Data.List.TakeWhile

namespace Sesame.Lib.Lua

open List

variable {c : Char} {fuel : Nat} {text rest after v r : List Char} {o : Option Char}

/-- The escapes that are one character after the backslash. -/
def simpleEscape (c : Char) : Option Char :=
  if c = 'a' then some (Char.ofNat 7)
  else if c = 'b' then some (Char.ofNat 8)
  else if c = 'f' then some (Char.ofNat 12)
  else if c = 'n' then some '\n'
  else if c = 'r' then some '\r'
  else if c = 't' then some '\t'
  else if c = 'v' then some (Char.ofNat 11)
  else if c = '\\' ∨ c = '"' ∨ c = '\x27' ∨ c = '\n' then some c
  else none

/-- The value of the up to three decimal digits at the start of a text, and the
number of digits. -/
def decimalEscape (text : List Char) : Option (Char × Nat) :=
  let digits := (text.take 3).takeWhile Char.isDigit
  let value := digits.foldl (fun n d => 10 * n + (d.toNat - '0'.toNat)) 0
  if digits = [] ∨ 256 ≤ value then none else some (Char.ofNat value, digits.length)

/-- One step inside a literal: the character denoted, or none at the closing quote, and
what follows. -/
def scanStep (c : Char) (rest : List Char) : Option (Option Char × List Char) :=
  if c = '"' then some (none, rest)
  else if c = '\n' then none
  else if c = '\\' then
    match rest with
    | [] => none
    | e :: rest' =>
      match simpleEscape e, decimalEscape rest with
      | some d, _ => some (some d, rest')
      | none, some (d, n) => some (some d, rest.drop n)
      | none, none => none
  else some (some c, rest)

/-- Read the text after an opening quote up to the closing one: what it denotes
and what follows. Every step reads a character, so the length of the text is
enough fuel. -/
def scanBody : Nat → List Char → Option (List Char × List Char)
  | 0, _ => none
  | _ + 1, [] => none
  | fuel + 1, c :: rest =>
    match scanStep c rest with
    | none => none
    | some (none, after) => some ([], after)
    | some (some d, after) => (scanBody fuel after).map fun r => (d :: r.1, r.2)

/-- The value of an expression that is one double-quoted literal. -/
def literalValue : List Char → Option (List Char)
  | '"' :: body =>
    match scanBody body.length body with
    | some (value, []) => some value
    | _ => none
  | _ => none

/-- A character that stands for itself inside a double-quoted literal. -/
def Plain (c : Char) : Prop := c ≠ '"' ∧ c ≠ '\n' ∧ c ≠ '\\'
  deriving Decidable

/-- Lower-casing leaves a character or gives one of `a` to `z`. -/
theorem toLower_cases (c : Char) :
    c.toLower = c ∨ 97 ≤ c.toLower.val.toNat ∧ c.toLower.val.toNat ≤ 122 := by
  by_cases h : c.val ≥ 'A'.val ∧ c.val ≤ 'Z'.val
  · right
    have hlow : 65 ≤ c.val.toNat := h.1
    have hhigh : c.val.toNat ≤ 90 := h.2
    have hval : c.toLower.val.toNat = c.val.toNat + 32 := by
      delta Char.toLower
      rw [dif_pos h]
      rw [UInt32.toNat_add]
      exact Nat.mod_eq_of_lt (show c.val.toNat + 32 < 2 ^ 32 by omega)
    omega
  · left
    delta Char.toLower
    rw [dif_neg h]

theorem Plain.toLower (h : Plain c) : Plain c.toLower := by
  rcases toLower_cases c with hsame | hletter
  · rw [hsame]
    exact h
  · refine ⟨?_, ?_, ?_⟩ <;>
    · intro heq
      rw [heq] at hletter
      revert hletter
      decide

theorem scanBody_plain {value : List Char} (hplain : ∀ c ∈ value, Plain c) (rest : List Char)
    (hfuel : value.length < fuel) : scanBody fuel (value ++ '"' :: rest) = some (value, rest) := by
  induction value generalizing fuel with
  | nil =>
    obtain ⟨fuel, rfl⟩ := Nat.exists_eq_add_one_of_ne_zero (Nat.ne_of_gt hfuel)
    simp [scanBody, scanStep]
  | cons c cs ih =>
    obtain ⟨fuel, rfl⟩ := Nat.exists_eq_add_one_of_ne_zero (Nat.ne_zero_of_lt hfuel)
    obtain ⟨hquote, hnewline, hbackslash⟩ := hplain c mem_cons_self
    have hshorter : cs.length < fuel := by simpa using hfuel
    have hrest := ih (fun d hd => hplain d (mem_cons_of_mem c hd)) hshorter
    simp [scanBody, scanStep, hquote, hnewline, hbackslash, hrest]

/-- A literal of plain characters denotes them. -/
theorem literalValue_plain {value : List Char} (hplain : ∀ c ∈ value, Plain c) :
    literalValue ('"' :: value ++ ['"']) = some value := by
  have hfuel : value.length < (value ++ ['"']).length := by simp
  have hscan := scanBody_plain hplain [] hfuel
  simp only [cons_append, literalValue, hscan]

/-! ## Steps -/

/-- The digits of a decimal escape. -/
theorem decimalEscape_eq_some {d : Char} {n : Nat} (h : decimalEscape text = some (d, n)) :
    text.take n ≠ [] ∧ ∀ c ∈ text.take n, c.isDigit = true := by
  unfold decimalEscape at h
  dsimp only at h
  split at h
  · cases h
  rename_i hdigits
  cases h
  have hstart : _ <+: text.take 3 := takeWhile_prefix Char.isDigit
  have htake := prefix_iff_eq_take.mp <| hstart.trans <| take_prefix 3 text
  rw [← htake]
  exact ⟨fun hnil => hdigits (.inl hnil), fun c hc => mem_takeWhile_imp hc⟩

/-- What a step can do: close the literal, read a plain character, or read an escape. -/
theorem scanStep_cases (h : scanStep c rest = some (o, after)) :
    (c = '"' ∧ o = none ∧ after = rest) ∨ (Plain c ∧ o = some c ∧ after = rest) ∨
      ∃ d escape, c = '\\' ∧ o = some d ∧ rest = escape ++ after ∧
        ((∃ e, escape = [e]) ∨ escape ≠ [] ∧ ∀ e ∈ escape, e.isDigit = true) := by
  unfold scanStep at h
  split at h
  · next hquote =>
    cases h
    exact .inl ⟨hquote, rfl, rfl⟩
  rename_i hquote
  split at h
  · cases h
  rename_i hnewline
  split at h
  · next hbackslash =>
    refine .inr (.inr ?_)
    cases rest with
    | nil => cases h
    | cons e rest' =>
      dsimp only at h
      cases hsimple : simpleEscape e with
      | some d =>
        rw [hsimple] at h
        cases h
        exact ⟨d, [e], hbackslash, rfl, rfl, .inl ⟨e, rfl⟩⟩
      | none =>
        rw [hsimple] at h
        cases hdecimal : decimalEscape (e :: rest') with
        | none =>
          rw [hdecimal] at h
          cases h
        | some r =>
          rw [hdecimal] at h
          cases h
          obtain ⟨hne, hdigits⟩ := decimalEscape_eq_some hdecimal
          exact ⟨r.1, _, hbackslash, rfl,
            (take_append_drop r.2 (e :: rest')).symm, .inr ⟨hne, hdigits⟩⟩
  · next hbackslash =>
    cases h
    exact .inr (.inl ⟨⟨hquote, hnewline, hbackslash⟩, rfl, rfl⟩)

theorem suffix_scanStep (h : scanStep c rest = some (o, after)) : after <:+ rest := by
  rcases scanStep_cases h with ⟨-, -, rfl⟩ | ⟨-, -, rfl⟩ | ⟨d, escape, -, -, rfl, -⟩
  · exact suffix_rfl
  · exact suffix_rfl
  · exact suffix_append escape after

theorem suffix_scanBody (h : scanBody fuel text = some (v, r)) : r <:+ text := by
  induction fuel generalizing text v with
  | zero => cases h
  | succ fuel ih =>
    cases text with
    | nil => cases h
    | cons c rest =>
      rw [scanBody] at h
      cases hstep : scanStep c rest with
      | none =>
        rw [hstep] at h
        cases h
      | some s =>
        obtain ⟨o, after⟩ := s
        have hsuffix := (suffix_scanStep hstep).trans (suffix_cons c rest)
        rw [hstep] at h
        cases o with
        | none =>
          cases h
          exact hsuffix
        | some d =>
          obtain ⟨⟨v', r'⟩, hbody, heq⟩ := Option.map_eq_some_iff.mp h
          cases heq
          exact (ih hbody).trans hsuffix

/-- The length of a text is enough fuel. -/
theorem scanBody_of_le {fuel' : Nat} (hfuel : text.length ≤ fuel) (hfuel' : text.length ≤ fuel') :
    scanBody fuel text = scanBody fuel' text := by
  induction fuel generalizing fuel' text with
  | zero =>
    obtain rfl := length_eq_zero_iff.mp (Nat.le_zero.mp hfuel)
    cases fuel' <;> rfl
  | succ fuel ih =>
    cases text with
    | nil => cases fuel' <;> rfl
    | cons c rest =>
      obtain ⟨fuel', rfl⟩ := Nat.exists_eq_add_one_of_ne_zero (Nat.ne_zero_of_lt hfuel')
      rw [scanBody, scanBody]
      cases hstep : scanStep c rest with
      | none => rfl
      | some r =>
        obtain ⟨o, after⟩ := r
        have hshorter : after.length ≤ rest.length := (suffix_scanStep hstep).length_le
        have hsame := ih (hshorter.trans (Nat.le_of_succ_le_succ hfuel))
          (hshorter.trans (Nat.le_of_succ_le_succ hfuel'))
        cases o with
        | none => rfl
        | some d =>
          dsimp only
          rw [hsame]

/-- `scanBody` with enough fuel. -/
def scan (text : List Char) : Option (List Char × List Char) := scanBody text.length text

theorem scan_cons (c : Char) (rest : List Char) :
    scan (c :: rest) =
      match scanStep c rest with
      | none => none
      | some (none, after) => some ([], after)
      | some (some d, after) => (scan after).map fun r => (d :: r.1, r.2) := by
  rw [scan, length_cons, scanBody]
  cases hstep : scanStep c rest with
  | none => rfl
  | some r =>
    obtain ⟨o, after⟩ := r
    cases o with
    | none => rfl
    | some d =>
      dsimp only
      rw [scan, scanBody_of_le ((suffix_scanStep hstep).length_le) (Nat.le_refl _)]

theorem scan_plain_append (hplain : ∀ c ∈ v, Plain c) (rest : List Char) :
    scan (v ++ rest) = (scan rest).map fun r => (v ++ r.1, r.2) := by
  induction v with
  | nil => simp
  | cons c v ih =>
    obtain ⟨⟨hquote, hnewline, hbackslash⟩, hv⟩ := forall_mem_cons.mp hplain
    have hstep : scanStep c (v ++ rest) = some (some c, v ++ rest) := by
      rw [scanStep.eq_def, if_neg hquote, if_neg hnewline, if_neg hbackslash]
    rw [cons_append, scan_cons, hstep]
    dsimp only
    rw [ih hv, Option.map_map]
    rfl

theorem scan_quote (rest : List Char) : scan ('"' :: rest) = some ([], rest) := by
  rw [scan_cons, scanStep.eq_def, if_pos rfl]

theorem scan_escaped_quote (rest : List Char) :
    scan ('\\' :: '"' :: rest) = (scan rest).map fun r => ('"' :: r.1, r.2) := by
  rw [scan_cons]
  rfl

/-- A literal that is followed by the end of its line denotes its own text only if all
characters of the text are plain. -/
theorem plain_of_scanBody {w b : List Char}
    (h : scanBody fuel (w ++ '"' :: '\n' :: b) = some (v, r)) :
    v.length ≤ w.length ∧ (v.length = w.length → ∀ c ∈ w, Plain c) := by
  induction fuel generalizing w v with
  | zero => cases h
  | succ fuel ih =>
    cases w with
    | nil =>
      rw [nil_append, scanBody, scanStep.eq_def, if_pos rfl] at h
      cases h
      exact ⟨Nat.le_refl _, fun _ c hc => by cases hc⟩
    | cons c w =>
      rw [cons_append, scanBody] at h
      cases hstep : scanStep c (w ++ '"' :: '\n' :: b) with
      | none =>
        rw [hstep] at h
        cases h
      | some s =>
        obtain ⟨o, after⟩ := s
        rw [hstep] at h
        rcases scanStep_cases hstep with ⟨-, rfl, -⟩ | ⟨hplain, rfl, rfl⟩ |
          ⟨d, escape, -, rfl, hescape, hkind⟩
        · cases h
          exact ⟨Nat.zero_le _, fun hlength => by cases hlength⟩
        · obtain ⟨⟨v', r'⟩, hbody, heq⟩ := Option.map_eq_some_iff.mp h
          cases heq
          obtain ⟨hle, hall⟩ := ih hbody
          refine ⟨Nat.succ_le_succ hle, fun hlength => ?_⟩
          exact forall_mem_cons.mpr ⟨hplain, hall (Nat.succ.inj hlength)⟩
        · obtain ⟨⟨v', r'⟩, hbody, heq⟩ := Option.map_eq_some_iff.mp h
          cases heq
          -- An escape takes more characters of the text than it denotes, and it cannot
          -- take the closing quote, since the line ends behind that.
          obtain ⟨w', rfl, rfl⟩ : ∃ w', w = escape ++ w' ∧ after = w' ++ '"' :: '\n' :: b := by
            rcases append_eq_append_iff.mp hescape with
              ⟨x, hx, htail⟩ | ⟨w', hw, hafter⟩
            · cases x with
              | nil =>
                rw [append_nil] at hx
                exact ⟨[], by rw [append_nil, hx], htail.symm⟩
              | cons q x =>
                obtain ⟨rfl, hafter⟩ : q = '"' ∧ '\n' :: b = x ++ after := by
                  rw [cons_append, cons.injEq] at htail
                  exact ⟨htail.1.symm, htail.2⟩
                exfalso
                rcases hkind with ⟨e, he⟩ | ⟨-, hdigits⟩
                · rw [hx] at he
                  have hlength := congrArg length he
                  have hx' : x = [] := by
                    rw [← length_eq_zero_iff]
                    simp only [length_append, length_cons, length_nil] at hlength
                    omega
                  rw [hx', nil_append] at hafter
                  rw [← hafter] at hbody
                  cases fuel with
                  | zero => cases hbody
                  | succ fuel =>
                    rw [scanBody] at hbody
                    cases hbody
                · have hquote := hdigits '"' (by rw [hx]; simp)
                  cases hquote
            · exact ⟨w', hw, hafter⟩
          have hne : escape ≠ [] := by
            rcases hkind with ⟨e, rfl⟩ | ⟨hne, -⟩
            · exact cons_ne_nil _ _
            · exact hne
          have hpos := length_pos_iff.mpr hne
          have hle := (ih hbody).1
          simp only [length_cons, length_append]
          constructor
          · omega
          · intro hlength
            omega

end Sesame.Lib.Lua
