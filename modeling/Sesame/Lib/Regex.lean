/-
# Regular expressions as text

The meaning of the text of a regular expression, for texts that are built from
characters, `.`, escaped characters, classes of characters and ranges, groups that capture
or not, `*` and `?`, with an optional `^` in front. A match is a match of the whole input,
so that the `^` says nothing. `ofText` reads a text from left to right into a
`RegularExpression`; a text outside the fragment has no meaning here.
-/

import Mathlib.Computability.RegularExpressions

namespace Sesame.Lib.Regex

open List

open RegularExpression

/-! ## Classes of characters -/

def range (a b : Char) : List Char :=
  ((range' a.toNat (b.toNat + 1 - a.toNat)).filter fun n => Nat.isValidChar n).map Char.ofNat

theorem mem_range {a b c : Char} : c ∈ range a b ↔ a.toNat ≤ c.toNat ∧ c.toNat ≤ b.toNat := by
  rw [range, mem_map]
  constructor
  · rintro ⟨n, hn, rfl⟩
    obtain ⟨hmem, hvalid⟩ := mem_filter.mp hn
    have htoNat : (Char.ofNat n).toNat = n := by
      rw [Char.ofNat, dif_pos (of_decide_eq_true hvalid)]
      rfl
    rw [mem_range'_1] at hmem
    omega
  · rintro ⟨hfirst, hlast⟩
    refine ⟨c.toNat, mem_filter.mpr ⟨?_, decide_eq_true c.valid⟩, Char.ofNat_toNat c⟩
    rw [mem_range'_1]
    omega

def oneOf (chars : List Char) : RegularExpression Char := (chars.map char).sum

theorem mem_oneOf {chars w : List Char} : w ∈ (oneOf chars).matches' ↔ ∃ c ∈ chars, w = [c] := by
  induction chars with
  | nil => simp [oneOf]
  | cons c chars ih =>
    rw [oneOf, map_cons, sum_cons, matches'_add, Language.mem_add, ← oneOf, ih, exists_mem_cons_iff]
    rfl

theorem mem_star_oneOf {chars w : List Char} :
    w ∈ (oneOf chars).star.matches' ↔ ∀ c ∈ w, c ∈ chars := by
  rw [matches'_star, Language.mem_kstar]
  constructor
  · rintro ⟨words, rfl, hwords⟩ c hc
    obtain ⟨word, hword, hc⟩ := mem_flatten.mp hc
    obtain ⟨d, hd, rfl⟩ := mem_oneOf.mp (hwords word hword)
    rwa [mem_singleton.mp hc]
  · intro h
    refine ⟨w.map fun c => [c], by rw [← flatMap_def, flatMap_singleton'], ?_⟩
    intro word hword
    obtain ⟨c, hc, rfl⟩ := mem_map.mp hword
    exact mem_oneOf.mpr ⟨c, h c hc, rfl⟩

/-- Any character but a newline. -/
def dot : RegularExpression Char :=
  oneOf ((range (Char.ofNat 0) (Char.ofNat 0x10FFFF)).filter (· ≠ '\n'))

theorem mem_star_dot {w : List Char} : w ∈ dot.star.matches' ↔ '\n' ∉ w := by
  have hall : ∀ c : Char, c ∈ range (Char.ofNat 0) (Char.ofNat 0x10FFFF) := by
    intro c
    have hfirst : (Char.ofNat 0).toNat = 0 := rfl
    have hlast : (Char.ofNat 0x10FFFF).toNat = 0x10FFFF := rfl
    have hvalid : c.toNat < 0xD800 ∨ 0xDFFF < c.toNat ∧ c.toNat < 0x110000 := c.valid
    rw [mem_range, hfirst, hlast]
    omega
  rw [dot, mem_star_oneOf]
  constructor
  · intro h hnewline
    have hkept := (mem_filter.mp (h '\n' hnewline)).2
    simp at hkept
  · intro h c hc
    refine mem_filter.mpr ⟨hall c, decide_eq_true ?_⟩
    rintro rfl
    exact h hc

/-! ## Reading a text -/

/-- The characters that do not stand for themselves. -/
def isOperator (c : Char) : Bool :=
  c ∈ ['\\', '.', '+', '*', '?', '(', ')', '|', '[', ']', '\x7b', '\x7d', '^', '$']

/-- Where in a text the reader is: `opened` and `flagged` are after the `(` of a group and
after its `(?`. Within a class, `last` is a character that may start a range. -/
inductive Mode
  | text
  | escaped
  | opened
  | flagged
  | class (chars : List Char) (last : Option Char)
  | classEscaped (chars : List Char)
  | range (chars : List Char) (first : Char)

/-- The reader: the expression of the innermost open group is `front` followed by `last`,
and `outer` holds those of the groups around it. -/
structure Reader where
  mode : Mode := .text
  outer : List (RegularExpression Char × RegularExpression Char) := []
  front : RegularExpression Char := 1
  last : RegularExpression Char := 1

namespace Reader

def add (r : Reader) (e : RegularExpression Char) : Reader :=
  { r with
    mode := .text
    front := r.front * r.last
    last := e }

/-- Read a character outside of classes. -/
def readText (r : Reader) (c : Char) : Option Reader :=
  if c = '\\' then some { r with mode := .escaped }
  else if c = '[' then some { r with mode := .class [] none }
  else if c = '(' then
    some { r with
      mode := .opened
      outer := (r.front, r.last) :: r.outer
      front := 1
      last := 1 }
  else if c = ')' then
    match r.outer with
    | [] => none
    | (front, last) :: outer =>
      some { r with
        outer
        front := front * last
        last := r.front * r.last }
  else if c = '*' then some { r with last := r.last.star }
  else if c = '?' then some { r with last := r.last + 1 }
  else if c = '.' then some (r.add dot)
  else if isOperator c then none
  else some (r.add (char c))

def readClass (r : Reader) (chars : List Char) (last : Option Char) (c : Char) : Option Reader :=
  if c = ']' then some (r.add (oneOf (chars ++ last.toList)))
  else if c = '\\' then some { r with mode := .classEscaped (chars ++ last.toList) }
  else if c = '-' ∧ (chars ≠ [] ∨ last.isSome) then
    last.map fun first => { r with mode := .range chars first }
  else if isOperator c then none
  else some { r with mode := .class (chars ++ last.toList) (some c) }

def read (r : Reader) (c : Char) : Option Reader :=
  match r.mode with
  | .text => r.readText c
  | .escaped => if isOperator c then some (r.add (char c)) else none
  | .opened =>
    if c = '?' then some { r with mode := .flagged }
    else if c = '*' then none
    else { r with mode := .text }.readText c
  | .flagged => if c = ':' then some { r with mode := .text } else none
  | .class chars last => r.readClass chars last c
  | .classEscaped chars =>
    if isOperator c ∨ c = '/' then some { r with mode := .class chars (some c) } else none
  | .range chars first =>
    if c = ']' then some (r.add (oneOf (chars ++ [first, '-'])))
    else if isOperator c then none
    else some { r with mode := .class (chars ++ Regex.range first c) none }

def done (r : Reader) : Option (RegularExpression Char) :=
  match r.mode, r.outer with
  | .text, [] => some (r.front * r.last)
  | _, _ => none

end Reader

/-- A text without its `^`. -/
def body (text : List Char) : List Char :=
  if text.head? = some '^' then text.tail else text

theorem body_append {text : List Char} (h : text ≠ []) (rest : List Char) :
    body (text ++ rest) = body text ++ rest := by
  rw [body, body, head?_append_of_ne_nil _ h]
  split
  · exact tail_append_of_ne_nil h
  · rfl

def ofText (text : List Char) : Option (RegularExpression Char) :=
  (body text).foldlM Reader.read {} >>= Reader.done

/-- The text of an expression matches a whole input. -/
def FullMatch (text input : List Char) : Prop := ∃ e, ofText text = some e ∧ input ∈ e.matches'

/-! ## Escaped texts -/

/-- A text in which operators are escaped. -/
def escape (s : List Char) : List Char := s.flatMap fun c => if isOperator c then ['\\', c] else [c]

/-- An escaped text is read as its characters. -/
theorem read_escape (s : List Char) (r : Reader) (hr : r.mode = .text) :
    (escape s).foldlM Reader.read r = some (s.foldl (fun r c => r.add (char c)) r) := by
  induction s generalizing r with
  | nil => rfl
  | cons c s ih =>
    have hread : (if isOperator c then ['\\', c] else [c]).foldlM Reader.read r =
        some (r.add (char c)) := by
      obtain ⟨mode, outer, front, last⟩ := r
      cases hr
      split
      · next hoperator =>
        have hescaped : Reader.read ⟨.escaped, outer, front, last⟩ c =
            some (Reader.add ⟨.text, outer, front, last⟩ (char c)) := by
          rw [Reader.read, if_pos hoperator]
          rfl
        calc
          _ = Reader.read ⟨.escaped, outer, front, last⟩ c >>= some := rfl
          _ = _ := by rw [hescaped]; rfl
      · next hplain =>
        have hne : ∀ d, isOperator d = true → c ≠ d := by
          rintro d hd rfl
          exact hplain hd
        have hread : Reader.read ⟨.text, outer, front, last⟩ c =
            some (Reader.add ⟨.text, outer, front, last⟩ (char c)) := by
          rw [Reader.read, Reader.readText, if_neg (hne _ rfl), if_neg (hne _ rfl),
            if_neg (hne _ rfl), if_neg (hne _ rfl), if_neg (hne _ rfl), if_neg (hne _ rfl),
            if_neg (hne _ rfl), if_neg hplain]
        rw [foldlM_cons, hread]
        rfl
    rw [escape, flatMap_cons, foldlM_append, hread, foldl_cons]
    exact ih _ rfl

/-- What the characters of a text add to the language. -/
theorem matches_foldl_add (s : List Char) (r : Reader) :
    ((s.foldl (fun r c => r.add (char c)) r).front *
      (s.foldl (fun r c => r.add (char c)) r).last).matches' =
      (r.front * r.last).matches' * {s} := by
  induction s generalizing r with
  | nil => exact (mul_one _).symm
  | cons c s ih =>
    rw [foldl_cons, ih, Reader.add, matches'_mul (r.front * r.last), matches'_char, mul_assoc]
    congr 1
    ext w
    rw [Language.mem_mul]
    constructor
    · rintro ⟨_, rfl, _, rfl, rfl⟩
      rfl
    · rintro rfl
      exact ⟨[c], rfl, s, rfl, rfl⟩

theorem done_foldl_add (s : List Char) (r : Reader) (hmode : r.mode = .text)
    (houter : r.outer = []) :
    (s.foldl (fun r c => r.add (char c)) r).done =
      some ((s.foldl (fun r c => r.add (char c)) r).front *
        (s.foldl (fun r c => r.add (char c)) r).last) := by
  induction s generalizing r with
  | nil =>
    obtain ⟨mode, outer, front, last⟩ := r
    cases hmode
    cases houter
    rfl
  | cons c s ih => exact ih (r.add (char c)) rfl houter

/-- An escaped text after a text that `r` has read is appended to every match. -/
theorem fullMatch_append_escape {text : List Char} {r : Reader}
    (hread : (body text).foldlM Reader.read {} = some r)
    (hmode : r.mode = .text) (houter : r.outer = []) (htext : text ≠ []) (s input : List Char) :
    FullMatch (text ++ escape s) input ↔
      ∃ start ∈ (r.front * r.last).matches', input = start ++ s := by
  have hdone : ofText (text ++ escape s) =
      some ((s.foldl (fun r c => r.add (char c)) r).front *
        (s.foldl (fun r c => r.add (char c)) r).last) := by
    rw [ofText, body_append htext, foldlM_append, hread]
    exact (congrArg (· >>= Reader.done) (read_escape s r hmode)).trans
      (done_foldl_add s r hmode houter)
  rw [FullMatch, hdone]
  constructor
  · rintro ⟨_, ⟨⟩, hinput⟩
    rw [matches_foldl_add, Language.mem_mul] at hinput
    obtain ⟨start, hstart, _, rfl, rfl⟩ := hinput
    exact ⟨start, hstart, rfl⟩
  · rintro ⟨start, hstart, rfl⟩
    refine ⟨_, rfl, ?_⟩
    rw [matches_foldl_add, Language.mem_mul]
    exact ⟨start, hstart, s, rfl, rfl⟩

/-- A text that is read as one expression, whatever was read before it, after an escaped
text. -/
theorem fullMatch_escape_append {e : RegularExpression Char} {more : List Char}
    (hmore : ∀ r : Reader, r.mode = .text → more.foldlM Reader.read r =
      some { r with
        front := r.front * r.last
        last := e }) (s input : List Char) :
    FullMatch ('^' :: (escape s ++ more)) input ↔ ∃ rest ∈ e.matches', input = s ++ rest := by
  have hmode : (s.foldl (fun r c => r.add (char c)) ({} : Reader)).mode = .text :=
    foldlRecOn s _ (motive := fun r : Reader => r.mode = .text) rfl fun _ _ _ _ => rfl
  have houter : (s.foldl (fun r c => r.add (char c)) ({} : Reader)).outer = [] :=
    foldlRecOn s _ (motive := fun r : Reader => r.outer = []) rfl fun _ h _ _ => h
  have hlanguage : ((s.foldl (fun r c => r.add (char c)) ({} : Reader)).front *
      (s.foldl (fun r c => r.add (char c)) ({} : Reader)).last).matches' = {s} := by
    rw [matches_foldl_add, matches'_mul, matches'_epsilon, one_mul, one_mul]
  have hread : ofText ('^' :: (escape s ++ more)) =
      some ((s.foldl (fun r c => r.add (char c)) ({} : Reader)).front *
        (s.foldl (fun r c => r.add (char c)) ({} : Reader)).last * e) := by
    have hbody : body ('^' :: (escape s ++ more)) = escape s ++ more := rfl
    rw [ofText, hbody, foldlM_append, read_escape s {} rfl]
    simp only [Option.bind_eq_bind, Option.bind_some, hmore _ hmode, Reader.done, hmode, houter]
  rw [FullMatch, hread]
  constructor
  · rintro ⟨_, ⟨⟩, hinput⟩
    rw [matches'_mul, hlanguage, Language.mem_mul] at hinput
    obtain ⟨_, rfl, rest, hrest, rfl⟩ := hinput
    exact ⟨rest, hrest, rfl⟩
  · rintro ⟨rest, hrest, rfl⟩
    refine ⟨_, rfl, ?_⟩
    rw [matches'_mul, hlanguage, Language.mem_mul]
    exact ⟨s, rfl, rest, hrest, rfl⟩

end Sesame.Lib.Regex
