/-
# Lua tokens

The lexical rules of Lua for names, decimal integers, double-quoted strings, line comments
and symbols; a text with a literal or a comment of another form has no tokens. `Lexes` reads
a text token by token up to a part that is not known, so that the text that a template
produces can be lexed piece by piece.
-/

import Mathlib.Data.List.Basic
import Mathlib.Data.List.Find
import Mathlib.Data.List.TakeWhile
import Sesame.Lib.Lua

namespace Sesame.Lib.Lua

open List

variable {after a : List Char} {c d : Char}

/-! ## Tokens -/

inductive Keyword
  | and_ | break_ | do_ | else_ | elseif_ | end_ | false_ | for_ | function_ | if_ | in_ | local_
  | nil_ | not_ | or_ | repeat_ | return_ | then_ | true_ | until_ | while_
  deriving DecidableEq

def keywords : List (List Char × Keyword) :=
  [(['a', 'n', 'd'], .and_), (['b', 'r', 'e', 'a', 'k'], .break_), (['d', 'o'], .do_),
    (['e', 'l', 's', 'e'], .else_), (['e', 'l', 's', 'e', 'i', 'f'], .elseif_),
    (['e', 'n', 'd'], .end_), (['f', 'a', 'l', 's', 'e'], .false_), (['f', 'o', 'r'], .for_),
    (['f', 'u', 'n', 'c', 't', 'i', 'o', 'n'], .function_), (['i', 'f'], .if_), (['i', 'n'], .in_),
    (['l', 'o', 'c', 'a', 'l'], .local_), (['n', 'i', 'l'], .nil_), (['n', 'o', 't'], .not_),
    (['o', 'r'], .or_), (['r', 'e', 'p', 'e', 'a', 't'], .repeat_),
    (['r', 'e', 't', 'u', 'r', 'n'], .return_), (['t', 'h', 'e', 'n'], .then_),
    (['t', 'r', 'u', 'e'], .true_), (['u', 'n', 't', 'i', 'l'], .until_),
    (['w', 'h', 'i', 'l', 'e'], .while_)]

/-- The operators and the other punctuation. -/
inductive Symbol
  | plus | minus | times | divide | modulo | power | length | equal | notEqual | atMost | atLeast
  | less | greater | assign | openParen | closeParen | openBrace | closeBrace | openBracket
  | closeBracket | semicolon | colon | comma | dot | concat | varargs
  deriving DecidableEq

/-- The text of each symbol; one that starts with another comes before it. -/
def symbols : List (List Char × Symbol) :=
  [(['.', '.', '.'], .varargs), (['.', '.'], .concat), (['.'], .dot), (['=', '='], .equal),
    (['='], .assign), (['~', '='], .notEqual), (['<', '='], .atMost), (['<'], .less),
    (['>', '='], .atLeast), (['>'], .greater), (['+'], .plus), (['-'], .minus), (['*'], .times),
    (['/'], .divide), (['%'], .modulo), (['^'], .power), (['#'], .length), (['('], .openParen),
    ([')'], .closeParen), (['{'], .openBrace), (['}'], .closeBrace), (['['], .openBracket),
    ([']'], .closeBracket), ([';'], .semicolon), ([':'], .colon), ([','], .comma)]

inductive Token
  | name (text : String)
  | keyword (k : Keyword)
  | number (value : Nat)
  | string (value : String)
  | symbol (s : Symbol)
  deriving DecidableEq

/-! ## The lexer -/

def isSpace (c : Char) : Bool := c = ' ' || c = '\t' || c = '\n' || c = '\r'

def isNameStart (c : Char) : Bool := c.isAlpha || c = '_'

def isNameChar (c : Char) : Bool := c.isAlphanum || c = '_'

/-- A reserved word or a name. -/
def wordToken (word : List Char) : Token :=
  match keywords.lookup word with
  | some k => .keyword k
  | none => .name (String.ofList word)

/-- The symbol at the start of a text and what follows it. -/
def symbolOf (text : List Char) : Option (Symbol × List Char) :=
  (symbols.find? fun e => e.1.isPrefixOf text).map fun e => (e.2, text.drop e.1.length)

/-- One step of the lexer on a text that starts with a character: the token read, unless it is
space or a comment, and what follows. -/
def nextToken (c : Char) (rest : List Char) : Option (Option Token × List Char) :=
  if isSpace c then some (none, rest)
  else if c.isDigit then
    let digits := c :: rest.takeWhile isNameChar
    let after := rest.dropWhile isNameChar
    if digits.all Char.isDigit ∧ after.head? ≠ some '.' then
      some (some (.number (digits.foldl (fun n d => 10 * n + (d.toNat - '0'.toNat)) 0)), after)
    else none
  else if isNameStart c then
    some (some (wordToken (c :: rest.takeWhile isNameChar)), rest.dropWhile isNameChar)
  else if c = '"' then
    (scan rest).map fun r => (some (.string (String.ofList r.1)), r.2)
  else if c = '-' ∧ rest.head? = some '-' then
    if rest.tail.head? = some '[' then none else some (none, rest.dropWhile (· ≠ '\n'))
  else if c = '[' ∧ (rest.head? = some '[' ∨ rest.head? = some '=') then none
  else (symbolOf (c :: rest)).map fun r => (some (.symbol r.1), r.2)

/-- The tokens of a text, with fuel for the steps. -/
def lexFrom : Nat → List Char → Option (List Token)
  | _, [] => some []
  | 0, _ :: _ => none
  | fuel + 1, c :: rest =>
    match nextToken c rest with
    | none => none
    | some (token, after) => (lexFrom fuel after).map (token.toList ++ ·)

/-- The tokens of a text. Every step reads a character, so its length is enough fuel. -/
def lex (text : List Char) : Option (List Token) := lexFrom text.length text

/-! ## Steps -/

theorem symbolOf_eq_some {text : List Char} {s : Symbol} (h : symbolOf text = some (s, after)) :
    ∃ symbol, (symbol, s) ∈ symbols ∧ text = symbol ++ after := by
  obtain ⟨⟨symbol, s'⟩, hfind, heq⟩ := Option.map_eq_some_iff.mp h
  cases heq
  have hstart : symbol.isPrefixOf text = true := find?_some
    (p := fun e : List Char × Symbol => e.1.isPrefixOf text) hfind
  obtain ⟨after, rfl⟩ := isPrefixOf_iff_prefix.mp hstart
  exact ⟨symbol, mem_of_find?_eq_some hfind, by simp⟩

theorem symbol_ne_nil : ∀ e ∈ symbols, e.1 ≠ [] := by
  decide

theorem suffix_nextToken {rest : List Char} {token : Option Token}
    (h : nextToken c rest = some (token, after)) : after <:+ rest := by
  unfold nextToken at h
  dsimp only at h
  split at h
  · cases h
    exact suffix_rfl
  split at h
  · split at h
    · cases h
      exact dropWhile_suffix _
    · cases h
  split at h
  · cases h
    exact dropWhile_suffix _
  split at h
  · obtain ⟨⟨v, r⟩, hscan, heq⟩ := Option.map_eq_some_iff.mp h
    cases heq
    exact suffix_scanBody hscan
  split at h
  · split at h
    · cases h
    · cases h
      exact dropWhile_suffix _
  split at h
  · cases h
  obtain ⟨⟨s, after'⟩, hsymbol, heq⟩ := Option.map_eq_some_iff.mp h
  cases heq
  obtain ⟨symbol, hmem, htext⟩ := symbolOf_eq_some hsymbol
  cases symbol with
  | nil => exact absurd rfl (symbol_ne_nil _ hmem)
  | cons d symbol =>
    rw [(cons.inj htext).2]
    exact suffix_append symbol after'

theorem lexFrom_of_le {fuel fuel' : Nat} {text : List Char} (hfuel : text.length ≤ fuel)
    (hfuel' : text.length ≤ fuel') : lexFrom fuel text = lexFrom fuel' text := by
  induction fuel generalizing fuel' text with
  | zero =>
    obtain rfl := length_eq_zero_iff.mp (Nat.le_zero.mp hfuel)
    cases fuel' <;> rfl
  | succ fuel ih =>
    cases text with
    | nil => cases fuel' <;> rfl
    | cons c rest =>
      obtain ⟨fuel', rfl⟩ := Nat.exists_eq_add_one_of_ne_zero (Nat.ne_zero_of_lt hfuel')
      rw [lexFrom, lexFrom]
      cases hstep : nextToken c rest with
      | none => rfl
      | some r =>
        obtain ⟨token, after⟩ := r
        have hshorter : after.length ≤ rest.length := (suffix_nextToken hstep).length_le
        dsimp only
        rw [ih (hshorter.trans (Nat.le_of_succ_le_succ hfuel))
          (hshorter.trans (Nat.le_of_succ_le_succ hfuel'))]

theorem lex_cons (c : Char) (rest : List Char) :
    lex (c :: rest) =
      match nextToken c rest with
      | none => none
      | some (token, after) => (lex after).map (token.toList ++ ·) := by
  rw [lex, length_cons, lexFrom]
  cases hstep : nextToken c rest with
  | none => rfl
  | some r =>
    obtain ⟨token, after⟩ := r
    dsimp only
    rw [lex, lexFrom_of_le (suffix_nextToken hstep).length_le (Nat.le_refl _)]

/-! ## Texts in front of others -/

/-- A text that starts with tokens and goes on with `b`. -/
def Lexes (text : List Char) (tokens : List Token) (b : List Char) : Prop :=
  lex text = (lex b).map (tokens ++ ·)

namespace Lexes

variable {rest b : List Char} {t : Token} {tokens : List Token}

theorem nil : Lexes b [] b := by
  simp [Lexes]

theorem space (h : nextToken c rest = some (none, after)) (hafter : Lexes after tokens b) :
    Lexes (c :: rest) tokens b := by
  rw [Lexes, lex_cons, h]
  dsimp only
  rw [hafter, Option.map_map]
  rfl

theorem token (h : nextToken c rest = some (some t, after)) (hafter : Lexes after tokens b) :
    Lexes (c :: rest) (t :: tokens) b := by
  rw [Lexes, lex_cons, h]
  dsimp only
  rw [hafter, Option.map_map]
  rfl

end Lexes

/-- A fixed text in front of others. Its characters are compared as a list, which is how a
literal is stored. -/
theorem lex_text {text : String} {chars b : List Char} {tokens : List Token}
    (htext : text = String.ofList chars) (h : Lexes (chars ++ b) tokens b) :
    lex (text.toList ++ b) = (lex b).map (tokens ++ ·) := by
  rw [htext, String.toList_ofList]
  exact h

/-- A word of name characters in front of another character is one token. -/
theorem lex_word {w b : List Char} (hspace : isSpace c = false) (hdigit : c.isDigit = false)
    (hstart : isNameStart c = true) (hw : ∀ d ∈ w, isNameChar d = true)
    (hb : ∀ d, b.head? = some d → isNameChar d = false) :
    lex (c :: w ++ b) = (lex b).map (wordToken (c :: w) :: ·) := by
  have hnone : b.takeWhile isNameChar = [] ∧ b.dropWhile isNameChar = b := by
    cases b with
    | nil => exact ⟨rfl, rfl⟩
    | cons d rest => simp [hb d rfl]
  have htake : (w ++ b).takeWhile isNameChar = w := by
    rw [takeWhile_append_of_pos hw, hnone.1, append_nil]
  have hdrop : (w ++ b).dropWhile isNameChar = b := by
    rw [dropWhile_append_of_pos hw, hnone.2]
  rw [cons_append, lex_cons, nextToken]
  simp [hspace, hdigit, hstart, htake, hdrop]

/-- A quote starts a literal. -/
theorem lex_quote (rest : List Char) :
    lex ('"' :: rest) =
      (scan rest).bind fun r => (lex r.2).map (.string (String.ofList r.1) :: ·) := by
  have hstep : nextToken '"' rest =
      (scan rest).map fun r => (some (.string (String.ofList r.1)), r.2) := rfl
  rw [lex_cons, hstep]
  cases scan rest <;> rfl

end Sesame.Lib.Lua
