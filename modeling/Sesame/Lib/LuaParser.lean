/-
# Lua programs

The part of Lua's grammar that generated code uses: assignments to one variable, calls,
functions with a name, `if` without `else`, `while`, `for` over an iterator and `return` of
one value; expressions with the precedences of the reference manual. A program outside that
part has no tree. As in Lua itself, the syntax may not nest deeper than a fixed number of
levels.
-/

import Sesame.Lib.LuaLexer

namespace Sesame.Lib.Lua

open List

inductive BinaryOp
  | or | and | less | greater | atMost | atLeast | notEqual | equal | concat | plus | minus | times
  | divide | modulo | power

/-- Expressions. `a.b` is an index with a string. -/
inductive Expr
  | nil
  | bool (value : Bool)
  | number (value : Nat)
  | string (value : String)
  | name (text : String)
  | emptyTable
  | index (table key : Expr)
  | call (f : Expr) (args : List Expr)
  | method (object : Expr) (name : String) (args : List Expr)
  | binary (op : BinaryOp) (left right : Expr)

/-- Statements. -/
inductive Statement
  | assign (target value : Expr)
  | local_ (name : String) (value : Expr)
  | call (e : Expr)
  | function (name : String) (params : List String) (body : List Statement)
  | ifThen (condition : Expr) (body : List Statement)
  | whileDo (condition : Expr) (body : List Statement)
  | forIn (names : List String) (values : List Expr) (body : List Statement)
  | return_ (value : Expr)

/-! ## Expressions -/

def binaryOp : Token → Option BinaryOp
  | .keyword .or_ => some .or
  | .keyword .and_ => some .and
  | .symbol .less => some .less
  | .symbol .greater => some .greater
  | .symbol .atMost => some .atMost
  | .symbol .atLeast => some .atLeast
  | .symbol .notEqual => some .notEqual
  | .symbol .equal => some .equal
  | .symbol .concat => some .concat
  | .symbol .plus => some .plus
  | .symbol .minus => some .minus
  | .symbol .times => some .times
  | .symbol .divide => some .divide
  | .symbol .modulo => some .modulo
  | .symbol .power => some .power
  | _ => none

def BinaryOp.left : BinaryOp → Nat
  | .or => 1
  | .and => 2
  | .less | .greater | .atMost | .atLeast | .notEqual | .equal => 3
  | .concat => 5
  | .plus | .minus => 6
  | .times | .divide | .modulo => 7
  | .power => 10

/-- The priority of an operator to its right; concatenation and powers group to the right. -/
def BinaryOp.right : BinaryOp → Nat
  | .concat => 4
  | .power => 9
  | op => op.left

/-- Take a token that has to be there. -/
def expect (t : Token) : List Token → Option (List Token)
  | [] => none
  | t' :: rest => if t' = t then some rest else none

/-! A parser returns what it read and the tokens behind it. -/

section Expressions

variable (expr : Nat → List Token → Option (Expr × List Token))

/-- Expressions separated by commas. The first argument bounds their number. -/
def exprList : Nat → List Token → Option (List Expr × List Token)
  | 0, _ => none
  | n + 1, tokens => do
      let (e, rest) ← expr 0 tokens
      match rest with
      | .symbol .comma :: rest => do
          let (es, rest) ← exprList n rest
          pure (e :: es, rest)
      | _ => pure ([e], rest)

/-- The arguments of a call, behind the opening parenthesis. -/
def arguments (tokens : List Token) : Option (List Expr × List Token) :=
  match tokens with
  | .symbol .closeParen :: rest => some ([], rest)
  | _ => do
      let (es, rest) ← exprList expr tokens.length tokens
      let rest ← expect (.symbol .closeParen) rest
      pure (es, rest)

/-- Fields, indices and calls behind an expression. -/
def suffixes : Nat → Expr → List Token → Option (Expr × List Token)
  | 0, _, _ => none
  | n + 1, e, tokens =>
    match tokens with
    | .symbol .dot :: .name field :: rest => suffixes n (.index e (.string field)) rest
    | .symbol .openBracket :: rest => do
        let (key, rest) ← expr 0 rest
        let rest ← expect (.symbol .closeBracket) rest
        suffixes n (.index e key) rest
    | .symbol .colon :: .name name :: .symbol .openParen :: rest => do
        let (args, rest) ← arguments expr rest
        suffixes n (.method e name args) rest
    | .symbol .openParen :: rest => do
        let (args, rest) ← arguments expr rest
        suffixes n (.call e args) rest
    | .string value :: rest => suffixes n (.call e [.string value]) rest
    | _ => some (e, tokens)

def simpleExpr (tokens : List Token) : Option (Expr × List Token) :=
  match tokens with
  | .keyword .nil_ :: rest => some (.nil, rest)
  | .keyword .true_ :: rest => some (.bool true, rest)
  | .keyword .false_ :: rest => some (.bool false, rest)
  | .number value :: rest => some (.number value, rest)
  | .string value :: rest => some (.string value, rest)
  | .symbol .openBrace :: .symbol .closeBrace :: rest => some (.emptyTable, rest)
  | .symbol .openParen :: rest => do
      let (e, rest) ← expr 0 rest
      let rest ← expect (.symbol .closeParen) rest
      suffixes expr (rest.length + 1) e rest
  | .name text :: rest => suffixes expr (rest.length + 1) (.name text) rest
  | _ => none

/-- The operators of a priority above the limit behind an expression. -/
def operators (limit : Nat) : Nat → Expr → List Token → Option (Expr × List Token)
  | 0, _, _ => none
  | n + 1, e, tokens =>
    match tokens.head?.bind binaryOp with
    | none => some (e, tokens)
    | some op =>
      if op.left ≤ limit then some (e, tokens)
      else do
        let (right, rest) ← expr op.right tokens.tail
        operators limit n (.binary op e right) rest

end Expressions

/-- An expression whose operators have a priority above the limit. The first argument bounds
the levels. -/
def parseExpr : Nat → Nat → List Token → Option (Expr × List Token)
  | 0, _, _ => none
  | depth + 1, limit, tokens => do
      let (e, rest) ← simpleExpr (parseExpr depth) tokens
      operators (parseExpr depth) limit (rest.length + 1) e rest

/-! ## Statements -/

/-- The names of a list, up to the token that ends it. -/
def nameList (stop : Token) : List Token → Option (List String × List Token)
  | .name text :: .symbol .comma :: rest => do
      let (names, rest) ← nameList stop rest
      pure (text :: names, rest)
  | .name text :: t :: rest => if t = stop then some ([text], rest) else none
  | _ => none

/-- The statements of a block, up to the token that ends it. The first argument bounds their
number. -/
def block (statement : List Token → Option (Statement × List Token))
    (expr : List Token → Option (Expr × List Token)) :
    Nat → List Token → Option (List Statement × List Token)
  | 0, _ => none
  | _ + 1, [] => some ([], [])
  | _ + 1, .keyword .end_ :: rest => some ([], .keyword .end_ :: rest)
  | _ + 1, .keyword .return_ :: rest => do
      let (e, rest) ← expr rest
      match rest with
      | [] => pure ([.return_ e], [])
      | .keyword .end_ :: _ => pure ([.return_ e], rest)
      | _ => none
  | n + 1, tokens => do
      let (s, rest) ← statement tokens
      let rest := if rest.head? = some (.symbol .semicolon) then rest.tail else rest
      let (ss, rest) ← block statement expr n rest
      pure (s :: ss, rest)

/-- One statement. The first argument bounds the levels. -/
def parseStatement : Nat → List Token → Option (Statement × List Token)
  | 0, _ => none
  | depth + 1, tokens =>
    let expr := parseExpr depth 0
    let body (tokens : List Token) : Option (List Statement × List Token) := do
      let (ss, rest) ← block (parseStatement depth) expr (tokens.length + 1) tokens
      let rest ← expect (.keyword .end_) rest
      pure (ss, rest)
    match tokens with
    | .keyword .local_ :: .name name :: .symbol .assign :: rest => do
        let (e, rest) ← expr rest
        pure (.local_ name e, rest)
    | .keyword .function_ :: .name name :: .symbol .openParen :: rest => do
        let (params, rest) ← nameList (.symbol .closeParen) rest
        let (ss, rest) ← body rest
        pure (.function name params ss, rest)
    | .keyword .if_ :: rest => do
        let (e, rest) ← expr rest
        let rest ← expect (.keyword .then_) rest
        let (ss, rest) ← body rest
        pure (.ifThen e ss, rest)
    | .keyword .while_ :: rest => do
        let (e, rest) ← expr rest
        let rest ← expect (.keyword .do_) rest
        let (ss, rest) ← body rest
        pure (.whileDo e ss, rest)
    | .keyword .for_ :: rest => do
        let (names, rest) ← nameList (.keyword .in_) rest
        let (es, rest) ← exprList (parseExpr depth) (rest.length + 1) rest
        let rest ← expect (.keyword .do_) rest
        let (ss, rest) ← body rest
        pure (.forIn names es ss, rest)
    | .name text :: rest => do
        let (e, rest) ← suffixes (parseExpr depth) (rest.length + 1) (.name text) rest
        match e, rest with
        | .call f args, _ => pure (.call (.call f args), rest)
        | .method object name args, _ => pure (.call (.method object name args), rest)
        | _, .symbol .assign :: rest => do
            let (value, rest) ← expr rest
            pure (.assign e value, rest)
        | _, _ => none
    | _ => none

/-- The levels of syntax that Lua allows. -/
def maxLevels : Nat := 200

def parseProgram (tokens : List Token) : Option (List Statement) :=
  match block (parseStatement maxLevels) (parseExpr maxLevels 0) (tokens.length + 1) tokens with
  | some (ss, []) => some ss
  | _ => none

/-- The statements of the program that a text spells. -/
def parse (text : List Char) : Option (List Statement) := (lex text).bind parseProgram

/-! ## Texts that spell statements -/

/-- A token that does not go on with an expression before it. -/
def startsAfresh : Token → Bool
  | .name _ => true
  | .keyword k => (binaryOp (.keyword k)).isNone
  | _ => false

/-- The tokens behind a statement start another one or end a block. -/
def Fresh (tokens : List Token) : Prop := ∃ t rest, tokens = t :: rest ∧ startsAfresh t = true

theorem binaryOp_of_startsAfresh {t : Token} (h : startsAfresh t = true) : binaryOp t = none := by
  cases t with
  | keyword k => exact Option.isNone_iff_eq_none.mp h
  | name _ => rfl
  | number _ => cases h
  | string _ => cases h
  | symbol _ => cases h

section Reading

variable {d l n : Nat} {tokens next rest : List Token}
variable {expr : Nat → List Token → Option (Expr × List Token)}

theorem operators_stop {e : Expr} (h : tokens.head?.bind binaryOp = none) :
    operators expr l (n + 1) e tokens = some (e, tokens) := by
  rw [operators, h]

theorem Fresh.binaryOp (h : Fresh next) : next.head?.bind binaryOp = none := by
  obtain ⟨t, rest, rfl, ht⟩ := h
  exact binaryOp_of_startsAfresh ht

theorem Fresh.suffixes (h : Fresh next) (e : Expr) :
    suffixes expr (n + 1) e next = some (e, next) := by
  obtain ⟨t, rest, rfl, ht⟩ := h
  cases t with
  | keyword k => rfl
  | name _ => rfl
  | number _ => cases ht
  | string _ => cases ht
  | symbol _ => cases ht

theorem parseExpr_string (v : String) (h : Fresh next) :
    parseExpr (d + 1) l (.string v :: next) = some (.string v, next) :=
  operators_stop h.binaryOp

theorem parseExpr_nil (h : Fresh next) :
    parseExpr (d + 1) l (.keyword .nil_ :: next) = some (.nil, next) :=
  operators_stop h.binaryOp

theorem parseExpr_emptyTable (h : Fresh next) :
    parseExpr (d + 1) l (.symbol .openBrace :: .symbol .closeBrace :: next) =
      some (.emptyTable, next) :=
  operators_stop h.binaryOp

theorem parseExpr_name (text : String) (h : Fresh next) :
    parseExpr (d + 1) l (.name text :: next) = some (.name text, next) := by
  have hname : simpleExpr (parseExpr d) (.name text :: next) = some (.name text, next) :=
    h.suffixes (.name text)
  rw [parseExpr, hname]
  exact operators_stop h.binaryOp

/-- An assignment to a variable. -/
theorem parseStatement_assign (variable_ : String) {value : Expr}
    (hvalue : parseExpr d 0 tokens = some (value, rest)) :
    parseStatement (d + 1) (.name variable_ :: .symbol .assign :: tokens) =
      some (.assign (.name variable_) value, rest) := by
  change (parseExpr d 0 tokens).bind
    (fun r => some (Statement.assign (.name variable_) r.1, r.2)) = _
  rw [hvalue]
  rfl

/-- An assignment to an entry of a table. -/
theorem parseStatement_assign_index (table key : String) {value : Expr}
    (hvalue : parseExpr (d + 1) 0 tokens = some (value, rest)) :
    parseStatement (d + 2)
      (.name table :: .symbol .openBracket :: .string key :: .symbol .closeBracket ::
        .symbol .assign :: tokens) =
      some (.assign (.index (.name table) (.string key)) value, rest) := by
  change (parseExpr (d + 1) 0 tokens).bind
    (fun r => some (Statement.assign (.index (.name table) (.string key)) r.1, r.2)) = _
  rw [hvalue]
  rfl

/-- A call of a method with a string. -/
theorem parseStatement_method (object method v : String) (h : Fresh next) :
    parseStatement (d + 2)
      (.name object :: .symbol .colon :: .name method :: .symbol .openParen :: .string v ::
        .symbol .closeParen :: next) =
      some (.call (.method (.name object) method [.string v]), next) := by
  obtain ⟨t, rest, rfl, ht⟩ := h
  cases t with
  | keyword k => rfl
  | name _ => rfl
  | number _ => cases ht
  | string _ => cases ht
  | symbol _ => cases ht

/-- A function with one parameter. -/
theorem parseStatement_function (name param : String) {ss : List Statement}
    (hbody : block (parseStatement d) (parseExpr d 0) (tokens.length + 1) tokens =
      some (ss, .keyword .end_ :: rest)) :
    parseStatement (d + 1)
      (.keyword .function_ :: .name name :: .symbol .openParen :: .name param ::
        .symbol .closeParen :: tokens) = some (.function name [param] ss, rest) := by
  change ((block (parseStatement d) (parseExpr d 0) (tokens.length + 1) tokens).bind fun r =>
    (expect (.keyword .end_) r.2).bind fun rest => some (r.1, rest)).bind
      (fun r => some (Statement.function name [param] r.1, r.2)) = _
  rw [hbody]
  rfl

end Reading

section Blocks

variable {statement : List Token → Option (Statement × List Token)}
variable {expr : List Token → Option (Expr × List Token)}
variable {n m : Nat} {t : Token} {tokens : List Token} {r : List Statement × List Token}

/-- A block that starts with a statement. -/
theorem block_cons (ht : t ≠ .keyword .end_ ∧ t ≠ .keyword .return_) :
    block statement expr (n + 1) (t :: tokens) =
      (statement (t :: tokens)).bind fun r =>
        (block statement expr n
          (if r.2.head? = some (.symbol .semicolon) then r.2.tail else r.2)).map
            fun q => (r.1 :: q.1, q.2) := by
  rw [block]
  · cases statement (t :: tokens) with
    | none => rfl
    | some r =>
      rw [Option.bind_some, Option.map_eq_bind]
      rfl
  · intro heq
    cases heq
  · intro rest heq
    exact ht.1 (cons.inj heq).1
  · intro rest heq
    exact ht.2 (cons.inj heq).1

/-- A block that is read is read with any higher bound on its statements. -/
theorem block_succ (h : block statement expr n tokens = some r) :
    block statement expr (n + 1) tokens = some r := by
  induction n generalizing tokens r with
  | zero => cases h
  | succ n ih =>
    cases tokens with
    | nil => exact h
    | cons t tokens =>
      by_cases hend : t = .keyword .end_
      · subst hend
        exact h
      · by_cases hreturn : t = .keyword .return_
        · subst hreturn
          exact h
        · rw [block_cons ⟨hend, hreturn⟩] at h ⊢
          obtain ⟨read, hread, hrest⟩ := Option.bind_eq_some_iff.mp h
          obtain ⟨q, hq, rfl⟩ := Option.map_eq_some_iff.mp hrest
          rw [hread, Option.bind_some, ih hq]
          rfl

theorem block_of_le (hle : n ≤ m) (h : block statement expr n tokens = some r) :
    block statement expr m tokens = some r := by
  induction m, hle using Nat.le_induction with
  | base => exact h
  | succ m _ ih => exact block_succ ih

end Blocks

/-- In front of fresh tokens, the tokens spell the statements. -/
structure Spells (d : Nat) (tokens : List Token) (ss : List Statement) : Prop where
  fresh : ∀ {next}, Fresh next → Fresh (tokens ++ next)
  length : ss.length ≤ tokens.length
  block : ∀ {n next}, Fresh next →
    block (parseStatement d) (parseExpr d 0) (n + ss.length) (tokens ++ next) =
      (block (parseStatement d) (parseExpr d 0) n next).map fun r => (ss ++ r.1, r.2)

namespace Spells

variable {d : Nat} {a b : List Token} {sa sb : List Statement}

theorem nil : Spells d [] [] where
  fresh h := h
  length := Nat.le_refl 0
  block := by
    intro n next h
    simp

theorem append (ha : Spells d a sa) (hb : Spells d b sb) : Spells d (a ++ b) (sa ++ sb) where
  fresh := by
    intro next h
    rw [append_assoc]
    exact ha.fresh (hb.fresh h)
  length := by
    rw [length_append, length_append]
    exact Nat.add_le_add ha.length hb.length
  block := by
    intro n next h
    rw [append_assoc, length_append, Nat.add_comm sa.length, ← Nat.add_assoc,
      ha.block (hb.fresh h), hb.block h, Option.map_map]
    simp only [Function.comp_def, append_assoc]

theorem flatMap {α : Type} {f : α → List Token} {g : α → List Statement} {l : List α}
    (h : ∀ x ∈ l, Spells d (f x) (g x)) : Spells d (l.flatMap f) (l.flatMap g) := by
  induction l with
  | nil => exact nil
  | cons x l ih =>
    obtain ⟨hx, hl⟩ := forall_mem_cons.mp h
    exact hx.append (ih hl)

/-- One statement that starts with a name or with a function. -/
theorem single {t : Token} {s : Statement}
    (ht : startsAfresh t = true ∧ t ≠ .keyword .end_ ∧ t ≠ .keyword .return_)
    (h : ∀ next, Fresh next → parseStatement d (t :: a ++ next) = some (s, next)) :
    Spells d (t :: a) [s] where
  fresh := by
    intro next _
    exact ⟨t, a ++ next, rfl, ht.1⟩
  length := by simp
  block := by
    intro n next hnext
    have hsemicolon : next.head? ≠ some (.symbol .semicolon) := by
      obtain ⟨t', rest, rfl, ht'⟩ := hnext
      rintro heq
      cases heq
      cases ht'
    have hs := h next hnext
    rw [cons_append] at hs ⊢
    rw [length_singleton, block_cons ht.2, hs, Option.bind_some, if_neg hsemicolon]
    rfl

/-- A block whose statements are spelled, up to the end that the rest has. -/
theorem block_of_rest (ha : Spells d a sa) {rest : List Token} (hrest : Fresh rest) {m : Nat}
    {r : List Statement × List Token} (hm : m ≤ rest.length + 1)
    (h : Lua.block (parseStatement d) (parseExpr d 0) m rest = some r) :
    Lua.block (parseStatement d) (parseExpr d 0) ((a ++ rest).length + 1) (a ++ rest) =
      some (sa ++ r.1, r.2) := by
  have hlength : m + sa.length ≤ (a ++ rest).length + 1 := by
    have hle := ha.length
    rw [length_append]
    omega
  apply block_of_le hlength
  rw [ha.block hrest, h]
  rfl

/-- A function whose body is spelled. -/
theorem function (name param : String) (ha : Spells d a sa) :
    Spells (d + 1)
      (.keyword .function_ :: .name name :: .symbol .openParen :: .name param ::
        .symbol .closeParen :: (a ++ [.keyword .end_]))
      [.function name [param] sa] := by
  apply single (t := .keyword .function_) ⟨rfl, nofun, nofun⟩
  intro next hnext
  apply parseStatement_function
  have hend : Fresh (.keyword .end_ :: next) := ⟨_, next, rfl, rfl⟩
  have hbody := ha.block_of_rest hend (m := 1) (by simp) rfl
  have htokens : (a ++ [.keyword .end_]) ++ next = a ++ .keyword .end_ :: next := by
    rw [append_assoc, singleton_append]
  rw [append_nil, ← htokens] at hbody
  exact hbody

end Spells

end Sesame.Lib.Lua
