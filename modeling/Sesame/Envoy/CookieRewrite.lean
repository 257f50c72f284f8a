/-
# The code of cookie rewrites

The cookie rewrite policies of a route become a Lua program: a template is filled in with the
names and values of the policies. Here the program is read back, with the lexer and the parser
of Lua, and compared with the program that the policies describe. The template quotes nothing,
so a value stays inside its literal only if the characters that the API admits do.

The rules are merged from the policies of the route and of the cluster, and numbered in the
order of a map.
-/

import Sesame.Envoy.Route
import Sesame.Lib.LuaParser
import Sesame.Dag.WildcardHosts

namespace Sesame.Envoy

open List hiding lex
open Lib Lib.Lua Dag

variable {v key : String} {b : List Char} {p : CookieRewritePolicy}
  {entries : List (CookieRewritePolicy × Nat)} {policies : List CookieRewritePolicy} {c : Char}

/-! ## The template -/

/-- A value between double quotes, as the template writes it. -/
def quoted (v : String) : String := "\"" ++ v ++ "\""

/-- The name of the function for the policy with an index. -/
def rewriteFunction (i : Nat) : String := "cookie_" ++ toString i ++ "_attribute_rewrite"

/-- The assignment of an attribute that has a value. -/
def attributeLine (key : String) : Option String → String
  | none => ""
  | some v => "attributes[" ++ quoted key ++ "] = " ++ quoted (key ++ "=" ++ v)

/-- The template's lines for one policy behind the one for its path. -/
def codeAfterPath (i : Nat) (p : CookieRewritePolicy) : String :=
  "\n\t\t" ++ attributeLine "Domain" p.domain ++ "\n\t\t" ++
    attributeLine "SameSite" p.sameSite ++ "\n\t\t" ++
    (if p.secure = 1 then "attributes[\"Secure\"] = nil" else "") ++ "\n\t\t" ++
    (if p.secure = 2 then "attributes[\"Secure\"] = \"Secure\"" else "") ++
    "\n\tend\n\trewrite_table[" ++ quoted p.name ++ "] = " ++ rewriteFunction i ++ "\n\t"

/-- What the template's loop writes for one policy. -/
def rewriteCode (i : Nat) (p : CookieRewritePolicy) : String :=
  "\n\tfunction " ++ rewriteFunction i ++
    "(attributes)\n\t\tresponse_handle:logDebug(" ++
    "\"rewriting cookie \\\"" ++ p.name ++ "\\\"\"" ++ ")\n\n\t\t" ++
    attributeLine "Path" p.path ++ codeAfterPath i p

/-- The template before its loop. -/
def codeHead : String :=
  "\nfunction envoy_on_response(response_handle)\n\trewrite_table = \x7b\x7d\n\n\t"

/-- The lines of the template behind its loop. -/
def codeTail : List String :=
  [
    "\n",
    "\n",
    "\tfunction rewrite_cookie(original)\n",
    "\t\tlocal original_len = string.len(original)\n",
    "\t\tlocal name_end = string.find(original, \"=\")\n",
    "\t\tif name_end == nil then\n",
    "\t\t\treturn original\n",
    "\t\tend\n",
    "\t\tlocal name = string.sub(original, 1, name_end - 1)\n",
    "\n",
    "\t\tlocal rewrite_func = rewrite_table[name]\n",
    "\t\t-- We don't have a rewrite rule for this cookie.\n",
    "\t\tif rewrite_func == nil then\n",
    "\t\t\treturn original\n",
    "\t\tend\n",
    "\n",
    "\t\t-- Find cookie value via ; or end of string\n",
    "\t\tlocal value_end = string.find(original, \";\", name_end)\n",
    "\t\t-- Save position to use as iterator\n",
    "\t\tlocal iter = value_end\n",
    "\t\tif value_end == nil then\n",
    "\t\t\t-- Set to 0 since we have to subtract below if we did find a ;\n",
    "\t\t\tvalue_end = 0\n",
    "\t\t\titer = original_len\n",
    "\t\tend\n",
    "\t\titer = iter + 1\n",
    "\t\tlocal value = string.sub(original, name_end + 1, value_end - 1)\n",
    "\n",
    "\t\t-- Parse original attributes into table\n",
    "\t\t-- Keyed by attribute name, values are <name>=<value> or just <name>\n",
    "\t\t-- so we can easily rebuild, esp for attributes like 'Secure' that\n",
    "\t\t-- do not have a value\n",
    "\t\tlocal attributes = \x7b\x7d\n",
    "\t\twhile iter < original_len do\n",
    "\t\t\tlocal attr_end = string.find(original, \";\", iter)\n",
    "\t\t\tlocal new_iter = attr_end\n",
    "\t\t\tif attr_end == nil then\n",
    "\t\t\t\t-- Set to 0 since we have to subtract below if we did find a ;\n",
    "\t\t\t\tattr_end = 0\n",
    "\t\t\t\tnew_iter = original_len\n",
    "\t\t\tend\n",
    "\t\t\tlocal attr_value = string.sub(original, iter + 1, attr_end - 1)\n",
    "\t\t\t-- Strip whitespace from front\n",
    "\t\t\tattr_value = string.gsub(attr_value, \"^%s*(.-)$\", \"%1\")\n",
    "\n",
    "\t\t\t-- Get attribute name\n",
    "\t\t\tlocal attr_name_end = string.find(attr_value, \"=\")\n",
    "\t\t\tif attr_name_end == nil then\n",
    "\t\t\t\t-- Set to 0 since we have to subtract below if we did find a =\n",
    "\t\t\t\tattr_name_end = 0\n",
    "\t\t\tend\n",
    "\t\t\tlocal attr_name = string.sub(attr_value, 1, attr_name_end - 1)\n",
    "\n",
    "\t\t\tattributes[attr_name] = attr_value\n",
    "\n",
    "\t\t\titer = new_iter + 1\n",
    "\t\tend\n",
    "\n",
    "\t\trewrite_func(attributes)\n",
    "\n",
    "\t\tlocal rewritten = string.format(\"%s=%s\", name, value)\n",
    "\t\tfor k, v in next, attributes do\n",
    "\t\t\tif v then\n",
    "\t\t\t\trewritten = string.format(\"%s; %s\", rewritten, v)\n",
    "\t\t\tend\n",
    "\t\tend\n",
    "\n",
    "\t\treturn rewritten\n",
    "\tend\n",
    "\n",
    "\tif response_handle:headers():get(\"set-cookie\") then\n",
    "\t\trewritten_cookies = \x7b\x7d\n",
    "\t\tfor k, v in pairs(response_handle:headers()) do\n",
    "\t\t\tif k == \"set-cookie\" then\n",
    "\t\t\t\ttable.insert(rewritten_cookies, rewrite_cookie(v))\n",
    "\t\t\tend\n",
    "\t\tend\n",
    "\n",
    "\t\tresponse_handle:headers():remove(\"set-cookie\")\n",
    "\t\tfor k, v in next, rewritten_cookies do\n",
    "\t\t\tresponse_handle:headers():add(\"set-cookie\", v)\n",
    "\t\tend\n",
    "\tend\n",
    "end\n",
    "\t"]

/-- The Lua program that `cookieRewriteConfig` produces from the merged policies. -/
def cookieRewriteCode (policies : List CookieRewritePolicy) : String :=
  codeHead ++ String.join (policies.zipIdx.map fun e => rewriteCode e.2 e.1) ++ String.join codeTail

/-! ## The tokens of the template -/

def attributeTokens (key : String) : Option String → List Token
  | none => []
  | some v =>
    [.name "attributes", .symbol .openBracket, .string key, .symbol .closeBracket,
      .symbol .assign, .string (key ++ "=" ++ v)]

/-- The tokens of the assignment of the attribute without a value. -/
def secureTokens (secure : Nat) : List Token :=
  if secure = 1 then
    [.name "attributes", .symbol .openBracket, .string "Secure", .symbol .closeBracket,
      .symbol .assign, .keyword .nil_]
  else if secure = 2 then
    [.name "attributes", .symbol .openBracket, .string "Secure", .symbol .closeBracket,
      .symbol .assign, .string "Secure"]
  else []

def logTokens (p : CookieRewritePolicy) : List Token :=
  [.name "response_handle", .symbol .colon, .name "logDebug", .symbol .openParen,
    .string ("rewriting cookie \"" ++ p.name ++ "\""), .symbol .closeParen]

def laterTokens (p : CookieRewritePolicy) : List Token :=
  attributeTokens "Domain" p.domain ++ attributeTokens "SameSite" p.sameSite ++
    secureTokens p.secure

def bodyTokens (p : CookieRewritePolicy) : List Token :=
  logTokens p ++ attributeTokens "Path" p.path ++ laterTokens p

def functionTokens (i : Nat) : List Token :=
  [.keyword .function_, .name (rewriteFunction i), .symbol .openParen, .name "attributes",
    .symbol .closeParen]

def entryTokens (i : Nat) (p : CookieRewritePolicy) : List Token :=
  [.keyword .end_, .name "rewrite_table", .symbol .openBracket, .string p.name,
    .symbol .closeBracket, .symbol .assign, .name (rewriteFunction i)]

def rewriteTokens (i : Nat) (p : CookieRewritePolicy) : List Token :=
  functionTokens i ++ bodyTokens p ++ entryTokens i p

def tailTokens : List Token := (lex (codeTail.flatMap String.toList)).getD []

def codeTokens (policies : List CookieRewritePolicy) : List Token :=
  [.keyword .function_, .name "envoy_on_response", .symbol .openParen, .name "response_handle",
    .symbol .closeParen, .name "rewrite_table", .symbol .assign, .symbol .openBrace,
    .symbol .closeBrace] ++ policies.zipIdx.flatMap (fun e => rewriteTokens e.2 e.1) ++ tailTokens

/-! ## The program's tokens are those of the template -/

/-- A property of the characters of a fixed text is checked by evaluation. -/
theorem forall_mem_of_all {P : Char → Prop} [DecidablePred P] {l : List Char}
    (h : l.all (fun c => decide (P c)) = true) : ∀ c ∈ l, P c :=
  fun c hc => of_decide_eq_true (all_eq_true.mp h c hc)

theorem toList_quoted (v : String) : (quoted v).toList = '"' :: v.toList ++ ['"'] := by
  rw [quoted, String.toList_append, String.toList_append]
  rfl

theorem lex_quoted (v : String) (b : List Char) :
    lex ((quoted v).toList ++ b) =
      (scan (v.toList ++ '"' :: b)).bind fun r =>
        (lex r.2).map (.string (String.ofList r.1) :: ·) := by
  rw [toList_quoted, append_assoc, cons_append, singleton_append, lex_quote]

theorem lex_quoted_plain (hv : ∀ c ∈ v.toList, Plain c) (b : List Char) :
    lex ((quoted v).toList ++ b) = (lex b).map ([.string v] ++ ·) := by
  rw [lex_quoted, scan_plain_append hv, scan_quote]
  simp

theorem isNameChar_rewriteFunction (i : Nat) :
    ∀ c ∈ (rewriteFunction i).toList, isNameChar c = true := by
  intro c hc
  rw [rewriteFunction, String.toList_append, String.toList_append, mem_append, mem_append] at hc
  have hfixed : "cookie_".toList.all isNameChar = true ∧
      "_attribute_rewrite".toList.all isNameChar = true := by
    decide
  rcases hc with (hc | hc) | hc
  · exact all_eq_true.mp hfixed.1 c hc
  · have hdigit : c.isDigit = true :=
      Nat.isDigit_of_mem_toDigits (b := 10) (n := i) (by decide) (by decide) (by simpa using hc)
    simp [isNameChar, Char.isAlphanum, hdigit]
  · exact all_eq_true.mp hfixed.2 c hc

theorem lex_rewriteFunction (i : Nat) (hb : ∀ d, b.head? = some d → isNameChar d = false) :
    lex ((rewriteFunction i).toList ++ b) = (lex b).map ([.name (rewriteFunction i)] ++ ·) := by
  obtain ⟨w, hw⟩ : ∃ w, (rewriteFunction i).toList = 'c' :: w := by
    rw [rewriteFunction, String.toList_append, String.toList_append]
    exact ⟨_, rfl⟩
  have hchars : ∀ d ∈ w, isNameChar d = true := by
    intro d hd
    apply isNameChar_rewriteFunction i
    rw [hw]
    exact mem_cons_of_mem _ hd
  have hword : wordToken ('c' :: w) = .name (rewriteFunction i) := by
    rw [wordToken, ← hw, String.ofList_toList, hw]
    rfl
  rw [hw, lex_word rfl rfl rfl hchars hb, hword]
  rfl

theorem lex_closeBracket (b : List Char) :
    lex ("] = ".toList ++ b) = (lex b).map ([.symbol .closeBracket, .symbol .assign] ++ ·) :=
  lex_text rfl (.token rfl (.space rfl (.token rfl (.space rfl .nil))))

theorem lex_attributeLine (hkey : ∀ c ∈ key.toList, Plain c) (v : String) (b : List Char) :
    lex ((attributeLine key (some v)).toList ++ b) =
      (lex ((quoted (key ++ "=" ++ v)).toList ++ b)).map
        ([.name "attributes", .symbol .openBracket, .string key, .symbol .closeBracket,
          .symbol .assign] ++ ·) := by
  have hopen : ∀ {b}, lex ("attributes[".toList ++ ((quoted key).toList ++ b)) =
      (lex ((quoted key).toList ++ b)).map ([.name "attributes", .symbol .openBracket] ++ ·) := by
    intro b
    rw [toList_quoted]
    exact lex_text rfl (.token rfl (.token rfl .nil))
  simp only [attributeLine, String.toList_append, append_assoc, hopen,
    lex_quoted_plain hkey, lex_closeBracket, Option.map_map]
  rfl

theorem lex_attributeLine_plain (hkey : ∀ c ∈ key.toList, Plain c) {value : Option String}
    (hvalue : ∀ v, value = some v → ∀ c ∈ v.toList, Plain c) (b : List Char) :
    lex ((attributeLine key value).toList ++ b) = (lex b).map (attributeTokens key value ++ ·) := by
  cases value with
  | none =>
    change lex b = (lex b).map ([] ++ ·)
    simp
  | some v =>
    have hplain : ∀ c ∈ (key ++ "=" ++ v).toList, Plain c := by
      intro c hc
      rw [String.toList_append, String.toList_append, mem_append, mem_append] at hc
      rcases hc with (hc | hc) | hc
      · exact hkey c hc
      · obtain rfl : c = '=' := mem_singleton.mp hc
        decide
      · exact hvalue v rfl c hc
    rw [lex_attributeLine hkey, lex_quoted_plain hplain, Option.map_map]
    rfl

theorem rewriteTokens_eq (i : Nat) (p : CookieRewritePolicy) :
    rewriteTokens i p = (functionTokens i ++ logTokens p) ++
      (attributeTokens "Path" p.path ++ (laterTokens p ++ entryTokens i p)) := by
  simp only [rewriteTokens, bodyTokens, append_assoc]

/-- Space yields no tokens. -/
theorem lex_break (b : List Char) : lex ("\n\t\t".toList ++ b) = lex b := by
  have hspace : lex ("\n\t\t".toList ++ b) = (lex b).map ([] ++ ·) :=
    lex_text rfl (.space rfl (.space rfl (.space rfl .nil)))
  rw [hspace]
  simp

/-- The literal of the log message denotes the cookie's name between quotes. -/
theorem lex_logMessage {name : String} (hname : ∀ c ∈ name.toList, Plain c) (b : List Char) :
    lex ("\"rewriting cookie \\\"".toList ++ (name.toList ++ ("\\\"\"".toList ++ b))) =
      (lex b).map ([.string ("rewriting cookie \"" ++ name ++ "\"")] ++ ·) := by
  have hopen : "\"rewriting cookie \\\"".toList =
      '"' :: ("rewriting cookie ".toList ++ ['\\', '"']) := by
    rw [show "\"rewriting cookie \\\"" = "\"" ++ "rewriting cookie " ++ "\\\"" from rfl,
      String.toList_append, String.toList_append]
    rfl
  have hplain : ∀ c ∈ "rewriting cookie ".toList, Plain c := forall_mem_of_all (by decide)
  have hvalue : String.ofList ("rewriting cookie ".toList ++ '"' :: (name.toList ++ ['"'])) =
      "rewriting cookie \"" ++ name ++ "\"" := by
    rw [← String.toList_inj, String.toList_ofList, String.toList_append, String.toList_append,
      show "rewriting cookie \"" = "rewriting cookie " ++ "\"" from rfl, String.toList_append,
      append_assoc, append_assoc]
    rfl
  have hclose : "\\\"\"".toList = ['\\', '"', '"'] := rfl
  rw [hopen, hclose, cons_append, lex_quote, append_assoc, scan_plain_append hplain,
    cons_append, cons_append, nil_append, scan_escaped_quote,
    scan_plain_append hname, cons_append, cons_append, cons_append,
    nil_append, scan_escaped_quote, scan_quote]
  simp only [Option.map_some, Option.bind_some]
  rw [hvalue]
  rfl

/-- The names and the values other than paths stay inside their literals. -/
structure PlainPolicy (p : CookieRewritePolicy) : Prop where
  name : ∀ c ∈ p.name.toList, Plain c
  domain : ∀ v, p.domain = some v → ∀ c ∈ v.toList, Plain c
  sameSite : ∀ v, p.sameSite = some v → ∀ c ∈ v.toList, Plain c

/-- The path stays inside its literal. -/
def PlainPath (p : CookieRewritePolicy) : Prop := ∀ v, p.path = some v → ∀ c ∈ v.toList, Plain c

/-- The two lines for the attribute without a value. -/
theorem lex_secureLines (secure : Nat) (b : List Char) :
    lex ((if secure = 1 then "attributes[\"Secure\"] = nil" else "").toList ++
      ("\n\t\t".toList ++ ((if secure = 2 then "attributes[\"Secure\"] = \"Secure\"" else "").toList
        ++ b))) = (lex b).map (secureTokens secure ++ ·) := by
  have hnone : ∀ {b : List Char}, "".toList ++ b = b := rfl
  by_cases hone : secure = 1
  · have htokens : secureTokens secure =
        [.name "attributes", .symbol .openBracket, .string "Secure", .symbol .closeBracket,
          .symbol .assign, .keyword .nil_] := by
      rw [secureTokens, if_pos hone]
    have htwo : secure ≠ 2 := by omega
    have hline : "attributes[\"Secure\"] = nil\n\t\t" =
        "attributes[\"Secure\"] = nil" ++ "\n\t\t" := rfl
    rw [if_pos hone, if_neg htwo, hnone, ← append_assoc, ← String.toList_append, ← hline, htokens]
    apply lex_text rfl
    repeat first | refine .token rfl ?_ | refine .space rfl ?_
    exact .nil
  · rw [if_neg hone, hnone, lex_break]
    by_cases htwo : secure = 2
    · have htokens : secureTokens secure =
          [.name "attributes", .symbol .openBracket, .string "Secure", .symbol .closeBracket,
            .symbol .assign, .string "Secure"] := by
        rw [secureTokens, if_neg hone, if_pos htwo]
      rw [if_pos htwo, htokens]
      apply lex_text rfl
      repeat first | refine .token rfl ?_ | refine .space rfl ?_
      exact .nil
    · rw [if_neg htwo, hnone, secureTokens, if_neg hone, if_neg htwo]
      simp

theorem lex_codeAfterPath (hp : PlainPolicy p) (i : Nat) (b : List Char) :
    lex ((codeAfterPath i p).toList ++ b) =
      (lex b).map (laterTokens p ++ entryTokens i p ++ ·) := by
  have hdomain : ∀ c ∈ "Domain".toList, Plain c := forall_mem_of_all (by decide)
  have hsameSite : ∀ c ∈ "SameSite".toList, Plain c := forall_mem_of_all (by decide)
  have htable : ∀ {b}, lex ("\n\tend\n\trewrite_table[".toList ++ ((quoted p.name).toList ++ b)) =
      (lex ((quoted p.name).toList ++ b)).map
        ([.keyword .end_, .name "rewrite_table", .symbol .openBracket] ++ ·) := by
    intro b
    rw [toList_quoted]
    exact lex_text rfl (.space rfl (.space rfl (.token rfl (.space rfl (.space rfl
      (.token rfl (.token rfl .nil)))))))
  have hend : ∀ {b}, lex ("\n\t".toList ++ b) = (lex b).map ([] ++ ·) :=
    lex_text rfl (.space rfl (.space rfl .nil))
  have hspace : ∀ d, ("\n\t".toList ++ b).head? = some d → isNameChar d = false := by
    intro d hd
    cases hd
    decide
  delta codeAfterPath
  simp only [String.toList_append, append_assoc, lex_break,
    lex_attributeLine_plain hdomain hp.domain, lex_attributeLine_plain hsameSite hp.sameSite,
    lex_secureLines]
  rw [htable, lex_quoted_plain hp.name, lex_closeBracket, lex_rewriteFunction i hspace, hend]
  simp only [Option.map_map]
  congr 1
  funext tokens
  simp [laterTokens, entryTokens]

theorem lex_rewriteCode (hp : PlainPolicy p) (i : Nat) (b : List Char) :
    lex ((rewriteCode i p).toList ++ b) =
      (lex ((attributeLine "Path" p.path).toList ++ ((codeAfterPath i p).toList ++ b))).map
        (functionTokens i ++ logTokens p ++ ·) := by
  have hsplit : (rewriteCode i p).toList ++ b =
      "\n\tfunction ".toList ++ ((rewriteFunction i).toList ++
        ("(attributes)\n\t\tresponse_handle:logDebug(".toList ++
          ("\"rewriting cookie \\\"".toList ++ (p.name.toList ++ ("\\\"\"".toList ++
            (")\n\n\t\t".toList ++
              ((attributeLine "Path" p.path).toList ++
                ((codeAfterPath i p).toList ++ b)))))))) := by
    delta rewriteCode codeAfterPath
    simp only [String.toList_append, append_assoc]
  have hfunction : ∀ {b}, lex ("\n\tfunction ".toList ++ b) =
      (lex b).map ([.keyword .function_] ++ ·) :=
    lex_text rfl (.space rfl (.space rfl (.token rfl (.space rfl .nil))))
  have hparams : ∀ {b}, lex ("(attributes)\n\t\tresponse_handle:logDebug(".toList ++ b) =
      (lex b).map ([.symbol .openParen, .name "attributes", .symbol .closeParen,
        .name "response_handle", .symbol .colon, .name "logDebug", .symbol .openParen] ++ ·) := by
    intro b
    apply lex_text rfl
    repeat first | refine .token rfl ?_ | refine .space rfl ?_
    exact .nil
  have hclose : ∀ {b}, lex (")\n\n\t\t".toList ++ b) = (lex b).map ([.symbol .closeParen] ++ ·) :=
    lex_text rfl (.token rfl (.space rfl (.space rfl (.space rfl (.space rfl .nil)))))
  have hspace : ∀ {b : List Char} d,
      ("(attributes)\n\t\tresponse_handle:logDebug(".toList ++ b).head? = some d →
        isNameChar d = false := by
    intro b d hd
    cases hd
    decide
  rw [hsplit, hfunction, lex_rewriteFunction i hspace, hparams, lex_logMessage hp.name, hclose]
  simp only [Option.map_map]
  rfl

/-- The characters of a literal come from comparing it with a list, without the conversion
to and from bytes. -/
theorem flatMap_toList_cons {line : String} {chars rest : List Char} {lines : List String}
    (hline : line = String.ofList chars) (hrest : lines.flatMap String.toList = rest) :
    (line :: lines).flatMap String.toList = chars ++ rest := by
  rw [flatMap_cons, hline, String.toList_ofList, hrest]

/-- The part behind the policies can be read: it is the rest of the function's body. -/
def ReadsAsTail (tokens : List Token) : Prop :=
  tokens.head? = some (.keyword .function_) ∧ 2 ≤ tokens.length ∧
    (block (parseStatement 199) (parseExpr 199 0) 3 tokens).map Prod.snd = some [.keyword .end_]
  deriving Decidable

theorem tailTokens_reads :
    lex (codeTail.flatMap String.toList) = some tailTokens ∧ ReadsAsTail tailTokens := by
  obtain ⟨chars, hchars, hreads⟩ : ∃ chars, codeTail.flatMap String.toList = chars ∧
      (lex chars).any (fun tokens => ReadsAsTail tokens) = true := by
    apply Exists.intro
    apply And.intro
    · delta codeTail
      repeat apply flatMap_toList_cons rfl
      rfl
    · decide +kernel
  rw [tailTokens, hchars]
  cases hlex : lex chars with
  | none => simp [hlex] at hreads
  | some tokens => exact ⟨rfl, by simpa [hlex] using hreads⟩

theorem lex_codeHead (b : List Char) :
    lex (codeHead.toList ++ b) =
      (lex b).map ([.keyword .function_, .name "envoy_on_response", .symbol .openParen,
        .name "response_handle", .symbol .closeParen, .name "rewrite_table", .symbol .assign,
        .symbol .openBrace, .symbol .closeBrace] ++ ·) := by
  apply lex_text rfl
  repeat first | refine .token rfl ?_ | refine .space rfl ?_
  exact .nil

theorem map_append_eq_some {α : Type} {o : Option (List α)} {start rest : List α} :
    o.map (start ++ ·) = some (start ++ rest) ↔ o = some rest := by
  simp [Option.map_eq_some_iff]

/-- The tokens of the policies' part of the program, when every path stays inside its literal. -/
theorem lex_rewrites (hp : ∀ e ∈ entries, PlainPolicy e.1 ∧ PlainPath e.1) (b : List Char) :
    lex (entries.flatMap (fun e => (rewriteCode e.2 e.1).toList) ++ b) =
      (lex b).map (entries.flatMap (fun e => rewriteTokens e.2 e.1) ++ ·) := by
  induction entries with
  | nil => simp
  | cons e entries ih =>
    obtain ⟨⟨hplain, hpath⟩, hrest⟩ := forall_mem_cons.mp hp
    rw [flatMap_cons, append_assoc, lex_rewriteCode hplain,
      lex_attributeLine_plain (forall_mem_of_all (by decide)) hpath, lex_codeAfterPath hplain,
      ih hrest, flatMap_cons, rewriteTokens_eq]
    simp only [Option.map_map]
    congr 1
    funext tokens
    simp only [Function.comp_apply, append_assoc]

/-- An attribute line has its tokens only if the value stays inside its literal: the line ends
behind the literal, and an escape would make what the literal denotes shorter. -/
theorem plain_of_lex_attributeLine (hkey : ∀ c ∈ key.toList, Plain c) {tokens : List Token}
    (h : lex ((attributeLine key (some v)).toList ++ '\n' :: b) =
      some (attributeTokens key (some v) ++ tokens)) : ∀ c ∈ v.toList, Plain c := by
  have hliteral : lex ((quoted (key ++ "=" ++ v)).toList ++ '\n' :: b) =
      some ([.string (key ++ "=" ++ v)] ++ tokens) := by
    rw [lex_attributeLine hkey] at h
    exact map_append_eq_some.mp h
  rw [lex_quoted] at hliteral
  obtain ⟨⟨u, after⟩, hscan, hrest⟩ := Option.bind_eq_some_iff.mp hliteral
  obtain ⟨_, -, heq⟩ := Option.map_eq_some_iff.mp hrest
  have hu : u = (key ++ "=" ++ v).toList := by
    have htoken : Token.string (String.ofList u) = .string (key ++ "=" ++ v) := (cons.inj heq).1
    rw [← Token.string.inj htoken, String.toList_ofList]
  have hall := (plain_of_scanBody hscan).2 (congrArg length hu)
  intro c hc
  apply hall
  rw [String.toList_append]
  exact mem_append_right _ hc

/-- If the program has the tokens of the template, every path stays inside its literal. -/
theorem plainPath_of_lex_rewrites (hp : ∀ e ∈ entries, PlainPolicy e.1) {tokens : List Token}
    (h : lex (entries.flatMap (fun e => (rewriteCode e.2 e.1).toList) ++ b) =
      some (entries.flatMap (fun e => rewriteTokens e.2 e.1) ++ tokens)) :
    ∀ e ∈ entries, PlainPath e.1 := by
  induction entries with
  | nil =>
    intro e he
    cases he
  | cons e entries ih =>
    obtain ⟨hplain, hrest⟩ := forall_mem_cons.mp hp
    rw [flatMap_cons, append_assoc, lex_rewriteCode hplain, flatMap_cons,
      rewriteTokens_eq, append_assoc, append_assoc, map_append_eq_some,
      append_assoc] at h
    have hpath : PlainPath e.1 := by
      intro v hv
      obtain ⟨after, hafter⟩ : ∃ after, (codeAfterPath e.2 e.1).toList = '\n' :: after := by
        delta codeAfterPath
        simp only [String.toList_append, append_assoc]
        exact ⟨_, rfl⟩
      rw [hv, hafter] at h
      exact plain_of_lex_attributeLine (forall_mem_of_all (by decide)) h
    rw [lex_attributeLine_plain (forall_mem_of_all (by decide)) hpath, map_append_eq_some,
      lex_codeAfterPath hplain, map_append_eq_some] at h
    exact forall_mem_cons.mpr ⟨hpath, ih hrest h⟩

theorem toList_cookieRewriteCode (policies : List CookieRewritePolicy) :
    (cookieRewriteCode policies).toList = codeHead.toList ++
      (policies.zipIdx.flatMap (fun e => (rewriteCode e.2 e.1).toList) ++
        codeTail.flatMap String.toList) := by
  rw [cookieRewriteCode, String.toList_append, String.toList_append, String.toList_join,
    String.toList_join, flatMap_map, append_assoc]

/-- The program has the tokens of the template exactly if every path stays inside its literal. -/
theorem lex_cookieRewriteCode_iff (hp : ∀ p ∈ policies, PlainPolicy p) :
    lex (cookieRewriteCode policies).toList = some (codeTokens policies) ↔
      ∀ p ∈ policies, PlainPath p := by
  have hentries : ∀ {P : CookieRewritePolicy → Prop},
      (∀ e ∈ policies.zipIdx, P e.1) ↔ ∀ p ∈ policies, P p := by
    intro P
    rw [← forall_mem_map, zipIdx_map_fst]
  rw [toList_cookieRewriteCode, lex_codeHead, codeTokens, append_assoc, map_append_eq_some]
  constructor
  · intro h
    exact hentries.mp (plainPath_of_lex_rewrites (hentries.mpr hp) h)
  · intro hpaths
    have hall : ∀ e ∈ policies.zipIdx, PlainPolicy e.1 ∧ PlainPath e.1 :=
      (hentries (P := fun p => PlainPolicy p ∧ PlainPath p)).mpr
        fun p hmem => ⟨hp p hmem, hpaths p hmem⟩
    rw [lex_rewrites hall, tailTokens_reads.1]
    rfl

/-! ## The program -/

def attributeStatements (key : String) : Option String → List Statement
  | none => []
  | some v => [.assign (.index (.name "attributes") (.string key)) (.string (key ++ "=" ++ v))]

/-- The assignment of the attribute without a value. -/
def secureStatements (secure : Nat) : List Statement :=
  if secure = 1 then [.assign (.index (.name "attributes") (.string "Secure")) .nil]
  else if secure = 2 then
    [.assign (.index (.name "attributes") (.string "Secure")) (.string "Secure")]
  else []

/-- The body of a rewrite function: the log message, then the attributes of the policy. -/
def bodyStatements (p : CookieRewritePolicy) : List Statement :=
  .call (.method (.name "response_handle") "logDebug"
      [.string ("rewriting cookie \"" ++ p.name ++ "\"")]) ::
    (attributeStatements "Path" p.path ++ attributeStatements "Domain" p.domain ++
      attributeStatements "SameSite" p.sameSite ++ secureStatements p.secure)

/-- The function for one policy, and its entry under the cookie's name. -/
def rewriteStatements (i : Nat) (p : CookieRewritePolicy) : List Statement :=
  [.function (rewriteFunction i) ["attributes"] (bodyStatements p),
    .assign (.index (.name "rewrite_table") (.string p.name)) (.name (rewriteFunction i))]

/-- The statements behind the policies. They do not depend on them. -/
def tailStatements : List Statement :=
  ((block (parseStatement 199) (parseExpr 199 0) 3 tailTokens).map Prod.fst).getD []

def cookieRewriteProgram (policies : List CookieRewritePolicy) : List Statement :=
  [.function "envoy_on_response" ["response_handle"]
    (.assign (.name "rewrite_table") .emptyTable ::
      (policies.zipIdx.flatMap (fun e => rewriteStatements e.2 e.1) ++ tailStatements))]

/-! ## The tokens of the template are those of the program -/

section Parsing

variable {d : Nat}

theorem spells_attribute (key : String) (value : Option String) :
    Spells (d + 2) (attributeTokens key value) (attributeStatements key value) := by
  cases value with
  | none => exact .nil
  | some v =>
    apply Spells.single (t := .name _) ⟨rfl, nofun, nofun⟩
    intro next hnext
    exact parseStatement_assign_index "attributes" key (parseExpr_string _ hnext)

theorem spells_secure (secure : Nat) :
    Spells (d + 2) (secureTokens secure) (secureStatements secure) := by
  rw [secureTokens, secureStatements]
  split
  · apply Spells.single (t := .name _) ⟨rfl, nofun, nofun⟩
    intro next hnext
    exact parseStatement_assign_index "attributes" "Secure" (parseExpr_nil hnext)
  · split
    · apply Spells.single (t := .name _) ⟨rfl, nofun, nofun⟩
      intro next hnext
      exact parseStatement_assign_index "attributes" "Secure" (parseExpr_string _ hnext)
    · exact .nil

theorem spells_body (p : CookieRewritePolicy) :
    Spells (d + 2) (bodyTokens p) (bodyStatements p) := by
  have hlog : Spells (d + 2) (logTokens p)
      [.call (.method (.name "response_handle") "logDebug"
        [.string ("rewriting cookie \"" ++ p.name ++ "\"")])] := by
    apply Spells.single (t := .name _) ⟨rfl, nofun, nofun⟩
    intro next hnext
    exact parseStatement_method "response_handle" "logDebug" _ hnext
  have hbody := (((hlog.append (spells_attribute "Path" p.path)).append
    (spells_attribute "Domain" p.domain)).append
    (spells_attribute "SameSite" p.sameSite)).append (spells_secure p.secure)
  simpa only [bodyTokens, laterTokens, bodyStatements, append_assoc, cons_append,
    nil_append] using hbody

theorem spells_rewrite (i : Nat) (p : CookieRewritePolicy) :
    Spells (d + 3) (rewriteTokens i p) (rewriteStatements i p) := by
  have hfunction := (spells_body (d := d) p).function (rewriteFunction i) "attributes"
  have hentry : Spells (d + 3)
      [.name "rewrite_table", .symbol .openBracket, .string p.name, .symbol .closeBracket,
        .symbol .assign, .name (rewriteFunction i)]
      [.assign (.index (.name "rewrite_table") (.string p.name)) (.name (rewriteFunction i))] := by
    apply Spells.single (t := .name _) ⟨rfl, nofun, nofun⟩
    intro next hnext
    exact parseStatement_assign_index "rewrite_table" p.name (parseExpr_name _ hnext)
  have hboth := hfunction.append hentry
  simp only [cons_append, append_assoc, nil_append] at hboth
  simpa only [rewriteTokens, functionTokens, entryTokens, rewriteStatements, cons_append,
    append_assoc, nil_append] using hboth

theorem block_tailTokens :
    block (parseStatement 199) (parseExpr 199 0) 3 tailTokens =
      some (tailStatements, [.keyword .end_]) := by
  obtain ⟨⟨ss, rest⟩, hblock, rfl⟩ := Option.map_eq_some_iff.mp tailTokens_reads.2.2.2
  rw [tailStatements, hblock]
  rfl

/-- The tokens of the template are those of the program that the policies describe. -/
theorem parseProgram_codeTokens (policies : List CookieRewritePolicy) :
    parseProgram (codeTokens policies) = some (cookieRewriteProgram policies) := by
  have htable : Spells 199
      [.name "rewrite_table", .symbol .assign, .symbol .openBrace, .symbol .closeBrace]
      [.assign (.name "rewrite_table") .emptyTable] := by
    apply Spells.single (t := .name _) ⟨rfl, nofun, nofun⟩
    intro next hnext
    exact parseStatement_assign "rewrite_table" (parseExpr_emptyTable hnext)
  have hpolicies : Spells 199 (policies.zipIdx.flatMap fun e => rewriteTokens e.2 e.1)
      (policies.zipIdx.flatMap fun e => rewriteStatements e.2 e.1) :=
    Spells.flatMap fun e _ => spells_rewrite e.2 e.1
  have htail : Fresh tailTokens := by
    obtain ⟨rest, hrest⟩ := head?_eq_some_iff.mp tailTokens_reads.2.1
    exact ⟨_, rest, hrest, rfl⟩
  have hall := htable.append hpolicies
  have hlength : 3 ≤ tailTokens.length + 1 := by
    have htwo := tailTokens_reads.2.2.1
    omega
  have hbody := hall.block_of_rest htail hlength block_tailTokens
  have hfunction : parseStatement 200 _ = _ :=
    parseStatement_function "envoy_on_response" "response_handle" hbody
  simp only [cons_append, nil_append] at hfunction
  rw [parseProgram, maxLevels, codeTokens]
  simp only [cons_append, nil_append]
  rw [block_cons (t := .keyword .function_) ⟨nofun, nofun⟩, hfunction]
  rfl

end Parsing

/-! ## The patterns of the API -/

/-- The characters that the pattern of a cookie's name excludes besides control characters. -/
def separators : List Char :=
  ['(', ')', '<', '>', '@', ',', ';', ':', '\\', '"', '/', '[', ']', '?', '=', '{', '}', ' ', '\t']

def IsControl (c : Char) : Prop := c.toNat < 0x20 ∨ c.toNat = 0x7f
  deriving Decidable

/-- The patterns of `CookieRewritePolicy`, `CookiePathRewrite` and `CookieDomainRewrite` and the
values that `SameSite` may have. -/
structure CookieConforms (p : CookieRewritePolicy) : Prop where
  name : p.name ≠ "" ∧ ∀ c ∈ p.name.toList, c ∉ separators ∧ ¬IsControl c
  path : ∀ v, p.path = some v → v ≠ "" ∧ ∀ c ∈ v.toList, c ≠ ';' ∧ ¬IsControl c
  domain : ∀ v, p.domain = some v → ∀ label ∈ v.toList.splitOn '.', IsLabel label
  sameSite : ∀ v, p.sameSite = some v → v ∈ ["Strict", "Lax", "None"]

theorem plain_of_not_control (hcontrol : ¬IsControl c) (hquote : c ≠ '"') (hbackslash : c ≠ '\\') :
    Plain c := by
  refine ⟨hquote, ?_, hbackslash⟩
  rintro rfl
  exact hcontrol (.inl (by decide))

theorem plain_of_isAlnum (h : IsAlnum c) : Plain c := by
  refine ⟨?_, ?_, ?_⟩ <;>
  · rintro rfl
    revert h
    unfold IsAlnum
    decide

theorem mem_splitOn {l : List Char} {x : Char} (hc : c ∈ l) :
    c = x ∨ ∃ part ∈ l.splitOn x, c ∈ part := by
  have hjoin : [x].intercalate (l.splitOn x) = l := intercalate_splitOn x
  rw [← hjoin] at hc
  generalize l.splitOn x = parts at hc ⊢
  induction parts with
  | nil => cases hc
  | cons part parts ih =>
    cases parts with
    | nil => exact .inr ⟨part, mem_cons_self, by simpa using hc⟩
    | cons next parts =>
      rw [intercalate_cons_cons, mem_append, mem_append, mem_singleton] at hc
      rcases hc with (hc | hc) | hc
      · exact .inr ⟨part, mem_cons_self, hc⟩
      · exact .inl hc
      · rcases ih hc with heq | ⟨part', hmem, hc⟩
        · exact .inl heq
        · exact .inr ⟨part', mem_cons_of_mem _ hmem, hc⟩

/-- Only a path can leave its literal. -/
theorem CookieConforms.plain (h : CookieConforms p) : PlainPolicy p where
  name := by
    intro c hc
    obtain ⟨hseparator, hcontrol⟩ := h.name.2 c hc
    apply plain_of_not_control hcontrol
    · rintro rfl
      exact hseparator (by decide)
    · rintro rfl
      exact hseparator (by decide)
  domain := by
    intro v hv c hc
    rcases mem_splitOn (x := '.') hc with rfl | ⟨label, hlabel, hmem⟩
    · decide
    · rcases (h.domain v hv label hlabel).inner c hmem with halnum | rfl
      · exact plain_of_isAlnum halnum
      · decide
  sameSite := by
    intro v hv
    have hmem := h.sameSite v hv
    simp only [mem_cons, not_mem_nil, or_false] at hmem
    rcases hmem with rfl | rfl | rfl
    · exact forall_mem_of_all (by decide)
    · exact forall_mem_of_all (by decide)
    · exact forall_mem_of_all (by decide)

/-! ## Merged policies -/

/-- The path that the last policy for a cookie with a path gives. -/
def lastPath (name : String) (policies : List CookieRewritePolicy) : Option String :=
  ((policies.filter fun p => p.name = name).filterMap (·.path)).getLast?

theorem lookup_mergeCookiePolicy (merged : Map String CookieRewritePolicy)
    (p : CookieRewritePolicy) (name : String) :
    (mergeCookiePolicy merged p).lookup name =
      if name = p.name then some (updatePolicy p (merged.lookup p.name))
      else merged.lookup name :=
  Map.lookup_insert_eq merged p.name name _

theorem updatePolicy_path (p : CookieRewritePolicy) (old : Option CookieRewritePolicy) :
    (updatePolicy p old).path = (p.path <|> old.bind (·.path)) := by
  cases old with
  | none => cases hpath : p.path <;> simp [updatePolicy, hpath]
  | some old => rfl

theorem lastPath_cons (name : String) (p : CookieRewritePolicy)
    (policies : List CookieRewritePolicy) :
    lastPath name (p :: policies) =
      (lastPath name policies <|> if name = p.name then p.path else none) := by
  unfold lastPath
  by_cases hname : name = p.name
  · rw [filter_cons_of_pos (by simp [hname]), if_pos hname]
    cases hpath : p.path with
    | none => rw [filterMap_cons_none hpath]; simp
    | some v =>
      rw [filterMap_cons_some hpath, getLast?_cons]
      cases (filterMap _ _).getLast? <;> rfl
  · rw [filter_cons_of_neg (by simp [Ne.symm hname]), if_neg hname]
    simp

theorem foldl_mergeCookiePolicy_path (policies : List CookieRewritePolicy)
    (merged : Map String CookieRewritePolicy) (name : String) :
    ((policies.foldl mergeCookiePolicy merged).lookup name).bind (·.path) =
      (lastPath name policies <|> (merged.lookup name).bind (·.path)) := by
  induction policies generalizing merged with
  | nil => rfl
  | cons p policies ih =>
    have hstep : ((mergeCookiePolicy merged p).lookup name).bind (·.path) =
        ((if name = p.name then p.path else none) <|> (merged.lookup name).bind (·.path)) := by
      rw [lookup_mergeCookiePolicy]
      by_cases hname : name = p.name
      · rw [if_pos hname, if_pos hname, Option.bind_some, updatePolicy_path, ← hname]
      · rw [if_neg hname, if_neg hname]
        rfl
    rw [foldl_cons, ih, hstep, lastPath_cons]
    cases lastPath name policies <;> rfl

/-- Merging keeps the patterns: every value is one that some policy gave. -/
theorem CookieConforms.updatePolicy {old : Option CookieRewritePolicy} (hp : CookieConforms p)
    (hold : ∀ q, old = some q → CookieConforms q) : CookieConforms (updatePolicy p old) := by
  cases old with
  | none => exact hp
  | some old =>
    have hold := hold old rfl
    refine ⟨hold.name, ?_, ?_, ?_⟩
    · intro v hv
      rcases (Option.orElse_eq_some ..).mp hv with hnew | ⟨-, hkept⟩
      · exact hp.path v hnew
      · exact hold.path v hkept
    · intro v hv
      rcases (Option.orElse_eq_some ..).mp hv with hnew | ⟨-, hkept⟩
      · exact hp.domain v hnew
      · exact hold.domain v hkept
    · intro v hv
      rcases (Option.orElse_eq_some ..).mp hv with hnew | ⟨-, hkept⟩
      · exact hp.sameSite v hnew
      · exact hold.sameSite v hkept

theorem foldl_mergeCookiePolicy_conforms {merged : Map String CookieRewritePolicy}
    (hp : ∀ p ∈ policies, CookieConforms p)
    (h : ∀ name q, merged.lookup name = some q → CookieConforms q) :
    ∀ name q, (policies.foldl mergeCookiePolicy merged).lookup name = some q →
      CookieConforms q := by
  induction policies generalizing merged with
  | nil => exact h
  | cons p policies ih =>
    obtain ⟨hfirst, hrest⟩ := forall_mem_cons.mp hp
    apply ih hrest
    intro name q hq
    rw [lookup_mergeCookiePolicy] at hq
    by_cases hname : name = p.name
    · rw [if_pos hname] at hq
      cases hq
      exact hfirst.updatePolicy fun old hold => h _ old hold
    · rw [if_neg hname] at hq
      exact h name q hq

theorem conforms_cookieRewriteConfig (ord : MapOrder) (site : String)
    {routePolicies clusterPolicies : List CookieRewritePolicy}
    (h : ∀ p ∈ routePolicies ++ clusterPolicies, CookieConforms p) :
    ∀ p ∈ cookieRewriteConfig ord site routePolicies clusterPolicies, CookieConforms p := by
  intro p hp
  obtain ⟨name, hname⟩ := ord.mem_values.mp hp
  apply foldl_mergeCookiePolicy_conforms h _ name p hname
  intro name q hq
  cases hq

/-- The paths of the merged policies are the last ones given. -/
theorem plainPath_cookieRewriteConfig (ord : MapOrder) (site : String)
    (routePolicies clusterPolicies : List CookieRewritePolicy) :
    (∀ p ∈ cookieRewriteConfig ord site routePolicies clusterPolicies, PlainPath p) ↔
      ∀ name path, lastPath name (routePolicies ++ clusterPolicies) = some path →
        ∀ c ∈ path.toList, Plain c := by
  have hpath : ∀ name, (((routePolicies ++ clusterPolicies).foldl mergeCookiePolicy ∅).lookup
      name).bind (·.path) = lastPath name (routePolicies ++ clusterPolicies) := by
    intro name
    rw [foldl_mergeCookiePolicy_path]
    cases lastPath name (routePolicies ++ clusterPolicies) <;> rfl
  constructor
  · intro h name path hlast
    rw [← hpath name] at hlast
    obtain ⟨p, hp, hv⟩ := Option.bind_eq_some_iff.mp hlast
    exact h p (ord.mem_values.mpr ⟨name, hp⟩) path hv
  · intro h p hp v hv
    obtain ⟨name, hname⟩ := ord.mem_values.mp hp
    apply h name v
    rw [← hpath name, hname]
    exact hv

/-- The program is what the policies describe: its literals denote the values of the policies,
and it has no statement that the policies and the template do not call for. -/
structure Faithful (policies : List CookieRewritePolicy) : Prop where
  tokens : lex (cookieRewriteCode policies).toList = some (codeTokens policies)
  program : parse (cookieRewriteCode policies).toList = some (cookieRewriteProgram policies)

theorem faithful_iff_tokens :
    Faithful policies ↔ lex (cookieRewriteCode policies).toList = some (codeTokens policies) := by
  constructor
  · intro h
    exact h.tokens
  · intro h
    refine ⟨h, ?_⟩
    rw [parse, h]
    exact parseProgram_codeTokens policies

/-- For policies that conform to the patterns of the API, the program is the one that they
describe exactly if the path that is given last for each cookie has neither quotes nor
backslashes, which the pattern of a path admits. -/
theorem cookieRewriteCode_faithful_iff (ord : MapOrder) (site : String)
    {routePolicies clusterPolicies : List CookieRewritePolicy}
    (h : ∀ p ∈ routePolicies ++ clusterPolicies, CookieConforms p) :
    Faithful (cookieRewriteConfig ord site routePolicies clusterPolicies) ↔
      ∀ name path, lastPath name (routePolicies ++ clusterPolicies) = some path →
        '"' ∉ path.toList ∧ '\\' ∉ path.toList := by
  have hplain : ∀ p ∈ cookieRewriteConfig ord site routePolicies clusterPolicies, PlainPolicy p :=
    fun p hp => (conforms_cookieRewriteConfig ord site h p hp).plain
  rw [faithful_iff_tokens, lex_cookieRewriteCode_iff hplain, plainPath_cookieRewriteConfig]
  constructor
  · intro hpaths name path hlast
    have hchars := hpaths name path hlast
    exact ⟨fun hmem => (hchars _ hmem).1 rfl, fun hmem => (hchars _ hmem).2.2 rfl⟩
  · intro hpaths name path hlast c hc
    obtain ⟨hquote, hbackslash⟩ := hpaths name path hlast
    obtain ⟨p, hp, hpath⟩ := mem_filterMap.mp (mem_of_getLast? hlast)
    have hcontrol := (((h p (mem_of_mem_filter hp)).path path hpath).2 c hc).2
    apply plain_of_not_control hcontrol
    · rintro rfl
      exact hquote hc
    · rintro rfl
      exact hbackslash hc

/-- A policy whose path ends the literal and calls a function. -/
def escapingPolicy : CookieRewritePolicy where
  name := "session"
  path := some "/\" os.exit() x=\""

theorem conforms_escapingPolicy : CookieConforms escapingPolicy where
  name := ⟨by decide, forall_mem_of_all (by decide)⟩
  path := by
    intro v hv
    cases hv
    exact ⟨by decide, forall_mem_of_all (by decide)⟩
  domain := nofun
  sameSite := nofun

/-- The path is admitted, and the line for it is an assignment followed by a call. -/
theorem quote_in_path_escapes :
    CookieConforms escapingPolicy ∧
    ¬Faithful (cookieRewriteConfig .storage "" [escapingPolicy] []) ∧
    lex (attributeLine "Path" escapingPolicy.path).toList =
      some [.name "attributes", .symbol .openBracket, .string "Path", .symbol .closeBracket,
        .symbol .assign, .string "Path=/", .name "os", .symbol .dot, .name "exit",
        .symbol .openParen, .symbol .closeParen, .name "x", .symbol .assign, .string ""] := by
  refine ⟨conforms_escapingPolicy, ?_, ?_⟩
  · intro hfaithful
    have hconfig : cookieRewriteConfig .storage "" [escapingPolicy] [] = [escapingPolicy] := rfl
    rw [hconfig] at hfaithful
    have hplain : ∀ p ∈ [escapingPolicy], PlainPolicy p :=
      forall_mem_singleton.mpr conforms_escapingPolicy.plain
    have hpath := (lex_cookieRewriteCode_iff hplain).mp hfaithful.tokens _ mem_cons_self
    exact absurd (hpath _ rfl '"' (by decide)) (by decide)
  · decide +kernel

/-- A policy with a plain path, from a cluster. -/
theorem plain_path_faithful :
    Faithful (cookieRewriteConfig .storage "" []
      [{ name := "session", path := some "/app", secure := 2 }]) := by
  apply (cookieRewriteCode_faithful_iff .storage "" ?_).mpr
  · intro name path hlast
    obtain ⟨p, hp, hpath⟩ := mem_filterMap.mp (mem_of_getLast? hlast)
    obtain rfl := mem_singleton.mp (mem_of_mem_filter hp)
    cases hpath
    decide
  · intro p hp
    obtain rfl := mem_singleton.mp hp
    refine ⟨⟨by decide, forall_mem_of_all (by decide)⟩, ?_, nofun, nofun⟩
    intro v hv
    cases hv
    exact ⟨by decide, forall_mem_of_all (by decide)⟩

/-! ## Rules of a route and a cluster -/

section

variable {routePolicies clusterPolicies : List CookieRewritePolicy}
  {policies : List CookieRewritePolicy} {p : CookieRewritePolicy}

/-- The rule for a cookie: the cluster's, with what it leaves open from the route's. -/
def ruleFor (routePolicies clusterPolicies : List CookieRewritePolicy) (name : String) :
    Option CookieRewritePolicy :=
  (clusterPolicies.find? (·.name = name)).elim (routePolicies.find? (·.name = name)) fun p =>
    some (updatePolicy p (routePolicies.find? (·.name = name)))

theorem lookup_foldl_mergeCookiePolicy (h : (policies.map CookieRewritePolicy.name).Nodup)
    (merged : Map String CookieRewritePolicy) (name : String) :
    (policies.foldl mergeCookiePolicy merged).lookup name =
      (policies.find? (·.name = name)).elim (merged.lookup name) fun p =>
        some (updatePolicy p (merged.lookup name)) := by
  induction policies generalizing merged with
  | nil => rfl
  | cons p policies ih =>
    obtain ⟨hnew, hrest⟩ := nodup_cons.mp h
    rw [foldl_cons, ih hrest, lookup_mergeCookiePolicy, find?_cons]
    by_cases hname : name = p.name
    · subst hname
      have hnone : policies.find? (·.name = p.name) = none := by
        rw [find?_eq_none]
        exact fun q hq hsame => hnew (mem_map.mpr ⟨q, hq, of_decide_eq_true hsame⟩)
      simp [hnone]
    · simp [hname, Ne.symm hname]

variable (hroute : (routePolicies.map CookieRewritePolicy.name).Nodup)
  (hcluster : (clusterPolicies.map CookieRewritePolicy.name).Nodup)

include hroute hcluster

theorem lookup_merged (name : String) :
    ((routePolicies ++ clusterPolicies).foldl mergeCookiePolicy ∅).lookup name =
      ruleFor routePolicies clusterPolicies name := by
  rw [foldl_append, lookup_foldl_mergeCookiePolicy hcluster,
    lookup_foldl_mergeCookiePolicy hroute, ruleFor]
  cases routePolicies.find? (·.name = name) <;> rfl

omit hroute hcluster in
theorem ruleFor_name {name : String} (h : ruleFor routePolicies clusterPolicies name = some p) :
    p.name = name := by
  have hfind : ∀ {l : List CookieRewritePolicy} {q}, l.find? (·.name = name) = some q →
      q.name = name := fun hq => by simpa using find?_some hq
  rw [ruleFor] at h
  cases hc : clusterPolicies.find? (·.name = name) with
  | none => exact hfind (by rwa [hc] at h)
  | some q =>
    rw [hc] at h
    cases hr : routePolicies.find? (·.name = name) with
    | none =>
      rw [hr] at h
      cases h
      exact hfind hc
    | some old =>
      rw [hr] at h
      cases h
      exact (hfind hr : old.name = name)

/-- There is one rule for every cookie that a policy names. -/
theorem rules_cookieRewriteConfig (ord : MapOrder) (site : String) :
    ((cookieRewriteConfig ord site routePolicies clusterPolicies).map
        CookieRewritePolicy.name).Nodup ∧
      ∀ p, p ∈ cookieRewriteConfig ord site routePolicies clusterPolicies ↔
        ruleFor routePolicies clusterPolicies p.name = some p := by
  set merged := (routePolicies ++ clusterPolicies).foldl mergeCookiePolicy ∅ with hmerged
  have hkey : ∀ e ∈ ord.range site merged, e.2.name = e.1 := by
    intro e he
    rw [ord.mem_range, lookup_merged hroute hcluster] at he
    exact ruleFor_name he
  constructor
  · have hnames : (cookieRewriteConfig ord site routePolicies clusterPolicies).map
        CookieRewritePolicy.name = (ord.range site merged).map Prod.fst := by
      rw [cookieRewriteConfig, MapOrder.values, map_map]
      exact map_congr_left hkey
    rw [hnames]
    exact ord.nodup_range_keys site merged
  · intro p
    rw [cookieRewriteConfig, ord.mem_values]
    simp only [lookup_merged hroute hcluster]
    constructor
    · rintro ⟨name, h⟩
      exact ruleFor_name h ▸ h
    · exact fun h => ⟨_, h⟩

omit hroute hcluster in
/-- The first cookie can be read off the program. -/
theorem name_eq_of_code_eq {q : CookieRewritePolicy} {ps qs : List CookieRewritePolicy}
    (hp : '"' ∉ p.name.toList) (hq : '"' ∉ q.name.toList)
    (h : cookieRewriteCode (p :: ps) = cookieRewriteCode (q :: qs)) : p.name = q.name := by
  have hcode : ∀ (p : CookieRewritePolicy) ps, ∃ tail : String, cookieRewriteCode (p :: ps) =
      (codeHead ++ ("\n\tfunction " ++ rewriteFunction 0 ++
        "(attributes)\n\t\tresponse_handle:logDebug(" ++ "\"rewriting cookie \\\"")) ++
        (p.name ++ ("\\\"\"" ++ tail)) := by
    intro p ps
    rw [cookieRewriteCode, zipIdx_cons, map_cons, String.join_cons]
    dsimp only [rewriteCode]
    generalize String.join codeTail = code
    simp only [String.append_assoc, -String.reduceAppend]
    exact ⟨_, rfl⟩
  obtain ⟨tail, htail⟩ := hcode p ps
  obtain ⟨tail', htail'⟩ := hcode q qs
  rw [htail, htail'] at h
  have htake := congrArg (fun s => s.toList.takeWhile (· ≠ '"')) ((String.append_right_inj _).mp h)
  have hname : ∀ {s : String} (tail : String), '"' ∉ s.toList →
      (s ++ ("\\\"\"" ++ tail)).toList.takeWhile (· ≠ '"') = s.toList ++ ['\\'] := by
    intro s tail hs
    have hplain : ∀ c ∈ s.toList, decide (c ≠ '"') = true := fun c hc =>
      decide_eq_true fun heq => hs (heq ▸ hc)
    rw [String.toList_append, takeWhile_append_of_pos hplain, String.toList_append]
    rfl
  have hnames := (hname tail hp).symm.trans (htake.trans (hname tail' hq))
  exact String.toList_inj.mp (append_cancel_right hnames)

omit hroute hcluster in
/-- A program that does not depend on the order of its rules has one at most. -/
theorem eq_of_code_reverse (hplain : ∀ p ∈ policies, '"' ∉ p.name.toList)
    (hnodup : (policies.map CookieRewritePolicy.name).Nodup)
    (h : cookieRewriteCode policies = cookieRewriteCode policies.reverse) :
    ∀ p ∈ policies, ∀ q ∈ policies, p = q := by
  cases policies with
  | nil => simp
  | cons p policies =>
    rcases policies.eq_nil_or_concat with rfl | ⟨front, last, rfl⟩
    · simp
    · rw [reverse_cons, concat_eq_append, reverse_concat, cons_append] at h
      have hname := name_eq_of_code_eq (hplain p (by simp)) (hplain last (by simp)) h
      rw [map_cons, nodup_cons, hname] at hnodup
      exact absurd (mem_map_of_mem (by simp)) hnodup.1

end

/-! ### Slices -/

section

variable {α : Type} {heap : Nat → List α} {s : Slice}

/-- A slice: its array, where it starts in it, and its length and capacity. -/
structure Slice where
  array : Nat
  start : Nat
  len : Nat
  cap : Nat

namespace Slice

def contents (heap : Nat → List α) (s : Slice) : List α := ((heap s.array).drop s.start).take s.len

/-- The array reaches as far as the slice may grow. -/
def Allocated (heap : Nat → List α) (s : Slice) : Prop :=
  s.len ≤ s.cap ∧ s.start + s.cap ≤ (heap s.array).length

/-- `append(s, xs...)`: in the spare capacity of the slice, or else to the array `fresh`. -/
def append (heap : Nat → List α) (fresh : Nat) (s : Slice) (xs : List α) : (Nat → List α) × Slice :=
  if s.len + xs.length ≤ s.cap then
    (Function.update heap s.array ((heap s.array).take (s.start + s.len) ++ xs ++
      (heap s.array).drop (s.start + s.len + xs.length)), { s with len := s.len + xs.length })
  else
    (Function.update heap fresh (s.contents heap ++ xs),
      { array := fresh, start := 0, len := s.len + xs.length, cap := s.len + xs.length })

/-- Appending gives the elements of both, and changes no slice that begins with the one
appended to or has an array of its own. -/
theorem append_contents (h : s.Allocated heap) (fresh : Nat) (xs : List α) :
    (s.append heap fresh xs).2.contents (s.append heap fresh xs).1 = s.contents heap ++ xs ∧
      ∀ other : Slice, other = s ∨ other.array ≠ s.array → other.array ≠ fresh →
        other.contents (s.append heap fresh xs).1 = other.contents heap := by
  obtain ⟨hlen, hcap⟩ := h
  have hlength : (s.contents heap).length = s.len := by
    rw [contents, length_take, length_drop]
    omega
  unfold append
  split
  · next hroom =>
    have hdrop : ((heap s.array).take (s.start + s.len) ++ xs ++
        (heap s.array).drop (s.start + s.len + xs.length)).drop s.start = s.contents heap ++
          (xs ++ (heap s.array).drop (s.start + s.len + xs.length)) := by
      rw [append_assoc, drop_append_of_le_length (by rw [length_take]; omega),
        drop_take, Nat.add_sub_cancel_left]
      rfl
    dsimp only
    constructor
    · rw [contents, Function.update_self, hdrop, ← append_assoc, take_left' (by simp [hlength])]
    · rintro other (rfl | harray) -
      · rw [contents, Function.update_self, hdrop, take_left' hlength]
      · rw [contents, Function.update_of_ne harray, contents]
  · dsimp only
    constructor
    · rw [contents, Function.update_self, drop_zero, take_of_length_le (by simp [hlength])]
    · intro other _ hfresh
      rw [contents, Function.update_of_ne hfresh, contents]

end Slice

end

/-- What `cookieRewriteConfig` is for: one rule per cookie, the same text for every
iteration order, and no list changed by its `append`. -/
structure RulesMerged (site : String) (routePolicies clusterPolicies : List CookieRewritePolicy) :
    Prop where
  unique : ∀ ord, ((cookieRewriteConfig ord site routePolicies clusterPolicies).map
    CookieRewritePolicy.name).Nodup
  rules : ∀ ord p, p ∈ cookieRewriteConfig ord site routePolicies clusterPolicies ↔
    ruleFor routePolicies clusterPolicies p.name = some p
  named : ∀ name, (ruleFor routePolicies clusterPolicies name).isSome ↔
    ∃ p ∈ routePolicies ++ clusterPolicies, p.name = name
  text : ∀ ord ord',
    cookieRewriteCode (cookieRewriteConfig ord site routePolicies clusterPolicies) =
      cookieRewriteCode (cookieRewriteConfig ord' site routePolicies clusterPolicies)
  kept : ∀ (heap : Nat → List CookieRewritePolicy) (fresh : Nat) (route : Slice),
    route.Allocated heap → route.contents heap = routePolicies →
      (route.append heap fresh clusterPolicies).2.contents
          (route.append heap fresh clusterPolicies).1 = routePolicies ++ clusterPolicies ∧
        ∀ other : Slice, other = route ∨ other.array ≠ route.array → other.array ≠ fresh →
          other.contents (route.append heap fresh clusterPolicies).1 = other.contents heap

section

variable {routePolicies clusterPolicies : List CookieRewritePolicy}

theorem ruleFor_isSome_iff (name : String) : (ruleFor routePolicies clusterPolicies name).isSome ↔
    ∃ p ∈ routePolicies ++ clusterPolicies, p.name = name := by
  have hfound : ∀ l : List CookieRewritePolicy,
      (l.find? (·.name = name)).isSome ↔ ∃ p ∈ l, p.name = name := fun l => by simp
  simp only [mem_append, or_and_right, exists_or, ← hfound, ruleFor]
  cases clusterPolicies.find? (·.name = name) <;> simp

/-- The rules are right, but the functions of the program are numbered in the order of the
map, which is fixed only if there is one of them. -/
theorem rulesMerged_iff (hroute : (routePolicies.map CookieRewritePolicy.name).Nodup)
    (hcluster : (clusterPolicies.map CookieRewritePolicy.name).Nodup) (site : String) :
    ((∀ p ∈ routePolicies ++ clusterPolicies, ∀ q ∈ routePolicies ++ clusterPolicies,
        p.name = q.name) → RulesMerged site routePolicies clusterPolicies) ∧
      ((∀ p ∈ routePolicies ++ clusterPolicies, '"' ∉ p.name.toList) →
        RulesMerged site routePolicies clusterPolicies →
        ∀ p ∈ routePolicies ++ clusterPolicies, ∀ q ∈ routePolicies ++ clusterPolicies,
          p.name = q.name) := by
  have hrules := rules_cookieRewriteConfig hroute hcluster
  have hnamed : ∀ ord, ∀ p ∈ cookieRewriteConfig ord site routePolicies clusterPolicies,
      ∃ q ∈ routePolicies ++ clusterPolicies, q.name = p.name := fun ord p hp =>
    (ruleFor_isSome_iff _).mp (((hrules ord site).2 p).mp hp ▸ rfl)
  constructor
  · intro hsame
    refine ⟨fun ord => (hrules ord site).1, fun ord => (hrules ord site).2, ruleFor_isSome_iff,
      fun ord ord' => congrArg cookieRewriteCode ?_, fun heap fresh route halloc hcontents =>
        hcontents ▸ Slice.append_contents halloc fresh clusterPolicies⟩
    have hperm : (cookieRewriteConfig ord site routePolicies clusterPolicies).Perm
        (cookieRewriteConfig ord' site routePolicies clusterPolicies) :=
      ord.values_perm ord' site _
    match hconfig : cookieRewriteConfig ord site routePolicies clusterPolicies with
    | [] => exact (perm_nil.mp (hconfig ▸ hperm).symm).symm
    | [a] => exact (perm_singleton.mp (hconfig ▸ hperm).symm).symm
    | a :: b :: rest =>
      obtain ⟨p, hp, hpname⟩ := hnamed ord a (by simp [hconfig])
      obtain ⟨q, hq, hqname⟩ := hnamed ord b (by simp [hconfig])
      have hnodup := (hrules ord site).1
      rw [hconfig, map_cons, map_cons, nodup_cons] at hnodup
      exact absurd (by rw [← hpname, hsame p hp q hq, hqname]; exact mem_cons_self) hnodup.1
  · intro hquote hmerged p hp q hq
    have hplain : ∀ a ∈ cookieRewriteConfig .storage site routePolicies clusterPolicies,
        '"' ∉ a.name.toList := by
      intro a ha
      obtain ⟨b, hb, hname⟩ := hnamed .storage a ha
      exact hname ▸ hquote b hb
    have hreversed : cookieRewriteConfig (.reversedAt site) site routePolicies clusterPolicies =
        (cookieRewriteConfig .storage site routePolicies clusterPolicies).reverse := by
      simp [cookieRewriteConfig, MapOrder.values, MapOrder.range, MapOrder.reversedAt,
        MapOrder.storage]
    have htext := hmerged.text .storage (.reversedAt site)
    rw [hreversed] at htext
    -- Every cookie that is named has a rule, and there is no second rule.
    have hrule : ∀ p ∈ routePolicies ++ clusterPolicies,
        ∃ a ∈ cookieRewriteConfig .storage site routePolicies clusterPolicies, a.name = p.name := by
      intro p hp
      obtain ⟨a, ha⟩ := Option.isSome_iff_exists.mp ((ruleFor_isSome_iff p.name).mpr ⟨p, hp, rfl⟩)
      have hname := ruleFor_name ha
      exact ⟨a, ((hrules .storage site).2 a).mpr (hname ▸ ha), hname⟩
    obtain ⟨a, ha, hpname⟩ := hrule p hp
    obtain ⟨b, hb, hqname⟩ := hrule q hq
    rw [← hpname, ← hqname]
    rw [eq_of_code_reverse hplain (hrules .storage site).1 htext a ha b hb]

end

theorem one_cookie_merged : RulesMerged "" [⟨"id", some "/", none, 0, none⟩]
    [⟨"id", none, none, 2, none⟩] :=
  (rulesMerged_iff (by simp) (by simp) "").1 (by simp)

/-- A route that rewrites two cookies has two programs. -/
theorem two_cookies_two_programs :
    cookieRewriteCode (cookieRewriteConfig .storage ""
        [⟨"id", none, none, 2, none⟩, ⟨"lang", none, none, 2, none⟩] []) ≠
      cookieRewriteCode (cookieRewriteConfig (.reversedAt "") ""
        [⟨"id", none, none, 2, none⟩, ⟨"lang", none, none, 2, none⟩] []) := by
  intro h
  have hname := name_eq_of_code_eq (p := ⟨"lang", none, none, 2, none⟩)
    (q := ⟨"id", none, none, 2, none⟩) (by decide) (by decide) h
  exact absurd hname (by decide)

end Sesame.Envoy
