/-
# Access log formats

`pkg/config`: the access log formats that a configuration may give, as text or as a
list of JSON fields. The text is cut into tokens by the regular expression
`%(([A-Z_]+)(\([^)]+\)(:[0-9]+)?)?%)?`, whose parts exclude each other by their first
character, so that a match is found without trying alternatives.
-/

import Sesame.Lib.Except
import Sesame.Lib.Maps

namespace Sesame.Config

open List
open Lib

def jsonFields : List (String × String) :=
  [("@timestamp", "%START_TIME%"), ("ts", "%START_TIME%"), ("authority", "%REQ(:AUTHORITY)%"),
    ("method", "%REQ(:METHOD)%"), ("path", "%REQ(X-ENVOY-ORIGINAL-PATH?:PATH)%"),
    ("request_id", "%REQ(X-REQUEST-ID)%"), ("uber_trace_id", "%REQ(UBER-TRACE-ID)%"),
    ("upstream_service_time", "%RESP(X-ENVOY-UPSTREAM-SERVICE-TIME)%"),
    ("user_agent", "%REQ(USER-AGENT)%"), ("x_forwarded_for", "%REQ(X-FORWARDED-FOR)%"),
    ("x_trace_id", "%REQ(X-TRACE-ID)%")]

def envoySimpleOperators : List String :=
  ["BYTES_RECEIVED", "BYTES_SENT", "CONNECTION_ID", "CONNECTION_TERMINATION_DETAILS",
    "DOWNSTREAM_DIRECT_REMOTE_ADDRESS", "DOWNSTREAM_DIRECT_REMOTE_ADDRESS_WITHOUT_PORT",
    "DOWNSTREAM_LOCAL_ADDRESS", "DOWNSTREAM_LOCAL_ADDRESS_WITHOUT_PORT", "DOWNSTREAM_LOCAL_PORT",
    "DOWNSTREAM_LOCAL_SUBJECT", "DOWNSTREAM_LOCAL_URI_SAN", "DOWNSTREAM_PEER_CERT",
    "DOWNSTREAM_PEER_CERT_V_END", "DOWNSTREAM_PEER_CERT_V_START", "DOWNSTREAM_PEER_FINGERPRINT_1",
    "DOWNSTREAM_PEER_FINGERPRINT_256", "DOWNSTREAM_PEER_ISSUER", "DOWNSTREAM_PEER_SERIAL",
    "DOWNSTREAM_PEER_SUBJECT", "DOWNSTREAM_PEER_URI_SAN", "DOWNSTREAM_REMOTE_ADDRESS",
    "DOWNSTREAM_REMOTE_ADDRESS_WITHOUT_PORT", "DOWNSTREAM_TLS_CIPHER", "DOWNSTREAM_TLS_SESSION_ID",
    "DOWNSTREAM_TLS_VERSION", "DURATION", "GRPC_STATUS", "HOSTNAME", "LOCAL_REPLY_BODY", "PROTOCOL",
    "REQUESTED_SERVER_NAME", "REQUEST_DURATION", "RESPONSE_CODE", "RESPONSE_CODE_DETAILS",
    "RESPONSE_DURATION", "RESPONSE_FLAGS", "RESPONSE_TX_DURATION", "ROUTE_NAME", "START_TIME",
    "UPSTREAM_CLUSTER", "UPSTREAM_HOST", "UPSTREAM_LOCAL_ADDRESS",
    "UPSTREAM_TRANSPORT_FAILURE_REASON"]

def envoyComplexOperators : List String :=
  ["REQ", "RESP", "START_TIME", "TRAILER", "REQ_WITHOUT_QUERY"]

/-! ## Tokens -/

/-- A match of `commandOperatorRegexp` by its capture groups 2 to 4, which are empty where
only a percent sign matches; the arguments end with the truncation length. -/
structure Token where
  op : List Char := []
  args : List Char := []
  length : List Char := []

/-- Capture group 1. -/
def Token.full (t : Token) : List Char :=
  if t.op = [] then [] else t.op ++ t.args ++ ['%']

/-- The class `[A-Z_]`. -/
def isOperatorChar (c : Char) : Bool := ('A' ≤ c && c ≤ 'Z') || c = '_'

/-- The match of `(:[0-9]+)?%`. -/
def matchLength : List Char → Option (List Char)
  | '%' :: _ => some []
  | ':' :: rest =>
    let digits := rest.takeWhile Char.isDigit
    if digits ≠ [] ∧ (rest.dropWhile Char.isDigit).head? = some '%' then some (':' :: digits)
    else none
  | _ => none

def matchOperator (cs : List Char) : Option Token :=
  let op := cs.takeWhile isOperatorChar
  if op = [] then none
  else
    match cs.dropWhile isOperatorChar with
    | '%' :: _ => some { op }
    | '(' :: rest =>
      let inner := rest.takeWhile (· ≠ ')')
      match rest.dropWhile (· ≠ ')') with
      | ')' :: rest =>
        if inner = [] then none
        else (matchLength rest).map fun length =>
          { op, args := '(' :: inner ++ ')' :: length, length }
      | _ => none
    | _ => none

/-- The tokens of a text, `skip` characters of which belong to the last one. -/
def tokensFrom : Nat → List Char → List Token
  | _, [] => []
  | skip + 1, _ :: cs => tokensFrom skip cs
  | 0, c :: cs =>
    if c = '%' then
      let t := (matchOperator cs).getD {}
      t :: tokensFrom t.full.length cs
    else tokensFrom 0 cs

/-- The `%s` rendering of the submatches of a token. -/
def Token.text (t : Token) : String :=
  "[" ++ " ".intercalate (['%' :: t.full, t.full, t.op, t.args, t.length].map String.ofList) ++ "]"

/-- The loop of `parseAccessLogFormat`. -/
def checkToken (t : Token) : Except String Unit :=
  let op := String.ofList t.op
  if op = "" then .error ("invalid Envoy format: " ++ t.text)
  else if op ∉ envoySimpleOperators ∧ op ∉ envoyComplexOperators then
    .error ("invalid Envoy format: " ++ t.text ++ ", invalid Envoy operator: " ++ op)
  else if op ∈ ["REQ", "RESP", "TRAILER", "REQ_WITHOUT_QUERY"] ∧ t.args = [] then
    .error ("invalid Envoy format: " ++ t.text ++ ", arguments required for operator: " ++ op)
  else if op = "START_TIME" ∧ t.length ≠ [] then
    .error ("invalid Envoy format: " ++ t.text ++ ", operator " ++ op ++
      " cannot have truncation length")
  else .ok ()

def parseAccessLogFormat (format : String) : Except String Unit :=
  (tokensFrom 0 format.toList).forM checkToken

/-! ## JSON fields -/

/-- A text with its ASCII letters in upper case, as the names of all operators are. -/
def upperName (s : String) : String := String.ofList (s.toList.map Char.toUpper)

/-- One value in `AsFieldMap`: its key and its format. -/
def fieldOf (val : String) : String × String :=
  if '=' ∈ val.toList then
    (String.ofList (val.toList.takeWhile (· ≠ '=')),
      String.ofList ((val.toList.dropWhile (· ≠ '=')).drop 1))
  else
    (val, match jsonFields.lookup val with
      | some operator => operator
      | none => if upperName val ∈ envoySimpleOperators then "%" ++ upperName val ++ "%" else "")

def asFieldMap (a : List String) : Map String String := Map.ofList (a.map fieldOf)

/-- The loop of `AccessLogFields.Validate`. -/
def checkField (field : String × String) : Except String Unit :=
  if field.2 = "" then .error ("invalid JSON log field name " ++ field.1)
  else if jsonFields.lookup field.1 = some field.2 then .ok ()
  else
    match parseAccessLogFormat field.2 with
    | .error err => .error ("invalid JSON field: " ++ err)
    | .ok () => .ok ()

def validate (ord : MapOrder) (a : List String) : Except String Unit :=
  (ord.range "Validate" (asFieldMap a)).forM checkField

/-! ## The formats that the tables declare -/

inductive Piece
  | literal (text : List Char)
  | simple (op : String)
  | complex (op : String) (args digits : List Char)

def Piece.text : Piece → List Char
  | .literal text => text
  | .simple op => '%' :: (op.toList ++ ['%'])
  | .complex op args digits =>
    '%' :: (op.toList ++ '(' :: args ++ ')' :: (if digits = [] then [] else ':' :: digits) ++ ['%'])

/-- The part is text without percent signs, or an operator of the tables as they say. -/
def Piece.IsFormat : Piece → Prop
  | .literal text => '%' ∉ text
  | .simple op => op ∈ envoySimpleOperators
  | .complex op args digits => op ∈ envoyComplexOperators ∧ args ≠ [] ∧ ')' ∉ args ∧
    (∀ c ∈ digits, c.isDigit) ∧ (op = "START_TIME" → digits = [])

/-- The operator is written in capital letters and underscores. -/
def LettersOnly (op : String) : Prop := ∀ c ∈ op.toList, isOperatorChar c

/-- The tables use letters, underscores and digits. -/
theorem simpleOperators_chars {op : String} (h : op ∈ envoySimpleOperators) :
    op.toList ≠ [] ∧ ∀ c ∈ op.toList, isOperatorChar c ∨ c.isDigit := by
  have htable : (envoySimpleOperators.all fun op => op.toList ≠ [] &&
      op.toList.all fun c => isOperatorChar c || c.isDigit) = true := by decide +kernel
  simpa using all_eq_true.mp htable op h

theorem tokensFrom_append (xs rest : List Char) : tokensFrom xs.length (xs ++ rest) =
    tokensFrom 0 rest := by
  induction xs with
  | nil => rfl
  | cons x xs ih => exact ih

theorem tokensFrom_literal {text : List Char} (h : '%' ∉ text) (rest : List Char) :
    tokensFrom 0 (text ++ rest) = tokensFrom 0 rest := by
  induction text with
  | nil => rfl
  | cons c text ih =>
    rw [mem_cons, not_or] at h
    rw [cons_append, tokensFrom, if_neg (Ne.symm h.1), ih h.2]

/-- How an operator starts: with its letters, and not one more. -/
theorem span_operator {op : List Char} (hop : ∀ c ∈ op, isOperatorChar c) {c : Char}
    (hc : isOperatorChar c = false) (tail : List Char) :
    (op ++ c :: tail).takeWhile isOperatorChar = op ∧
      (op ++ c :: tail).dropWhile isOperatorChar = c :: tail := by
  rw [takeWhile_append_of_pos hop, dropWhile_append_of_pos hop]
  simp [hc]

theorem matchLength_append {digits : List Char} (h : ∀ c ∈ digits, c.isDigit) (rest : List Char) :
    matchLength ((if digits = [] then [] else ':' :: digits) ++ '%' :: rest) =
      some (if digits = [] then [] else ':' :: digits) := by
  split
  · rfl
  · next hne =>
    have htake : (digits ++ '%' :: rest).takeWhile Char.isDigit = digits := by
      rw [takeWhile_append_of_pos h]
      exact append_nil digits
    rw [cons_append, matchLength, htake, dropWhile_append_of_pos h]
    exact if_pos ⟨hne, rfl⟩

/-- The token of a text that starts with a percent sign and what is matched behind it. -/
theorem tokensFrom_of_match {cs : List Char} {t : Token} (hop : t.op ≠ []) (rest : List Char)
    (hcs : cs = t.op ++ t.args ++ '%' :: rest) (h : matchOperator cs = some t) :
    tokensFrom 0 ('%' :: cs) = t :: tokensFrom 0 rest := by
  have hfull : cs = t.full ++ rest := by
    rw [Token.full, if_neg hop, hcs]
    simp
  rw [tokensFrom, if_pos rfl, h, Option.getD_some]
  dsimp only
  rw [hfull, tokensFrom_append]

theorem tokensFrom_simple {op : List Char} (hne : op ≠ []) (hop : ∀ c ∈ op, isOperatorChar c)
    (rest : List Char) :
    tokensFrom 0 ('%' :: (op ++ '%' :: rest)) = { op } :: tokensFrom 0 rest := by
  obtain ⟨htake, hdrop⟩ := span_operator hop (c := '%') (by decide) rest
  refine tokensFrom_of_match hne rest (by simp) ?_
  rw [matchOperator, htake, hdrop]
  exact if_neg hne

theorem tokensFrom_complex {op args digits : List Char} (hne : op ≠ [])
    (hop : ∀ c ∈ op, isOperatorChar c) (hargs : args ≠ []) (hclose : ')' ∉ args)
    (hdigits : ∀ c ∈ digits, c.isDigit) (rest : List Char) :
    ∃ t : Token, t.op = op ∧ t.args ≠ [] ∧ t.length = (if digits = [] then [] else ':' :: digits) ∧
      tokensFrom 0 ('%' :: (op ++ '(' :: (args ++ ')' ::
        ((if digits = [] then [] else ':' :: digits) ++ '%' :: rest)))) =
        t :: tokensFrom 0 rest := by
  set length := if digits = [] then [] else ':' :: digits with hlength
  obtain ⟨htake, hdrop⟩ := span_operator hop (c := '(') (by decide)
    (args ++ ')' :: (length ++ '%' :: rest))
  have hinner : ∀ c ∈ args, decide (c ≠ ')') = true := fun c hc =>
    decide_eq_true fun h => hclose (h ▸ hc)
  refine ⟨{ op, args := '(' :: args ++ ')' :: length, length }, rfl, cons_ne_nil _ _, rfl,
    tokensFrom_of_match hne rest (by simp) ?_⟩
  rw [matchOperator, htake, hdrop]
  simp only [if_neg hne]
  rw [takeWhile_append_of_pos hinner, dropWhile_append_of_pos hinner]
  simp [hargs, hlength, matchLength_append hdigits]

/-- A digit ends the match of an operator. -/
theorem matchOperator_digit {op : List Char} (hop : ∀ c ∈ op, isOperatorChar c ∨ c.isDigit)
    (hdigit : ¬ ∀ c ∈ op, isOperatorChar c) (rest : List Char) :
    matchOperator (op ++ rest) = none := by
  obtain ⟨c, hfind⟩ : ∃ c, op.find? (!isOperatorChar ·) = some c := by
    rw [← Option.isSome_iff_exists, find?_isSome]
    simpa using hdigit
  obtain ⟨hc, front, tail, rfl, hfront⟩ := find?_eq_some_iff_append.mp hfind
  have hdigit : c.isDigit = true := (hop c (by simp)).resolve_left (by simpa using hc)
  have hletters : ∀ c ∈ front, isOperatorChar c := by simpa using hfront
  obtain ⟨-, hdrop⟩ := span_operator hletters (by simpa using hc) (tail ++ rest)
  rw [append_assoc, cons_append, matchOperator, hdrop]
  split
  · rfl
  · split
    · next heq => cases heq; cases hdigit
    · next heq => cases heq; cases hdigit
    · rfl

theorem checkToken_ok {t : Token} {op : String} (hop : t.op = op.toList)
    (hknown : op ∈ envoySimpleOperators ∨ op ∈ envoyComplexOperators)
    (hargs : op ∈ ["REQ", "RESP", "TRAILER", "REQ_WITHOUT_QUERY"] → t.args ≠ [])
    (hlength : op = "START_TIME" → t.length = []) : checkToken t = .ok () := by
  have hne : op ≠ "" := by
    rintro rfl
    exact absurd hknown (by decide)
  rw [checkToken, hop, String.ofList_toList, if_neg hne, if_neg (fun h => hknown.elim h.1 h.2),
    if_neg (fun h => hargs h.1 h.2), if_neg (fun h => h.2 (hlength h.1))]

/-- The tokens of a part in front of a text. -/
theorem checkTokens_text {piece : Piece} (hpiece : piece.IsFormat) (rest : List Char) :
    (∀ t ∈ tokensFrom 0 (piece.text ++ rest), checkToken t = .ok ()) ↔
      (∀ op, piece = .simple op → LettersOnly op) ∧
        ∀ t ∈ tokensFrom 0 rest, checkToken t = .ok () := by
  cases piece with
  | literal text =>
    rw [Piece.text, tokensFrom_literal hpiece]
    simp
  | simple op =>
    obtain ⟨hne, hchars⟩ := simpleOperators_chars hpiece
    rw [Piece.text, cons_append, append_assoc, singleton_append]
    by_cases hletters : LettersOnly op
    · have hargs : (envoySimpleOperators.all
          (· ∉ ["REQ", "RESP", "TRAILER", "REQ_WITHOUT_QUERY"])) = true := by decide
      have hcheck : checkToken { op := op.toList } = .ok () :=
        checkToken_ok rfl (.inl hpiece)
          (fun h => absurd h (of_decide_eq_true (all_eq_true.mp hargs op hpiece))) fun _ => rfl
      rw [tokensFrom_simple hne hletters, forall_mem_cons]
      simp [hcheck, hletters]
    · refine iff_of_false (fun h => ?_) fun h => hletters (h.1 op rfl)
      rw [tokensFrom, if_pos rfl, matchOperator_digit hchars hletters] at h
      cases h {} mem_cons_self
  | complex op args digits =>
    obtain ⟨hop, hargs, hclose, hdigits, hlength⟩ := hpiece
    have hletters : op.toList ≠ [] ∧ ∀ c ∈ op.toList, isOperatorChar c := by
      have htable : (envoyComplexOperators.all fun op => op.toList ≠ [] &&
          op.toList.all isOperatorChar) = true := by decide
      simpa using all_eq_true.mp htable op hop
    obtain ⟨t, htop, htargs, htlength, htokens⟩ :=
      tokensFrom_complex hletters.1 hletters.2 hargs hclose hdigits rest
    have hcheck : checkToken t = .ok () := by
      apply checkToken_ok htop (.inr hop) fun _ => htargs
      intro h
      rw [htlength, if_pos (hlength h)]
    simp only [Piece.text, cons_append, append_assoc, nil_append]
    rw [htokens, forall_mem_cons]
    simp [hcheck]

/-- A format made from the tables is accepted unless a simple operator has a digit. -/
theorem parseAccessLogFormat_ok_iff {pieces : List Piece} (h : ∀ piece ∈ pieces, piece.IsFormat) :
    parseAccessLogFormat (String.ofList (pieces.flatMap Piece.text)) = .ok () ↔
      ∀ op, .simple op ∈ pieces → LettersOnly op := by
  rw [parseAccessLogFormat, forM_eq_ok, String.toList_ofList]
  induction pieces with
  | nil => simp [tokensFrom]
  | cons piece pieces ih =>
    obtain ⟨hpiece, hpieces⟩ := forall_mem_cons.mp h
    rw [flatMap_cons, checkTokens_text hpiece, ih hpieces]
    simp only [mem_cons, or_imp, forall_and, eq_comm]

/-- A name that the tables declare: a simple operator in any letter case, or a JSON field. -/
def IsFieldName (name : String) : Prop :=
  (jsonFields.lookup name).isSome ∨ upperName name ∈ envoySimpleOperators

theorem jsonFields_lookup {name format : String} (h : jsonFields.lookup name = some format) :
    '=' ∉ name.toList ∧ format ≠ "" := by
  have htable : (jsonFields.all fun e => '=' ∉ e.1.toList && e.2 ≠ "") = true := by decide
  obtain ⟨before, after, heq, -⟩ := lookup_eq_some_iff.mp h
  simpa using all_eq_true.mp htable (name, format) (by rw [heq]; simp)

/-- The field of a name: its key is the name. -/
theorem fieldOf_eq {name : String} (h : IsFieldName name) :
    fieldOf name = (name, (jsonFields.lookup name).getD ("%" ++ upperName name ++ "%")) := by
  have hname : '=' ∉ name.toList := by
    intro hmem
    obtain h | h := h
    · obtain ⟨format, hformat⟩ := Option.isSome_iff_exists.mp h
      exact (jsonFields_lookup hformat).1 hmem
    · have hupper : '=' ∈ (upperName name).toList := by
        rw [upperName, String.toList_ofList]
        exact mem_map.mpr ⟨'=', hmem, rfl⟩
      obtain h | h := (simpleOperators_chars h).2 _ hupper <;> cases h
  rw [fieldOf, if_neg hname]
  cases hjson : jsonFields.lookup name with
  | some operator => rfl
  | none =>
    have hsimple : upperName name ∈ envoySimpleOperators := h.resolve_left (by simp [hjson])
    rw [if_pos hsimple]
    rfl

theorem checkField_fieldOf {name : String} (h : IsFieldName name) :
    checkField (fieldOf name) = .ok () ↔
      (jsonFields.lookup name = none → LettersOnly (upperName name)) := by
  rw [fieldOf_eq h, checkField]
  cases hjson : jsonFields.lookup name with
  | some operator => simp [(jsonFields_lookup hjson).2]
  | none =>
    have hsimple : upperName name ∈ envoySimpleOperators := h.resolve_left (by simp [hjson])
    have hparse := parseAccessLogFormat_ok_iff (forall_mem_singleton.mpr
      (show (Piece.simple (upperName name)).IsFormat from hsimple))
    have htext : String.ofList ([Piece.simple (upperName name)].flatMap Piece.text) =
        "%" ++ upperName name ++ "%" := by
      apply String.toList_inj.mp
      simp [Piece.text]
    simp only [htext, mem_singleton, Piece.simple.injEq, forall_eq] at hparse
    refine .trans ?_ (hparse.trans (by simp))
    dsimp only [Option.getD_none]
    rw [if_neg (by simp), if_neg (by simp)]
    cases parseAccessLogFormat ("%" ++ upperName name ++ "%") <;> simp

/-- The field map of such names. -/
theorem lookup_asFieldMap {names : List String} (h : ∀ name ∈ names, IsFieldName name)
    (m : Map String String) (key : String) :
    ((names.map fieldOf).foldl (fun m field => m.insert field.1 field.2) m).lookup key =
      if key ∈ names then some (fieldOf key).2 else m.lookup key := by
  induction names generalizing m with
  | nil => rfl
  | cons name names ih =>
    obtain ⟨hname, hnames⟩ := forall_mem_cons.mp h
    rw [map_cons, foldl_cons, ih hnames, Map.lookup_insert_eq]
    by_cases hkey : key = name <;> simp [hkey, fieldOf_eq hname]

/-- The formats and names of the tables are accepted unless an operator has a digit. -/
theorem formats_accepted_iff {pieces : List Piece} (hpieces : ∀ piece ∈ pieces, piece.IsFormat)
    {names : List String} (hnames : ∀ name ∈ names, IsFieldName name) (ord : MapOrder) :
    (parseAccessLogFormat (String.ofList (pieces.flatMap Piece.text)) = .ok () ↔
      ∀ op, .simple op ∈ pieces → LettersOnly op) ∧
    (validate ord names = .ok () ↔
      ∀ name ∈ names, jsonFields.lookup name = none → LettersOnly (upperName name)) := by
  refine ⟨parseAccessLogFormat_ok_iff hpieces, ?_⟩
  have hfields : ∀ field, field ∈ ord.range "Validate" (asFieldMap names) ↔
      field.1 ∈ names ∧ field = fieldOf field.1 := by
    intro field
    rw [ord.mem_range, asFieldMap, Map.ofList, lookup_asFieldMap hnames]
    by_cases hmem : field.1 ∈ names
    · simp [hmem, Prod.ext_iff, fieldOf_eq (hnames _ hmem), eq_comm]
    · simp [hmem]
  rw [validate, forM_eq_ok]
  constructor
  · intro h name hname
    refine (checkField_fieldOf (hnames name hname)).mp (h _ ((hfields _).mpr ?_))
    rw [fieldOf_eq (hnames name hname)]
    exact ⟨hname, (fieldOf_eq (hnames name hname)).symm⟩
  · intro h field hfield
    obtain ⟨hname, heq⟩ := (hfields field).mp hfield
    rw [heq]
    exact (checkField_fieldOf (hnames _ hname)).mpr (h _ hname)

/-- A digit in the name of an operator. -/
theorem fingerprint_rejected : "DOWNSTREAM_PEER_FINGERPRINT_1" ∈ envoySimpleOperators ∧
    (parseAccessLogFormat "%DOWNSTREAM_PEER_FINGERPRINT_1%").isOk = false ∧
    (validate .storage ["downstream_peer_fingerprint_1"]).isOk = false := by
  decide

theorem duration_accepted : parseAccessLogFormat (String.ofList
      ([Piece.literal ['d', '='], .simple "DURATION"].flatMap Piece.text)) = .ok () ∧
    validate .storage ["method", "Duration"] = .ok () := by
  have hpieces : ∀ piece ∈ [Piece.literal ['d', '='], .simple "DURATION"], piece.IsFormat := by
    rw [forall_mem_cons, forall_mem_singleton, Piece.IsFormat, Piece.IsFormat]
    decide
  have hnames : ∀ name ∈ ["method", "Duration"], IsFieldName name := by
    rw [forall_mem_cons, forall_mem_singleton, IsFieldName, IsFieldName]
    decide
  have hletters : LettersOnly "DURATION" := all_eq_true.mp (by decide)
  obtain ⟨hparse, hvalidate⟩ := formats_accepted_iff hpieces hnames .storage
  refine ⟨hparse.mpr (by simpa using hletters), hvalidate.mpr ?_⟩
  rw [forall_mem_cons, forall_mem_singleton]
  exact ⟨fun h => absurd h (by decide), fun _ => hletters⟩

end Sesame.Config
