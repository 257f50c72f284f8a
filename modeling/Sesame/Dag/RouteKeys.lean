/-
# Route keys

A virtual host files its routes under the text of their match conditions, which
joins path, header names and header values without escaping. Two texts in it act
as separators, `,header: name=` before a header name and `&value=` before a header
value. Routes whose texts contain neither have different keys whenever their match
conditions differ.
-/

import Sesame.Dag.Types
import Sesame.Lib.Text

namespace Sesame.Dag

open List
open Lib

variable {matchType matchType' : HeaderMatchType} {v : List Char} {p p' : PathMatchCondition}

/-! ## The shape of a key -/

def nameSeparator : Separator Char where
  head := ','
  rest := ['h', 'e', 'a', 'd', 'e', 'r', ':', ' ', 'n', 'a', 'm', 'e', '=']
  fresh := by decide

def valueSeparator : Separator Char where
  head := '&'
  rest := ['v', 'a', 'l', 'u', 'e', '=']
  fresh := by decide

def HeaderMatchType.chars : HeaderMatchType → List Char
  | .exact => ['e', 'x', 'a', 'c', 't']
  | .contains => ['c', 'o', 'n', 't', 'a', 'i', 'n', 's']
  | .present => ['p', 'r', 'e', 's', 'e', 'n', 't']
  | .regex => ['r', 'e', 'g', 'e', 'x']

def boolChars (b : Bool) : List Char :=
  if b then ['t', 'r', 'u', 'e'] else ['f', 'a', 'l', 's', 'e']

/-- What a header condition puts after its value. -/
def headerEnd (matchType : HeaderMatchType) (invert : Bool) : List Char :=
  ['&', 'm', 'a', 't', 'c', 'h', 't', 'y', 'p', 'e', '=', '&'] ++
    (matchType.chars ++ (['&', 'i', 'n', 'v', 'e', 'r', 't', '=', '&'] ++ boolChars invert))

/-- The part of a key that stands for a header condition. -/
def headerKey (hc : HeaderMatchCondition) : List Char :=
  nameSeparator.word ++ (hc.name.toList ++ (valueSeparator.word ++
    (hc.value.toList ++ headerEnd hc.matchType hc.invert)))

theorem text_toList (matchType : HeaderMatchType) : matchType.text.toList = matchType.chars := by
  cases matchType <;> simp [HeaderMatchType.text, HeaderMatchType.chars]

theorem formatBool_toList (b : Bool) : (formatBool b).toList = boolChars b := by
  cases b <;> simp [formatBool, boolChars]

theorem comma_header_toList (hc : HeaderMatchCondition) :
    ',' :: hc.string.toList = headerKey hc := by
  simp [HeaderMatchCondition.string, headerKey, headerEnd, nameSeparator, valueSeparator,
    Separator.word, text_toList, formatBool_toList]

theorem intercalate_headers (path : List Char) (headers : List HeaderMatchCondition) :
    intercalate [','] (path :: headers.map fun hc => hc.string.toList) =
      path ++ headers.flatMap headerKey := by
  induction headers generalizing path with
  | nil => simp
  | cons hc rest ih =>
    rw [map_cons, intercalate_cons_cons, ih, flatMap_cons, ← comma_header_toList]
    simp

theorem conditionsToString_toList (r : Route) :
    (conditionsToString r).toList =
      r.pathMatchCondition.string.toList ++ r.headerMatchConditions.flatMap headerKey := by
  rw [conditionsToString, String.toList_intercalate, map_cons, map_map]
  exact intercalate_headers _ _

/-! ## Reading a key back -/

/-- The texts that the user of a header condition chooses. -/
def HeaderMatchCondition.texts (hc : HeaderMatchCondition) : List (List Char) :=
  [hc.name.toList, hc.value.toList]

/-- The text that the user of a path condition chooses. -/
def PathMatchCondition.text : PathMatchCondition → List Char
  | .exact path => path.toList
  | .pathPrefix value _ => value.toList
  | .regex expr => expr.toList

def Route.texts (r : Route) : List (List Char) :=
  r.pathMatchCondition.text :: r.headerMatchConditions.flatMap (·.texts)

/-- Neither separator occurs in the texts. -/
def SeparatorFree (texts : List (List Char)) : Prop :=
  ∀ t ∈ texts, nameSeparator.Free t ∧ valueSeparator.Free t
  deriving Decidable

/-- The conditions that decide which requests a route matches. -/
def Route.SameMatch (r r' : Route) : Prop :=
  r.pathMatchCondition = r'.pathMatchCondition ∧ r.headerMatchConditions = r'.headerMatchConditions
  deriving Decidable

/-- No ending of a header condition is the end of another. -/
theorem headerEnd_injective {invert invert' : Bool}
    (h : headerEnd matchType invert <:+ headerEnd matchType' invert') :
    matchType = matchType' ∧ invert = invert' := by
  revert h
  cases matchType <;> cases matchType' <;> cases invert <;> cases invert' <;> decide

/-- A value and the ending after it can be told apart. -/
theorem append_headerEnd_inj {v' : List Char} {invert invert' : Bool}
    (h : v ++ headerEnd matchType invert = v' ++ headerEnd matchType' invert') :
    v = v' ∧ matchType = matchType' ∧ invert = invert' := by
  have hends : matchType = matchType' ∧ invert = invert' := by
    have hsuffix : headerEnd matchType invert <:+ v' ++ headerEnd matchType' invert' :=
      h ▸ suffix_append v _
    rcases suffix_or_suffix_of_suffix hsuffix (suffix_append v' _) with hsuf | hsuf
    · exact headerEnd_injective hsuf
    · obtain ⟨rfl, rfl⟩ := headerEnd_injective hsuf
      exact ⟨rfl, rfl⟩
  obtain ⟨rfl, rfl⟩ := hends
  exact ⟨append_cancel_right h, rfl, rfl⟩

/-- The text from a value to the next header name has no name separator. -/
theorem free_value_headerEnd (hv : nameSeparator.Free v) (matchType : HeaderMatchType)
    (invert : Bool) : nameSeparator.Free (v ++ headerEnd matchType invert) := by
  refine hv.append ?_ ?_
  · cases matchType <;> cases invert <;> decide
  · cases matchType <;> cases invert <;> decide

/-- A part without name separator and the headers after it can be told apart. -/
theorem append_headers_inj {a a' : List Char} {headers headers' : List HeaderMatchCondition}
    (ha : nameSeparator.Free a) (ha' : nameSeparator.Free a')
    (hfree : SeparatorFree (headers.flatMap (·.texts)))
    (hfree' : SeparatorFree (headers'.flatMap (·.texts)))
    (h : a ++ headers.flatMap headerKey = a' ++ headers'.flatMap headerKey) :
    a = a' ∧ headers = headers' := by
  -- A header starts with the name separator, so it cannot be part of `a` or `a'`.
  have hstart : ∀ (hc : HeaderMatchCondition) (b rest : List Char),
      ¬ nameSeparator.Free (b ++ (headerKey hc ++ rest)) := fun hc b rest hb =>
    hb ⟨b, hc.name.toList ++ (valueSeparator.word ++ (hc.value.toList ++
      headerEnd hc.matchType hc.invert)) ++ rest, by simp [headerKey]⟩
  induction headers generalizing a a' headers' with
  | nil =>
    cases headers' with
    | nil => simpa using h
    | cons hc' rest' =>
      rw [flatMap_nil, append_nil, flatMap_cons] at h
      exact absurd (h ▸ ha) (hstart hc' a' _)
  | cons hc rest ih =>
    cases headers' with
    | nil =>
      rw [flatMap_nil, append_nil, flatMap_cons] at h
      exact absurd (h ▸ ha') (hstart hc a _)
    | cons hc' rest' =>
      simp only [flatMap_cons, headerKey, append_assoc] at h
      obtain ⟨rfl, hafter⟩ := Separator.split_unique ha ha' h
      have hname := (hfree hc.name.toList (by simp [HeaderMatchCondition.texts])).2
      have hname' := (hfree' hc'.name.toList (by simp [HeaderMatchCondition.texts])).2
      obtain ⟨hnames, hvalues⟩ := Separator.split_unique hname hname' hafter
      rw [← append_assoc, ← append_assoc hc'.value.toList] at hvalues
      have hvalue := (hfree hc.value.toList (by simp [HeaderMatchCondition.texts])).1
      have hvalue' := (hfree' hc'.value.toList (by simp [HeaderMatchCondition.texts])).1
      obtain ⟨hends, rfl⟩ := ih (free_value_headerEnd hvalue _ _)
        (free_value_headerEnd hvalue' _ _)
        (fun t ht => hfree t (by simp only [flatMap_cons]; exact mem_append_right _ ht))
        (fun t ht => hfree' t (by simp only [flatMap_cons]; exact mem_append_right _ ht))
        hvalues
      obtain ⟨hvalues, htypes, hinverts⟩ := append_headerEnd_inj hends
      have hheader : hc = hc' := by
        cases hc
        cases hc'
        simp only [HeaderMatchCondition.mk.injEq]
        exact ⟨String.toList_inj.mp hnames, String.toList_inj.mp hvalues, htypes, hinverts⟩
      exact ⟨rfl, by rw [hheader]⟩

def PrefixMatchType.ending : PrefixMatchType → List Char
  | .string => [' ', 't', 'y', 'p', 'e', ':', ' ', 's', 't', 'r', 'i', 'n', 'g']
  | .segment => [' ', 't', 'y', 'p', 'e', ':', ' ', 's', 'e', 'g', 'm', 'e', 'n', 't']

theorem free_append_ending (hv : nameSeparator.Free v) (matchType : PrefixMatchType) :
    nameSeparator.Free (v ++ matchType.ending) := by
  refine hv.append ?_ ?_
  · cases matchType <;> decide
  · cases matchType <;> decide

theorem append_ending_inj {v' : List Char} {matchType matchType' : PrefixMatchType}
    (h : v ++ matchType.ending = v' ++ matchType'.ending) : v = v' ∧ matchType = matchType' := by
  cases matchType with
  | string =>
    cases matchType' with
    | string => exact ⟨append_cancel_right h, rfl⟩
    | segment => simpa [PrefixMatchType.ending] using congrArg getLast? h
  | segment =>
    cases matchType' with
    | string => simpa [PrefixMatchType.ending] using congrArg getLast? h
    | segment => exact ⟨append_cancel_right h, rfl⟩

/-- The characters before the text of a path condition. -/
def PathMatchCondition.start : PathMatchCondition → List Char
  | .exact _ => ['e', 'x', 'a', 'c', 't', ':', ' ']
  | .pathPrefix _ _ => ['p', 'r', 'e', 'f', 'i', 'x', ':', ' ']
  | .regex _ => ['r', 'e', 'g', 'e', 'x', ':', ' ']

/-- The text of a path condition and what follows it. -/
def PathMatchCondition.body : PathMatchCondition → List Char
  | .exact path => path.toList
  | .pathPrefix value matchType => value.toList ++ matchType.ending
  | .regex expr => expr.toList

theorem pathMatchCondition_toList (p : PathMatchCondition) :
    p.string.toList = p.start ++ p.body := by
  cases p with
  | exact path =>
    simp [PathMatchCondition.string, PathMatchCondition.start, PathMatchCondition.body]
  | pathPrefix value matchType =>
    cases matchType <;>
      simp [PathMatchCondition.string, PathMatchCondition.start, PathMatchCondition.body,
        PrefixMatchType.toName, PrefixMatchType.ending]
  | regex expr =>
    simp [PathMatchCondition.string, PathMatchCondition.start, PathMatchCondition.body]

theorem free_body (hp : nameSeparator.Free p.text) : nameSeparator.Free p.body := by
  cases p with
  | exact path => exact hp
  | pathPrefix value matchType => exact free_append_ending hp matchType
  | regex expr => exact hp

/-- The first character tells the kinds of path condition apart. -/
theorem start_append_inj {x y : List Char} (h : p.start ++ x = p'.start ++ y) :
    p.start = p'.start ∧ x = y := by
  cases p <;> cases p' <;> simp_all [PathMatchCondition.start]

theorem eq_of_start_body (hstart : p.start = p'.start) (hbody : p.body = p'.body) : p = p' := by
  cases p with
  | exact path =>
    cases p' with
    | exact path' => rw [String.toList_inj.mp hbody]
    | _ => simp [PathMatchCondition.start] at hstart
  | pathPrefix value matchType =>
    cases p' with
    | pathPrefix value' matchType' =>
      obtain ⟨hvalue, rfl⟩ := append_ending_inj hbody
      rw [String.toList_inj.mp hvalue]
    | _ => simp [PathMatchCondition.start] at hstart
  | regex expr =>
    cases p' with
    | regex expr' => rw [String.toList_inj.mp hbody]
    | _ => simp [PathMatchCondition.start] at hstart

/-- Routes whose texts contain no separator have different keys unless their match
conditions are equal. -/
theorem sameMatch_of_conditionsToString_eq {r r' : Route} (hfree : SeparatorFree r.texts)
    (hfree' : SeparatorFree r'.texts) (h : conditionsToString r = conditionsToString r') :
    r.SameMatch r' := by
  have hkeys := congrArg String.toList h
  rw [conditionsToString_toList, conditionsToString_toList, pathMatchCondition_toList,
    pathMatchCondition_toList, append_assoc, append_assoc] at hkeys
  obtain ⟨hstart, hrest⟩ := start_append_inj hkeys
  have hpath := (hfree r.pathMatchCondition.text mem_cons_self).1
  have hpath' := (hfree' r'.pathMatchCondition.text mem_cons_self).1
  obtain ⟨hbody, hheaders⟩ := append_headers_inj (free_body hpath) (free_body hpath')
    (fun t ht => hfree t (mem_cons_of_mem _ ht))
    (fun t ht => hfree' t (mem_cons_of_mem _ ht)) hrest
  exact ⟨eq_of_start_body hstart hbody, hheaders⟩

/-! ## Routes of a virtual host -/

/-- A sequence of `addRoute` calls. -/
def VirtualHost.addRoutes (v : VirtualHost) (routes : List Route) : VirtualHost :=
  routes.foldl VirtualHost.addRoute v

/-- A route stays in its host unless a later one has its key. -/
theorem lookup_addRoutes {v : VirtualHost} {routes : List Route} {k : String} {r : Route}
    (hlookup : v.routes.lookup k = some r)
    (hlater : ∀ r' ∈ routes, conditionsToString r' ≠ k) :
    (v.addRoutes routes).routes.lookup k = some r := by
  induction routes generalizing v with
  | nil => exact hlookup
  | cons r' rest ih =>
    have hne : k ≠ conditionsToString r' := (hlater r' mem_cons_self).symm
    refine ih ?_ fun r'' hr'' => hlater r'' (mem_cons_of_mem r' hr'')
    simp only [VirtualHost.addRoute, AList.lookup_insert_ne hne, hlookup]

/-- The texts of a route use only characters of `A`. -/
def Route.TextsIn (A : Set Char) (r : Route) : Prop := ∀ t ∈ r.texts, ∀ c ∈ t, c ∈ A

/-- Keys of routes over `A` are equal only for equal match conditions, and so every
route added to a host stays there unless a later one has its match conditions. -/
structure KeysDistinguish (A : Set Char) : Prop where
  sameMatch : ∀ r r' : Route, r.TextsIn A → r'.TextsIn A →
    conditionsToString r = conditionsToString r' → r.SameMatch r'
  stays : ∀ (v : VirtualHost) (before after : List Route) (r : Route),
    (∀ r' ∈ before ++ r :: after, r'.TextsIn A) → (∀ r' ∈ after, ¬ r.SameMatch r') →
      ∃ k, (v.addRoutes (before ++ r :: after)).routes.lookup k = some r

/-- A route on every path of `path` with one exact header condition. -/
def exactRoute (path name value : String) : Route :=
  { pathMatchCondition := .exact path,
    headerMatchConditions := [{ name, value, matchType := .exact }] }

theorem exactRoute_textsIn {A : Set Char} {path name value : String}
    (hpath : ∀ c ∈ path.toList, c ∈ A) (hname : ∀ c ∈ name.toList, c ∈ A)
    (hvalue : ∀ c ∈ value.toList, c ∈ A) : (exactRoute path name value).TextsIn A := by
  intro t ht
  simp only [exactRoute, Route.texts, PathMatchCondition.text, HeaderMatchCondition.texts,
    flatMap_cons, flatMap_nil, append_nil, mem_cons, not_mem_nil,
    or_false] at ht
  rcases ht with rfl | rfl | rfl
  · exact hpath
  · exact hname
  · exact hvalue

theorem keysDistinguish_of_free {A : Set Char}
    (hfree : ∀ r : Route, r.TextsIn A → SeparatorFree r.texts) : KeysDistinguish A where
  sameMatch r r' hr hr' := sameMatch_of_conditionsToString_eq (hfree r hr) (hfree r' hr')
  stays v before after r htexts hafter := by
    refine ⟨conditionsToString r, ?_⟩
    rw [VirtualHost.addRoutes, foldl_append, foldl_cons]
    refine lookup_addRoutes (AList.lookup_insert _) fun r' hr' hkey => hafter r' hr' ?_
    exact sameMatch_of_conditionsToString_eq
      (hfree r (htexts r (mem_append_right _ mem_cons_self)))
      (hfree r' (htexts r' (mem_append_right _ (mem_cons_of_mem r hr')))) hkey.symm

/-- Routes whose texts contain no separator are told apart by their keys. The keys
tell all routes over an alphabet apart, and so keep every added route unless a later
one has its match conditions, exactly when neither separator can be spelled in it. -/
theorem keys_distinguish_routes (A : Set Char) :
    (∀ r r' : Route, SeparatorFree r.texts → SeparatorFree r'.texts →
      conditionsToString r = conditionsToString r' → r.SameMatch r') ∧
    (KeysDistinguish A ↔
      ¬ (∀ c ∈ ",header: name=".toList, c ∈ A) ∧ ¬ (∀ c ∈ "&value=".toList, c ∈ A)) := by
  refine ⟨fun r r' => sameMatch_of_conditionsToString_eq, ⟨fun h => ⟨?_, ?_⟩, ?_⟩⟩
  · intro hspelled
    have hsame := h.sameMatch (exactRoute ",header: name=" "" "")
      (exactRoute "" ",header: name=" "") (exactRoute_textsIn hspelled (by simp) (by simp))
      (exactRoute_textsIn (by simp) hspelled (by simp)) (by decide)
    exact absurd hsame (by decide)
  · intro hspelled
    have hsame := h.sameMatch (exactRoute "" "&value=" "") (exactRoute "" "" "&value=")
      (exactRoute_textsIn (by simp) hspelled (by simp))
      (exactRoute_textsIn (by simp) (by simp) hspelled) (by decide)
    exact absurd hsame (by decide)
  · rintro ⟨hname, hvalue⟩
    refine keysDistinguish_of_free fun r hr t ht => ⟨?_, ?_⟩
    · exact Separator.free_of_alphabet (by simpa [nameSeparator, Separator.word] using hname)
        (hr t ht)
    · exact Separator.free_of_alphabet (by simpa [valueSeparator, Separator.word] using hvalue)
        (hr t ht)

/-- Two header conditions that differ but have one key, so that adding the second
route drops the first. -/
theorem route_replaced_by_other_match :
    ∃ r r' : Route, conditionsToString r = conditionsToString r' ∧ ¬ r.SameMatch r' ∧
      ∀ k, (VirtualHost.addRoutes { name := "h" } [r, r']).routes.lookup k ≠ some r := by
  refine ⟨exactRoute "/" "a" "b&value=c", exactRoute "/" "a&value=b" "c", by decide, by decide, ?_⟩
  have hkey : conditionsToString (exactRoute "/" "a" "b&value=c") =
      conditionsToString (exactRoute "/" "a&value=b" "c") := by decide
  have hne : exactRoute "/" "a&value=b" "c" ≠ exactRoute "/" "a" "b&value=c" := by decide
  intro k
  simp only [VirtualHost.addRoutes, VirtualHost.addRoute, foldl_cons, foldl_nil, hkey,
    Map.lookup_insert_eq]
  split
  · simpa using hne
  · simp

end Sesame.Dag
