/-
# Header values

`escapeHeaderValue` doubles the percent signs of a value and then undoes that around the
names it knows: those of the dynamic variables, which it replaces by their values, and
those of the operators that Envoy may evaluate. The passes are textual, but a doubled
percent sign is never split by them: they act on the value as if the sign were one
letter. What comes out is read as pieces, where a piece is a character, a doubled percent
sign or an operator between two single ones.
-/

import Sesame.Lib.Text
import Sesame.Dag.Policy

namespace Sesame.Dag

open List
open Lib

variable {name : List Char} {value v : String} {dynamicHeaders : Map String String}
  {s t : List Char} {pieces : List Piece}

/-! ## Pieces -/

inductive Piece
  | plain (c : Char)
  | operator (name : List Char)
  deriving DecidableEq

namespace Piece

/-- The text of a piece; a percent sign that stands for itself is doubled. -/
def text : Piece → List Char
  | plain c => if c = '%' then ['%', '%'] else [c]
  | operator name => '%' :: name ++ ['%']

/-- The names that the passes put between single percent signs. -/
def Good : Piece → Prop
  | plain _ => True
  | operator name => name ≠ [] ∧ '%' ∉ name

@[simp]
theorem text_percent : (plain '%').text = ['%', '%'] := rfl

theorem text_plain {c : Char} (h : c ≠ '%') : (plain c).text = [c] := if_neg h

/-- Texts without percent signs are texts of themselves. -/
theorem flatMap_text_plain {l : List Char} (h : '%' ∉ l) : (l.map plain).flatMap text = l := by
  induction l with
  | nil => rfl
  | cons c l ih =>
    rw [mem_cons, not_or] at h
    rw [map_cons, flatMap_cons, text_plain (Ne.symm h.1), ih h.2, singleton_append]

/-- After the percent sign of an operator comes its name. -/
theorem operator_text_ne {x y : List Char} (hname : Good (operator name)) :
    ('%' :: '%' :: x) ≠ (operator name).text ++ y := by
  intro h
  obtain ⟨c, name, rfl⟩ := exists_cons_of_ne_nil hname.1
  injection h with _ htail
  injection htail with hc
  exact hname.2 (hc ▸ mem_cons_self)

/-- A text is read as pieces in one way. -/
theorem isCode_text : IsCode Good text := by
  constructor
  · intro b _
    cases b with
    | plain c =>
      rw [text]
      split <;> exact cons_ne_nil _ _
    | operator name => exact cons_ne_nil _ _
  · intro a b ha hb x y h
    cases a with
    | plain c =>
      by_cases hc : c = '%'
      · subst hc
        cases b with
        | plain d =>
          by_cases hd : d = '%'
          · rw [hd]
          · rw [text_percent, text_plain hd] at h
            injection h with hhead
            exact absurd hhead.symm hd
        | operator name => exact absurd h (operator_text_ne hb)
      · rw [text_plain hc] at h
        cases b with
        | plain d =>
          by_cases hd : d = '%'
          · rw [hd, text_percent] at h
            injection h with hhead
            exact absurd hhead hc
          · rw [text_plain hd] at h
            injection h with hhead
            rw [hhead]
        | operator name =>
          injection h with hhead
          exact absurd hhead hc
    | operator name =>
      cases b with
      | plain d =>
        by_cases hd : d = '%'
        · rw [hd, text_percent] at h
          exact absurd h.symm (operator_text_ne ha)
        · rw [text_plain hd] at h
          injection h with hhead
          exact absurd hhead.symm hd
      | operator name' =>
        have hnames : name ++ '%' :: x = name' ++ '%' :: y := by
          simpa [text] using h
        rw [(append_cons_inj ha.2 hb.2 hnames).1]

def quoted (name : List Char) : List Piece := (['%'] ++ name ++ ['%']).map plain

theorem quoted_ne_nil (name : List Char) : quoted name ≠ [] := cons_ne_nil _ _

theorem good_plain {l : List Char} : ∀ b ∈ l.map plain, Good b := by
  intro b hb
  obtain ⟨c, -, rfl⟩ := mem_map.mp hb
  trivial

theorem good_quoted : ∀ b ∈ quoted name, Good b := good_plain

theorem flatMap_text_quoted (hname : '%' ∉ name) :
    (quoted name).flatMap text = ['%', '%'] ++ name ++ ['%', '%'] := by
  rw [quoted, map_append, map_append, flatMap_append, flatMap_append, flatMap_text_plain hname]
  rfl

/-- What can be left of a piece once a letter of it was kept: its last percent sign, or
something that starts with another letter. -/
theorem text_split {b : Piece} (hb : Good b) (h : b.text = s ++ t) (hs : s ≠ []) (ht : t ≠ []) :
    t = ['%'] ∨ ∃ c rest, c ≠ '%' ∧ t = c :: rest := by
  obtain ⟨c, s, rfl⟩ := exists_cons_of_ne_nil hs
  obtain ⟨d, t, rfl⟩ := exists_cons_of_ne_nil ht
  cases b with
  | plain e =>
    by_cases he : e = '%'
    · subst he
      cases s with
      | nil =>
        cases h
        exact .inl rfl
      | cons e s =>
        have hlength := congrArg length h
        simp at hlength
    · rw [text_plain he] at h
      have hlength := congrArg length h
      simp at hlength
  | operator name =>
    by_cases hd : d = '%'
    · subst hd
      left
      injection h with _ htail
      obtain ⟨more, -, htail⟩ | ⟨more, hmore, htail⟩ := append_eq_append_iff.mp htail
      · cases more with
        | nil => exact htail.symm
        | cons e more =>
          have hlength := congrArg length htail
          simp at hlength
      · cases more with
        | nil => exact htail
        | cons e more =>
          injection htail with he
          exact absurd (hmore ▸ mem_append_right s (he ▸ mem_cons_self)) hb.2
    · exact .inr ⟨d, t, hd, rfl⟩

/-- Where an operator is kept, no quoted name starts inside it. -/
theorem not_quoted_prefix (hname : '%' ∉ name) {b : Piece} {rest : List Piece} (hb : Good b)
    (hrest : ∀ d ∈ rest, Good d) (hnew : operator name ∉ rest)
    (hempty : name = [] → ∀ m, b ≠ operator m) (hmatch : ¬ quoted name <+: b :: rest)
    (h : b.text = s ++ t) (hs : s ≠ []) (ht : t ≠ []) :
    ¬ (quoted name).flatMap text <+: t ++ rest.flatMap text := by
  rw [flatMap_text_quoted hname]
  rcases text_split hb h hs ht with rfl | ⟨c, t, hc, rfl⟩
  · intro hprefix
    have hprefix : '%' :: (name ++ ['%', '%']) <+: rest.flatMap text := by
      simpa using hprefix
    cases rest with
    | nil => exact absurd (prefix_nil.mp hprefix) (cons_ne_nil _ _)
    | cons d rest =>
      obtain ⟨hd, hrest⟩ := forall_mem_cons.mp hrest
      obtain ⟨z, hz⟩ := hprefix
      rw [flatMap_cons] at hz
      cases d with
      | plain e =>
        by_cases he : e = '%'
        · subst he
          cases name with
          | nil =>
            -- Then the percent sign that is kept starts the quoted empty name.
            cases b with
            | operator m => exact hempty rfl m rfl
            | plain c =>
              by_cases hc : c = '%'
              · subst hc
                exact hmatch (prefix_append [plain '%', plain '%'] rest)
              · rw [text_plain hc] at h
                have hlength := congrArg length h
                exact hs (by simpa using hlength)
          | cons c name =>
            injection hz with _ hz
            injection hz with hc
            exact hname (hc ▸ mem_cons_self)
        · rw [text_plain he] at hz
          injection hz with hhead
          exact he hhead.symm
      | operator m =>
        have hz : name ++ '%' :: ('%' :: z) = m ++ '%' :: rest.flatMap text := by
          simpa [text] using hz
        exact hnew ((append_cons_inj hname hd.2 hz).1 ▸ mem_cons_self)
  · intro hprefix
    exact hc (cons_prefix_cons.mp hprefix).1.symm

/-- A pass over a text is a pass over its pieces. -/
theorem replaceAll_quoted (hname : '%' ∉ name) (hgood : ∀ b ∈ pieces, Good b)
    (hnew : operator name ∉ pieces) (hempty : name = [] → ∀ m, operator m ∉ pieces)
    (new : List Piece) :
    replaceAll (['%', '%'] ++ name ++ ['%', '%']) (new.flatMap text) 0 (pieces.flatMap text) =
      (replaceAll (quoted name) new 0 pieces).flatMap text := by
  rw [← flatMap_text_quoted hname]
  apply replaceAll_flatMap isCode_text (quoted_ne_nil name) good_quoted hgood
  intro b rest hsuffix hmatch s t h hs ht
  have hmem := hsuffix.subset
  apply not_quoted_prefix hname (hgood b (hmem mem_cons_self))
    (fun d hd => hgood d (hmem (mem_cons_of_mem b hd)))
    (fun hop => hnew (hmem (mem_cons_of_mem b hop))) ?_ hmatch h hs ht
  rintro hnil m rfl
  exact hempty hnil m (hmem mem_cons_self)

/-- The pieces of a value whose percent signs are doubled. -/
theorem replaceAll_percent (l : List Char) :
    replaceAll ['%'] ['%', '%'] 0 l = (l.map plain).flatMap text := by
  induction l with
  | nil => rfl
  | cons c l ih =>
    by_cases hc : c = '%'
    · subst hc
      have hreplaced : replaceAll ['%'] ['%', '%'] 0 (['%'] ++ l) =
          ['%', '%'] ++ replaceAll ['%'] ['%', '%'] 0 l :=
        replaceAll_append (cons_ne_nil _ _) l
      rw [ih] at hreplaced
      exact hreplaced
    · have hmatch : ¬ ['%'] <+: c :: l := by
        rw [cons_prefix_cons]
        exact fun h => hc h.1.symm
      rw [replaceAll_cons hmatch, ih, map_cons, flatMap_cons, text_plain hc]
      rfl

end Piece

/-! ## Dynamic variables -/

/-- A variable name between percent signs, as users write it. -/
def variableText (name : String) : List Char := ['%'] ++ name.toList ++ ['%']

theorem variableText_ne_nil (name : String) : variableText name ≠ [] := cons_ne_nil _ _

/-- The passes over the dynamic variables, on a value whose percent signs are not doubled. -/
def substitute (vars : List (String × String)) (l : List Char) : List Char :=
  vars.foldl (fun l e => replaceAll (variableText e.1) e.2.toList 0 l) l

/-- Names and values without percent signs. -/
def PercentFree (vars : List (String × String)) : Prop :=
  ∀ e ∈ vars, '%' ∉ e.1.toList ∧ '%' ∉ e.2.toList

theorem replaceAll_quotedVariable {name : String} (hname : '%' ∉ name.toList)
    (hvalue : '%' ∉ value.toList) (l : List Char) :
    replaceAll (quotedVariable name) value.toList 0 ((l.map Piece.plain).flatMap Piece.text) =
      ((replaceAll (variableText name) value.toList 0 l).map Piece.plain).flatMap Piece.text := by
  have hplain : ∀ m, Piece.operator m ∉ l.map Piece.plain := by
    intro m hm
    obtain ⟨c, -, hc⟩ := mem_map.mp hm
    cases hc
  have hinj : Function.Injective Piece.plain := fun a b h => by
    injection h
  rw [quotedVariable]
  nth_rewrite 1 [← Piece.flatMap_text_plain hvalue]
  rw [Piece.replaceAll_quoted hname Piece.good_plain (hplain _) (fun _ => hplain),
    ← replaceAll_map hinj (variableText_ne_nil name)]
  rfl

/-- The passes over the variables do not split doubled percent signs. -/
theorem foldl_quotedVariable {vars : List (String × String)} (hvars : PercentFree vars)
    (l : List Char) :
    vars.foldl (fun escaped e => replaceAll (quotedVariable e.1) e.2.toList 0 escaped)
        ((l.map Piece.plain).flatMap Piece.text) =
      ((substitute vars l).map Piece.plain).flatMap Piece.text := by
  induction vars generalizing l with
  | nil => rfl
  | cons e vars ih =>
    obtain ⟨he, hvars⟩ := forall_mem_cons.mp hvars
    rw [foldl_cons, replaceAll_quotedVariable he.1 he.2, ih hvars]
    rfl

/-! ## Operators -/

def operatorPass (escaped : List Char) (envoyVar : String) : List Char :=
  replaceAll (quotedVariable envoyVar) (['%'] ++ envoyVar.toList ++ ['%']) 0 escaped

/-- The passes over names of operators turn quoted names into operators. -/
theorem foldl_operatorPass {names : List String} (hnodup : names.Nodup)
    (hnames : ∀ v ∈ names, Piece.Good (.operator v.toList)) (hgood : ∀ b ∈ pieces, b.Good)
    (hnew : ∀ v ∈ names, Piece.operator v.toList ∉ pieces) :
    ∃ pieces' : List Piece,
      names.foldl operatorPass (pieces.flatMap Piece.text) = pieces'.flatMap Piece.text ∧
      (∀ b ∈ pieces', b.Good) ∧
      ∀ n, Piece.operator n ∈ pieces' → Piece.operator n ∈ pieces ∨ ∃ v ∈ names, n = v.toList := by
  induction names generalizing pieces with
  | nil => exact ⟨pieces, rfl, hgood, fun n hn => .inl hn⟩
  | cons v names ih =>
    obtain ⟨hv, hnames⟩ := forall_mem_cons.mp hnames
    obtain ⟨hvnew, hnew⟩ := forall_mem_cons.mp hnew
    obtain ⟨hfresh, hnodup⟩ := nodup_cons.mp hnodup
    have hpass : operatorPass (pieces.flatMap Piece.text) v =
        (replaceAll (Piece.quoted v.toList) [.operator v.toList] 0 pieces).flatMap Piece.text := by
      rw [← Piece.replaceAll_quoted hv.2 hgood hvnew (fun hnil => absurd hnil hv.1),
        flatMap_singleton]
      rfl
    have hmem : ∀ b ∈ replaceAll (Piece.quoted v.toList) [.operator v.toList] 0 pieces,
        b = .operator v.toList ∨ b ∈ pieces := by
      intro b hb
      exact (mem_of_mem_replaceAll hb (Piece.quoted_ne_nil _)).imp_left mem_singleton.mp
    obtain ⟨pieces', hpieces', hgood', hops⟩ := ih hnodup hnames
      (fun b hb => (hmem b hb).elim (fun h => h ▸ hv) (hgood b))
      (fun w hw hop => (hmem _ hop).elim
        (fun h => hfresh (by
          injection h with h
          exact String.toList_injective h ▸ hw)) (hnew w hw))
    refine ⟨pieces', by rw [foldl_cons, hpass, hpieces'], hgood', fun n hn => ?_⟩
    rcases hops n hn with hop | ⟨w, hw, rfl⟩
    · rcases hmem _ hop with heq | hold
      · injection heq with heq
        exact .inr ⟨v, mem_cons_self, heq⟩
      · exact .inl hold
    · exact .inr ⟨w, mem_cons_of_mem v hw, rfl⟩

/-- The names that `[\w-]+` matches. -/
def IsReqName (name : List Char) : Prop := name ≠ [] ∧ ∀ c ∈ name, isReqChar c = true

def reqText (name : List Char) : List Char := ['R', 'E', 'Q', '('] ++ name ++ [')']

/-- The text that the expression matches. -/
theorem quoted_reqText_append (name rest : List Char) :
    ['%', '%'] ++ reqText name ++ ['%', '%'] ++ rest =
      ['%', '%', 'R', 'E', 'Q', '('] ++ (name ++ ([')', '%', '%'] ++ rest)) := by
  simp [reqText]

theorem matchReq_reqText (hname : IsReqName name) (rest : List Char) :
    matchReq (['%', '%'] ++ reqText name ++ ['%', '%'] ++ rest) =
      some (['%'] ++ reqText name ++ ['%'], name.length + 9) := by
  have htake : (name ++ ([')', '%', '%'] ++ rest)).takeWhile isReqChar = name := by
    rw [takeWhile_append_of_pos hname.2]
    exact append_nil name
  have hdrop : (['%', '%', 'R', 'E', 'Q', '('] ++ (name ++ ([')', '%', '%'] ++ rest))).drop 6 =
      name ++ ([')', '%', '%'] ++ rest) := rfl
  have hend : (['%', '%', 'R', 'E', 'Q', '('] ++ (name ++ ([')', '%', '%'] ++ rest))).drop
      (6 + name.length) = [')', '%', '%'] ++ rest := by
    rw [← drop_drop, hdrop, drop_left]
  rw [quoted_reqText_append, matchReq, hdrop, htake, hend, if_pos]
  · simp [reqText]
  · exact ⟨prefix_append _ _, hname.1, prefix_append _ _⟩

theorem of_matchReq {inner : List Char} {n : Nat} (h : matchReq s = some (inner, n)) :
    ∃ name rest, IsReqName name ∧ s = ['%', '%'] ++ reqText name ++ ['%', '%'] ++ rest := by
  rw [matchReq] at h
  split at h
  · next hmatch =>
    obtain ⟨⟨tail, rfl⟩, hname, hend⟩ := hmatch
    have hdrop : (['%', '%', 'R', 'E', 'Q', '('] ++ tail).drop 6 = tail := rfl
    rw [hdrop] at hname hend
    rw [← drop_drop, hdrop] at hend
    obtain ⟨rest, hrest⟩ := hend
    refine ⟨tail.takeWhile isReqChar, rest, ⟨hname, fun c hc => ?_⟩, ?_⟩
    · exact all_eq_true.mp all_takeWhile c hc
    · rw [quoted_reqText_append, hrest, append_cancel_left_eq]
      have hstart : _ <+: tail := takeWhile_prefix isReqChar
      exact (prefix_iff_eq_append.mp hstart).symm
  · cases h

theorem replaceReq_skip (skip : Nat) (l : List Char) :
    replaceReq skip l = replaceReq 0 (l.drop skip) := by
  induction skip generalizing l with
  | zero => rw [drop_zero]
  | succ skip ih =>
    cases l with
    | nil => rw [drop_nil, replaceReq, replaceReq]
    | cons c rest => rw [replaceReq, ih, drop_succ_cons]

theorem replaceReq_reqText (hname : IsReqName name) (rest : List Char) :
    replaceReq 0 (['%', '%'] ++ reqText name ++ ['%', '%'] ++ rest) =
      ['%'] ++ reqText name ++ ['%'] ++ replaceReq 0 rest := by
  have hmatch := matchReq_reqText hname rest
  have hcons : ['%', '%'] ++ reqText name ++ ['%', '%'] ++ rest =
      '%' :: (['%'] ++ reqText name ++ ['%', '%'] ++ rest) := rfl
  have hdrop : (['%'] ++ reqText name ++ ['%', '%'] ++ rest).drop (name.length + 9 - 1) = rest := by
    apply drop_left'
    simp [reqText]
  rw [hcons, replaceReq, ← hcons, hmatch]
  simp only []
  rw [replaceReq_skip, hdrop]

theorem replaceReq_cons {c : Char} {rest : List Char} (h : matchReq (c :: rest) = none) :
    replaceReq 0 (c :: rest) = c :: replaceReq 0 rest := by
  rw [replaceReq, h]

/-- The operators that `escapeHeaderValue` lets through. -/
def AllowedOperator (name : List Char) : Prop :=
  (∃ v ∈ envoyVariables, name = v.toList) ∨ ∃ n, IsReqName n ∧ name = reqText n

theorem percent_notMem_reqText (hname : IsReqName name) : '%' ∉ reqText name := by
  have hpercent : '%' ∉ name := fun h => absurd (hname.2 '%' h) (by decide)
  simp [reqText, hpercent]

/-- Where no quoted expression starts, a piece is kept as a whole. -/
theorem replaceReq_text_append {b : Piece} {rest : List Piece} (hgood : ∀ d ∈ b :: rest, d.Good)
    (hnew : ∀ n, IsReqName n → Piece.operator (reqText n) ∉ rest)
    (hmatch : ∀ n, IsReqName n → ¬ Piece.quoted (reqText n) <+: b :: rest)
    (hsplit : b.text = s ++ t) :
    replaceReq 0 (t ++ rest.flatMap Piece.text) = t ++ replaceReq 0 (rest.flatMap Piece.text) := by
  obtain ⟨hb, hrest⟩ := forall_mem_cons.mp hgood
  induction t generalizing s with
  | nil => rfl
  | cons c t ih =>
    have hnone : matchReq (c :: (t ++ rest.flatMap Piece.text)) = none := by
      cases h : matchReq (c :: (t ++ rest.flatMap Piece.text)) with
      | none => rfl
      | some found =>
        obtain ⟨name, more, hname, hstart⟩ := of_matchReq h
        have hpercent := percent_notMem_reqText hname
        have hprefix : (Piece.quoted (reqText name)).flatMap Piece.text <+:
            c :: t ++ rest.flatMap Piece.text := by
          rw [Piece.flatMap_text_quoted hpercent]
          exact ⟨more, hstart.symm⟩
        by_cases hs : s = []
        · rw [hs, nil_append] at hsplit
          rw [← hsplit, ← flatMap_cons,
            Piece.isCode_text.prefix_iff Piece.good_quoted hgood] at hprefix
          exact absurd hprefix (hmatch name hname)
        · exact absurd hprefix (Piece.not_quoted_prefix hpercent hb hrest (hnew name hname)
            (fun hnil => absurd hnil (cons_ne_nil _ _)) (hmatch name hname) hsplit hs
            (cons_ne_nil c t))
    rw [cons_append, replaceReq_cons hnone, cons_append,
      ih (s := s ++ [c]) (by rw [hsplit, append_assoc, singleton_append])]

/-- The last pass turns the quoted expressions for request headers into operators. -/
theorem replaceReq_pieces (hgood : ∀ b ∈ pieces, b.Good)
    (hnew : ∀ n, IsReqName n → Piece.operator (reqText n) ∉ pieces) :
    ∃ pieces' : List Piece,
      replaceReq 0 (pieces.flatMap Piece.text) = pieces'.flatMap Piece.text ∧
      ∀ n, Piece.operator n ∈ pieces' →
        Piece.operator n ∈ pieces ∨ ∃ m, IsReqName m ∧ n = reqText m := by
  induction hlength : pieces.length using Nat.strong_induction_on generalizing pieces with
  | _ length ih =>
    cases pieces with
    | nil => exact ⟨[], by rw [flatMap_nil, replaceReq], fun n hn => .inl hn⟩
    | cons b rest =>
      by_cases hmatch : ∃ n, IsReqName n ∧ Piece.quoted (reqText n) <+: b :: rest
      · obtain ⟨name, hname, more, hmore⟩ := hmatch
        rw [← hmore] at hgood hnew hlength ⊢
        obtain ⟨pieces', hpieces', hops⟩ := ih more.length
          (by rw [← hlength, length_append]; simp [Piece.quoted])
          (fun d hd => hgood d (mem_append_right _ hd))
          (fun n hn hop => hnew n hn (mem_append_right _ hop)) rfl
        refine ⟨.operator (reqText name) :: pieces', ?_, fun n hn => ?_⟩
        · rw [flatMap_append, Piece.flatMap_text_quoted (percent_notMem_reqText hname),
            replaceReq_reqText hname, hpieces']
          rfl
        · rcases mem_cons.mp hn with heq | hn
          · injection heq with heq
            exact .inr ⟨name, hname, heq⟩
          · exact (hops n hn).imp_left (mem_append_right _)
      · have hkept : ∀ n, IsReqName n → ¬ Piece.quoted (reqText n) <+: b :: rest :=
          fun n hn hstart => hmatch ⟨n, hn, hstart⟩
        have hnew' : ∀ n, IsReqName n → Piece.operator (reqText n) ∉ rest :=
          fun n hn hop => hnew n hn (mem_cons_of_mem b hop)
        obtain ⟨pieces', hpieces', hops⟩ := ih rest.length
          (by rw [← hlength, length_cons]; omega)
          (fun d hd => hgood d (mem_cons_of_mem b hd)) hnew' rfl
        refine ⟨b :: pieces', ?_, fun n hn => ?_⟩
        · rw [flatMap_cons, flatMap_cons, ← hpieces']
          exact replaceReq_text_append hgood hnew' hkept (nil_append b.text).symm
        · rcases mem_cons.mp hn with heq | hn
          · exact .inl (heq ▸ mem_cons_self)
          · exact (hops n hn).imp_left (mem_cons_of_mem b)

/-- A text that Envoy reads as characters, doubled percent signs and allowed operators. -/
def Harmless (out : String) : Prop :=
  ∃ pieces : List Piece, out.toList = pieces.flatMap Piece.text ∧
    ∀ name, Piece.operator name ∈ pieces → AllowedOperator name

def isOperatorChar (c : Char) : Bool := ('A' ≤ c && c ≤ 'Z') || c = '_' || ('0' ≤ c && c ≤ '6')

theorem forall_isOperatorChar (hv : v ∈ envoyVariables) :
    v.toList ≠ [] ∧ ∀ c ∈ v.toList, isOperatorChar c = true := by
  have hspelled : ∀ {v : String} {l : List Char}, v = String.ofList l → l ≠ [] →
      l.all isOperatorChar = true → v.toList ≠ [] ∧ ∀ c ∈ v.toList, isOperatorChar c = true := by
    rintro v l rfl hne hl
    rw [String.toList_ofList]
    exact ⟨hne, all_eq_true.mp hl⟩
  have hall : ∀ v ∈ envoyVariables, v.toList ≠ [] ∧ ∀ c ∈ v.toList, isOperatorChar c = true := by
    rw [envoyVariables]
    repeat refine forall_mem_cons.mpr ⟨hspelled rfl (cons_ne_nil _ _) rfl, ?_⟩
    exact fun v hv => absurd hv not_mem_nil
  exact hall v hv

theorem envoyVariables_nodup : envoyVariables.Nodup := by
  decide

theorem notMem_envoyVariable (hv : v ∈ envoyVariables) {c : Char} (hc : isOperatorChar c = false) :
    c ∉ v.toList := by
  intro hmem
  rw [(forall_isOperatorChar hv).2 c hmem] at hc
  cases hc

theorem good_envoyVariable (hv : v ∈ envoyVariables) : Piece.Good (.operator v.toList) :=
  ⟨(forall_isOperatorChar hv).1, notMem_envoyVariable hv rfl⟩

theorem escapeHeaderValue_of_notMem {ord : MapOrder} (h : '%' ∉ value.toList) :
    escapeHeaderValue ord value dynamicHeaders = value := by
  rw [escapeHeaderValue, if_pos h]

theorem escapeHeaderValue_eq {ord : MapOrder} (h : '%' ∈ value.toList) :
    escapeHeaderValue ord value dynamicHeaders =
      String.ofList (replaceReq 0 (envoyVariables.foldl operatorPass
        ((ord.range ("escapeHeaderValue " ++ value) dynamicHeaders).foldl
          (fun escaped e => replaceAll (quotedVariable e.1) e.2.toList 0 escaped)
          ((value.toList.map Piece.plain).flatMap Piece.text)))) := by
  rw [escapeHeaderValue, if_neg (not_not.mpr h), Piece.replaceAll_percent]
  rfl

/-- If no variable has a percent sign in its name or its value, what comes out is read as
characters, doubled percent signs and allowed operators. -/
theorem escapeHeaderValue_harmless (ord : MapOrder) (value : String)
    (dynamicHeaders : Map String String)
    (hfree : ∀ name val, dynamicHeaders.lookup name = some val →
      '%' ∉ name.toList ∧ '%' ∉ val.toList) :
    Harmless (escapeHeaderValue ord value dynamicHeaders) := by
  have hplain : ∀ (l : List Char) n, Piece.operator n ∉ l.map Piece.plain := by
    intro l n hn
    obtain ⟨c, -, hc⟩ := mem_map.mp hn
    cases hc
  have hvars : PercentFree (ord.range ("escapeHeaderValue " ++ value) dynamicHeaders) :=
    fun e he => hfree e.1 e.2 (ord.mem_range.mp he)
  by_cases hpercent : '%' ∈ value.toList
  · let vars := ord.range ("escapeHeaderValue " ++ value) dynamicHeaders
    obtain ⟨pieces, hpieces, hgood, hops⟩ := foldl_operatorPass envoyVariables_nodup
      (fun v hv => good_envoyVariable hv) Piece.good_plain
      (fun v _ => hplain (substitute vars value.toList) v.toList)
    have hoperators : ∀ n, Piece.operator n ∈ pieces → ∃ v ∈ envoyVariables, n = v.toList :=
      fun n hn => (hops n hn).resolve_left (hplain _ n)
    have hnoReq : ∀ n, IsReqName n → Piece.operator (reqText n) ∉ pieces := by
      intro n _ hn
      obtain ⟨v, hv, heq⟩ := hoperators _ hn
      apply notMem_envoyVariable hv (c := '(') rfl
      rw [← heq]
      simp [reqText]
    obtain ⟨pieces', hpieces', hops'⟩ := replaceReq_pieces hgood hnoReq
    refine ⟨pieces', ?_, fun n hn => (hops' n hn).imp_left (hoperators n)⟩
    rw [escapeHeaderValue_eq hpercent, String.toList_ofList, foldl_quotedVariable hvars, ← hpieces',
      ← hpieces]
  · refine ⟨value.toList.map .plain, ?_, fun name hname => absurd hname (hplain _ name)⟩
    rw [escapeHeaderValue_of_notMem hpercent, Piece.flatMap_text_plain hpercent]

def percentVariable : Map String String := (∅ : Map String String).insert "%" "x"

/-- No piece is a single percent sign. -/
theorem flatMap_text_ne_percent (pieces : List Piece) : pieces.flatMap Piece.text ≠ ['%'] := by
  cases pieces with
  | nil => exact fun h => by cases h
  | cons b rest =>
    intro h
    rw [flatMap_cons] at h
    cases b with
    | plain c =>
      by_cases hc : c = '%'
      · subst hc
        cases h
      · rw [Piece.text_plain hc] at h
        injection h with hhead
        exact hc hhead
    | operator name =>
      have hlength := congrArg length h
      simp [Piece.text] at hlength

/-- The variable takes five of six percent signs and leaves one alone. -/
theorem single_percent_left :
    (∀ name val, percentVariable.lookup name = some val → '%' ∉ val.toList) ∧
    escapeHeaderValue .storage "%%%" percentVariable = "x%" ∧ ¬ Harmless "x%" := by
  refine ⟨Map.forall_lookup_insert (by decide) nofun, by decide, ?_⟩
  · rintro ⟨pieces, hpieces, -⟩
    have hpieces : pieces.flatMap Piece.text = ['x', '%'] := hpieces.symm
    cases pieces with
    | nil => cases hpieces
    | cons b rest =>
      rw [flatMap_cons] at hpieces
      cases b with
      | plain c =>
        by_cases hc : c = '%'
        · subst hc
          cases hpieces
        · rw [Piece.text_plain hc] at hpieces
          injection hpieces with _ hrest
          exact flatMap_text_ne_percent rest hrest
      | operator name => cases hpieces

/-- The variables of a proxy have no percent sign. -/
theorem namespace_harmless :
    Harmless (escapeHeaderValue .storage "100% of %Sesame_NAMESPACE%"
      ((∅ : Map String String).insert "Sesame_NAMESPACE" "prod")) := by
  apply escapeHeaderValue_harmless
  exact Map.forall_lookup_insert (by decide) nofun

end Sesame.Dag
