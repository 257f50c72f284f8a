/-
# Prefixes of paths

A prefix of an HTTPRoute or of an Ingress is meant by segments: it matches the paths that
start with all of its segments, where one slash at the end does not count. Envoy knows
prefixes as texts only, so that `RouteMatch` renders such a prefix as a regular expression,
which is right for a prefix without slash at its end. The Ingress processor takes such a
slash away, the Gateway API processor does not.
-/

import Mathlib.Data.List.DropRight
import Sesame.Lib.Regex
import Sesame.Lib.Text
import Sesame.Dag.GatewayRoutes
import Sesame.Dag.IngressProcessor
import Sesame.Envoy.Route

namespace Sesame.Envoy

open List
open Lib Dag Api

variable {r : Dag.Route} {s q : List Char} {p : String} {m : Option HTTPPathMatch}
  {u u' : Status.RouteConditionsUpdate} {cond : PathMatchCondition}

/-! ## What Envoy matches -/

/-- Envoy matches a path: a regular expression as a whole, a prefix as a text. -/
def PathSpecifier.Matches : PathSpecifier → List Char → Prop
  | .safeRegex regex, q => Regex.FullMatch regex.toList q
  | .pathPrefix value, q => value.toList <+: q
  | .path value, q => q = value.toList

/-- What `prefixPathMatchSegmentRegex` is read as. -/
def segmentsRest : RegularExpression Char := (1 * 1 * Regex.oneOf ['/'] * Regex.dot.star).star

theorem read_segmentsRest (r : Regex.Reader) (hr : r.mode = .text) :
    prefixPathMatchSegmentRegex.toList.foldlM Regex.Reader.read r =
      some { r with
        front := r.front * r.last
        last := segmentsRest } := by
  obtain ⟨mode, outer, front, last⟩ := r
  cases hr
  rfl

/-- It matches nothing, or a slash and whatever follows. -/
theorem mem_segmentsRest {rest : List Char} (hline : '\n' ∉ rest) :
    rest ∈ segmentsRest.matches' ↔ rest = [] ∨ ['/'] <+: rest := by
  have hword : ∀ word, word ∈ (1 * 1 * Regex.oneOf ['/'] * Regex.dot.star).matches' ↔
      ∃ w, '\n' ∉ w ∧ word = '/' :: w := by
    intro word
    simp only [RegularExpression.matches'_mul, RegularExpression.matches'_epsilon, one_mul,
      Language.mem_mul, Regex.mem_oneOf, Regex.mem_star_dot]
    constructor
    · rintro ⟨_, ⟨c, hc, rfl⟩, w, hw, rfl⟩
      exact ⟨w, hw, by rw [mem_singleton.mp hc]; rfl⟩
    · rintro ⟨w, hw, rfl⟩
      exact ⟨['/'], ⟨'/', mem_singleton_self _, rfl⟩, w, hw, rfl⟩
  rw [segmentsRest, RegularExpression.matches'_star, Language.mem_kstar]
  constructor
  · rintro ⟨words, rfl, hwords⟩
    cases words with
    | nil => exact .inl rfl
    | cons word words =>
      obtain ⟨w, -, rfl⟩ := (hword word).mp (hwords word mem_cons_self)
      exact .inr ⟨w ++ words.flatten, rfl⟩
  · rintro (rfl | ⟨w, rfl⟩)
    · exact ⟨[], rfl, fun _ h => by cases h⟩
    · refine ⟨['/' :: w], (append_nil _).symm, ?_⟩
      intro word hmem
      rw [mem_singleton.mp hmem, hword]
      exact ⟨w, fun h => hline (mem_cons_of_mem _ h), rfl⟩

/-- A path is a text, or below it. -/
def Below (s path : List Char) : Prop := path = s ∨ s ++ ['/'] <+: path
  deriving Decidable

/-- What the expression for a prefix matches. -/
theorem segment_matches {value : String} (hr : r.pathMatchCondition = .pathPrefix value .segment)
    {path : List Char} (hline : '\n' ∉ path) :
    (routeMatch r).pathSpecifier.Matches path ↔ Below value.toList path := by
  have htext : ("^" ++ String.ofList (quoteMeta value.toList) ++
      prefixPathMatchSegmentRegex).toList =
      '^' :: (Regex.escape value.toList ++ prefixPathMatchSegmentRegex.toList) := by
    have hquote : (String.ofList (quoteMeta value.toList)).toList = Regex.escape value.toList :=
      String.toList_ofList
    rw [String.toList_append, String.toList_append, hquote]
    rfl
  rw [routeMatch, hr, PathSpecifier.Matches, htext,
    Regex.fullMatch_escape_append read_segmentsRest, Below]
  constructor
  · rintro ⟨rest, hrest, rfl⟩
    have hrestLine : '\n' ∉ rest := fun h => hline (mem_append_right _ h)
    rcases (mem_segmentsRest hrestLine).mp hrest with rfl | ⟨w, rfl⟩
    · exact .inl (append_nil _)
    · exact .inr ⟨w, by rw [append_assoc]⟩
  · rintro (rfl | ⟨w, rfl⟩)
    · exact ⟨[], (mem_segmentsRest not_mem_nil).mpr (.inl rfl), (append_nil _).symm⟩
    · rw [append_assoc] at hline ⊢
      refine ⟨['/'] ++ w, (mem_segmentsRest ?_).mpr (.inr ⟨w, rfl⟩), rfl⟩
      exact fun h => hline (mem_append_right _ h)

/-! ## Segments -/

def withoutSlash (path : List Char) : List Char :=
  if path.getLast? = some '/' then path.dropLast else path

def segments (path : List Char) : List (List Char) := (withoutSlash path).splitOn '/'

/-- The parts of one text start those of another iff the other one is below it. -/
theorem splitOn_prefix_iff {a b : List Char} : a.splitOn '/' <+: b.splitOn '/' ↔ Below a b := by
  constructor
  · rintro ⟨more, hmore⟩
    have hb : b = intercalate ['/'] (a.splitOn '/' ++ more) := by
      rw [hmore, intercalate_splitOn]
    cases more with
    | nil =>
      rw [append_nil, intercalate_splitOn] at hb
      exact .inl hb
    | cons part more =>
      rw [intercalate_append (splitOn_ne_nil _ _) (cons_ne_nil _ _), intercalate_splitOn] at hb
      exact .inr ⟨_, hb.symm⟩
  · rintro (rfl | ⟨rest, rfl⟩)
    · exact prefix_rfl
    · rw [append_assoc, singleton_append, splitOn_append_cons_self]
      exact prefix_append _ _

theorem withoutSlash_concat (s : List Char) : withoutSlash (s ++ ['/']) = s := by
  rw [withoutSlash, getLast?_concat, if_pos rfl, dropLast_concat]

theorem withoutSlash_of_ne (h : s.getLast? ≠ some '/') : withoutSlash s = s := if_neg h

/-- A slash at the end of a path does not count for what it is below. -/
theorem below_withoutSlash (hs : s.getLast? ≠ some '/') : Below s (withoutSlash q) ↔ Below s q := by
  by_cases hslash : q.getLast? = some '/'
  · obtain ⟨t, rfl⟩ := getLast?_eq_some_iff.mp hslash
    rw [withoutSlash_concat]
    constructor
    · rintro (rfl | hbelow)
      · exact .inr prefix_rfl
      · exact .inr (hbelow.trans (prefix_append _ _))
    · rintro (rfl | hbelow)
      · exact absurd getLast?_concat hs
      · rcases prefix_concat_iff.mp hbelow with hsame | hbelow
        · exact .inl (append_cancel_right hsame).symm
        · exact .inr hbelow
  · rw [withoutSlash_of_ne hslash]

/-- The segments of a prefix start those of a path iff the path is below the prefix, taken
without its slash. -/
theorem segments_prefix_iff {p : List Char} (hp : (withoutSlash p).getLast? ≠ some '/') :
    segments p <+: segments q ↔ Below (withoutSlash p) q := by
  rw [segments, segments, splitOn_prefix_iff, below_withoutSlash hp]

/-- A path without two slashes in a row. -/
theorem getLast?_withoutSlash {p : List Char} (hp : ¬ ['/', '/'] <:+: p) :
    (withoutSlash p).getLast? ≠ some '/' := by
  by_cases hslash : p.getLast? = some '/'
  · obtain ⟨s, rfl⟩ := getLast?_eq_some_iff.mp hslash
    rw [withoutSlash_concat]
    intro hend
    obtain ⟨t, rfl⟩ := getLast?_eq_some_iff.mp hend
    exact hp ⟨t, [], by simp⟩
  · rw [withoutSlash_of_ne hslash]
    exact hslash

theorem below_nil (hq : ['/'] <+: q) : Below [] q := .inr hq

/-! ## Prefixes of HTTPRoutes -/

/-- The value of a match of an HTTPRoute, if it is a prefix. -/
def prefixValue : Option HTTPPathMatch → Option String
  | none => some "/"
  | some m => if m.type.getD .pathPrefix = .pathPrefix then some (m.value.getD "/") else none

/-- The prefix ends with a slash, and the path is the prefix without it, or a segment
follows it there. -/
def Misjudged (p q : List Char) : Prop :=
  ∃ s, s ≠ [] ∧ p = s ++ ['/'] ∧ (q = s ∨ ∃ c rest, c ≠ '/' ∧ q = s ++ '/' :: c :: rest)

theorem gatewayPathMatchCondition_prefix (hp : prefixValue m = some p)
    (h : GatewayAPIProcessor.gatewayPathMatchCondition m u = (some cond, u')) :
    cond = .pathPrefix p (if p = "/" then .string else .segment) ∧ ['/'] <+: p.toList ∧
      ¬ ['/', '/'] <:+: p.toList := by
  cases m with
  | none =>
    cases hp
    cases h
    exact ⟨rfl, by decide, by decide⟩
  | some m =>
    rw [prefixValue] at hp
    split at hp
    · next htype =>
      cases hp
      unfold GatewayAPIProcessor.gatewayPathMatchCondition at h
      dsimp only at h
      rw [htype] at h
      dsimp only at h
      split at h
      · cases h
      rename_i hvalid
      cases h
      unfold GatewayAPIProcessor.pathValueError at hvalid
      split at hvalid
      · cases hvalid
      · next hstart =>
        split at hvalid
        · cases hvalid
        · next hdouble => exact ⟨rfl, not_not.mp hstart, hdouble⟩
    · cases hp

/-- A prefix with a slash at its end is matched as if the slash were a segment. -/
theorem below_concat_iff :
    (Below (s ++ ['/']) q ↔ Below s q) ↔
      ¬ (q = s ∨ ∃ c rest, c ≠ '/' ∧ q = s ++ '/' :: c :: rest) := by
  constructor
  · rintro h (rfl | ⟨c, rest, hc, rfl⟩)
    · rcases h.mpr (.inl rfl) with hsame | hbelow
      · simpa using congrArg length hsame
      · have hlen := hbelow.length_le
        simp only [length_append, length_singleton] at hlen
        omega
    · rcases h.mpr (.inr ⟨c :: rest, by simp⟩) with hsame | ⟨t, ht⟩
      · simpa using congrArg length hsame
      · simp only [append_assoc, append_cancel_left_eq] at ht
        have hcons : '/' :: '/' :: t = '/' :: c :: rest := ht
        exact hc (cons.inj (cons.inj hcons).2).1.symm
  · intro h
    constructor
    · rintro (rfl | hbelow)
      · exact .inr prefix_rfl
      · exact .inr ((prefix_append _ _).trans hbelow)
    · rintro (rfl | ⟨t, rfl⟩)
      · exact absurd (.inl rfl) h
      · cases t with
        | nil => exact .inl (append_nil _)
        | cons c rest =>
          by_cases hc : c = '/'
          · subst hc
            exact .inr ⟨rest, by simp⟩
          · exact absurd (.inr ⟨c, rest, hc, by simp⟩) h

/-- The prefix of an HTTPRoute is matched by segments, unless it is misjudged for its slash. -/
theorem gateway_prefix_matches_iff (hp : prefixValue m = some p)
    (h : GatewayAPIProcessor.gatewayPathMatchCondition m u = (some cond, u'))
    (hr : r.pathMatchCondition = cond) (hq : ['/'] <+: q) (hline : '\n' ∉ q) :
    ((routeMatch r).pathSpecifier.Matches q ↔ segments p.toList <+: segments q) ↔
      ¬ Misjudged p.toList q := by
  obtain ⟨rfl, hstart, hdouble⟩ := gatewayPathMatchCondition_prefix hp h
  rw [segments_prefix_iff (getLast?_withoutSlash hdouble)]
  by_cases hroot : p = "/"
  · subst hroot
    have hbelow : Below (withoutSlash "/".toList) q := below_nil hq
    have hmatches : (routeMatch r).pathSpecifier.Matches q := by
      rw [routeMatch, hr]
      exact hq
    refine iff_of_true (iff_of_true hmatches hbelow) ?_
    rintro ⟨s, hs, hslash, -⟩
    exact hs (append_eq_singleton_iff.mp hslash.symm |>.elim (·.1) fun h => by cases h.2)
  · rw [if_neg hroot] at hr
    rw [segment_matches hr hline]
    by_cases hslash : p.toList.getLast? = some '/'
    · obtain ⟨s, hs⟩ := getLast?_eq_some_iff.mp hslash
      have hne : s ≠ [] := by
        rintro rfl
        exact hroot (String.ext hs)
      rw [hs, withoutSlash_concat, below_concat_iff, not_iff_not]
      constructor
      · exact fun h => ⟨s, hne, rfl, h⟩
      · rintro ⟨t, -, ht, h⟩
        rw [append_cancel_right ht]
        exact h
    · rw [withoutSlash_of_ne hslash]
      refine iff_of_true Iff.rfl ?_
      rintro ⟨s, -, hs, -⟩
      rw [hs, getLast?_concat] at hslash
      exact hslash rfl

/-! ## Prefixes of Ingresses -/

/-- Without two slashes in a row there is one slash to trim at most. -/
theorem rdropWhile_eq_withoutSlash {p : List Char} (hp : ¬ ['/', '/'] <:+: p) :
    p.rdropWhile (· = '/') = withoutSlash p := by
  have hlast := getLast?_withoutSlash hp
  have hkeep : ∀ s : List Char, s.getLast? ≠ some '/' → s.rdropWhile (· = '/') = s := by
    intro s hs
    refine rdropWhile_eq_self_iff.mpr fun hne hend => hs ?_
    rw [getLast?_eq_some_getLast hne, of_decide_eq_true hend]
  by_cases hslash : p.getLast? = some '/'
  · obtain ⟨s, rfl⟩ := getLast?_eq_some_iff.mp hslash
    rw [withoutSlash_concat] at hlast ⊢
    rw [rdropWhile_concat_pos (fun c => decide (c = '/')) s '/' (decide_eq_true rfl), hkeep s hlast]
  · rw [withoutSlash_of_ne hslash, hkeep p hslash]

/-- The prefix of an Ingress is matched by segments. -/
theorem ingress_prefix_matches_iff {lib : Stdlib} {ord : MapOrder} {ip : IngressProcessor}
    {ing : Ingress} {host : String} {service : Dag.Service} {cert : Option Dag.Secret}
    {serviceName : String} {servicePort : Int32}
    (hr : IngressProcessor.route lib ord ip ing host p .prefixed service cert serviceName
      servicePort = some r) (hdouble : ¬ ['/', '/'] <:+: p.toList) (hq : ['/'] <+: q)
    (hline : '\n' ∉ q) :
    (routeMatch r).pathSpecifier.Matches q ↔ segments p.toList <+: segments q := by
  have hcond : IngressProcessor.pathCondition lib p .prefixed = some r.pathMatchCondition := by
    simp only [IngressProcessor.route, Option.bind_eq_bind, Option.bind_eq_some_iff] at hr
    obtain ⟨reqHP, -, respHP, -, cond, hcond, hr⟩ := hr
    cases hr
    exact hcond
  rw [segments_prefix_iff (getLast?_withoutSlash hdouble)]
  rw [IngressProcessor.pathCondition] at hcond
  split at hcond
  · next hroot =>
    subst hroot
    rw [routeMatch, ← Option.some.inj hcond]
    exact iff_of_true hq (below_nil hq)
  · have htrim : (String.ofList ((p.toList.reverse.dropWhile (· = '/')).reverse)).toList =
        withoutSlash p.toList :=
      String.toList_ofList.trans (rdropWhile_eq_withoutSlash hdouble)
    rw [segment_matches (Option.some.inj hcond).symm hline, htrim]

/-! ## Both -/

/-- Prefixes are matched by segments: those of Ingresses always, those of HTTPRoutes unless
they are misjudged for a slash at their end. -/
theorem prefix_matches_iff {q : List Char} (hq : ['/'] <+: q) (hline : '\n' ∉ q) :
    (∀ (m : Option HTTPPathMatch) (p : String) (u u' : Status.RouteConditionsUpdate)
        (cond : PathMatchCondition) (r : Dag.Route), prefixValue m = some p →
      GatewayAPIProcessor.gatewayPathMatchCondition m u = (some cond, u') →
      r.pathMatchCondition = cond →
      (((routeMatch r).pathSpecifier.Matches q ↔ segments p.toList <+: segments q) ↔
        ¬ Misjudged p.toList q)) ∧
    ∀ (lib : Stdlib) (ord : MapOrder) (ip : IngressProcessor) (ing : Ingress) (host p : String)
        (service : Dag.Service) (cert : Option Dag.Secret) (serviceName : String)
        (servicePort : Int32) (r : Dag.Route), ['/'] <+: p.toList → ¬ ['/', '/'] <:+: p.toList →
      IngressProcessor.route lib ord ip ing host p .prefixed service cert serviceName
        servicePort = some r →
      ((routeMatch r).pathSpecifier.Matches q ↔ segments p.toList <+: segments q) := by
  constructor
  · intro m p u u' cond r hp hcond hr
    exact gateway_prefix_matches_iff hp hcond hr hq hline
  · intro lib ord ip ing host p service cert serviceName servicePort r _ hdouble hr
    exact ingress_prefix_matches_iff hr hdouble hq hline

/-- A match of an HTTPRoute for the prefix `/foo/`. -/
def slashedMatch : HTTPPathMatch where
  value := some "/foo/"

def slashedRoute : Dag.Route where
  pathMatchCondition := .pathPrefix "/foo/" .segment

/-- The prefix is accepted, and the paths `/foo` and `/foo/bar` have its segments and do not
match. -/
theorem slashed_prefix_misjudged :
    (∀ u, GatewayAPIProcessor.gatewayPathMatchCondition (some slashedMatch) u =
      (some slashedRoute.pathMatchCondition, u)) ∧
    ∀ q ∈ ["/foo", "/foo/bar"], segments "/foo/".toList <+: segments q.toList ∧
      ¬ (routeMatch slashedRoute).pathSpecifier.Matches q.toList := by
  have hpaths : ∀ q ∈ ["/foo", "/foo/bar"], segments "/foo/".toList <+: segments q.toList ∧
      '\n' ∉ q.toList ∧ ¬ Below "/foo/".toList q.toList := by
    decide +kernel
  refine ⟨fun u => rfl, fun q hq => ?_⟩
  obtain ⟨hsegments, hline, hbelow⟩ := hpaths q hq
  have hroute : slashedRoute.pathMatchCondition = .pathPrefix "/foo/" .segment := rfl
  refine ⟨hsegments, ?_⟩
  rw [segment_matches hroute hline]
  exact hbelow

/-- Without the slash at its end the prefix matches the path `/foo/bar`. -/
theorem plain_prefix_matches :
    (routeMatch { pathMatchCondition := .pathPrefix "/foo" .segment }).pathSpecifier.Matches
      "/foo/bar".toList := by
  have hiff := (@prefix_matches_iff "/foo/bar".toList (by decide) (by decide)).1
    (some { value := some "/foo" }) "/foo"
    { fullName := ⟨"n", "route"⟩, gatewayRef := ⟨"n", "g"⟩, gatewayController := "",
      resource := .httpRoute, generation := 0 }
    _ _ { pathMatchCondition := .pathPrefix "/foo" .segment } rfl rfl rfl
  have hplain : ¬ Misjudged "/foo".toList "/foo/bar".toList := by
    rintro ⟨s, -, hslash, -⟩
    have hlast : "/foo".toList.getLast? = some '/' := by rw [hslash, getLast?_concat]
    revert hlast
    decide
  exact (hiff.mpr hplain).mpr (by decide +kernel)

end Sesame.Envoy
