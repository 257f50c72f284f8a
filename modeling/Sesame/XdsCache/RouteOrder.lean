/-
# The order of routes

`sortRoutes` sorts the header conditions of each route and then the routes. Envoy
takes the first route that matches a request. Whatever the comparison does with header
conditions of one route against those of another, the routes end up sorted by the kind of
path, the path and the number of header conditions, so the first match is the most
specific one. The sequence itself depends on the order of the input as soon as the
comparison is not a strict weak order.
-/

import Sesame.Sorter

namespace Sesame.XdsCache

open List
open Lib Dag Sorter

variable {r a b : Route} {routes : List Route} {t : PrefixMatchType} {req : Request}

def sortHeaders (r : Route) : Route :=
  { r with
    headerMatchConditions := sortStable headerMatchConditionLess r.headerMatchConditions }

def sortRoutes (routes : List Route) : List Route := sortStable routeLess (routes.map sortHeaders)

theorem mem_sortHeaders {h : HeaderMatchCondition} :
    h ∈ (sortHeaders r).headerMatchConditions ↔ h ∈ r.headerMatchConditions :=
  mem_sortStable

theorem length_sortHeaders (r : Route) :
    (sortHeaders r).headerMatchConditions.length = r.headerMatchConditions.length :=
  (sortStable_perm _ _).length_eq

theorem mem_sortRoutes : r ∈ sortRoutes routes ↔ ∃ q ∈ routes, sortHeaders q = r := by
  rw [sortRoutes, mem_sortStable, mem_map]

/-! ## Whether the order of the input shows -/

/-- The routes of a list have pairwise different match conditions: a path condition and
a set of header conditions. -/
def PairwiseDifferent (routes : List Route) : Prop :=
  routes.Pairwise fun r r' => ¬ (r.pathMatchCondition = r'.pathMatchCondition ∧
    ∀ h, h ∈ r.headerMatchConditions ↔ h ∈ r'.headerMatchConditions)

/-- Sorting a list of routes is what it is meant to be: both comparisons are strict weak
orders on what they compare, and the result does not depend on the order of the
input. -/
structure SortsProperly (routes : List Route) : Prop where
  routesWeak : StrictWeakOn routeLess (· ∈ routes.map sortHeaders)
  headersWeak : StrictWeakOn headerMatchConditionLess
    fun h => ∃ r ∈ routes, h ∈ r.headerMatchConditions
  deterministic : PairwiseDifferent routes →
    ∀ routes', routes'.Perm routes → sortRoutes routes' = sortRoutes routes

/-- Two routes have the same path condition, and header conditions with the same keys. -/
def SameKeys (r r' : Route) : Prop :=
  r.pathMatchCondition = r'.pathMatchCondition ∧
    r.headerMatchConditions.map conditionKey = r'.headerMatchConditions.map conditionKey

/-- All header conditions are inverted, the sorted header conditions of no two routes
cross, and different match conditions do not differ in the value of `present`
conditions only. -/
structure Comparable (routes : List Route) : Prop where
  inverted : ∀ r ∈ routes, ∀ h ∈ r.headerMatchConditions, h.invert = true
  uncrossed : ∀ r ∈ routes, ∀ r' ∈ routes, r.pathMatchCondition = r'.pathMatchCondition →
    r.headerMatchConditions.length = r'.headerMatchConditions.length →
    ¬ Crossing (sortHeaders r).headerMatchConditions (sortHeaders r').headerMatchConditions
  distinguished : PairwiseDifferent routes →
    routes.Pairwise fun r r' => ¬ SameKeys (sortHeaders r) (sortHeaders r')

theorem strictWeakOn_sorted_iff (routes : List Route) :
    StrictWeakOn routeLess (· ∈ routes.map sortHeaders) ↔
      (∀ r ∈ routes, ∀ h ∈ r.headerMatchConditions, h.invert = true) ∧
      ∀ r ∈ routes, ∀ r' ∈ routes, r.pathMatchCondition = r'.pathMatchCondition →
        r.headerMatchConditions.length = r'.headerMatchConditions.length →
        ¬ Crossing (sortHeaders r).headerMatchConditions
          (sortHeaders r').headerMatchConditions := by
  rw [strictWeakOn_routeLess_iff]
  simp only [mem_map, forall_exists_index, and_imp, forall_apply_eq_imp_iff₂, mem_sortHeaders]
  constructor
  · intro h
    refine ⟨h.1, fun r hr r' hr' hpath hlen => ?_⟩
    rw [← length_sortHeaders, ← length_sortHeaders r'] at hlen
    exact h.2 _ _ r hr rfl r' hr' rfl hpath hlen
  · intro h
    refine ⟨h.1, ?_⟩
    rintro _ _ r hr rfl r' hr' rfl
    intro hpath hlen
    rw [length_sortHeaders, length_sortHeaders] at hlen
    exact h.2 r hr r' hr' hpath hlen

theorem sameKeys_of_routeLe (hab : RouteLe a b) (hba : RouteLe b a) : SameKeys a b := by
  rcases hab with hab | ⟨hpath, hab⟩
  · rcases hba with hba | ⟨hpath, -⟩
    · exact absurd hba (lt_asymm hab)
    · rw [hpath] at hab
      exact absurd hab (lt_irrefl _)
  · refine ⟨hpath, ?_⟩
    rcases hba with hba | ⟨-, hba⟩
    · rw [hpath] at hba
      exact absurd hba (lt_irrefl _)
    · rcases hab with hab | hab
      · rcases hba with hba | hba
        · exact absurd hba (lt_asymm hab)
        · exact absurd hab hba.length_eq.ge.not_gt
      · rcases hba with hba | hba
        · exact absurd hba hab.length_eq.ge.not_gt
        · rw [← forall₂_eq_eq_eq, forall₂_map_left_iff, forall₂_map_right_iff]
          obtain ⟨hlen, hle⟩ := forall₂_iff_get.mp hab
          refine forall₂_iff_get.mpr ⟨hlen, fun i hi hi' => ?_⟩
          exact le_antisymm (hle i hi hi') ((forall₂_iff_get.mp hba).2 i hi' hi)

theorem routeLe_of_sameKeys (h : SameKeys a b) : RouteLe a b := by
  refine .inr ⟨h.1, .inr ?_⟩
  have hkeys : Forall₂ (fun h h' => conditionKey h = conditionKey h')
      a.headerMatchConditions b.headerMatchConditions := by
    rw [← forall₂_map_right_iff, ← forall₂_map_left_iff (f := conditionKey), forall₂_eq_eq_eq]
    exact h.2
  exact hkeys.imp fun _ _ heq => heq.le

theorem nodup_sortRoutes (hdifferent : PairwiseDifferent routes) : (sortRoutes routes).Nodup := by
  rw [sortRoutes, (sortStable_perm _ _).nodup_iff, Nodup, pairwise_map]
  refine hdifferent.imp fun hne heq => hne ?_
  constructor
  · have hpath := congrArg Route.pathMatchCondition heq
    exact hpath
  · intro h
    rw [← mem_sortHeaders, heq, mem_sortHeaders]

/-- If the result does not depend on the order of the input, then no two of the different
routes have the same keys: a stable sort keeps such routes in their order. -/
theorem distinguished_of_deterministic
    (hinverted : ∀ r ∈ routes, ∀ h ∈ r.headerMatchConditions, h.invert = true)
    (hdifferent : PairwiseDifferent routes)
    (hdeterministic : ∀ routes', routes'.Perm routes → sortRoutes routes' = sortRoutes routes) :
    routes.Pairwise fun r r' => ¬ SameKeys (sortHeaders r) (sortHeaders r') := by
  rw [pairwise_iff_forall_sublist]
  intro r r' hsub hsame
  obtain ⟨rest, hrest⟩ := hsub.exists_perm_append
  have hnotless : ∀ {q q' : Route}, q' ∈ routes → SameKeys (sortHeaders q) (sortHeaders q') →
      routeLess (sortHeaders q') (sortHeaders q) = false := by
    intro q q' hq' hkeys
    rw [← Bool.not_eq_true, routeLess_iff_not_routeLe, not_not]
    · exact routeLe_of_sameKeys hkeys
    · intro h hh
      exact hinverted q' hq' h (mem_sortHeaders.mp hh)
  have hfirst : [sortHeaders r, sortHeaders r'].Sublist (sortRoutes routes) := by
    rw [← hdeterministic (r :: r' :: rest) hrest.symm]
    exact pair_sublist_sortStable (hnotless (hsub.subset (by simp)) hsame) _
  have hsecond : [sortHeaders r', sortHeaders r].Sublist (sortRoutes routes) := by
    rw [← hdeterministic (r' :: r :: rest) ((Perm.swap r r' rest).trans hrest.symm)]
    exact pair_sublist_sortStable (hnotless (hsub.subset (by simp)) ⟨hsame.1.symm, hsame.2.symm⟩) _
  exact not_pair_sublist_swap (nodup_sortRoutes hdifferent) hfirst hsecond

theorem deterministic_of_distinguished
    (hinverted : ∀ r ∈ routes, ∀ h ∈ r.headerMatchConditions, h.invert = true)
    (hweak : StrictWeakOn routeLess (· ∈ routes.map sortHeaders)) (hdistinguished :
      routes.Pairwise fun r r' => ¬ SameKeys (sortHeaders r) (sortHeaders r'))
    {routes' : List Route} (hperm : routes'.Perm routes) :
    sortRoutes routes' = sortRoutes routes := by
  refine sortStable_eq_of_perm hweak ?_ (hperm.map sortHeaders)
  intro x hx y hy hxy hyx
  obtain ⟨r, hr, rfl⟩ := mem_map.mp hx
  obtain ⟨r', hr', rfl⟩ := mem_map.mp hy
  have hle : ∀ {q q' : Route}, q ∈ routes → routeLess (sortHeaders q) (sortHeaders q') = false →
      RouteLe (sortHeaders q') (sortHeaders q) := by
    intro q q' hq hnot
    by_contra hle
    rw [← routeLess_iff_not_routeLe, hnot] at hle
    · cases hle
    · intro h hh
      exact hinverted q hq h (mem_sortHeaders.mp hh)
  have hkeys := sameKeys_of_routeLe (hle hr' hyx) (hle hr hxy)
  by_cases heq : r = r'
  · rw [heq]
  · have : Std.Symm fun q q' : Route => ¬ SameKeys (sortHeaders q) (sortHeaders q') := by
      constructor
      intro q q' hne hsame
      exact hne ⟨hsame.1.symm, hsame.2.symm⟩
    exact absurd hkeys (hdistinguished.forall hr hr' heq)

/-- Sorting routes is what it is meant to be exactly on comparable routes. -/
theorem sortsProperly_iff (routes : List Route) : SortsProperly routes ↔ Comparable routes := by
  constructor
  · intro h
    obtain ⟨hinverted, huncrossed⟩ := (strictWeakOn_sorted_iff routes).mp h.routesWeak
    refine ⟨hinverted, huncrossed, fun hdifferent => ?_⟩
    exact distinguished_of_deterministic hinverted hdifferent (h.deterministic hdifferent)
  · intro h
    have hweak := (strictWeakOn_sorted_iff routes).mpr ⟨h.inverted, h.uncrossed⟩
    refine ⟨hweak, ?_, fun hdifferent routes' hperm => ?_⟩
    · rw [strictWeakOn_headerMatchConditionLess_iff]
      rintro c ⟨r, hr, hc⟩
      exact h.inverted r hr c hc
    · exact deterministic_of_distinguished h.inverted hweak (h.distinguished hdifferent) hperm

/-- A route for `/` with two exact header conditions. -/
def twoHeaders (a b : String) : Route where
  pathMatchCondition := .pathPrefix "/" .string
  headerMatchConditions :=
    [{ name := "a", value := a, matchType := .exact },
      { name := "b", value := b, matchType := .exact }]

/-- A header condition and a route that are less than themselves, and two routes with
different conditions whose order after sorting is the reverse of that before. -/
theorem order_of_input_shows :
    headerMatchConditionLess { name := "a", value := "1", matchType := .exact }
        { name := "a", value := "1", matchType := .exact } = true ∧
      routeLess (twoHeaders "1" "2") (twoHeaders "1" "2") = true ∧
      PairwiseDifferent [twoHeaders "1" "2", twoHeaders "2" "1"] ∧
      sortRoutes [twoHeaders "1" "2", twoHeaders "2" "1"] =
        [twoHeaders "2" "1", twoHeaders "1" "2"] ∧
      sortRoutes [twoHeaders "2" "1", twoHeaders "1" "2"] =
        [twoHeaders "1" "2", twoHeaders "2" "1"] := by
  refine ⟨by decide +kernel, by decide +kernel, ?_, by decide +kernel, by decide +kernel⟩
  rw [PairwiseDifferent, pairwise_pair]
  rintro ⟨-, hsame⟩
  have hmem := (hsame { name := "a", value := "1", matchType := .exact }).mp (by decide)
  revert hmem
  decide

/-! ## The first match -/

/-- A request, with what the regular expressions and the header conditions of routes
make of it. -/
structure Request where
  path : String
  matchesRegex : String → Bool
  satisfies : HeaderMatchCondition → Bool

/-- The path conditions that a request matches, as `RouteMatch` renders them. -/
def Request.matchesPath (req : Request) : PathMatchCondition → Prop
  | .exact path => req.path = path
  | .regex expr => req.matchesRegex expr = true
  | .pathPrefix value .string => value.toList <+: req.path.toList
  | .pathPrefix value .segment =>
    req.path = value ∨ value.toList ++ ['/'] <+: req.path.toList

instance (req : Request) (c : PathMatchCondition) : Decidable (req.matchesPath c) := by
  unfold Request.matchesPath
  split <;> infer_instance

/-- A request matches a route if it matches its path and all its header conditions. -/
def Request.Matches (req : Request) (r : Route) : Prop :=
  req.matchesPath r.pathMatchCondition ∧ ∀ h ∈ r.headerMatchConditions, req.satisfies h = true
  deriving Decidable

/-- A route is sorted before another one, as far as paths and numbers of header
conditions go. -/
def SortedBefore (a b : Route) : Prop :=
  pathKey a.pathMatchCondition < pathKey b.pathMatchCondition ∨
    a.pathMatchCondition = b.pathMatchCondition ∧
      b.headerMatchConditions.length ≤ a.headerMatchConditions.length

theorem SortedBefore.trans {c : Route} (hab : SortedBefore a b) (hbc : SortedBefore b c) :
    SortedBefore a c := by
  rcases hab with hab | ⟨hpath, hab⟩
  · rcases hbc with hbc | ⟨hpath', -⟩
    · exact .inl (hab.trans hbc)
    · exact .inl (hpath' ▸ hab)
  · rcases hbc with hbc | ⟨hpath', hbc⟩
    · exact .inl (hpath ▸ hbc)
    · exact .inr ⟨hpath.trans hpath', hbc.trans hab⟩

theorem sortedBefore_of_routeLess (h : routeLess a b = true) : SortedBefore a b := by
  rw [routeLess_iff, longestRouteByHeaderConditions_iff] at h
  rcases h with hpath | ⟨hpath, hlen | ⟨hlen, -⟩⟩
  · exact .inl hpath
  · exact .inr ⟨hpath, hlen.le⟩
  · exact .inr ⟨hpath, hlen.ge⟩

theorem sortedBefore_of_not_routeLess (h : routeLess a b = false) : SortedBefore b a := by
  rw [← Bool.not_eq_true, routeLess_iff, not_or, not_and,
    longestRouteByHeaderConditions_iff, not_or] at h
  obtain ⟨hpath, hheaders⟩ := h
  rcases (not_lt.mp hpath).lt_or_eq with hlt | heq
  · exact .inl hlt
  · have heq := pathKey_inj heq
    exact .inr ⟨heq, not_lt.mp (hheaders heq.symm).1⟩

/-- The result of sorting is sorted by paths and numbers of header conditions. -/
theorem sortRoutes_sorted (routes : List Route) : (sortRoutes routes).Pairwise SortedBefore := by
  apply pairwise_sortStable
  · intro a b _ _ h
    exact sortedBefore_of_routeLess h
  · intro a b _ _ h
    exact sortedBefore_of_not_routeLess h
  · intro a b c _ _ _ hab hbc
    exact hab.trans hbc

theorem prefix_of_matchesPath {p : String} (h : req.matchesPath (.pathPrefix p t)) :
    p.toList <+: req.path.toList := by
  cases t with
  | string => exact h
  | segment =>
    rcases h with hpath | hsegment
    · exact hpath ▸ prefix_rfl
    · exact (prefix_append _ _).trans hsegment

/-- Of two prefixes of one path the longer one is sorted first. -/
theorem length_le_of_matchesPath {p q : String} {u : PrefixMatchType}
    (hp : req.matchesPath (.pathPrefix p t)) (hq : req.matchesPath (.pathPrefix q u))
    (hkey : pathKey (.pathPrefix p t) ≤ pathKey (.pathPrefix q u)) : q.length ≤ p.length := by
  have hqp : q ≤ p := by
    rw [pathKey, pathKey, Prod.Lex.toLex_le_toLex, Prod.Lex.toLex_le_toLex] at hkey
    rcases hkey with hkind | ⟨-, htext | ⟨htext, -⟩⟩
    · exact absurd hkind (lt_irrefl _)
    · exact (OrderDual.toDual_lt_toDual.mp htext).le
    · exact (OrderDual.toDual_inj.mp htext).ge
  by_contra hlonger
  have hlonger : p.toList.length < q.toList.length := by
    rw [String.length_toList, String.length_toList]
    exact not_le.mp hlonger
  have hprefix : p.toList <+: q.toList :=
    prefix_of_prefix_length_le (prefix_of_matchesPath hp) (prefix_of_matchesPath hq) hlonger.le
  have hpq : p ≤ q := String.le_iff_toList_le.mpr (not_lt.mp hprefix.le)
  rw [le_antisymm hpq hqp] at hlonger
  exact lt_irrefl _ hlonger

theorem matches_sortHeaders : req.Matches (sortHeaders r) ↔ req.Matches r := by
  rw [Request.Matches, Request.Matches]
  simp only [mem_sortHeaders]
  rfl

/-- A route that the request matches is not sorted before the first match. -/
theorem sortedBefore_of_matches {before rest : List Route} {q : Route}
    (hsorted : sortRoutes routes = before ++ r :: rest) (hbefore : ∀ q ∈ before, ¬ req.Matches q)
    (hq : q ∈ routes) (hmatches : req.Matches q) :
    sortHeaders q = r ∨ SortedBefore r (sortHeaders q) := by
  have hmem : sortHeaders q ∈ before ++ r :: rest := by
    rw [← hsorted, mem_sortRoutes]
    exact ⟨q, hq, rfl⟩
  rcases mem_append.mp hmem with hbefore' | hmem
  · exact absurd (matches_sortHeaders.mpr hmatches) (hbefore _ hbefore')
  · rcases mem_cons.mp hmem with heq | hrest
    · exact .inl heq
    · have hpairs := sortRoutes_sorted routes
      rw [hsorted, pairwise_append] at hpairs
      exact .inr ((pairwise_cons.mp hpairs.2.1).1 _ hrest)

/-- The first route that a request matches is the most specific one: exact paths come
before regular expressions and these before prefixes, no matching prefix is longer,
and no match for the same prefix has more header conditions. -/
theorem first_match_most_specific {routes before rest : List Route} {req : Request} {r : Route}
    (hsorted : sortRoutes routes = before ++ r :: rest)
    (hbefore : ∀ q ∈ before, ¬ req.Matches q) (hr : req.Matches r) :
    (∀ q ∈ rest, req.Matches q → ∀ path, q.pathMatchCondition = .exact path →
      ∃ path', r.pathMatchCondition = .exact path') ∧
    (∀ q ∈ rest, req.Matches q → ∀ expr, q.pathMatchCondition = .regex expr →
      ∀ value t, r.pathMatchCondition ≠ .pathPrefix value t) ∧
    ∀ value t, r.pathMatchCondition = .pathPrefix value t → ∀ q ∈ routes, req.Matches q →
      (∀ value' t', q.pathMatchCondition = .pathPrefix value' t' → value'.length ≤ value.length) ∧
      (q.pathMatchCondition = .pathPrefix value t →
        q.headerMatchConditions.length ≤ r.headerMatchConditions.length) := by
  have hpairs := sortRoutes_sorted routes
  rw [hsorted, pairwise_append] at hpairs
  have hrest : ∀ q ∈ rest, kindRank r.pathMatchCondition ≤ kindRank q.pathMatchCondition := by
    intro q hq
    rcases (pairwise_cons.mp hpairs.2.1).1 q hq with hlt | ⟨heq, -⟩
    · rw [pathKey, pathKey, Prod.Lex.toLex_lt_toLex] at hlt
      rcases hlt with hkind | ⟨hkind, -⟩
      · exact hkind.le
      · exact hkind.le
    · rw [heq]
  refine ⟨?_, ?_, ?_⟩
  · intro q hq _ path hpath
    have hkind := hrest q hq
    rw [hpath] at hkind
    cases hrpath : r.pathMatchCondition with
    | exact path' => exact ⟨path', rfl⟩
    | pathPrefix value t =>
      rw [hrpath] at hkind
      cases hkind
    | regex expr =>
      rw [hrpath] at hkind
      cases hkind
  · intro q hq _ expr hpath value t hrpath
    have hkind := hrest q hq
    rw [hpath, hrpath] at hkind
    exact absurd hkind (Nat.not_succ_le_self 1)
  · intro value t hrpath q hq hmatches
    have hfirst := sortedBefore_of_matches hsorted hbefore hq hmatches
    constructor
    · intro value' t' hpath
      have hpathMatch := hmatches.1
      rw [hpath] at hpathMatch
      have hrMatch := hr.1
      rw [hrpath] at hrMatch
      apply length_le_of_matchesPath hrMatch hpathMatch
      rw [← hpath, ← hrpath]
      rcases hfirst with heq | hlt | ⟨heq, -⟩
      · rw [← heq]
        exact le_rfl
      · exact hlt.le
      · rw [heq]
        exact le_rfl
    · intro hpath
      rw [← length_sortHeaders q]
      rcases hfirst with heq | hlt | ⟨-, hlen⟩
      · rw [heq]
      · rw [hrpath, ← hpath] at hlt
        exact absurd hlt (lt_irrefl _)
      · exact hlen

/-- Routes for `/`, for `/a` and for the exact path `/a/b`. -/
def nestedRoutes : List Route :=
  [{ pathMatchCondition := .pathPrefix "/" .string },
    { pathMatchCondition := .pathPrefix "/a" .string },
    { pathMatchCondition := .exact "/a/b" }]

/-- A request for `/a/c`. -/
def nestedRequest : Request where
  path := "/a/c"
  matchesRegex _ := false
  satisfies _ := false

/-- The request takes the second of the routes: no route that it matches has a longer
prefix. -/
theorem longest_prefix_first :
    ∃ before r rest, sortRoutes nestedRoutes = before ++ r :: rest ∧
      r.pathMatchCondition = .pathPrefix "/a" .string ∧ nestedRequest.Matches r ∧
      ∀ q ∈ nestedRoutes, nestedRequest.Matches q →
        ∀ value t, q.pathMatchCondition = .pathPrefix value t → value.length ≤ "/a".length := by
  have hsorted : sortRoutes nestedRoutes =
      [{ pathMatchCondition := .exact "/a/b" }] ++
        { pathMatchCondition := .pathPrefix "/a" .string } ::
          [{ pathMatchCondition := .pathPrefix "/" .string }] := by decide +kernel
  have hbefore : ∀ q ∈ [({ pathMatchCondition := .exact "/a/b" } : Route)],
      ¬ nestedRequest.Matches q := by decide
  have hr : nestedRequest.Matches { pathMatchCondition := .pathPrefix "/a" .string } := by decide
  refine ⟨_, _, _, hsorted, rfl, hr, fun q hq hmatches => ?_⟩
  exact ((first_match_most_specific hsorted hbefore hr).2.2 "/a" .string rfl q hq hmatches).1

end Sesame.XdsCache
