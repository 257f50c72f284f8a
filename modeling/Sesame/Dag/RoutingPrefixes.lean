/-
# The prefixes that routes are matched by

Every condition block may add one prefix, and the prefixes along a chain of
includes are concatenated and their runs of slashes collapsed. Merging in this
way is associative as long as every prefix starts with a slash, so it does not
matter at which level of the includes it is done. What comes out starts with a
slash and has no empty segment, and `expandPrefixMatches`, which is applied at
every level again, keeps it so.
-/

import Sesame.Dag.OrderFree

namespace Sesame.Dag

open List
open Lib Api

variable {conds : List MatchCondition}

/-! ## Merging -/

theorem collapseSlashes_cons (c : Char) (l : List Char) :
    collapseSlashes (c :: l) =
      if c = '/' ∧ l.head? = some '/' then collapseSlashes l else c :: collapseSlashes l := by
  by_cases hrun : c = '/' ∧ l.head? = some '/'
  · obtain ⟨rfl, hhead⟩ := hrun
    obtain ⟨rest, rfl⟩ := head?_eq_some_iff.mp hhead
    rw [if_pos ⟨rfl, rfl⟩, collapseSlashes]
  · rw [if_neg hrun, collapseSlashes.eq_2]
    intro rest hc hl
    exact hrun ⟨hc, by rw [hl, head?_cons]⟩

/-- A text may be collapsed before something is appended to it. -/
theorem collapseSlashes_collapse_append (a b : List Char) :
    collapseSlashes (collapseSlashes a ++ b) = collapseSlashes (a ++ b) := by
  fun_induction collapseSlashes a with
  | case1 rest ih =>
    rw [ih, cons_append, cons_append, cons_append, collapseSlashes]
  | case2 c rest _ ih =>
    have hhead : (collapseSlashes rest ++ b).head? = (rest ++ b).head? := by
      rw [head?_append, head?_append, head?_collapseSlashes]
    rw [cons_append, cons_append, collapseSlashes_cons, collapseSlashes_cons, hhead, ih]
  | case3 => rfl

theorem collapseSlashes_eq_nil {l : List Char} : collapseSlashes l = [] ↔ l = [] := by
  rw [← head?_eq_none_iff, head?_collapseSlashes, head?_eq_none_iff]

/-- A text that is empty or starts with a slash. -/
def Rooted (l : List Char) : Prop := ∀ c ∈ l.head?, c = '/'

theorem Rooted.append {a b : List Char} (ha : Rooted a) (hb : Rooted b) : Rooted (a ++ b) := by
  cases a with
  | nil => exact hb
  | cons c rest => exact ha

theorem pathMatchConditionsValidFrom_rooted {count : Nat}
    (h : pathMatchConditionsValidFrom count conds = .ok ()) :
    ∀ cond ∈ conds, Rooted cond.pathPrefix.toList := by
  induction conds generalizing count with
  | nil => exact fun _ hcond => absurd hcond not_mem_nil
  | cons cond rest ih =>
    rw [pathMatchConditionsValidFrom] at h
    rw [forall_mem_cons]
    split at h
    · next hempty =>
      split at h
      · cases h
      · refine ⟨?_, ih h⟩
        rw [hempty]
        exact fun c hc => absurd hc (Option.not_mem_none c)
    · next c _ hcond =>
      split at h
      · cases h
      rename_i hslash
      split at h
      · cases h
      · refine ⟨?_, ih h⟩
        rw [hcond]
        intro d hd
        obtain rfl := Option.mem_some.mp hd
        exact Decidable.not_not.mp hslash

/-- Every prefix of a valid condition block is empty or starts with a slash. -/
theorem pathMatchConditionsValid_rooted (h : pathMatchConditionsValid conds = .ok ()) :
    ∀ cond ∈ conds, Rooted cond.pathPrefix.toList :=
  pathMatchConditionsValidFrom_rooted h

theorem rooted_flatMap (h : ∀ cond ∈ conds, Rooted cond.pathPrefix.toList) :
    Rooted (conds.flatMap fun cond => cond.pathPrefix.toList) := by
  induction conds with
  | nil => exact fun c hc => absurd hc (Option.not_mem_none c)
  | cons cond rest ih =>
    rw [forall_mem_cons] at h
    rw [flatMap_cons]
    exact h.1.append (ih h.2)

/-- Conditions may be merged before others are added to them. -/
theorem mergePrefixes_nested (first : List MatchCondition) {rest : List MatchCondition}
    (hrest : ∀ cond ∈ rest, Rooted cond.pathPrefix.toList) :
    mergePrefixes ({ pathPrefix := mergePrefixes first } :: rest) =
      mergePrefixes (first ++ rest) := by
  have hrooted := rooted_flatMap hrest
  unfold mergePrefixes
  dsimp only
  rw [flatMap_cons, flatMap_append]
  generalize (first.flatMap fun cond => cond.pathPrefix.toList) = a
  generalize (rest.flatMap fun cond => cond.pathPrefix.toList) = b at hrooted ⊢
  by_cases hempty : collapseSlashes a = []
  · -- The conditions so far have no prefix; the slash that stands for it is lost again.
    rw [if_pos hempty, collapseSlashes_eq_nil.mp hempty, nil_append]
    cases b with
    | nil => rfl
    | cons c tail =>
      obtain rfl := hrooted c rfl
      rfl
  · rw [if_neg hempty, String.toList_ofList, collapseSlashes_collapse_append]

/-- A prefix that a route can be matched by: it starts with a slash and has no two
slashes in a row. -/
structure RoutingPrefix (routingPrefix : String) : Prop where
  rooted : routingPrefix.toList.head? = some '/'
  single : ¬ ['/', '/'] <:+: routingPrefix.toList

theorem routingPrefix_slash : RoutingPrefix "/" := ⟨rfl, by decide⟩

theorem routingPrefix_mergePrefixes (h : ∀ cond ∈ conds, Rooted cond.pathPrefix.toList) :
    RoutingPrefix (mergePrefixes conds) := by
  have hrooted := rooted_flatMap h
  unfold mergePrefixes
  dsimp only
  generalize (conds.flatMap fun cond => cond.pathPrefix.toList) = text at hrooted ⊢
  by_cases hempty : collapseSlashes text = []
  · rw [if_pos hempty]
    exact routingPrefix_slash
  rw [if_neg hempty]
  constructor
  · rw [String.toList_ofList, head?_collapseSlashes]
    cases text with
    | nil => exact absurd rfl hempty
    | cons c rest => rw [head?_cons, hrooted c rfl]
  · rw [String.toList_ofList]
    exact not_infix_collapseSlashes text

namespace HTTPProxyProcessor

open Status (DetailedCondition)

variable {s : String}

/-! ## Expansion -/

theorem trimSlashes_prefix (s : String) : (trimSlashes s).toList <+: s.toList := by
  rw [toList_trimSlashes, ← reverse_suffix, reverse_reverse]
  exact dropWhile_suffix _

theorem getLast?_trimSlashes (s : String) : (trimSlashes s).toList.getLast? ≠ some '/' := by
  intro hlast
  rw [toList_trimSlashes, getLast?_reverse] at hlast
  have hdropped := head?_dropWhile_not (fun c => decide (c = '/')) s.toList.reverse
  rw [hlast] at hdropped
  cases hdropped

/-- Only `/` consists of slashes and of nothing else. -/
theorem trimSlashes_ne_empty (h : RoutingPrefix s) (hslash : s ≠ "/") : trimSlashes s ≠ "" := by
  intro htrim
  have hslashes : ∀ c ∈ s.toList, c = '/' := by
    have hdrop := congrArg String.toList htrim
    rw [toList_trimSlashes, String.toList_empty, reverse_eq_nil_iff, dropWhile_eq_nil_iff] at hdrop
    intro c hc
    simpa using hdrop c (mem_reverse.mpr hc)
  obtain ⟨rest, hrest⟩ := head?_eq_some_iff.mp h.rooted
  have hsingle := h.single
  rw [hrest] at hslashes hsingle
  cases rest with
  | nil => exact hslash (String.toList_inj.mp hrest)
  | cons d rest =>
    obtain rfl := hslashes d (mem_cons_of_mem _ mem_cons_self)
    exact hsingle (prefix_append ['/', '/'] rest).isInfix

theorem routingPrefix_trimSlashes (h : RoutingPrefix s) (hslash : s ≠ "/") :
    RoutingPrefix (trimSlashes s) := by
  have hne := trimSlashes_ne_empty h hslash
  have hprefix := trimSlashes_prefix s
  constructor
  · have hhead := h.rooted
    obtain ⟨slashes, hslashes⟩ := hprefix
    rw [← hslashes] at hhead
    cases htext : (trimSlashes s).toList with
    | nil => exact absurd (String.toList_eq_nil_iff.mp htext) hne
    | cons c rest => rwa [htext] at hhead
  · exact fun hrun => h.single (hrun.trans hprefix.isInfix)

theorem routingPrefix_append_slash (h : RoutingPrefix s) (hlast : s.toList.getLast? ≠ some '/') :
    RoutingPrefix (s ++ "/") := by
  constructor
  · rw [String.toList_append, head?_append, h.rooted]
    rfl
  · rw [String.toList_append]
    intro hrun
    rcases infix_concat_iff.mp hrun with ⟨start, hstart⟩ | hinside
    · have hcancel : start ++ ['/'] ++ ['/'] = s.toList ++ ['/'] := by
        rw [append_assoc]
        exact hstart
      rw [← append_cancel_right hcancel] at hlast
      exact hlast getLast?_concat
    · exact h.single hinside

/-- A route is matched by a routing prefix. -/
def HasRoutingPrefix (r : Route) : Prop :=
  ∃ routingPrefix, r.pathMatchCondition = .pathPrefix routingPrefix .string ∧
    RoutingPrefix routingPrefix

theorem keptByExpansion_hasRoutingPrefix : KeptByExpansion HasRoutingPrefix := by
  intro r routingPrefix m hr hpath _ hslash rewrite _
  obtain ⟨routingPrefix', hpath', hwell⟩ := hr
  obtain ⟨rfl, rfl⟩ := PathMatchCondition.pathPrefix.inj (hpath.symm.trans hpath')
  have hne : routingPrefix ≠ "/" := fun h => hslash (by rw [hpath, h])
  have htrimmed := routingPrefix_trimSlashes hwell hne
  rw [groupPrefix_of_ne hne]
  exact ⟨⟨_, rfl, htrimmed⟩,
    ⟨_, rfl, routingPrefix_append_slash htrimmed (getLast?_trimSlashes routingPrefix)⟩⟩

/-! ## All levels -/

section

variable (lib : Stdlib) (ord : MapOrder) (p : HTTPProxyProcessor) (source : KubernetesCache)

variable {pos : Position}

/-- The routes that a visit collects and hands to `expandPrefixMatches`: those found
below its includes and those of its own, unless one of its own is not valid. -/
def collectRoutes (root : Root) (enforceTLS : Bool) (fuel : Nat) (visited : List HTTPProxy)
    (state : State) (validCond : DetailedCondition) (pos : Position) : Option (List Route) :=
  let v := afterIncludes lib ord p source root enforceTLS fuel visited state validCond pos
  (routeLoop lib ord p source root enforceTLS pos v).toOption.map (·.routes)

variable {lib ord p source}

/-- A visit that gets as far as collecting routes returns them expanded. -/
theorem computeRoutes_routes (root : Root) (enforceTLS : Bool) (fuel : Nat)
    (visited : List HTTPProxy) (st : State) (vc : DetailedCondition) (pos : Position) :
    (computeRoutes lib ord p source root enforceTLS (fuel + 1) visited st vc pos).routes = [] ∨
      ∃ routes site,
        collectRoutes lib ord p source root enforceTLS fuel visited st vc pos = some routes ∧
        (computeRoutes lib ord p source root enforceTLS (fuel + 1) visited st vc pos).routes =
          expandPrefixMatches ord site routes := by
  rcases call_cases ⟨visited, pos⟩ with honPath | ⟨hfresh, hsame⟩ | hexpands
  · rw [computeRoutes_of_onPath honPath]
    exact .inl rfl
  · rw [computeRoutes_of_identical hfresh hsame]
    exact .inl rfl
  · rw [computeRoutes_of_expands hexpands, takeRoutes, collectRoutes]
    split
    · exact .inl rfl
    · next done hdone =>
      right
      rw [hdone]
      exact ⟨_, _, rfl, rfl⟩

/-- The condition blocks that led to a position are valid. -/
def Position.Valid (pos : Position) : Prop :=
  ∀ block ∈ pos.chain, pathMatchConditionsValid block = .ok ()

theorem Position.Valid.rooted (h : pos.Valid) :
    ∀ cond ∈ pos.conditions, Rooted cond.pathPrefix.toList := by
  intro cond hcond
  obtain ⟨block, hblock, hcond⟩ := mem_flatten.mp hcond
  exact pathMatchConditionsValid_rooted (h block hblock) cond hcond

/-- The routes of a position with valid condition blocks have routing prefixes. -/
theorem keptAt_hasRoutingPrefix (root : Root) (enforceTLS : Bool) :
    KeptAt lib ord p source root enforceTLS Position.Valid HasRoutingPrefix where
  step pos inc included hpos _ hfollowed _ := by
    intro block hblock
    rcases mem_append.mp hblock with hold | hnew
    · exact hpos block hold
    · rw [mem_singleton.mp hnew]
      exact (followed_eq_some.mp hfollowed).1
  computed pos spec r hpos _ hr := by
    obtain ⟨_, base, clusters, mirrorPolicy, hbase, rfl⟩ := hr.eq_finishRoute
    refine ⟨_, hbase.path, routingPrefix_mergePrefixes ?_⟩
    intro cond hcond
    rcases mem_append.mp hcond with habove | hown
    · exact hpos.rooted cond habove
    · exact pathMatchConditionsValid_rooted hbase.valid cond hown
  missing pos inc _ _ hmissing :=
    ⟨_, rfl, routingPrefix_mergePrefixes (pathMatchConditionsValid_rooted hmissing.path)⟩
  expanded := keptByExpansion_hasRoutingPrefix

/-- What a visit hands to `expandPrefixMatches` has prefixes throughout. -/
theorem collectRoutes_hasRoutingPrefix {root : Root} {enforceTLS : Bool} {fuel : Nat}
    {visited : List HTTPProxy} {st : State} {vc : DetailedCondition} (hpos : pos.Valid)
    {routes : List Route}
    (h : collectRoutes lib ord p source root enforceTLS fuel visited st vc pos = some routes) :
    ∀ r ∈ routes, HasRoutingPrefix r := by
  have hkept : KeptAt lib ord p source root enforceTLS Position.Valid HasRoutingPrefix :=
    keptAt_hasRoutingPrefix root enforceTLS
  obtain ⟨done, hdone, rfl⟩ := Option.map_eq_some_iff.mp h
  refine computeRouteLoop_inv hkept hpos ?_ (toOption_eq_some.mp hdone)
  refine foldlRecOn _ _ (motive := fun v : Visit => ∀ r ∈ v.routes, HasRoutingPrefix r) ?_ ?_
  · exact fun r hr => absurd hr not_mem_nil
  · intro v hv inc hinc
    refine computeInclude_inv hkept ?_ hpos hinc hv
    exact fun st vc pos hpos => computeRoutes_inv_at hkept fuel _ st vc hpos

/-- Below a chain of valid condition blocks, every route has a prefix that starts with a
slash and has no two in a row, both before and after `expandPrefixMatches`, and the
prefixes of the chain can be merged in steps. -/
theorem routing_prefixes (root : Root) (enforceTLS : Bool) (pos : Position)
    (hchain : ∀ block ∈ pos.chain, pathMatchConditionsValid block = .ok ()) :
    (∀ fuel visited st vc,
      ∀ r ∈ (computeRoutes lib ord p source root enforceTLS fuel visited st vc pos).routes,
        HasRoutingPrefix r) ∧
    (∀ fuel visited st vc,
      ∀ routes ∈ collectRoutes lib ord p source root enforceTLS fuel visited st vc pos,
        ∀ r ∈ routes, HasRoutingPrefix r) ∧
    ∀ first rest, pos.chain = first ++ rest →
      mergePrefixes ({ pathPrefix := mergePrefixes first.flatten } :: rest.flatten) =
        mergePrefixes pos.conditions := by
  refine ⟨?_, ?_, ?_⟩
  · intro fuel visited st vc
    exact computeRoutes_inv_at (keptAt_hasRoutingPrefix root enforceTLS) fuel visited st vc
      fun _ => hchain
  · intro fuel visited st vc routes hroutes
    exact collectRoutes_hasRoutingPrefix hchain hroutes
  · intro first rest hsplit
    rw [Position.conditions, hsplit, flatten_append]
    apply mergePrefixes_nested
    intro cond hcond
    obtain ⟨block, hblock, hcond⟩ := mem_flatten.mp hcond
    refine pathMatchConditionsValid_rooted (hchain block ?_) cond hcond
    rw [hsplit]
    exact mem_append_right _ hblock

end

/-- A proxy that is included under `/foo/` and rewrites what it gets below `/bar/`. -/
def nestedPosition : Position where
  proxy :=
    { name := "a", ns := "n",
      routes := [{ conditions := [{ pathPrefix := "/bar/" }],
                   services := [{ name := "s", port := 80 }],
                   pathRewritePolicy := some [{ replacement := "/x" }] }] }
  chain := [[{ pathPrefix := "/foo/" }]]

def nestingRoot : Root where
  proxy :=
    { name := "r", ns := "n", virtualHost := some { fqdn := "h" },
      includes := [{ name := "a", conditions := [{ pathPrefix := "/foo/" }] }] }
  virtualHost := { fqdn := "h" }

def nestedRoutes : List Route :=
  (computeRoutes .plain .storage {} {} nestingRoot false 1 [nestingRoot.proxy]
    { dag := {} } { type := Status.validConditionType } nestedPosition).routes

theorem nested_routing_prefixes :
    (∃ r ∈ nestedRoutes, r.pathMatchCondition = .pathPrefix "/foo/bar/" .string) ∧
    (∀ r ∈ nestedRoutes, HasRoutingPrefix r) ∧
    mergePrefixes ({ pathPrefix := "/foo/" } :: []) = mergePrefixes nestedPosition.conditions := by
  have hchain : ∀ block ∈ nestedPosition.chain, pathMatchConditionsValid block = .ok () := by
    decide +kernel
  obtain ⟨hroutes, -, hmerge⟩ := @routing_prefixes .plain .storage {} {}
    nestingRoot false nestedPosition hchain
  exact ⟨by decide +kernel, hroutes _ _ _ _, hmerge nestedPosition.chain [] rfl⟩

end HTTPProxyProcessor

end Sesame.Dag
