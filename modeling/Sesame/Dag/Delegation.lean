/-
# What a chain of includes delegates

A route that a root gets through a chain of includes carries the conditions of the
whole chain, and `expandPrefixMatches` at each level can only move its prefix
across one trailing slash. The answer to a missing include is different: it
carries the conditions of that include alone, so it stays within the chain only
when the include is one of the root.
-/

import Mathlib.Data.List.DropRight
import Sesame.Dag.RouteRuns

namespace Sesame.Dag

open List
open Lib Api

variable {chain : List (List MatchCondition)} {routingPrefix : String}

/-! ## Prefixes -/

/-- The prefixes along a chain of condition blocks, concatenated, with runs of `/`
collapsed. -/
def chainPrefix (chain : List (List MatchCondition)) : List Char :=
  collapseSlashes (chain.flatten.flatMap fun cond => cond.pathPrefix.toList)

theorem chainPrefix_prefix_mergePrefixes (chain : List (List MatchCondition))
    (conds : List MatchCondition) :
    chainPrefix chain <+: (mergePrefixes (chain.flatten ++ conds)).toList := by
  have hstart : chainPrefix chain <+: collapseSlashes
      ((chain.flatten ++ conds).flatMap fun cond => cond.pathPrefix.toList) := by
    rw [flatMap_append]
    exact collapseSlashes_append_prefix ..
  rw [mergePrefixes]
  by_cases hempty : collapseSlashes
      ((chain.flatten ++ conds).flatMap fun cond => cond.pathPrefix.toList) = []
  · rw [hempty] at hstart
    rw [prefix_nil.mp hstart]
    exact nil_prefix
  · rwa [if_neg hempty, String.toList_ofList]

theorem toList_trimSlashes (s : String) :
    (HTTPProxyProcessor.trimSlashes s).toList = s.toList.rdropWhile (· = '/') := by
  rw [HTTPProxyProcessor.trimSlashes, String.toList_ofList, rdropWhile]

/-- Only slashes are trimmed, so a collapsed start of a text loses at most its last
slash. -/
theorem prefix_rdropWhile {chars text : List Char} (hstart : chars <+: text)
    (hsingle : ¬ ['/', '/'] <:+: chars) :
    chars <+: text.rdropWhile (· = '/') ∨ chars = text.rdropWhile (· = '/') ++ ['/'] := by
  have hsplit := rdropWhile_append_rtakeWhile (p := fun c => decide (c = '/')) (l := text)
  have hslashes : ∀ c ∈ text.rtakeWhile (· = '/'), c = '/' := by
    intro c hc
    simpa using mem_rtakeWhile_imp hc
  rw [← hsplit] at hstart
  generalize text.rdropWhile (· = '/') = base at *
  generalize text.rtakeWhile (· = '/') = slashes at *
  rcases prefix_or_prefix_of_prefix hstart (prefix_append base slashes) with
    hbase | ⟨rest, rfl⟩
  · exact .inl hbase
  · have hrest : rest <+: slashes := (prefix_append_right_inj base).mp hstart
    have hall : ∀ c ∈ rest, c = '/' := fun c hc => hslashes c (hrest.subset hc)
    match rest with
    | [] => exact .inl (by simp)
    | [c] => exact .inr (by rw [hall c (mem_singleton_self c)])
    | c :: d :: rest =>
      refine absurd ⟨base, rest, ?_⟩ hsingle
      rw [hall c (by simp), hall d (by simp)]
      simp

/-- A prefix lies within a chain: it begins with the prefix of the chain, or, for a
route that rewrites its prefix, is the prefix of the chain without its last slash. -/
def PrefixWithin (chain : List (List MatchCondition)) (rewrites : Prop) (routingPrefix : String) :
    Prop :=
  chainPrefix chain <+: routingPrefix.toList ∨
    rewrites ∧ chainPrefix chain = routingPrefix.toList ++ ['/']

theorem PrefixWithin.groupPrefix {rewrites : Prop} (h : PrefixWithin chain rewrites routingPrefix)
    (hroot : routingPrefix ≠ "/") :
    PrefixWithin chain True (HTTPProxyProcessor.groupPrefix routingPrefix) := by
  have hsingle : ¬ ['/', '/'] <:+: chainPrefix chain := not_infix_collapseSlashes _
  rw [HTTPProxyProcessor.groupPrefix, if_neg hroot, PrefixWithin, true_and, toList_trimSlashes]
  rcases h with hstart | ⟨-, hslash⟩
  · exact prefix_rdropWhile hstart hsingle
  · -- The prefix of the chain ends in one slash only, so there is nothing to trim.
    have hself : routingPrefix.toList.rdropWhile (· = '/') = routingPrefix.toList := by
      rw [rdropWhile_eq_self_iff]
      intro hne hlast
      apply hsingle
      rw [hslash]
      refine ⟨routingPrefix.toList.dropLast, [], ?_⟩
      nth_rewrite 2 [← dropLast_append_getLast hne]
      rw [of_decide_eq_true hlast]
      simp
    rw [hself]
    exact .inr hslash

theorem PrefixWithin.append_slash {rewrites : Prop}
    (h : PrefixWithin chain rewrites routingPrefix) :
    PrefixWithin chain True (routingPrefix ++ "/") := by
  left
  rw [String.toList_append]
  rcases h with hstart | ⟨-, hslash⟩
  · exact prefix_append_of_prefix hstart
  · rw [hslash]
    exact prefix_rfl

/-! ## Routes -/

/-- A route matches only what a chain of condition blocks lets through. -/
structure Delegated (chain : List (List MatchCondition)) (r : Route) : Prop where
  path : ∃ routingPrefix, r.pathMatchCondition = .pathPrefix routingPrefix .string ∧
    PrefixWithin chain (r.prefixRewrite ≠ "") routingPrefix
  headers : ∀ block ∈ chain, mergeHeaderMatchConditions block ⊆ r.headerMatchConditions

theorem mergeHeaderMatchConditions_subset {conds conds' : List MatchCondition}
    (h : conds ⊆ conds') : mergeHeaderMatchConditions conds ⊆ mergeHeaderMatchConditions conds' :=
  filterMap_subset _ (filterMap_subset _ h)

theorem delegated_of_merged (conds : List MatchCondition) {r : Route}
    (hpath : r.pathMatchCondition = mergePathMatchConditions (chain.flatten ++ conds))
    (hheaders : mergeHeaderMatchConditions (chain.flatten ++ conds) ⊆ r.headerMatchConditions) :
    Delegated chain r := by
  refine ⟨⟨_, hpath, .inl (chainPrefix_prefix_mergePrefixes chain conds)⟩, ?_⟩
  intro block hblock
  refine Subset.trans (mergeHeaderMatchConditions_subset ?_) hheaders
  intro cond hcond
  exact mem_append_left _ (mem_flatten_of_mem hblock hcond)

namespace HTTPProxyProcessor

/-- Splitting a route keeps it within its chain. -/
theorem keptByExpansion_delegated (chain : List (List MatchCondition)) :
    KeptByExpansion (Delegated chain) := by
  intro r routingPrefix m hr hpath _ hroot rewrite hrewrite
  obtain ⟨routingPrefix', hpath', hwithin⟩ := hr.path
  obtain ⟨rfl, rfl⟩ := PathMatchCondition.pathPrefix.inj (hpath.symm.trans hpath')
  have htrimmed := hwithin.groupPrefix fun h => hroot (by rw [hpath, h])
  constructor
  · refine ⟨⟨_, rfl, htrimmed.imp_right ?_⟩, hr.headers⟩
    intro h
    exact ⟨hrewrite, h.2⟩
  · refine ⟨⟨_, rfl, htrimmed.append_slash.imp_right ?_⟩, hr.headers⟩
    intro h
    exact ⟨hrewrite, h.2⟩

section

variable {lib : Stdlib} {ord : MapOrder} {p : HTTPProxyProcessor} {source : KubernetesCache}
  {root : Root} {enforceTLS : Bool}

theorem IsRouteOf.delegated {pos : Position} {spec : RouteSpec} {r : Route}
    (h : IsRouteOf lib ord p source root enforceTLS pos spec r) : Delegated pos.chain r := by
  obtain ⟨_, base, clusters, mirrorPolicy, hbase, rfl⟩ := h.eq_finishRoute
  apply delegated_of_merged spec.conditions
  · exact hbase.path
  · intro cond hcond
    apply mem_append_left
    rw [hbase.headers]
    exact hcond

/-- The origin of a computed route is the route it was computed for. -/
theorem IsRouteOf.origin {pos : Position} {spec : RouteSpec} {r : Route}
    (h : IsRouteOf lib ord p source root enforceTLS pos spec r) :
    r.origin = some
      { root := namespacedNameOf root.proxy.toObjectMeta, chain := pos.chain,
        proxy := namespacedNameOf pos.proxy.toObjectMeta, spec := some spec } := by
  obtain ⟨_, base, clusters, mirrorPolicy, hbase, rfl⟩ := h.eq_finishRoute
  exact hbase.origin

/-- A route that stems from a route of a proxy reached by includes. -/
structure StemsFromRoute (source : KubernetesCache) (root : Root) (pos : Position) (r : Route) :
    Prop where
  reached : Reaches source root pos
  stems : ∃ spec ∈ pos.proxy.routes, r.origin = some
    { root := namespacedNameOf root.proxy.toObjectMeta, chain := pos.chain,
      proxy := namespacedNameOf pos.proxy.toObjectMeta, spec := some spec }

/-- A route that answers for an include, of a proxy reached by includes, that is not
there. -/
structure StemsFromMissing (source : KubernetesCache) (root : Root) (pos : Position)
    (inc : Include) (r : Route) : Prop where
  reached : Reaches source root pos
  included : inc ∈ pos.proxy.includes
  missing : source.httpproxies.lookup
    { ns := stringOrDefault inc.ns pos.proxy.ns, name := inc.name } = none
  stems : r.origin = some
    { root := namespacedNameOf root.proxy.toObjectMeta, chain := pos.chain ++ [inc.conditions],
      proxy := namespacedNameOf pos.proxy.toObjectMeta, spec := none }

/-- A route of a root either stems from a route reached by a chain of includes and
stays within that chain, or answers for a missing include, and then rewrites nothing
and stays within the chain if the include is one of the root. -/
theorem routes_within_chain (fuel : Nat) (visited : List HTTPProxy) (st : State)
    (vc : Status.DetailedCondition) :
    ∀ r ∈ (computeRoutes lib ord p source root enforceTLS fuel visited st vc
        { proxy := root.proxy, chain := [] }).routes,
      (∃ pos, StemsFromRoute source root pos r ∧ Delegated pos.chain r) ∨
      ∃ pos inc, StemsFromMissing source root pos inc r ∧ r.prefixRewrite = "" ∧
        (pos.chain = [] → Delegated (pos.chain ++ [inc.conditions]) r) := by
  refine computeRoutes_inv (P := fun r =>
      (∃ pos, StemsFromRoute source root pos r ∧ Delegated pos.chain r) ∨
      ∃ pos inc, StemsFromMissing source root pos inc r ∧ r.prefixRewrite = "" ∧
        (pos.chain = [] → Delegated (pos.chain ++ [inc.conditions]) r))
    ⟨?_, ?_, ?_⟩ fuel visited st vc .start
  · intro pos spec r hpos hspec hr
    exact .inl ⟨pos, ⟨hpos, spec, hspec, hr.origin⟩, hr.delegated⟩
  · intro pos inc hpos hinc hmissing
    refine .inr ⟨pos, inc, ⟨hpos, hinc, hmissing, rfl⟩, rfl, ?_⟩
    intro hroot
    rw [hroot]
    apply delegated_of_merged []
    · simp [missingIncludeRoute]
    · simp [missingIncludeRoute]
  · intro r routingPrefix m hr hpath hrewrites hslash rewrite hrewrite
    rcases hr with ⟨pos, hstems, hdelegated⟩ | ⟨pos, inc, -, hnone, -⟩
    · have hparts := keptByExpansion_delegated pos.chain r routingPrefix m hdelegated hpath
        hrewrites hslash rewrite hrewrite
      exact ⟨.inl ⟨pos, ⟨hstems.reached, hstems.stems⟩, hparts.1⟩,
        .inl ⟨pos, ⟨hstems.reached, hstems.stems⟩, hparts.2⟩⟩
    · exact absurd hnone hrewrites

end

/-- A root that includes `n/a` under `/foo/`; `n/a` has a route that rewrites its prefix,
and includes under `/bar` a proxy that is not there. -/
def delegatingRoot : Root where
  proxy :=
    { name := "r", ns := "n", virtualHost := some { fqdn := "h" },
      includes := [{ name := "a", conditions := [{ pathPrefix := "/foo/" }] }] }
  virtualHost := { fqdn := "h" }

/-- A cache with the root and the proxy that it includes. -/
def delegatingCache : KubernetesCache where
  httpproxies := byName (·.toObjectMeta)
    [delegatingRoot.proxy,
     { name := "a", ns := "n",
       includes := [{ name := "missing", conditions := [{ pathPrefix := "/bar" }] }],
       routes := [{ services := [{ name := "s", port := 80 }],
                    pathRewritePolicy := some [{ replacement := "/x" }] }] }]

def delegatedRoutes : List Route :=
  (computeRoutes .plain .storage {} delegatingCache delegatingRoot false
    (includeFuel delegatingCache) [] { dag := {} } { type := Status.validConditionType }
    { proxy := delegatingRoot.proxy, chain := [] }).routes

/-- The part of the rewriting route for `/foo/` stays within its chain. -/
theorem rewriting_route_within_chain :
    ∃ r ∈ delegatedRoutes, r.pathMatchCondition = .pathPrefix "/foo/" .string ∧
      ((∃ pos, StemsFromRoute delegatingCache delegatingRoot pos r ∧ Delegated pos.chain r) ∨
        ∃ pos inc, StemsFromMissing delegatingCache delegatingRoot pos inc r ∧
          r.prefixRewrite = "" ∧
          (pos.chain = [] → Delegated (pos.chain ++ [inc.conditions]) r)) := by
  have hroute : ∃ r ∈ delegatedRoutes, r.pathMatchCondition = .pathPrefix "/foo/" .string := by
    decide +kernel
  obtain ⟨r, hr, hpath⟩ := hroute
  exact ⟨r, hr, hpath, routes_within_chain _ _ _ _ r hr⟩

/-- The other part of it has the prefix `/foo`, and the answer for the missing include has
the prefix `/bar`. Neither begins with the prefix of its chain. -/
theorem prefixes_outside_chain :
    (∃ r ∈ delegatedRoutes, ∃ o ∈ r.origin,
      o.chain = [[{ pathPrefix := "/foo/" }]] ∧ o.spec.isSome = true ∧
      r.pathMatchCondition = .pathPrefix "/foo" .string ∧
      ¬ chainPrefix o.chain <+: "/foo".toList) ∧
    ∃ r ∈ delegatedRoutes, ∃ o ∈ r.origin,
      o.chain = [[{ pathPrefix := "/foo/" }], [{ pathPrefix := "/bar" }]] ∧
      r.directResponse = some badGateway ∧
      r.pathMatchCondition = .pathPrefix "/bar" .string ∧
      ¬ chainPrefix o.chain <+: "/bar".toList := by
  decide +kernel

end HTTPProxyProcessor

end Sesame.Dag
