/-
# Where the routes of a root come from

Every route that `computeRoutes` returns was computed for a route of a proxy that
the includes of the root lead to, or answers a missing include of such a proxy,
or was split off such a route by `expandPrefixMatches`, at one level of the
recursion or at several. A property of routes therefore holds of all routes of a
root once these three sources keep it.
-/

import Mathlib.Data.List.Induction
import Sesame.Dag.Traversal

namespace Sesame.Dag.HTTPProxyProcessor

open List
open Lib Api
open Status (DetailedCondition)

variable (lib : Stdlib) (ord : MapOrder) (p : HTTPProxyProcessor) (source : KubernetesCache)

variable {pos : Position} {spec : RouteSpec} {r : Route} {validCond : DetailedCondition}
  {lbPolicy : LoadBalancerStrategy} {routes : List Route}

/-- The positions that the includes of a root lead to, followed without regard to
cycles and to the conditions of the includes. -/
inductive Reaches (root : Root) : Position → Prop
  | start : Reaches root { proxy := root.proxy, chain := [] }
  | step {pos : Position} {inc : Include} {included : HTTPProxy} (hpos : Reaches root pos)
      (hinc : inc ∈ pos.proxy.includes)
      (hfound : source.httpproxies.lookup
        { ns := stringOrDefault inc.ns pos.proxy.ns, name := inc.name } = some included)
      (hincluded : included.virtualHost = none) :
      Reaches root { proxy := included, chain := pos.chain ++ [inc.conditions] }

/-- The route that `computeRoute` computes for a route of a proxy. -/
structure IsRouteOf (root : Root) (enforceTLS : Bool) (pos : Position) (spec : RouteSpec)
    (r : Route) : Prop where
  computed : ∃ st base lbPolicy validCond done,
    baseRoute lib ord p root enforceTLS pos st spec = .ok (base, lbPolicy, validCond) ∧
    spec.services.foldlM (addService lib ord p source pos.proxy spec lbPolicy)
      { validCond, dynamicHeaders := st.dynamicHeaders, route := base } = .ok done ∧
    r = finishRoute root.virtualHost.fqdn spec done.route

variable {lib ord p source} {enforceTLS : Bool} {root : Root} {st : LoopState}

/-- The positions of a tree whose root is in the cache. -/
theorem Reaches.cached (hroot : ∃ name, source.httpproxies.lookup name = some root.proxy)
    (h : Reaches source root pos) : ∃ name, source.httpproxies.lookup name = some pos.proxy := by
  cases h with
  | start => exact hroot
  | step hpos hinc hfound hincluded => exact ⟨_, hfound⟩

theorem computeRoute_routes {st' : LoopState}
    (h : computeRoute lib ord p source root enforceTLS pos st spec = .ok st') :
    ∃ r, IsRouteOf lib ord p source root enforceTLS pos spec r ∧ st'.routes = st.routes ++ [r] := by
  obtain ⟨⟨base, lbPolicy, validCond⟩, hbase, h⟩ := bind_eq_ok.mp h
  obtain ⟨done, hdone, h⟩ := bind_eq_ok.mp h
  cases h
  exact ⟨_, ⟨st, base, lbPolicy, validCond, done, hbase, hdone, rfl⟩, rfl⟩

/-! ## One route -/

/-- What `baseRoute` says of its route. -/
structure BaseRoute (lib : Stdlib) (ord : MapOrder) (p : HTTPProxyProcessor) (root : Root)
    (enforceTLS : Bool) (pos : Position) (st : LoopState) (spec : RouteSpec) (r : Route) :
    Prop where
  valid : pathMatchConditionsValid spec.conditions = .ok ()
  path : r.pathMatchCondition = mergePathMatchConditions (pos.conditions ++ spec.conditions)
  headers : r.headerMatchConditions = mergeHeaderMatchConditions (pos.conditions ++ spec.conditions)
  upgrade : r.httpsUpgrade =
    routeEnforceTLS enforceTLS (spec.permitInsecure && !p.disablePermitInsecure)
  authDisabled : r.authDisabled = (authorizationConfigured root.virtualHost &&
    spec.authPolicy.elim (disableAuthorization root.virtualHost) (·.disabled))
  request : headersPolicyRoute lib ord spec.requestHeadersPolicy true st.dynamicHeaders =
    .ok r.requestHeadersPolicy
  response : headersPolicyRoute lib ord spec.responseHeadersPolicy false st.dynamicHeaders =
    .ok r.responseHeadersPolicy
  timeouts : timeoutPolicy lib spec.timeoutPolicy = .ok r.timeoutPolicy
  retries : r.retryPolicy = retryPolicy lib spec.retryPolicy
  redirect : r.redirect = redirectRoutePolicy spec.requestRedirectPolicy
  clusters : r.clusters = []
  mirrorPolicy : r.mirrorPolicy = none
  origin : r.origin = some
    { root := namespacedNameOf root.proxy.toObjectMeta, chain := pos.chain,
      proxy := namespacedNameOf pos.proxy.toObjectMeta, spec := some spec }

theorem BaseRoute.authorizeRoute (hdisabled : r.authDisabled = false)
    (h : BaseRoute lib ord p root enforceTLS pos st spec { r with
      authDisabled := authorizationConfigured root.virtualHost &&
        spec.authPolicy.elim (disableAuthorization root.virtualHost) (·.disabled) }) :
    BaseRoute lib ord p root enforceTLS pos st spec (authorizeRoute root.virtualHost spec r) := by
  rw [HTTPProxyProcessor.authorizeRoute]
  by_cases hconfigured : authorizationConfigured root.virtualHost = true
  · rw [if_pos hconfigured]
    exact { h with authDisabled := by simp [hconfigured] }
  · rw [if_neg hconfigured]
    exact { h with authDisabled := by simp [hconfigured, hdisabled] }

theorem BaseRoute.replacePrefix {r' : Route}
    (h : BaseRoute lib ord p root enforceTLS pos st spec r)
    (hreplace : replacePrefix validCond spec r = .ok r') :
    BaseRoute lib ord p root enforceTLS pos st spec r' := by
  unfold HTTPProxyProcessor.replacePrefix at hreplace
  dsimp only at hreplace
  split at hreplace
  · cases hreplace
    exact h
  split at hreplace
  · split at hreplace
    · cases hreplace
    · cases hreplace
      exact { h with }
  · cases hreplace

theorem baseRoute_spec
    (h : baseRoute lib ord p root enforceTLS pos st spec = .ok (r, lbPolicy, validCond)) :
    BaseRoute lib ord p root enforceTLS pos st spec r := by
  obtain ⟨_, hvalid, h⟩ := bind_eq_ok.mp h
  obtain ⟨_, -, h⟩ := bind_eq_ok.mp h
  obtain ⟨reqHP, hreq, h⟩ := bind_eq_ok.mp h
  obtain ⟨respHP, hresp, h⟩ := bind_eq_ok.mp h
  obtain ⟨cookieRP, -, h⟩ := bind_eq_ok.mp h
  dsimp only at h
  split at h
  · cases h
  obtain ⟨tp, htp, h⟩ := bind_eq_ok.mp h
  obtain ⟨rlp, -, h⟩ := bind_eq_ok.mp h
  obtain ⟨r', hreplace, h⟩ := bind_eq_ok.mp h
  cases h
  refine BaseRoute.replacePrefix ?_ hreplace
  apply BaseRoute.authorizeRoute
  · rfl
  · exact ⟨require_eq_ok hvalid, rfl, rfl, rfl, rfl, require_eq_ok hreq, require_eq_ok hresp,
      require_eq_ok htp, rfl, rfl, rfl, rfl, rfl⟩

/-- What `routeCluster` says of its cluster. -/
structure ClusterOf (lib : Stdlib) (ord : MapOrder) (p : HTTPProxyProcessor)
    (source : KubernetesCache) (proxy : HTTPProxy) (spec : RouteSpec) (st : RouteState)
    (service : ServiceRef) (s : Service) (c : Cluster) : Prop where
  upstream : c.upstream = s
  weight : c.weight = service.weight.toUInt64.toUInt32
  health : c.httpHealthCheckPolicy = httpHealthCheckPolicy spec.healthCheckPolicy
  validation : upstreamValidation lib ord source st.validCond proxy service c.protocol =
    .ok c.upstreamValidation
  request : headersPolicyService lib ord p.requestHeadersPolicy service.requestHeadersPolicy
    (serviceHeaders st.dynamicHeaders service) = .ok c.requestHeadersPolicy
  response : headersPolicyService lib ord p.responseHeadersPolicy service.responseHeadersPolicy
    (serviceHeaders st.dynamicHeaders service) = .ok c.responseHeadersPolicy
  certificate : clientCertificateSecret lib p source st.validCond = .ok c.clientCertificate

theorem routeCluster_spec {proxy : HTTPProxy} {st : RouteState} {service : ServiceRef}
    {s : Service} {c : Cluster}
    (h : routeCluster lib ord p source proxy spec lbPolicy st service s = .ok c) :
    ClusterOf lib ord p source proxy spec st service s c := by
  obtain ⟨protocol, -, h⟩ := bind_eq_ok.mp h
  obtain ⟨uv, huv, h⟩ := bind_eq_ok.mp h
  obtain ⟨reqHP, hreq, h⟩ := bind_eq_ok.mp h
  obtain ⟨respHP, hresp, h⟩ := bind_eq_ok.mp h
  obtain ⟨cookieRP, -, h⟩ := bind_eq_ok.mp h
  obtain ⟨cert, hcert, h⟩ := bind_eq_ok.mp h
  cases h
  exact ⟨rfl, rfl, rfl, huv, require_eq_ok hreq, require_eq_ok hresp, hcert⟩

/-- A service changes the clusters of a route and nothing else of it. -/
theorem addService_route {proxy : HTTPProxy} {st st' : RouteState} {service : ServiceRef}
    (h : addService lib ord p source proxy spec lbPolicy st service = .ok st') :
    st'.route = st.route ∨ ∃ c s,
      ensureService lib source { ns := proxy.ns, name := service.name }
        (.int (Int32.ofInt service.port)) p.enableExternalNameService = .ok s ∧
      routeCluster lib ord p source proxy spec lbPolicy st service s = .ok c ∧
      (st'.route = { st.route with mirrorPolicy := some c } ∨
        st'.route = { st.route with clusters := st.route.clusters ++ [c] }) := by
  unfold addService at h
  split at h
  · cases h
  split at h
  · cases h
    exact .inl rfl
  rename_i s hs
  obtain ⟨c, hc, h⟩ := bind_eq_ok.mp h
  right
  refine ⟨c, s, hs, hc, ?_⟩
  dsimp only at h
  split at h
  · split at h
    · cases h
    · cases h
      exact .inl rfl
  · cases h
    exact .inr rfl

/-- A computed route is a base route with clusters. -/
theorem IsRouteOf.eq_finishRoute (h : IsRouteOf lib ord p source root enforceTLS pos spec r) :
    ∃ st base clusters mirrorPolicy, BaseRoute lib ord p root enforceTLS pos st spec base ∧
      r = finishRoute root.virtualHost.fqdn spec { base with clusters, mirrorPolicy } := by
  obtain ⟨st, base, lbPolicy, validCond, done, hbase, hdone, rfl⟩ := h.computed
  have hinv : ∃ clusters mirrorPolicy, done.route = { base with clusters, mirrorPolicy } := by
    refine foldlM_inv (fun s : RouteState =>
      ∃ clusters mirrorPolicy, s.route = { base with clusters, mirrorPolicy }) ?_
      ⟨base.clusters, base.mirrorPolicy, rfl⟩ hdone
    rintro s ⟨clusters, mirrorPolicy, hs⟩ service _ s' hstep
    rcases addService_route hstep with hsame | ⟨c, _, -, -, hmirror | hcluster⟩
    · exact ⟨clusters, mirrorPolicy, hsame.trans hs⟩
    · refine ⟨clusters, some c, ?_⟩
      rw [hmirror, hs]
    · refine ⟨clusters ++ [c], mirrorPolicy, ?_⟩
      rw [hcluster, hs]
  obtain ⟨clusters, mirrorPolicy, hroute⟩ := hinv
  rw [hroute]
  exact ⟨st, base, clusters, mirrorPolicy, baseRoute_spec hbase, rfl⟩

/-- The clusters of a computed route are clusters of its services. -/
theorem IsRouteOf.allClusters (h : IsRouteOf lib ord p source root enforceTLS pos spec r)
    {c : Cluster} (hc : c ∈ r.allClusters) :
    ∃ lbPolicy st service s,
      ensureService lib source { ns := pos.proxy.ns, name := service.name }
        (.int (Int32.ofInt service.port)) p.enableExternalNameService = .ok s ∧
      routeCluster lib ord p source pos.proxy spec lbPolicy st service s = .ok c := by
  obtain ⟨st, base, lbPolicy, validCond, done, hbase, hdone, rfl⟩ := h.computed
  have hspec := baseRoute_spec hbase
  have hnone : ∀ c, c ∉ base.allClusters := by
    intro c
    rw [Route.allClusters, hspec.clusters, hspec.mirrorPolicy]
    exact not_mem_nil
  refine foldlM_inv (fun s : RouteState => ∀ c ∈ s.route.allClusters, ∃ lbPolicy st service s,
    ensureService lib source { ns := pos.proxy.ns, name := service.name }
        (.int (Int32.ofInt service.port)) p.enableExternalNameService = .ok s ∧
      routeCluster lib ord p source pos.proxy spec lbPolicy st service s = .ok c) ?_
    (fun c hc => absurd hc (hnone c)) hdone c hc
  intro s hs service _ s' hstep c hc
  rcases addService_route hstep with hsame | ⟨new, svc, hservice, hnew, hmirror | hcluster⟩
  · rw [hsame] at hc
    exact hs c hc
  · rw [hmirror, Route.allClusters, mem_append] at hc
    rcases hc with hold | hlast
    · exact hs c (mem_append_left _ hold)
    · obtain rfl : c = new := by simpa using hlast
      exact ⟨_, _, _, _, hservice, hnew⟩
  · rw [hcluster, Route.allClusters, mem_append, mem_append] at hc
    rcases hc with (hold | hlast) | hmirror
    · exact hs c (mem_append_left _ hold)
    · obtain rfl := mem_singleton.mp hlast
      exact ⟨_, _, _, _, hservice, hnew⟩
    · exact hs c (mem_append_right _ hmirror)

/-! ## Prefix expansion -/

/-- The group that a route belongs to, by its prefix. -/
def groupOf (r : Route) : Option String :=
  match r.pathMatchCondition with
  | .pathPrefix routingPrefix _ => some (groupPrefix routingPrefix)
  | _ => none

theorem addToGroup_eq (groups : Map String (List Route)) (r : Route) :
    addToGroup groups r =
      match groupOf r with
      | some key => groups.insert key ((groups.lookup key).getD [] ++ [r])
      | none => groups := by
  unfold addToGroup groupOf
  cases r.pathMatchCondition <;> rfl

/-- A group holds the routes that belong to it, in order. -/
theorem lookup_groups (routes : List Route) (key : String) :
    (routes.foldl addToGroup ∅).lookup key =
      if routes.filter (fun r => groupOf r = some key) = [] then none
      else some (routes.filter fun r => groupOf r = some key) := by
  induction routes using reverseRecOn with
  | nil => rfl
  | append_singleton routes r ih =>
    rw [foldl_append, foldl_cons, foldl_nil, addToGroup_eq, filter_append]
    cases hgroup : groupOf r with
    | none => simp [hgroup, ih]
    | some key' =>
      rw [Map.lookup_insert_eq]
      by_cases hkey : key = key'
      · subst hkey
        rw [if_pos rfl, ih]
        simp only [hgroup, filter_cons, decide_true, if_true, filter_nil,
          append_eq_nil_iff, cons_ne_self, and_false, if_false]
        split
        · next hempty => simp [hempty]
        · rfl
      · simp [hgroup, hkey, Ne.symm hkey, ih]

/-- A group holds routes whose prefix belongs to it, and no others. -/
theorem mem_of_lookup_groups {key : String} {group : List Route}
    (h : (routes.foldl addToGroup ∅).lookup key = some group) (hr : r ∈ group) :
    r ∈ routes ∧ ∃ routingPrefix m,
      r.pathMatchCondition = .pathPrefix routingPrefix m ∧ groupPrefix routingPrefix = key := by
  rw [lookup_groups] at h
  split at h
  · cases h
  cases h
  obtain ⟨hmem, hgroup⟩ := mem_filter.mp hr
  refine ⟨hmem, ?_⟩
  have hkey : groupOf r = some key := of_decide_eq_true hgroup
  unfold groupOf at hkey
  split at hkey
  · next routingPrefix m hpath => exact ⟨routingPrefix, m, hpath, Option.some.inj hkey⟩
  · cases hkey

/-- Splitting a route that rewrites its prefix keeps a property. -/
def KeptByExpansion (P : Route → Prop) : Prop :=
  ∀ r routingPrefix m, P r → r.pathMatchCondition = .pathPrefix routingPrefix m →
    r.prefixRewrite ≠ "" → r.pathMatchCondition ≠ .pathPrefix "/" .string →
    ∀ rewrite, rewrite ≠ "" →
      P { r with
        prefixRewrite := rewrite
        pathMatchCondition := .pathPrefix (groupPrefix routingPrefix) .string } ∧
      P { r with
        prefixRewrite := rewrite
        pathMatchCondition := .pathPrefix (groupPrefix routingPrefix ++ "/") .string }

theorem expandPrefixMatches_inv {P : Route → Prop} (hexpand : KeptByExpansion P)
    (hroutes : ∀ r ∈ routes, P r) {site : String} :
    ∀ r ∈ expandPrefixMatches ord site routes, P r := by
  intro r hr
  rcases mem_append.mp hr with hkept | hgrouped
  · exact hroutes r (mem_of_mem_filter hkept)
  · obtain ⟨⟨key, group⟩, hgroup, hr⟩ := mem_flatMap.mp hgrouped
    have hmem : ∀ q ∈ group, _ := fun q hq =>
      mem_of_lookup_groups (ord.mem_range.mp hgroup) hq
    dsimp only at hr
    unfold expandGroup at hr
    split at hr
    · next q =>
      obtain ⟨hq, routingPrefix, m, hpath, rfl⟩ := hmem q (mem_singleton_self q)
      split at hr
      · obtain rfl := mem_singleton.mp hr
        exact hroutes _ hq
      rename_i hsplit
      rw [not_or] at hsplit
      have hparts := hexpand q routingPrefix m (hroutes q hq) hpath hsplit.1 hsplit.2
      simp only [mem_cons, not_mem_nil, or_false] at hr
      rcases hr with rfl | rfl
      · refine (hparts _ ?_).1
        by_cases hempty : trimSlashes q.prefixRewrite = ""
        · rw [if_pos hempty]
          decide
        · rwa [if_neg hempty]
      · refine (hparts _ ?_).2
        intro hempty
        have := congrArg String.length hempty
        rw [String.length_append] at this
        exact absurd this (Nat.succ_ne_zero _)
    · exact hroutes r (hmem r hr).1

/-- Every route is found again after the expansion, up to its path and its rewrite. -/
theorem exists_mem_expandPrefixMatches (hr : r ∈ routes) (site : String) :
    ∃ r' ∈ expandPrefixMatches ord site routes,
      r' = { r with
        pathMatchCondition := r'.pathMatchCondition
        prefixRewrite := r'.prefixRewrite } := by
  have hself : r = { r with
      pathMatchCondition := r.pathMatchCondition
      prefixRewrite := r.prefixRewrite } := rfl
  cases hgroup : groupOf r with
  | none =>
    refine ⟨r, mem_append_left _ (mem_filter.mpr ⟨hr, ?_⟩), hself⟩
    rw [groupOf] at hgroup
    cases hpath : r.pathMatchCondition with
    | pathPrefix routingPrefix matchType =>
      rw [hpath] at hgroup
      cases hgroup
    | _ => rfl
  | some key =>
    have hmem : r ∈ routes.filter fun r => groupOf r = some key :=
      mem_filter.mpr ⟨hr, decide_eq_true hgroup⟩
    have hlookup := lookup_groups routes key
    rw [if_neg (ne_nil_of_mem hmem)] at hlookup
    have hrange : (key, routes.filter fun r => groupOf r = some key) ∈
        ord.range ("expandPrefixMatches " ++ site) (routes.foldl addToGroup ∅) :=
      ord.mem_range.mpr hlookup
    have hexpanded : ∀ r' ∈ expandGroup key (routes.filter fun r => groupOf r = some key),
        r' ∈ expandPrefixMatches ord site routes := fun r' hr' =>
      mem_append_right _ (mem_flatMap.mpr ⟨_, hrange, hr'⟩)
    generalize (routes.filter fun r => groupOf r = some key) = group at hmem hexpanded
    unfold expandGroup at hexpanded
    split at hexpanded
    · obtain rfl := mem_singleton.mp hmem
      split at hexpanded
      · exact ⟨r, hexpanded r hmem, hself⟩
      · exact ⟨_, hexpanded _ mem_cons_self, rfl⟩
    · exact ⟨r, hexpanded r hmem, hself⟩

/-! ## All levels -/

section Levels

variable {root : Root} {enforceTLS : Bool} {P : Route → Prop}

/-- The three sources of routes have a property. -/
structure KeptByRoutes (lib : Stdlib) (ord : MapOrder) (p : HTTPProxyProcessor)
    (source : KubernetesCache) (root : Root) (enforceTLS : Bool) (P : Route → Prop) : Prop where
  computed : ∀ pos spec r, Reaches source root pos → spec ∈ pos.proxy.routes →
    IsRouteOf lib ord p source root enforceTLS pos spec r → P r
  missing : ∀ pos inc, Reaches source root pos → inc ∈ pos.proxy.includes →
    source.httpproxies.lookup { ns := stringOrDefault inc.ns pos.proxy.ns, name := inc.name } =
      none → P (missingIncludeRoute root pos inc)
  expanded : KeptByExpansion P

/-- The three sources of routes have a property at the positions of `Q`, and the includes
that are followed do not leave `Q`. -/
structure KeptAt (lib : Stdlib) (ord : MapOrder) (p : HTTPProxyProcessor)
    (source : KubernetesCache) (root : Root) (enforceTLS : Bool) (Q : Position → Prop)
    (P : Route → Prop) : Prop where
  step : ∀ pos inc included, Q pos → inc ∈ pos.proxy.includes →
    followed lib source pos.proxy inc = some included →
    includeMatchConditionsIdentical included.includes = false →
    Q { proxy := included, chain := pos.chain ++ [inc.conditions] }
  computed : ∀ pos spec r, Q pos → spec ∈ pos.proxy.routes →
    IsRouteOf lib ord p source root enforceTLS pos spec r → P r
  missing : ∀ pos inc, Q pos → inc ∈ pos.proxy.includes →
    Unanswered lib source pos.proxy inc → P (missingIncludeRoute root pos inc)
  expanded : KeptByExpansion P

theorem KeptByRoutes.keptAt (h : KeptByRoutes lib ord p source root enforceTLS P) :
    KeptAt lib ord p source root enforceTLS (Reaches source root) P where
  step _ _ _ hpos hinc hfollowed _ := by
    obtain ⟨-, -, hfound, hincluded⟩ := followed_eq_some.mp hfollowed
    exact hpos.step hinc hfound hincluded
  computed := h.computed
  missing pos inc hpos hinc hmissing := h.missing pos inc hpos hinc hmissing.absent
  expanded := h.expanded

variable {Q : Position → Prop}

theorem computeInclude_inv (h : KeptAt lib ord p source root enforceTLS Q P)
    {recurse : State → DetailedCondition → Position → Visit}
    (hrecurse : ∀ st vc pos, (includeMatchConditionsIdentical pos.proxy.includes = false → Q pos) →
      ∀ r ∈ (recurse st vc pos).routes, P r) (hpos : Q pos)
    {inc : Include} (hinc : inc ∈ pos.proxy.includes) {v : Visit} (hv : ∀ r ∈ v.routes, P r) :
    ∀ r ∈ (computeInclude lib source recurse root pos v inc).routes, P r := by
  rcases computeInclude_eq lib source root pos inc with
    ⟨included, hfollowed, heq⟩ | ⟨-, type, reason, message, -, heq⟩
  · rw [heq]
    exact forall_mem_append.mpr ⟨hv, hrecurse _ _ _ (h.step pos inc included hpos hinc hfollowed)⟩
  · rw [heq]
    refine forall_mem_append.mpr ⟨hv, ?_⟩
    split
    · next hmissing => exact forall_mem_singleton.mpr (h.missing pos inc hpos hinc hmissing)
    · exact forall_mem_nil _

/-- The loop over the routes of a proxy appends one computed route at a time. -/
theorem computeRouteLoop_inv (h : KeptAt lib ord p source root enforceTLS Q P) (hpos : Q pos)
    {done : LoopState} (hst : ∀ r ∈ st.routes, P r)
    (hdone : pos.proxy.routes.foldlM (computeRoute lib ord p source root enforceTLS pos) st =
      .ok done) : ∀ r ∈ done.routes, P r := by
  refine foldlM_inv (fun s : LoopState => ∀ r ∈ s.routes, P r) ?_ hst hdone
  intro s hs spec hspec s' hstep r hr
  obtain ⟨new, hnew, hroutes⟩ := computeRoute_routes hstep
  rw [hroutes] at hr
  rcases mem_append.mp hr with hold | hlast
  · exact hs r hold
  · obtain rfl := mem_singleton.mp hlast
    exact h.computed pos spec r hpos hspec hnew

/-- The routes of a position have every property that the three sources have. -/
theorem computeRoutes_inv_at (h : KeptAt lib ord p source root enforceTLS Q P) (fuel : Nat)
    (visited : List HTTPProxy) (st : State) (vc : DetailedCondition)
    (hpos : includeMatchConditionsIdentical pos.proxy.includes = false → Q pos) :
    ∀ r ∈ (computeRoutes lib ord p source root enforceTLS fuel visited st vc pos).routes, P r := by
  induction fuel generalizing visited st vc pos with
  | zero =>
    intro r hr
    cases hr
  | succ fuel ih =>
    have hincludes : Q pos → ∀ visited', ∀ r ∈ (pos.proxy.includes.foldl
        (computeInclude lib source (computeRoutes lib ord p source root enforceTLS fuel visited')
          root pos) { state := st, validCond := vc }).routes, P r := by
      intro hpos visited'
      refine foldlRecOn _ _ (motive := fun v : Visit => ∀ r ∈ v.routes, P r) ?_
        fun v hv inc hinc => ?_
      · intro r hr
        cases hr
      · exact computeInclude_inv h (fun st vc pos hpos => ih visited' st vc hpos) hpos hinc hv
    unfold computeRoutes
    dsimp only
    split
    · intro r hr
      cases hr
    split
    · intro r hr
      cases hr
    rename_i hidentical
    have hpos := hpos (Bool.eq_false_of_not_eq_true hidentical)
    rw [takeRoutes]
    split
    · intro r hr
      cases hr
    · next done hdone =>
      exact expandPrefixMatches_inv h.expanded
        (computeRouteLoop_inv h hpos (hincludes hpos _) hdone)

/-- The routes of a root have every property that the three sources have. -/
theorem computeRoutes_inv (h : KeptByRoutes lib ord p source root enforceTLS P) (fuel : Nat)
    (visited : List HTTPProxy) (st : State) (vc : DetailedCondition)
    (hpos : Reaches source root pos) :
    ∀ r ∈ (computeRoutes lib ord p source root enforceTLS fuel visited st vc pos).routes, P r :=
  computeRoutes_inv_at h.keptAt fuel visited st vc fun _ => hpos

end Levels

end Sesame.Dag.HTTPProxyProcessor
