/-
# Routes shared by the hosts of an HTTPRoute

The hosts of an HTTPRoute hold pointers to the same routes, and the loop over the
hosts narrows these routes once for every wildcard host. What a host holds in the
end is therefore narrowed for all wildcard hosts of the HTTPRoute, not only for
the host itself.
-/

import Sesame.Lib.LastWrite
import Sesame.Dag.GatewayRoutes

namespace Sesame.Dag.GatewayAPIProcessor

open List
open Lib Api
open Status (RouteConditionsUpdate)

variable {lib : Stdlib} {ord : MapOrder} {p : GatewayAPIProcessor} {source : KubernetesCache}

variable {mc : MatchConditions} {hosts : List String} {routes : List Route} {host : String}
  {dag : DAG} {listenerSecret : Option Secret} {rule : HTTPRouteRule} {P : String → Route → Prop}

/-! ## What a rule matches -/

/-- The path condition of a match that is supported and valid. -/
def pathMatchOf (m : Option HTTPPathMatch) : Option PathMatchCondition :=
  match m with
  | none => some (.pathPrefix "/" .string)
  | some m =>
    let path := m.value.getD "/"
    match m.type.getD .pathPrefix, pathValueError path with
    | .pathPrefix, none => some (.pathPrefix path (if path = "/" then .string else .segment))
    | .exact, none => some (.exact path)
    | _, _ => none

/-- The conditions of a match that is supported and valid. -/
def matchOf (m : HTTPRouteMatch) : Option MatchConditions :=
  match pathMatchOf m.path, gatewayHeaderMatchConditions m.headers with
  | some path, some headers => some { path, headers := headers ++ methodConditions m.method }
  | _, _ => none

/-- The match conditions of a rule. -/
def ruleMatches (rule : HTTPRouteRule) : List MatchConditions := rule.matchRules.filterMap matchOf

/-- The redirect filter of a rule that takes effect. -/
def redirectFilter (rule : HTTPRouteRule) : Option HTTPRequestRedirectFilter :=
  rule.filters.findSome? fun
    | .requestRedirect filter => filter
    | _ => none

/-- A rule without a valid match, or with neither a redirect nor a backend. -/
def YieldsNoRoute (rule : HTTPRouteRule) : Prop :=
  ruleMatches rule = [] ∨ (redirectFilter rule = none ∧ rule.backendRefs = [])

theorem gatewayPathMatchCondition_fst (m : Option HTTPPathMatch) (u : RouteConditionsUpdate) :
    (gatewayPathMatchCondition m u).1 = pathMatchOf m := by
  cases m with
  | none => rfl
  | some m =>
    simp only [gatewayPathMatchCondition, pathMatchOf]
    cases m.type.getD .pathPrefix <;> cases pathValueError (m.value.getD "/") <;> rfl

theorem addMatch_fst (acc : List MatchConditions × RouteConditionsUpdate) (m : HTTPRouteMatch) :
    (addMatch acc m).1 = acc.1 ++ (matchOf m).toList := by
  rw [addMatch, matchOf, ← gatewayPathMatchCondition_fst m.path acc.2]
  rcases gatewayPathMatchCondition m.path acc.2 with ⟨_ | path, u⟩
  · simp
  · cases gatewayHeaderMatchConditions m.headers <;> simp

theorem matchConditions_fst (rule : HTTPRouteRule) (u : RouteConditionsUpdate) :
    (matchConditions rule u).1 = ruleMatches rule := by
  have hfold : ∀ (ms : List HTTPRouteMatch) (acc : List MatchConditions × RouteConditionsUpdate),
      (ms.foldl addMatch acc).1 = acc.1 ++ ms.filterMap matchOf := by
    intro ms
    induction ms with
    | nil => intro acc; simp
    | cons m ms ih =>
      intro acc
      rw [foldl_cons, ih, addMatch_fst]
      cases hm : matchOf m <;> simp [hm]
  rw [matchConditions, hfold, ruleMatches, nil_append]

/-- The conditions of a match compare headers with `exact`. -/
theorem exact_of_mem_ruleMatches (hmc : mc ∈ ruleMatches rule) :
    ∀ hc ∈ mc.headers, hc.matchType = .exact := by
  have hheaders : ∀ (ms : List HTTPHeaderMatch) conds,
      gatewayHeaderMatchConditions ms = some conds →
      ∀ hc ∈ conds, hc.matchType = .exact := by
    intro ms
    induction ms with
    | nil =>
      rintro conds ⟨⟩ hc hhc
      cases hhc
    | cons m ms ih =>
      intro conds hconds hc hhc
      rw [gatewayHeaderMatchConditions] at hconds
      split at hconds
      · obtain ⟨rest, hrest, rfl⟩ := Option.map_eq_some_iff.mp hconds
        rcases mem_cons.mp hhc with rfl | hhc
        · rfl
        · exact ih rest hrest hc hhc
      · cases hconds
  obtain ⟨m, -, hm⟩ := mem_filterMap.mp hmc
  rw [matchOf] at hm
  split at hm
  · next path headers _ hsome =>
    cases hm
    intro hc hhc
    rcases mem_append.mp hhc with hhc | hhc
    · exact hheaders m.headers headers hsome hc hhc
    · obtain ⟨value, -, rfl⟩ := mem_map.mp hhc
      rfl
  · cases hm

variable (lib ord) in
theorem foldl_addRuleFilter_redirect (filters : List HTTPRouteFilter) (acc : RuleFilters) :
    (filters.foldl (addRuleFilter lib ord) acc).redirect =
      acc.redirect.or (filters.findSome? fun
        | .requestRedirect filter => filter
        | _ => none) := by
  induction filters generalizing acc with
  | nil => simp
  | cons filter filters ih =>
    rw [foldl_cons, ih]
    cases filter with
    | requestHeaderModifier modifier =>
      rw [addRuleFilter]
      split <;> simp
    | requestRedirect redirect => cases redirect <;> simp [addRuleFilter]
    | other type => simp [addRuleFilter]

variable (lib ord p source) in
/-- The routes of a rule: one for each match, with the conditions of the match. -/
theorem ruleRoutes_fst (routeNamespace : String) (rule : HTTPRouteRule)
    (u : RouteConditionsUpdate) :
    ((ruleRoutes lib ord p source routeNamespace rule u).1 = [] ↔ YieldsNoRoute rule) ∧
      ∀ r ∈ (ruleRoutes lib ord p source routeNamespace rule u).1, ∃ mc ∈ ruleMatches rule,
        r.pathMatchCondition = mc.path ∧ r.headerMatchConditions = mc.headers := by
  have hmatches := matchConditions_fst rule u
  have hredirect := foldl_addRuleFilter_redirect lib ord rule.filters
    { routeAccessor := (matchConditions rule u).2 }
  rw [Option.none_or] at hredirect
  change _ = redirectFilter rule at hredirect
  rw [ruleRoutes, YieldsNoRoute, ← hmatches, ← hredirect]
  dsimp only
  split
  · next redirect hsome =>
    rw [hsome]
    constructor
    · simp [redirectRoutes]
    · intro r hr
      obtain ⟨mc, hmc, rfl⟩ := mem_map.mp hr
      exact ⟨mc, hmc, rfl, rfl⟩
  · next hnone =>
    rw [hnone, clusterRoutes]
    by_cases hbackends : rule.backendRefs = []
    · rw [if_pos hbackends]
      simp [hbackends]
    rw [if_neg hbackends]
    constructor
    · simp [hbackends]
    · intro r hr
      obtain ⟨mc, hmc, rfl⟩ := mem_map.mp hr
      exact ⟨mc, hmc, rfl, rfl⟩

/-! ## The contents of shared routes -/

/-- The regexes for the wildcard hosts among some hosts. -/
def wildcardRegexes (hosts : List String) : List HeaderMatchCondition :=
  (hosts.filter fun host => isWildcard host).map wildcardDomainHeaderMatch

/-- A route narrowed for every wildcard host among some hosts. -/
def narrowToHosts (hosts : List String) (route : Route) : Route :=
  { route with
    headerMatchConditions := route.headerMatchConditions ++ wildcardRegexes hosts }

theorem narrowToHosts_cons (host : String) (hosts : List String) (route : Route) :
    narrowToHosts (host :: hosts) route = narrowToHosts hosts (narrowToHost host route) := by
  rw [narrowToHost, narrowToHosts, narrowToHosts, wildcardRegexes, wildcardRegexes]
  by_cases hwild : isWildcard host = true
  · simp [hwild]
  · simp [hwild]

/-- After the loop every route has been narrowed for every wildcard host. -/
theorem routes_foldl_addToHost (hosts : List String) (s : SharedRoutes) :
    (hosts.foldl SharedRoutes.addToHost s).routes = s.routes.map (narrowToHosts hosts) := by
  induction hosts generalizing s with
  | nil =>
    have hid : narrowToHosts [] = id := by
      funext route
      simp [narrowToHosts, wildcardRegexes]
    rw [hid, map_id]
    rfl
  | cons host hosts ih =>
    rw [foldl_cons, ih]
    simp only [SharedRoutes.addToHost, map_map]
    apply map_congr_left
    intro route _
    exact (narrowToHosts_cons host hosts route).symm

/-- Every host of the loop holds a key for every route. -/
theorem placed_foldl_addToHost (hosts : List String) (s : SharedRoutes)
    (hs : ∀ place ∈ s.placed, place.2.length = s.routes.length) :
    ∀ place ∈ (hosts.foldl SharedRoutes.addToHost s).placed, place.2.length = s.routes.length := by
  induction hosts generalizing s with
  | nil => exact hs
  | cons host hosts ih =>
    intro place hplace
    have hstep := ih (s.addToHost host) ?_ place hplace
    · simpa [SharedRoutes.addToHost] using hstep
    · intro place hplace
      rcases mem_append.mp hplace with hplace | hplace
      · simpa [SharedRoutes.addToHost] using hs place hplace
      · rw [mem_singleton.mp hplace]
        simp [SharedRoutes.addToHost]

/-- The writes of the loop over the hosts: host, key and the route as it is when
the loop has ended. -/
def writes (hosts : List String) (routes : List Route) : List (String × String × Route) :=
  (hosts.foldl SharedRoutes.addToHost { routes }).placed.flatMap fun place =>
    (place.2.zip (routes.map (narrowToHosts hosts))).map fun entry => (place.1, entry)

theorem storeRoutes_eq (listenerSecret : Option Secret) (hosts : List String)
    (routes : List Route) (dag : DAG) :
    storeRoutes listenerSecret hosts routes dag =
      (writes hosts routes).foldl (fun d w => storeEntry listenerSecret w.1 d w.2) dag := by
  rw [storeRoutes, writes, foldl_flatMap, routes_foldl_addToHost]
  simp only [foldl_map]

/-- What is written to a host is narrowed for all wildcard hosts. -/
theorem mem_writes {w : String × String × Route} (hw : w ∈ writes hosts routes) :
    w.1 ∈ hosts ∧ ∃ r ∈ routes, w.2.2 = narrowToHosts hosts r := by
  obtain ⟨place, hplace, hentry⟩ := mem_flatMap.mp hw
  obtain ⟨entry, hzip, rfl⟩ := mem_map.mp hentry
  have hhost := mem_map_of_mem (f := Prod.fst) hplace
  rw [placed_hosts, map_nil, nil_append] at hhost
  obtain ⟨r, hr, hnarrow⟩ := mem_map.mp (of_mem_zip hzip).2
  exact ⟨hhost, r, hr, hnarrow.symm⟩

/-- Every host is written if there are routes. -/
theorem exists_mem_writes (hroutes : routes ≠ []) (hhost : host ∈ hosts) :
    ∃ entry, (host, entry) ∈ writes hosts routes := by
  have hplaced : host ∈ (hosts.foldl SharedRoutes.addToHost { routes }).placed.map Prod.fst := by
    rw [placed_hosts]
    exact hhost
  obtain ⟨place, hplace, rfl⟩ := mem_map.mp hplaced
  have hlength := placed_foldl_addToHost hosts { routes } (by simp) place hplace
  have hzip : place.2.zip (routes.map (narrowToHosts hosts)) ≠ [] := by
    intro hnil
    have hzero := congrArg length hnil
    rw [length_zip, length_map, hlength, Nat.min_self, length_nil] at hzero
    exact hroutes (length_eq_zero_iff.mp hzero)
  obtain ⟨entry, hentry⟩ := exists_mem_of_ne_nil _ hzip
  exact ⟨entry, mem_flatMap.mpr ⟨place, hplace, mem_map.mpr ⟨entry, hentry, rfl⟩⟩⟩

/-! ## The entries of a host -/

/-- The routes of the host that an HTTPRoute is added to. -/
def hostRoutes (listenerSecret : Option Secret) (dag : DAG) (host : String) : Map String Route :=
  match listenerSecret with
  | some _ => (dag.ensureSecureVirtualHost host).routes
  | none => (dag.ensureVirtualHost host).routes

theorem hostRoutes_storeEntry (listenerSecret : Option Secret) (host : String) (dag : DAG)
    (entry : String × Route) (host' key : String) :
    (hostRoutes listenerSecret (storeEntry listenerSecret host dag entry) host').lookup key =
      if host' = host ∧ key = entry.1 then some entry.2
      else (hostRoutes listenerSecret dag host').lookup key := by
  by_cases hhost : host' = host
  · subst hhost
    cases listenerSecret with
    | none =>
      simp [hostRoutes, storeEntry, DAG.ensureVirtualHost, DAG.getVirtualHost,
        DAG.putVirtualHost, Map.lookup_insert_eq]
    | some sec =>
      simp [hostRoutes, storeEntry, DAG.ensureSecureVirtualHost, DAG.getSecureVirtualHost,
        DAG.putSecureVirtualHost, Map.lookup_insert_eq]
  · cases listenerSecret with
    | none =>
      simp [hostRoutes, storeEntry, DAG.ensureVirtualHost, DAG.getVirtualHost,
        DAG.putVirtualHost, hhost]
    | some sec =>
      simp [hostRoutes, storeEntry, DAG.ensureSecureVirtualHost, DAG.getSecureVirtualHost,
        DAG.putSecureVirtualHost, hhost]

/-- Every entry of every host satisfies `P`. -/
def AllEntries (listenerSecret : Option Secret) (P : String → Route → Prop) (dag : DAG) : Prop :=
  ∀ host key r, (hostRoutes listenerSecret dag host).lookup key = some r → P host r

/-- The entries of `d` are those of `stored`, and below them those of `base`. -/
def Overlays (listenerSecret : Option Secret) (base stored d : DAG) : Prop :=
  ∀ host key, (hostRoutes listenerSecret d host).lookup key =
    ((hostRoutes listenerSecret stored host).lookup key).or
      ((hostRoutes listenerSecret base host).lookup key)

theorem AllEntries.storeRoutes (hP : ∀ host ∈ hosts, ∀ r ∈ routes, P host (narrowToHosts hosts r))
    (hdag : AllEntries listenerSecret P dag) :
    AllEntries listenerSecret P (storeRoutes listenerSecret hosts routes dag) := by
  rw [storeRoutes_eq]
  refine foldlRecOn _ _ hdag fun d hd w hw => ?_
  obtain ⟨hhost, r₀, hr₀, hnarrow⟩ := mem_writes hw
  intro host key r hr
  rw [hostRoutes_storeEntry] at hr
  split at hr
  · next heq =>
    cases hr
    rw [heq.1, hnarrow]
    exact hP w.1 hhost r₀ hr₀
  · exact hd host key r hr

theorem Overlays.storeRoutes {base stored d : DAG} (h : Overlays listenerSecret base stored d)
    (hosts : List String) (routes : List Route) :
    Overlays listenerSecret base (storeRoutes listenerSecret hosts routes stored)
      (storeRoutes listenerSecret hosts routes d) := by
  rw [storeRoutes_eq, storeRoutes_eq]
  induction writes hosts routes generalizing stored d with
  | nil => exact h
  | cons w ws ih =>
    apply ih
    intro host key
    rw [hostRoutes_storeEntry, hostRoutes_storeEntry, h host key]
    split <;> rfl

/-- The host holds some entry. -/
def HoldsEntry (listenerSecret : Option Secret) (host : String) (dag : DAG) : Prop :=
  ∃ key r, (hostRoutes listenerSecret dag host).lookup key = some r

theorem HoldsEntry.storeEntry (h : HoldsEntry listenerSecret host dag) (host' : String)
    (entry : String × Route) :
    HoldsEntry listenerSecret host (storeEntry listenerSecret host' dag entry) := by
  obtain ⟨key, r, hr⟩ := h
  by_cases heq : host = host' ∧ key = entry.1
  · refine ⟨key, entry.2, ?_⟩
    rw [hostRoutes_storeEntry, if_pos heq]
  · refine ⟨key, r, ?_⟩
    rw [hostRoutes_storeEntry, if_neg heq, hr]

theorem HoldsEntry.storeRoutes (h : HoldsEntry listenerSecret host dag) (hosts : List String)
    (routes : List Route) :
    HoldsEntry listenerSecret host (storeRoutes listenerSecret hosts routes dag) := by
  rw [storeRoutes_eq]
  exact foldlRecOn _ _ h fun d hd w _ => hd.storeEntry w.1 w.2

/-- A host of the loop holds an entry after it. -/
theorem holdsEntry_storeRoutes (listenerSecret : Option Secret) (hroutes : routes ≠ [])
    (hhost : host ∈ hosts) (dag : DAG) :
    HoldsEntry listenerSecret host (storeRoutes listenerSecret hosts routes dag) := by
  obtain ⟨entry, hentry⟩ := exists_mem_writes hroutes hhost
  rw [storeRoutes_eq]
  refine foldl_of_mem (fun d hd w _ => hd.storeEntry w.1 w.2) hentry ?_ dag
  intro d
  refine ⟨entry.1, entry.2, ?_⟩
  rw [hostRoutes_storeEntry, if_pos ⟨rfl, rfl⟩]

/-! ## The entries of an HTTPRoute -/

def isAuthorityRegex (hc : HeaderMatchCondition) : Bool :=
  hc.name = ":authority" && hc.matchType = .regex

/-- A route for one match of an HTTPRoute and for one host: its authority regexes
are the one for the host if it is a wildcard and none otherwise, and the other
conditions are those of the match. -/
def NarrowedTo (route : HTTPRoute) (host : String) (r : Route) : Prop :=
  ∃ rule ∈ route.rules, ∃ mc ∈ ruleMatches rule, r.pathMatchCondition = mc.path ∧
    r.headerMatchConditions.filter isAuthorityRegex = wildcardRegexes [host] ∧
    r.headerMatchConditions.filter (fun hc => !isAuthorityRegex hc) = mc.headers

theorem filter_wildcardRegexes (hosts : List String) :
    (wildcardRegexes hosts).filter isAuthorityRegex = wildcardRegexes hosts ∧
      (wildcardRegexes hosts).filter (fun hc => !isAuthorityRegex hc) = [] := by
  have hregex : ∀ hc ∈ wildcardRegexes hosts, isAuthorityRegex hc = true := by
    intro hc hhc
    obtain ⟨host, -, rfl⟩ := mem_map.mp hhc
    rfl
  rw [filter_eq_self, filter_eq_nil_iff]
  exact ⟨hregex, fun hc hhc => by simp [hregex hc hhc]⟩

/-- The conditions of a route of a rule after the loop over the hosts. -/
theorem narrowToHosts_conditions (hmc : mc ∈ ruleMatches rule) {r : Route}
    (hr : r.headerMatchConditions = mc.headers) (hosts : List String) :
    (narrowToHosts hosts r).headerMatchConditions.filter isAuthorityRegex = wildcardRegexes hosts ∧
      (narrowToHosts hosts r).headerMatchConditions.filter (fun hc => !isAuthorityRegex hc) =
        mc.headers := by
  have hexact : ∀ hc ∈ mc.headers, isAuthorityRegex hc = false := by
    intro hc hhc
    simp [isAuthorityRegex, exact_of_mem_ruleMatches hmc hc hhc]
  obtain ⟨hregexes, hothers⟩ := filter_wildcardRegexes hosts
  have hnone : mc.headers.filter isAuthorityRegex = [] :=
    filter_eq_nil_iff.mpr fun hc hhc => by simp [hexact hc hhc]
  have hall : mc.headers.filter (fun hc => !isAuthorityRegex hc) = mc.headers :=
    filter_eq_self.mpr fun hc hhc => by simp [hexact hc hhc]
  rw [narrowToHosts, hr]
  constructor
  · rw [filter_append, hnone, hregexes, nil_append]
  · rw [filter_append, hall, hothers, append_nil]

/-- A DAG with the same statuses and no hosts. -/
def withoutHosts (dag : DAG) : DAG := { dag with virtualHosts := ∅, secureVirtualHosts := ∅ }

def routeHosts (lib : Stdlib) (route : HTTPRoute) (listenerHostname : Option String) :
    Map String Unit := (computeHosts lib route.hostnames listenerHostname).1

/-- The hosts of an HTTPRoute share no narrowed route: the Gateway is not valid,
there is at most one host, no host is a wildcard, or there are no routes. -/
def NarrowsApart (lib : Stdlib) (route : HTTPRoute) (listenerHostname : Option String)
    (validGateway : Bool) : Prop :=
  validGateway = false ∨ (routeHosts lib route listenerHostname).keys.length ≤ 1 ∨
    (∀ host ∈ (routeHosts lib route listenerHostname).keys, isWildcard host = false) ∨
    ∀ rule ∈ route.rules, YieldsNoRoute rule

section Call

variable (lib ord p source) (site : String) (route : HTTPRoute) (listenerSecret : Option Secret)
  (listenerHostname : Option String)

/-- The hosts in the order in which the loop of the rule with an index visits them. -/
def hostOrder (i : Nat) : List String :=
  (ord.range (site ++ toString i) (routeHosts lib route listenerHostname)).map Prod.fst

def startAccessor (dag : DAG) : RouteConditionsUpdate :=
  addHostErrors (computeHosts lib route.hostnames listenerHostname).2
    (dag.statusCache.routeConditionsAccessor (namespacedNameOf route.toObjectMeta)
      route.generation .httpRoute route.statusParents)

/-- The loop over the rules. -/
def runRules (dag : DAG) : RouteState :=
  route.rules.zipIdx.foldl
    (computeRule lib ord p source site route listenerSecret (routeHosts lib route listenerHostname))
    { dag, routeAccessor := startAccessor lib route listenerHostname dag }

/-- Without a valid Gateway or without hosts a call writes no entry. -/
def Idle (validGateway : Bool) : Prop :=
  validGateway = false ∨ (routeHosts lib route listenerHostname).keys = []

variable {lib ord p source site route listenerSecret listenerHostname} {validGateway : Bool}

theorem computeHTTPRoute_of_idle (hidle : Idle lib route listenerHostname validGateway)
    (dag : DAG) :
    dag.SameHosts (computeHTTPRoute lib ord p source site dag route listenerSecret
      listenerHostname validGateway).2 := by
  rw [computeHTTPRoute, computeRoute]
  dsimp only
  split
  · exact ⟨_, rfl⟩
  rename_i hvalid
  rcases hidle with hinvalid | hkeys
  · simp [hinvalid] at hvalid
  · have hentries : (computeHosts lib route.hostnames listenerHostname).1.entries = [] := by
      simpa [routeHosts, AList.keys, keys] using hkeys
    rw [if_pos hentries]
    exact ⟨_, rfl⟩

theorem computeHTTPRoute_of_not_idle (hidle : ¬ Idle lib route listenerHostname validGateway)
    (dag : DAG) :
    (runRules lib ord p source site route listenerSecret listenerHostname dag).dag.SameHosts
      (computeHTTPRoute lib ord p source site dag route listenerSecret listenerHostname
        validGateway).2 := by
  rw [computeHTTPRoute, computeRoute]
  dsimp only
  split
  · next hinvalid => exact absurd (.inl (by simpa using hinvalid)) hidle
  · split
    · next hentries =>
      exact absurd (.inr (by simpa [routeHosts, AList.keys, keys] using hentries)) hidle
    · exact ⟨_, rfl⟩

theorem mem_hostOrder {i : Nat} :
    host ∈ hostOrder lib ord site route listenerHostname i ↔
      host ∈ (routeHosts lib route listenerHostname).keys :=
  (ord.range_keys_perm _ _).mem_iff

/-- A property of all entries is kept by the rules if what they write has it. -/
theorem allEntries_runRules (hP : ∀ rule ∈ route.rules, ∀ i u,
      ∀ host ∈ hostOrder lib ord site route listenerHostname i,
      ∀ r ∈ (ruleRoutes lib ord p source route.ns rule u).1,
        P host (narrowToHosts (hostOrder lib ord site route listenerHostname i) r))
    (hdag : AllEntries listenerSecret P dag) :
    AllEntries listenerSecret P
      (runRules lib ord p source site route listenerSecret listenerHostname dag).dag := by
  rw [runRules]
  refine foldlRecOn _ _
    (motive := fun st : RouteState => AllEntries listenerSecret P st.dag) hdag ?_
  intro st hst rule hrule
  apply hst.storeRoutes
  intro host hhost r hr
  exact hP rule.1 (fst_mem_of_mem_zipIdx hrule) rule.2 _ host hhost r hr

/-- The rules write the same entries to the hosts of every DAG. -/
theorem overlays_runRules (dag : DAG) :
    Overlays listenerSecret dag
      (runRules lib ord p source site route listenerSecret listenerHostname (withoutHosts dag)).dag
      (runRules lib ord p source site route listenerSecret listenerHostname dag).dag := by
  have hfold : ∀ (rules : List (HTTPRouteRule × Nat)) (stored d : RouteState),
      Overlays listenerSecret dag stored.dag d.dag → stored.routeAccessor = d.routeAccessor →
      Overlays listenerSecret dag
        (rules.foldl (computeRule lib ord p source site route listenerSecret
          (routeHosts lib route listenerHostname)) stored).dag
        (rules.foldl (computeRule lib ord p source site route listenerSecret
          (routeHosts lib route listenerHostname)) d).dag := by
    intro rules
    induction rules with
    | nil =>
      intro stored d h _
      exact h
    | cons rule rules ih =>
      intro stored d h haccessor
      rw [foldl_cons, foldl_cons]
      apply ih
      · simp only [computeRule, haccessor]
        exact h.storeRoutes _ _
      · simp only [computeRule, haccessor]
  apply hfold
  · intro host key
    cases listenerSecret <;> rfl
  · rfl

/-- A host of the HTTPRoute holds an entry if some rule yields a route. -/
theorem holdsEntry_runRules (hrule : rule ∈ route.rules) (hyields : ¬ YieldsNoRoute rule)
    (hhost : host ∈ (routeHosts lib route listenerHostname).keys) (dag : DAG) :
    HoldsEntry listenerSecret host
      (runRules lib ord p source site route listenerSecret listenerHostname dag).dag := by
  obtain ⟨i, hi⟩ : ∃ i, (rule, i) ∈ route.rules.zipIdx := by
    obtain ⟨n, hn, rfl⟩ := getElem_of_mem hrule
    exact ⟨n, mem_zipIdx_iff_getElem?.mpr (getElem?_eq_getElem hn)⟩
  rw [runRules]
  refine foldl_of_mem (Q := fun st : RouteState => HoldsEntry listenerSecret host st.dag)
    (fun st hst _ _ => hst.storeRoutes _ _) hi ?_ _
  intro st
  apply holdsEntry_storeRoutes
  · exact fun hnone => hyields ((ruleRoutes_fst lib ord p source route.ns rule _).1.mp hnone)
  · exact mem_hostOrder.mpr hhost

end Call

theorem hostRoutes_sameHosts {d d' : DAG} (h : d.SameHosts d') (listenerSecret : Option Secret)
    (host : String) : hostRoutes listenerSecret d' host = hostRoutes listenerSecret d host := by
  obtain ⟨c, rfl⟩ := h
  rfl

theorem wildcardRegexes_eq_own (hhost : host ∈ hosts)
    (h : hosts.length ≤ 1 ∨ ∀ other ∈ hosts, isWildcard other = false) :
    wildcardRegexes hosts = wildcardRegexes [host] := by
  rcases h with hlength | hplain
  · obtain ⟨a, rfl⟩ : ∃ a, hosts = [a] := by
      match hosts, hhost with
      | [a], _ => exact ⟨a, rfl⟩
      | _ :: _ :: _, _ => simp at hlength
    rw [mem_singleton.mp hhost]
  · have hnone : hosts.filter (fun host => isWildcard host) = [] :=
      filter_eq_nil_iff.mpr fun other hother => by simp [hplain other hother]
    simp [wildcardRegexes, hnone, hplain host hhost]

theorem wildcardRegexes_ne_own {wildcard : String} (hwildcard : wildcard ∈ hosts)
    (hhost : host ∈ hosts) (hne : wildcard ≠ host) (hwild : isWildcard wildcard = true) :
    wildcardRegexes hosts ≠ wildcardRegexes [host] := by
  intro heq
  have hmem : wildcard ∈ hosts.filter (fun host => isWildcard host) :=
    mem_filter.mpr ⟨hwildcard, hwild⟩
  by_cases hown : isWildcard host = true
  · -- Two wildcard hosts give two regexes.
    rw [wildcardRegexes, wildcardRegexes, filter_singleton, hown] at heq
    obtain ⟨a, ha, -⟩ := map_eq_singleton_iff.mp heq
    have hmem' : host ∈ hosts.filter (fun host => isWildcard host) := mem_filter.mpr ⟨hhost, hown⟩
    rw [ha, mem_singleton] at hmem hmem'
    exact hne (hmem.trans hmem'.symm)
  · rw [map_eq_nil_iff.mp (heq.trans (by simp [wildcardRegexes, hown]))] at hmem
    cases hmem

section Narrowing

variable {site : String} {route : HTTPRoute} {listenerSecret : Option Secret}
  {listenerHostname : Option String}

theorem allEntries_withoutHosts (P : String → Route → Prop) (dag : DAG) :
    AllEntries listenerSecret P (withoutHosts dag) := by
  intro host key r hr
  cases listenerSecret <;> simp [hostRoutes, withoutHosts, DAG.ensureVirtualHost,
    DAG.getVirtualHost, DAG.ensureSecureVirtualHost, DAG.getSecureVirtualHost] at hr

/-- What the rules write to a host is narrowed for the hosts of some order. -/
theorem allEntries_regexes (dag : DAG) :
    AllEntries listenerSecret
      (fun _ r => ∃ i, r.headerMatchConditions.filter isAuthorityRegex =
        wildcardRegexes (hostOrder lib ord site route listenerHostname i))
      (runRules lib ord p source site route listenerSecret listenerHostname
        (withoutHosts dag)).dag := by
  apply allEntries_runRules
  · intro rule _ i u host _ r hr
    obtain ⟨mc, hmc, -, hheaders⟩ := (ruleRoutes_fst lib ord p source route.ns rule u).2 r hr
    exact ⟨i, (narrowToHosts_conditions hmc hheaders _).1⟩
  · exact allEntries_withoutHosts _ dag

/-- With one host, without wildcard hosts or without routes every entry is narrowed
to its own host. -/
theorem allEntries_narrowed (dag : DAG)
    (h : (routeHosts lib route listenerHostname).keys.length ≤ 1 ∨
      (∀ host ∈ (routeHosts lib route listenerHostname).keys, isWildcard host = false) ∨
      ∀ rule ∈ route.rules, YieldsNoRoute rule) :
    AllEntries listenerSecret (NarrowedTo route)
      (runRules lib ord p source site route listenerSecret listenerHostname
        (withoutHosts dag)).dag := by
  apply allEntries_runRules
  · intro rule hrule i u host hhost r hr
    obtain ⟨hnone, hmatch⟩ := ruleRoutes_fst lib ord p source route.ns rule u
    obtain ⟨mc, hmc, hpath, hheaders⟩ := hmatch r hr
    have hown : wildcardRegexes (hostOrder lib ord site route listenerHostname i) =
        wildcardRegexes [host] := by
      apply wildcardRegexes_eq_own hhost
      rcases h with hlength | hplain | hno
      · left
        rw [hostOrder, (ord.range_keys_perm _ _).length_eq]
        exact hlength
      · right
        intro other hother
        exact hplain other (mem_hostOrder.mp hother)
      · rw [hnone.mpr (hno rule hrule)] at hr
        cases hr
    obtain ⟨hregexes, hothers⟩ := narrowToHosts_conditions hmc hheaders
      (hostOrder lib ord site route listenerHostname i)
    exact ⟨rule, hrule, mc, hmc, hpath, hregexes.trans hown, hothers⟩
  · exact allEntries_withoutHosts _ dag

/-- With a wildcard host, another host and a route some entry is not narrowed to its
own host: the other host's. -/
theorem exists_entry_not_narrowed (dag : DAG)
    (hlength : 1 < (routeHosts lib route listenerHostname).keys.length) {wildcard : String}
    (hwildcard : wildcard ∈ (routeHosts lib route listenerHostname).keys)
    (hwild : isWildcard wildcard = true) (hrule : rule ∈ route.rules)
    (hyields : ¬ YieldsNoRoute rule) :
    ∃ host ∈ (routeHosts lib route listenerHostname).keys, ∃ key r,
      (hostRoutes listenerSecret (runRules lib ord p source site route listenerSecret
        listenerHostname (withoutHosts dag)).dag host).lookup key = some r ∧
      ¬ NarrowedTo route host r := by
  obtain ⟨host, hhost, hne⟩ : ∃ host ∈ (routeHosts lib route listenerHostname).keys,
      wildcard ≠ host := by
    by_contra hnone
    have hsub : (routeHosts lib route listenerHostname).keys ⊆ [wildcard] := by
      intro host hhost
      by_contra hother
      exact hnone ⟨host, hhost, fun heq => hother (by simp [heq])⟩
    have hle := (subperm_of_subset
      (routeHosts lib route listenerHostname).keys_nodup hsub).length_le
    simp at hle
    omega
  have hholds : HoldsEntry listenerSecret host (runRules lib ord p source site route listenerSecret
      listenerHostname (withoutHosts dag)).dag :=
    holdsEntry_runRules hrule hyields hhost (withoutHosts dag)
  obtain ⟨key, r, hr⟩ := hholds
  obtain ⟨i, hregexes⟩ := allEntries_regexes dag host key r hr
  refine ⟨host, hhost, key, r, hr, ?_⟩
  rintro ⟨-, -, mc, -, -, hown, -⟩
  exact wildcardRegexes_ne_own (mem_hostOrder.mpr hwildcard) (mem_hostOrder.mpr hhost) hne hwild
    (hregexes.symm.trans hown)

end Narrowing

/-- A call stores the same entries in every DAG, above the entries that are there.
Its entries are narrowed to their own host iff the hosts share no narrowed route,
in every order of the loops over the hosts. -/
theorem entries_narrowed_iff (lib : Stdlib) (ord : MapOrder) (p : GatewayAPIProcessor)
    (source : KubernetesCache) (site : String) (route : HTTPRoute)
    (listenerSecret : Option Secret) (listenerHostname : Option String) (validGateway : Bool)
    (dag : DAG) :
    let call (dag : DAG) := (computeHTTPRoute lib ord p source site dag route listenerSecret
      listenerHostname validGateway).2
    Overlays listenerSecret dag (call (withoutHosts dag)) (call dag) ∧
      ((∀ host ∈ (computeHosts lib route.hostnames listenerHostname).1.keys, ∀ key r,
          (hostRoutes listenerSecret (call (withoutHosts dag)) host).lookup key = some r →
            NarrowedTo route host r) ↔
        NarrowsApart lib route listenerHostname validGateway) := by
  by_cases hidle : Idle lib route listenerHostname validGateway
  · -- Nothing is written.
    have hempty : ∀ host key, (hostRoutes listenerSecret (computeHTTPRoute lib ord p source site
        (withoutHosts dag) route listenerSecret listenerHostname validGateway).2 host).lookup key =
          none := by
      intro host key
      rw [hostRoutes_sameHosts (computeHTTPRoute_of_idle hidle (withoutHosts dag))]
      cases listenerSecret <;> rfl
    constructor
    · intro host key
      rw [hempty, Option.none_or, hostRoutes_sameHosts (computeHTTPRoute_of_idle hidle dag)]
    · constructor
      · intro _
        rcases hidle with hinvalid | hkeys
        · exact .inl hinvalid
        · exact .inr (.inl (by simp [hkeys]))
      · intro _ host _ key r hr
        rw [hempty] at hr
        cases hr
  · simp only [Overlays, hostRoutes_sameHosts (computeHTTPRoute_of_not_idle hidle _)]
    refine ⟨overlays_runRules dag, ?_⟩
    constructor
    · intro hnarrowed
      by_contra hshared
      simp only [NarrowsApart, not_or, not_le, not_forall] at hshared
      obtain ⟨-, hlength, ⟨wildcard, hwildcard, hwild⟩, ⟨rule, hrule, hyields⟩⟩ := hshared
      obtain ⟨host, hhost, key, r, hr, hnot⟩ := exists_entry_not_narrowed dag hlength hwildcard
        (Bool.ne_false_iff.mp hwild) hrule hyields
      exact hnot (hnarrowed host hhost key r hr)
    · intro hapart host _ key r hr
      rcases hapart with hinvalid | hrest
      · exact absurd (.inl hinvalid) hidle
      · exact allEntries_narrowed dag hrest host key r hr

/-- An HTTPRoute that redirects the hosts `*.a` and `b`. -/
def redirectRoute : HTTPRoute where
  name := "route"
  ns := "n"
  hostnames := ["*.a", "b"]
  rules := [{ matchRules := [{}], filters := [.requestRedirect (some {})] }]

/-- The DAG after the HTTPRoute was added to an empty one. -/
def redirectRouteDAG : DAG :=
  (computeHTTPRoute .plain .storage {} {} "" {} redirectRoute none none true).2

/-- The host `b` holds a route that also asks for one label below `a`. -/
theorem regex_of_other_host :
    "b" ∈ (computeHosts .plain redirectRoute.hostnames none).1.keys ∧
    isWildcard "b" = false ∧
    ∃ r, (hostRoutes none redirectRouteDAG "b").lookup "prefix: / type: string" = some r ∧
      r.headerMatchConditions = [wildcardDomainHeaderMatch "*.a"] ∧
      ¬ NarrowedTo redirectRoute "b" r := by
  have hentry : ((hostRoutes none redirectRouteDAG "b").lookup "prefix: / type: string").map
      (·.headerMatchConditions) = some [wildcardDomainHeaderMatch "*.a"] := by
    decide +kernel
  obtain ⟨r, hr, hheaders⟩ := Option.map_eq_some_iff.mp hentry
  have hplain : isWildcard "b" = false := by decide
  refine ⟨by decide +kernel, hplain, r, hr, hheaders, ?_⟩
  rintro ⟨-, -, mc, -, -, hregexes, -⟩
  rw [hheaders] at hregexes
  exact absurd hregexes (by decide)

end Sesame.Dag.GatewayAPIProcessor
