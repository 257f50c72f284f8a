/-
# The calls that follow includes

`computeRoutes` calls itself for the proxies that a proxy includes, and carries the
proxies on the path along. A call for a proxy that is on its path already ends at
once, so the path never grows beyond the number of cached proxies. The fuel of the model
is one more than that: with any more of it the calls and their results are the same.
`processHTTPProxyTCPProxy` follows the one include of a TCP proxy in the same way.
-/

import Mathlib.Logic.Relation
import Sesame.Dag.HTTPProxyProcessor

namespace Sesame.Dag.HTTPProxyProcessor

open List
open Lib Api
open Status (DetailedCondition)

variable {visited : List HTTPProxy} {source : KubernetesCache} {dest proxy : HTTPProxy}

/-- The namespace and the name of a proxy, as the checks for cycles compare them. -/
def nameOf (proxy : HTTPProxy) : NamespacedName where
  ns := proxy.ns
  name := proxy.name

theorem nameOf_eq_iff {a b : HTTPProxy} : nameOf a = nameOf b ↔ a.name = b.name ∧ a.ns = b.ns := by
  simp [nameOf, and_comm]

/-! ## Paths -/

/-- A proxy of the same namespaced name is on the path. -/
def OnPath (visited : List HTTPProxy) (proxy : HTTPProxy) : Prop :=
  nameOf proxy ∈ visited.map nameOf
  deriving Decidable

theorem onPath_iff_any :
    OnPath visited proxy ↔ (visited.any fun v => v.name = proxy.name ∧ v.ns = proxy.ns) = true := by
  simp only [OnPath, mem_map, any_eq_true, decide_eq_true_eq, nameOf_eq_iff]

/-- The proxy is in the cache. -/
def Cached (source : KubernetesCache) (proxy : HTTPProxy) : Prop :=
  ∃ name, source.httpproxies.lookup name = some proxy

/-- Cached proxies without a repeated name. -/
structure IsPath (source : KubernetesCache) (visited : List HTTPProxy) : Prop where
  nodup : (visited.map nameOf).Nodup
  cached : ∀ v ∈ visited, Cached source v

theorem isPath_nil (source : KubernetesCache) : IsPath source [] where
  nodup := nodup_nil
  cached _ h := by cases h

theorem IsPath.concat (h : IsPath source visited) (hproxy : Cached source proxy)
    (hfresh : ¬ OnPath visited proxy) : IsPath source (visited ++ [proxy]) := by
  constructor
  · rw [map_append, map_singleton, nodup_append]
    apply And.intro h.nodup
    apply And.intro (nodup_singleton _)
    intro name hname other hother
    rw [mem_singleton.mp hother]
    rintro rfl
    exact hfresh hname
  · intro v hv
    rcases mem_append.mp hv with hold | hlast
    · exact h.cached v hold
    · rw [mem_singleton.mp hlast]
      exact hproxy

theorem IsPath.of_concat (h : IsPath source (visited ++ [proxy])) : IsPath source visited := by
  constructor
  · have hnodup := h.nodup
    rw [map_append] at hnodup
    exact hnodup.of_append_left
  · intro v hv
    exact h.cached v (mem_append_left _ hv)

/-- A path is no longer than there are cached proxies. -/
theorem IsPath.length_le (h : IsPath source visited) :
    visited.length ≤ source.httpproxies.keys.length := by
  have hnames : visited.map nameOf ⊆ source.httpproxies.toList.map fun entry => nameOf entry.2 := by
    intro name hname
    obtain ⟨v, hv, rfl⟩ := mem_map.mp hname
    obtain ⟨key, hkey⟩ := h.cached v hv
    exact mem_map.mpr ⟨(key, v), Map.mem_toList.mpr hkey, rfl⟩
  have hlength := (subperm_of_subset h.nodup hnames).length_le
  rw [length_map, length_map] at hlength
  have hkeys : source.httpproxies.toList.length = source.httpproxies.keys.length := by
    simp [Map.toList, AList.keys, keys]
  rwa [hkeys] at hlength

/-- The fuel lasts for every path that extends this one. -/
def Enough (source : KubernetesCache) (fuel : Nat) (visited : List HTTPProxy) : Prop :=
  source.httpproxies.keys.length + 1 ≤ fuel + visited.length

theorem enough_includeFuel (source : KubernetesCache) (visited : List HTTPProxy) :
    Enough source (includeFuel source) visited := by
  rw [Enough, includeFuel]
  omega

theorem Enough.pos {fuel : Nat} (h : Enough source fuel visited) (hpath : IsPath source visited) :
    ∃ n, fuel = n + 1 := by
  have hlength := hpath.length_le
  rw [Enough] at h
  exact ⟨fuel - 1, by omega⟩

theorem Enough.concat {fuel : Nat} (h : Enough source (fuel + 1) visited) (proxy : HTTPProxy) :
    Enough source fuel (visited ++ [proxy]) := by
  rw [Enough] at h ⊢
  rw [length_append, length_singleton]
  omega

/-! ## Includes -/

/-- The proxy that an include leads to, if its conditions are valid, it is found and it
is not a root. -/
def followed (lib : Stdlib) (source : KubernetesCache) (proxy : HTTPProxy) (inc : Include) :
    Option HTTPProxy :=
  match pathMatchConditionsValid inc.conditions, headerMatchConditionsValid lib inc.conditions with
  | .ok (), .ok () =>
    (source.httpproxies.lookup
      { ns := stringOrDefault inc.ns proxy.ns, name := inc.name }).filter
      fun included => included.virtualHost.isNone
  | _, _ => none

/-- The include leads to no proxy, and its conditions are valid and not empty: requests for
it are answered. -/
@[mk_iff]
structure Unanswered (lib : Stdlib) (source : KubernetesCache) (proxy : HTTPProxy) (inc : Include) :
    Prop where
  path : pathMatchConditionsValid inc.conditions = .ok ()
  headers : headerMatchConditionsValid lib inc.conditions = .ok ()
  absent : source.httpproxies.lookup
    { ns := stringOrDefault inc.ns proxy.ns, name := inc.name } = none
  conditions : inc.conditions ≠ []

instance (lib : Stdlib) (source : KubernetesCache) (proxy : HTTPProxy) (inc : Include) :
    Decidable (Unanswered lib source proxy inc) :=
  decidable_of_iff' _ (unanswered_iff lib source proxy inc)

/-- One call of `computeRoutes`: the path that led to it and the place it visits. -/
structure Call where
  visited : List HTTPProxy
  pos : Position

namespace Call

/-- The call goes on to the includes of its proxy. -/
structure Expands (c : Call) : Prop where
  fresh : ¬ OnPath c.visited c.pos.proxy
  distinct : includeMatchConditionsIdentical c.pos.proxy.includes = false

def child (c : Call) (inc : Include) (included : HTTPProxy) : Call where
  visited := c.visited ++ [c.pos.proxy]
  pos := { proxy := included, chain := c.pos.chain ++ [inc.conditions] }

def start (root : HTTPProxy) : Call where
  visited := []
  pos := { proxy := root, chain := [] }

/-- A call makes another one. -/
inductive Step (lib : Stdlib) (source : KubernetesCache) : Call → Call → Prop
  | follow {c : Call} {inc : Include} {included : HTTPProxy} (expands : c.Expands)
      (inc_mem : inc ∈ c.pos.proxy.includes)
      (follows : followed lib source c.pos.proxy inc = some included) :
      Step lib source c (c.child inc included)

end Call

/-- An include with valid conditions leads from a proxy to another one that is not a
root. A proxy whose includes repeat their conditions has no such link. -/
structure IncludeLink (lib : Stdlib) (source : KubernetesCache) (a b : HTTPProxy) : Prop where
  distinct : includeMatchConditionsIdentical a.includes = false
  follows : ∃ inc ∈ a.includes, followed lib source a inc = some b

section

variable {lib : Stdlib} {source : KubernetesCache}

theorem followed_eq_some {included : HTTPProxy} {inc : Include} :
    followed lib source proxy inc = some included ↔
      pathMatchConditionsValid inc.conditions = .ok () ∧
      headerMatchConditionsValid lib inc.conditions = .ok () ∧
      source.httpproxies.lookup { ns := stringOrDefault inc.ns proxy.ns, name := inc.name } =
        some included ∧
      included.virtualHost = none := by
  unfold followed
  split
  · next hpath hheaders => simp [hpath, hheaders, Option.filter_eq_some_iff]
  rename_i hnot
  constructor
  · intro h
    cases h
  · intro h
    exact absurd h.2.1 (hnot h.1)

theorem cached_of_followed {included : HTTPProxy} {inc : Include}
    (h : followed lib source proxy inc = some included) : Cached source included :=
  ⟨_, (followed_eq_some.mp h).2.2.1⟩

/-- Every call that a call leads to is made along a path of cached proxies. -/
theorem Call.Step.isPath {c c' : Call} (h : Relation.ReflTransGen (Call.Step lib source) c c')
    (hpath : IsPath source c.visited) (hcached : Cached source c.pos.proxy) :
    IsPath source c'.visited ∧ Cached source c'.pos.proxy := by
  induction h with
  | refl => exact ⟨hpath, hcached⟩
  | tail _ hstep ih =>
    cases hstep with
    | follow expands inc_mem follows =>
      exact ⟨ih.1.concat ih.2 expands.fresh, cached_of_followed follows⟩

end

/-! ## The loop over the includes -/

section

variable {lib : Stdlib} {ord : MapOrder} {p : HTTPProxyProcessor} {source : KubernetesCache}
  {root : Root} {enforceTLS : Bool}

variable (lib source root) in
/-- The body of the loop over the includes, by where the include leads. -/
theorem computeInclude_eq (pos : Position) (inc : Include) :
    (∃ included, followed lib source pos.proxy inc = some included ∧ ∀ recurse v,
      computeInclude lib source recurse root pos v inc =
        (let pu := Status.Cache.proxyAccessor included
         let below := recurse v.state pu.conditionFor
           { proxy := included, chain := pos.chain ++ [inc.conditions] }
         let state := below.state.commit { pu with valid := some below.validCond }
         { v with
           state := { state with
             orphaned := state.orphaned.filter (· ≠ nameOf included) }
           routes := v.routes ++ below.routes })) ∨
    followed lib source pos.proxy inc = none ∧
      ∃ type reason message, type ≠ .orphanedError ∧ ∀ recurse v,
        computeInclude lib source recurse root pos v inc =
          { v.skip type reason message with
            routes := v.routes ++
              if Unanswered lib source pos.proxy inc then [missingIncludeRoute root pos inc]
              else [] } := by
  unfold computeInclude followed
  cases hpath : pathMatchConditionsValid inc.conditions with
  | error err =>
    have hnot : ¬ Unanswered lib source pos.proxy inc := fun h => by cases hpath.symm.trans h.path
    refine .inr ⟨rfl, .includeError, "PathMatchConditionsNotValid", "include: " ++ err,
      by decide, ?_⟩
    simp [Visit.skip, hnot]
  | ok valid =>
    cases hheaders : headerMatchConditionsValid lib inc.conditions with
    | error err =>
      have hnot : ¬ Unanswered lib source pos.proxy inc :=
        fun h => by cases hheaders.symm.trans h.headers
      refine .inr ⟨rfl, .routeError, "HeaderMatchConditionsNotValid", err, by decide, ?_⟩
      simp [Visit.skip, hnot]
    | ok valid' =>
      cases hfound : source.httpproxies.lookup
          { ns := stringOrDefault inc.ns pos.proxy.ns, name := inc.name } with
      | none =>
        have hiff : Unanswered lib source pos.proxy inc ↔ inc.conditions ≠ [] :=
          ⟨fun h => h.conditions, fun h => ⟨hpath, hheaders, hfound, h⟩⟩
        refine .inr ⟨rfl, .includeError, "IncludeNotFound",
          "include " ++ (NamespacedName.mk (stringOrDefault inc.ns pos.proxy.ns)
            inc.name).string ++ " not found", by decide, fun recurse v => ?_⟩
        by_cases hempty : inc.conditions = [] <;> simp [Visit.skip, hempty, hfound, hiff]
      | some included =>
        have hnot : ¬ Unanswered lib source pos.proxy inc :=
          fun h => by cases hfound.symm.trans h.absent
        cases hroot : included.virtualHost with
        | none =>
          refine .inl ⟨included, by simp [hroot], fun recurse v => ?_⟩
          simp only [hfound, hroot, Option.isSome_none, Bool.false_eq_true, if_false]
          rfl
        | some vhost =>
          refine .inr ⟨by simp [hroot], .includeError, "RootIncludesRoot",
            "root httpproxy cannot include another root httpproxy", by decide, ?_⟩
          simp [hroot, hfound, Visit.skip, hnot]

variable {fuel : Nat} {pos : Position}

theorem computeRoutes_of_onPath (h : OnPath visited pos.proxy) (st : State)
    (vc : DetailedCondition) :
    computeRoutes lib ord p source root enforceTLS (fuel + 1) visited st vc pos =
      { state := st
        validCond := vc.addError .includeError "IncludeCreatesCycle"
          ("include creates an include cycle: " ++
            " -> ".intercalate (visited.map proxyPath ++ [proxyPath pos.proxy])) } := by
  rw [computeRoutes, if_pos (onPath_iff_any.mp h)]

theorem computeRoutes_of_identical (hfresh : ¬ OnPath visited pos.proxy)
    (h : includeMatchConditionsIdentical pos.proxy.includes = true) (st : State)
    (vc : DetailedCondition) :
    computeRoutes lib ord p source root enforceTLS (fuel + 1) visited st vc pos =
      { state := st
        validCond := vc.addError .includeError "DuplicateMatchConditions"
          "duplicate conditions defined on an include" } := by
  rw [computeRoutes, if_neg (mt onPath_iff_any.mpr hfresh), if_pos h]

variable (lib ord p source root enforceTLS fuel) in
/-- The visit after the loop over the includes of a call. -/
def afterIncludes (visited : List HTTPProxy) (st : State) (vc : DetailedCondition)
    (pos : Position) : Visit :=
  pos.proxy.includes.foldl
    (computeInclude lib source (computeRoutes lib ord p source root enforceTLS fuel
      (visited ++ [pos.proxy])) root pos) { state := st, validCond := vc }

theorem computeRoutes_of_expands (h : Call.Expands ⟨visited, pos⟩) (st : State)
    (vc : DetailedCondition) :
    computeRoutes lib ord p source root enforceTLS (fuel + 1) visited st vc pos =
      takeRoutes lib ord p source root enforceTLS (visited ++ [pos.proxy]) pos
        (afterIncludes lib ord p source root enforceTLS fuel visited st vc pos) := by
  rw [computeRoutes, if_neg (mt onPath_iff_any.mpr h.fresh),
    if_neg (Bool.eq_false_iff.mp h.distinct)]
  rfl

/-- The three ways in which a call goes. -/
theorem call_cases (c : Call) :
    OnPath c.visited c.pos.proxy ∨
      (¬ OnPath c.visited c.pos.proxy ∧
        includeMatchConditionsIdentical c.pos.proxy.includes = true) ∨ c.Expands := by
  by_cases hfresh : OnPath c.visited c.pos.proxy
  · exact .inl hfresh
  · right
    cases hsame : includeMatchConditionsIdentical c.pos.proxy.includes with
    | true => exact .inl ⟨hfresh, rfl⟩
    | false => exact .inr ⟨hfresh, hsame⟩

theorem computeInclude_congr {recurse recurse' : State → DetailedCondition → Position → Visit}
    {pos : Position} (h : ∀ st vc included chain, Cached source included →
      recurse st vc { proxy := included, chain } = recurse' st vc { proxy := included, chain })
    (v : Visit) (inc : Include) :
    computeInclude lib source recurse root pos v inc =
      computeInclude lib source recurse' root pos v inc := by
  rcases computeInclude_eq lib source root pos inc with
    ⟨included, hfollowed, heq⟩ | ⟨-, type, reason, message, -, heq⟩
  · rw [heq, heq]
    dsimp only
    rw [h _ _ _ _ (cached_of_followed hfollowed)]
  · rw [heq, heq]

variable (lib ord p root enforceTLS) in
/-- With enough fuel, more of it changes nothing. -/
theorem computeRoutes_fuel {n m : Nat} (hn : Enough source n visited) (hm : Enough source m visited)
    (hpath : IsPath source visited) (st : State) (vc : DetailedCondition) {pos : Position}
    (hcached : Cached source pos.proxy) :
    computeRoutes lib ord p source root enforceTLS n visited st vc pos =
      computeRoutes lib ord p source root enforceTLS m visited st vc pos := by
  induction n generalizing m visited st vc pos with
  | zero =>
    obtain ⟨_, hzero⟩ := hn.pos hpath
    cases hzero
  | succ n ih =>
    obtain ⟨m, rfl⟩ := hm.pos hpath
    by_cases hfresh : OnPath visited pos.proxy
    · unfold computeRoutes
      rw [if_pos (onPath_iff_any.mp hfresh), if_pos (onPath_iff_any.mp hfresh)]
    have hincludes : ∀ v inc,
        computeInclude lib source (computeRoutes lib ord p source root enforceTLS n
          (visited ++ [pos.proxy])) root pos v inc =
        computeInclude lib source (computeRoutes lib ord p source root enforceTLS m
          (visited ++ [pos.proxy])) root pos v inc := by
      apply computeInclude_congr
      intro st vc included chain hincluded
      exact ih (hn.concat pos.proxy) (hm.concat pos.proxy) (hpath.concat hcached hfresh) st vc
        hincluded
    have hloop : computeInclude lib source (computeRoutes lib ord p source root enforceTLS n
          (visited ++ [pos.proxy])) root pos =
        computeInclude lib source (computeRoutes lib ord p source root enforceTLS m
          (visited ++ [pos.proxy])) root pos := by
      funext v inc
      exact hincludes v inc
    unfold computeRoutes
    dsimp only
    rw [hloop]

end

/-! ## TCP proxies -/

/-- The proxy that the include of a TCP proxy without services leads to. -/
def tcpFollowed (source : KubernetesCache) (httpproxy : HTTPProxy) : Option HTTPProxy :=
  match httpproxy.tcpProxy with
  | none => none
  | some tcpproxy =>
    if tcpproxy.services ≠ [] then none
    else
      (tcpproxy.included.or tcpproxy.includesDeprecated).bind fun inc =>
        (source.httpproxies.lookup
          { ns := stringOrDefault inc.ns httpproxy.ns, name := inc.name }).filter
          fun dest => dest.virtualHost.isNone

section

variable (lib : Stdlib) (p : HTTPProxyProcessor) (source : KubernetesCache)

def tcpStrategy (tcpproxy : TCPProxySpec) : LoadBalancerStrategy :=
  match loadBalancerPolicy tcpproxy.loadBalancerPolicy with
  | .cookie | .requestHash => .unset
  | strategy => strategy

/-- The clusters that a TCP proxy leads to along its includes: none if it is not
valid, and no clusters if the last proxy has no TCP proxy. -/
def tcpOutcome : Nat → List HTTPProxy → HTTPProxy → Option (Option (List Cluster))
  | 0, _, _ => none
  | fuel + 1, visited, httpproxy =>
    match httpproxy.tcpProxy with
    | none => some none
    | some tcpproxy =>
      let visited := visited ++ [httpproxy]
      let tcpProxyInclude := tcpproxy.included.or tcpproxy.includesDeprecated
      if tcpproxy.services ≠ [] ∧ tcpProxyInclude.isSome then none
      else if tcpproxy.services ≠ [] then
        match tcpClusters lib p source httpproxy tcpproxy (tcpStrategy tcpproxy)
            tcpproxy.services with
        | .error _ => none
        | .ok clusters => some (some clusters)
      else
        match tcpProxyInclude with
        | none => none
        | some inc =>
          match source.httpproxies.lookup
              { ns := stringOrDefault inc.ns httpproxy.ns, name := inc.name } with
          | none => none
          | some dest =>
            if dest.virtualHost.isSome then none
            else if visited.any fun hp => dest.name = hp.name ∧ dest.ns = hp.ns then none
            else tcpOutcome fuel visited dest

/-- How a call ends that follows no include: the clusters that it writes, if it is valid,
and what it records. -/
inductive TCPEnds (httpproxy : HTTPProxy) :
    Option (Option (List Cluster)) → (DetailedCondition → DetailedCondition) → Prop
  | nothing (absent : httpproxy.tcpProxy = none) : TCPEnds httpproxy (some none) id
  | rejected (tcpproxy : TCPProxySpec) (warns : Bool) {type : Status.ErrorType}
      (reason message : String) (isRoute : type ≠ .orphanedError) :
      TCPEnds httpproxy none fun vc => (if warns then (tcpLoadBalancerPolicy lib tcpproxy vc).2
        else vc).addError type reason message
  | clusters {tcpproxy : TCPProxySpec} {clusters : List Cluster}
      (present : httpproxy.tcpProxy = some tcpproxy) (services : tcpproxy.services ≠ [])
      (resolved : tcpClusters lib p source httpproxy tcpproxy (tcpStrategy tcpproxy)
        tcpproxy.services = .ok clusters) :
      TCPEnds httpproxy (some (some clusters)) fun vc => (tcpLoadBalancerPolicy lib tcpproxy vc).2

/-- The answer of a call that ends so. -/
def tcpAnswer (host : String) (s : ProxyState) (record : DetailedCondition → DetailedCondition) :
    Option (Option (List Cluster)) → Bool × ProxyState
  | none => (false, { s with validCond := record s.validCond })
  | some none => (true, { s with validCond := record s.validCond })
  | some (some clusters) => (true, s.putHost host
      { svhost := { s.state.dag.ensureSecureVirtualHost host with tcpProxy := some clusters }
        validCond := record s.validCond })

end

/-- One call of `processHTTPProxyTCPProxy`. -/
structure TCPCall where
  visited : List HTTPProxy
  httpproxy : HTTPProxy

namespace TCPCall

def path (c : TCPCall) : List HTTPProxy := c.visited ++ [c.httpproxy]

def start (root : HTTPProxy) : TCPCall where
  visited := []
  httpproxy := root

/-- A call makes another one: it follows its include unless that closes a cycle. -/
inductive Step (source : KubernetesCache) : TCPCall → TCPCall → Prop
  | follow {c : TCPCall} {dest : HTTPProxy}
      (follows : tcpFollowed source c.httpproxy = some dest) (fresh : ¬ OnPath c.path dest) :
      Step source c { visited := c.path, httpproxy := dest }

theorem step_iff {c c' : TCPCall} : Step source c c' ↔
    ∃ dest, tcpFollowed source c.httpproxy = some dest ∧ ¬ OnPath c.path dest ∧
      c' = { visited := c.path, httpproxy := dest } := by
  constructor
  · rintro ⟨follows, fresh⟩
    exact ⟨_, follows, fresh, rfl⟩
  · rintro ⟨dest, follows, fresh, rfl⟩
    exact .follow follows fresh

/-- The include of the call leads back to its path. -/
def Closes (source : KubernetesCache) (c : TCPCall) : Prop :=
  ∃ dest, tcpFollowed source c.httpproxy = some dest ∧ OnPath c.path dest

end TCPCall

section

variable {source : KubernetesCache}

theorem tcpFollowed_eq_some {httpproxy : HTTPProxy} (h : tcpFollowed source httpproxy = some dest) :
    ∃ tcpproxy inc, httpproxy.tcpProxy = some tcpproxy ∧ tcpproxy.services = [] ∧
      tcpproxy.included.or tcpproxy.includesDeprecated = some inc ∧
      source.httpproxies.lookup { ns := stringOrDefault inc.ns httpproxy.ns, name := inc.name } =
        some dest ∧ dest.virtualHost = none := by
  unfold tcpFollowed at h
  split at h
  · cases h
  rename_i tcpproxy htcp
  split at h
  · cases h
  · next hservices =>
    obtain ⟨inc, hinc, hfound⟩ := Option.bind_eq_some_iff.mp h
    obtain ⟨hfound, hroot⟩ := Option.filter_eq_some_iff.mp hfound
    exact ⟨tcpproxy, inc, htcp, not_not.mp hservices, hinc, hfound,
      Option.isNone_iff_eq_none.mp hroot⟩

theorem cached_of_tcpFollowed {httpproxy : HTTPProxy}
    (h : tcpFollowed source httpproxy = some dest) : Cached source dest := by
  obtain ⟨tcpproxy, inc, -, -, -, hfound, -⟩ := tcpFollowed_eq_some h
  exact ⟨_, hfound⟩

/-- Every call that a call leads to is made along a path of cached proxies. -/
theorem TCPCall.Step.isPath {c c' : TCPCall}
    (h : Relation.ReflTransGen (TCPCall.Step source) c c') (hpath : IsPath source c.path) :
    IsPath source c'.path := by
  induction h with
  | refl => exact hpath
  | tail _ hstep ih =>
    cases hstep with
    | follow follows fresh => exact ih.concat (cached_of_tcpFollowed follows) fresh

end

section

variable {lib : Stdlib} {p : HTTPProxyProcessor} {source : KubernetesCache}

variable {httpproxy : HTTPProxy} {tcpproxy : TCPProxySpec}

theorem any_eq_true_iff_onPath :
    (visited.any fun hp => dest.name = hp.name ∧ dest.ns = hp.ns) = true ↔ OnPath visited dest := by
  rw [onPath_iff_any]
  simp only [eq_comm]

/-- What a call does that follows an include. -/
theorem processHTTPProxyTCPProxy_followed (host : String) (fuel : Nat) (visited : List HTTPProxy)
    (s : ProxyState) (htcp : httpproxy.tcpProxy = some tcpproxy)
    (h : tcpFollowed source httpproxy = some dest) :
    processHTTPProxyTCPProxy lib p source host (fuel + 1) visited s httpproxy =
      (let s : ProxyState :=
        { state := { s.state with
            orphaned := s.state.orphaned.filter (· ≠ namespacedNameOf dest.toObjectMeta) }
          validCond := (tcpLoadBalancerPolicy lib tcpproxy s.validCond).2 }
       if OnPath (visited ++ [httpproxy]) dest then
         (false, s.addError .tcpProxyIncludeError "IncludeCreatesCycle"
           ("include creates a cycle: " ++
             " -> ".intercalate ((visited ++ [httpproxy]).map proxyPath ++ [proxyPath dest])))
       else
         let pu := Status.Cache.proxyAccessor dest
         let result := processHTTPProxyTCPProxy lib p source host fuel (visited ++ [httpproxy])
           { state := s.state, validCond := pu.conditionFor } dest
         (result.1,
           { state := result.2.state.commit { pu with valid := some result.2.validCond }
             validCond := s.validCond })) := by
  obtain ⟨tcpproxy', inc, htcp', hservices, hinc, hfound, hroot⟩ := tcpFollowed_eq_some h
  obtain rfl : tcpproxy = tcpproxy' := Option.some.inj (htcp.symm.trans htcp')
  rw [processHTTPProxyTCPProxy, htcp]
  simp only [hservices, ne_eq, not_true_eq_false, false_and, if_false, hinc, hfound, hroot,
    Option.isSome_none, Bool.false_eq_true, any_eq_true_iff_onPath]

theorem tcpOutcome_followed (fuel : Nat) (visited : List HTTPProxy)
    (h : tcpFollowed source httpproxy = some dest) :
    tcpOutcome lib p source (fuel + 1) visited httpproxy =
      if OnPath (visited ++ [httpproxy]) dest then none
      else tcpOutcome lib p source fuel (visited ++ [httpproxy]) dest := by
  obtain ⟨tcpproxy, inc, htcp, hservices, hinc, hfound, hroot⟩ := tcpFollowed_eq_some h
  rw [tcpOutcome, htcp]
  simp only [hservices, ne_eq, not_true_eq_false, false_and, if_false, hinc, hfound, hroot,
    Option.isSome_none, Bool.false_eq_true, any_eq_true_iff_onPath]

theorem tcpLoadBalancerPolicy_fst (tcpproxy : TCPProxySpec) (vc : DetailedCondition) :
    (tcpLoadBalancerPolicy lib tcpproxy vc).1 = tcpStrategy tcpproxy := by
  unfold tcpLoadBalancerPolicy tcpStrategy
  cases loadBalancerPolicy tcpproxy.loadBalancerPolicy <;> rfl

theorem tcpClusters_error_type {lbPolicy : LoadBalancerStrategy} {services : List ServiceRef}
    {type : Status.ErrorType} {reason message : String}
    (h : tcpClusters lib p source httpproxy tcpproxy lbPolicy services =
      .error (type, reason, message)) : type ≠ .orphanedError := by
  induction services with
  | nil => cases h
  | cons service rest ih =>
    unfold tcpClusters at h
    split at h
    · cases h
      decide
    split at h
    · cases h
      decide
    cases hrest : tcpClusters lib p source httpproxy tcpproxy lbPolicy rest with
    | error e =>
      rw [hrest] at h
      cases h
      exact ih hrest
    | ok clusters =>
      rw [hrest] at h
      cases h

variable (lib p) in
/-- What a call does that follows no include. -/
theorem exists_tcpEnds (h : tcpFollowed source httpproxy = none) :
    ∃ outcome record, TCPEnds lib p source httpproxy outcome record ∧ ∀ fuel visited,
      tcpOutcome lib p source (fuel + 1) visited httpproxy = outcome ∧
        ∀ host s, processHTTPProxyTCPProxy lib p source host (fuel + 1) visited s httpproxy =
          tcpAnswer host s record outcome := by
  simp only [tcpOutcome, processHTTPProxyTCPProxy, tcpLoadBalancerPolicy_fst]
  unfold tcpFollowed at h
  cases htcp : httpproxy.tcpProxy with
  | none => exact ⟨_, _, .nothing htcp, fun _ _ => ⟨rfl, fun _ _ => rfl⟩⟩
  | some tcpproxy =>
    simp only [htcp] at h
    dsimp only
    split
    · exact ⟨_, _, .rejected tcpproxy false _ _ (by decide), fun _ _ => ⟨rfl, fun _ _ => rfl⟩⟩
    split
    · next hservices =>
      cases hclusters : tcpClusters lib p source httpproxy tcpproxy (tcpStrategy tcpproxy)
          tcpproxy.services with
      | error e =>
        exact ⟨_, _, .rejected tcpproxy true e.2.1 e.2.2 (tcpClusters_error_type hclusters),
          fun _ _ => ⟨rfl, fun _ _ => rfl⟩⟩
      | ok clusters =>
        exact ⟨_, _, .clusters htcp hservices hclusters, fun _ _ => ⟨rfl, fun _ _ => rfl⟩⟩
    · next hservices =>
      rw [if_neg hservices] at h
      cases hinc : tcpproxy.included.or tcpproxy.includesDeprecated with
      | none =>
        exact ⟨_, _, .rejected tcpproxy true _ _ (by decide), fun _ _ => ⟨rfl, fun _ _ => rfl⟩⟩
      | some inc =>
        rw [hinc, Option.bind_some] at h
        dsimp only
        cases hdest : source.httpproxies.lookup
            { ns := stringOrDefault inc.ns httpproxy.ns, name := inc.name } with
        | none =>
          exact ⟨_, _, .rejected tcpproxy true _ _ (by decide), fun _ _ => ⟨rfl, fun _ _ => rfl⟩⟩
        | some dest =>
          have hroot : dest.virtualHost.isSome = true := by
            rw [hdest] at h
            cases hvhost : dest.virtualHost with
            | none => simp [hvhost] at h
            | some vhost => rfl
          simp only [hroot, if_true]
          exact ⟨_, _, .rejected tcpproxy true _ _ (by decide), fun _ _ => ⟨rfl, fun _ _ => rfl⟩⟩

/-- With enough fuel, more of it changes nothing. -/
theorem processHTTPProxyTCPProxy_fuel (host : String) {n m : Nat} (hn : Enough source n visited)
    (hm : Enough source m visited) (hpath : IsPath source (visited ++ [httpproxy]))
    (s : ProxyState) :
    processHTTPProxyTCPProxy lib p source host n visited s httpproxy =
      processHTTPProxyTCPProxy lib p source host m visited s httpproxy := by
  have hvisited := hpath.of_concat
  induction n generalizing m visited httpproxy s with
  | zero =>
    obtain ⟨_, hzero⟩ := hn.pos hvisited
    cases hzero
  | succ n ih =>
    obtain ⟨m, rfl⟩ := hm.pos hvisited
    cases hfollowed : tcpFollowed source httpproxy with
    | none =>
      obtain ⟨outcome, record, -, hends⟩ := exists_tcpEnds lib p hfollowed
      rw [(hends n visited).2, (hends m visited).2]
    | some dest =>
      obtain ⟨tcpproxy, -, htcp, -⟩ := tcpFollowed_eq_some hfollowed
      rw [processHTTPProxyTCPProxy_followed host n visited s htcp hfollowed,
        processHTTPProxyTCPProxy_followed host m visited s htcp hfollowed]
      dsimp only
      split
      · rfl
      · next hfresh =>
        rw [ih (hn.concat httpproxy) (hm.concat httpproxy)
          (hpath.concat (cached_of_tcpFollowed hfollowed) hfresh) _ hpath]

end

end Sesame.Dag.HTTPProxyProcessor
