/-
# Passes over the routes of a Gateway

A route is computed once for every listener that takes it, and each pass commits an
update of its own for the route. The status cache keeps updates by the name of the route
only: a later pass replaces the update of an earlier one, also when the two are for
routes of different kinds. `runPasses` lists the passes of a run, and the statuses after
it are those of the last ones.
-/

import Sesame.Dag.GatewayApiProcessor
import Sesame.Dag.RouteFindings
import Sesame.Status.Mutate

namespace Sesame.Dag.GatewayAPIProcessor

open List
open Lib Api
open Status (RouteConditionsUpdate RouteKind StatusUpdate)

variable (lib : Stdlib) (ord : MapOrder) (p : GatewayAPIProcessor) (source : KubernetesCache)

variable {c c' : Status.Cache} {dag : DAG}

/-! ## The update of a pass -/

inductive AnyRoute
  | http (route : HTTPRoute)
  | tls (route : TLSRoute)

/-- The name under which the status of a route is kept. -/
def AnyRoute.fullName : AnyRoute → NamespacedName
  | .http route => namespacedNameOf route.toObjectMeta
  | .tls route => namespacedNameOf route.toObjectMeta

def AnyRoute.hostnames : AnyRoute → List String
  | .http route => route.hostnames
  | .tls route => route.hostnames

def AnyRoute.kind : AnyRoute → String
  | .http _ => "HTTPRoute"
  | .tls _ => "TLSRoute"

/-- The kind of a route, as the resource of a status update. -/
def AnyRoute.resource : AnyRoute → Status.Resource
  | .http _ => .httpRoute
  | .tls _ => .tlsRoute

def AnyRoute.parentRefs : AnyRoute → List ParentRef
  | .http route => route.parentRefs
  | .tls route => route.parentRefs

def AnyRoute.ns : AnyRoute → String
  | .http route => route.ns
  | .tls route => route.ns

/-- The status of a route on which nothing has been recorded. -/
def AnyRoute.accessor (c : Status.Cache) : AnyRoute → RouteConditionsUpdate
  | .http route => c.routeConditionsAccessor (namespacedNameOf route.toObjectMeta) route.generation
      .httpRoute route.statusParents
  | .tls route => c.routeConditionsAccessor (namespacedNameOf route.toObjectMeta) route.generation
      .tlsRoute route.statusParents

def AnyRoute.validMessage : AnyRoute → String
  | .http _ => "Valid HTTPRoute"
  | .tls _ => "Valid TLSRoute"

/-- What the rules of a route are found to do wrong, on every listener that it has hosts on. -/
def AnyRoute.ruleFindings : AnyRoute → List Finding
  | .http route => route.rules.flatMap (httpRuleFindings lib ord p source route.ns)
  | .tls route => route.rules.flatMap (tlsRuleFindings lib ord p source route.ns)

/-- The cache holds the route. -/
def AnyRoute.InCache (source : KubernetesCache) : AnyRoute → Prop
  | .http route => ∃ name, source.httproutes.lookup name = some route
  | .tls route => ∃ name, source.tlsroutes.lookup name = some route

/-- The route has no hosts on a listener with this hostname. -/
abbrev NoHosts (route : AnyRoute) (listenerHostname : Option String) : Prop :=
  (computeHosts lib route.hostnames listenerHostname).1.entries = []

/-- What a listener with this hostname finds wrong with a route: its hostnames, and its rules
if there are hosts. -/
def findings (route : AnyRoute) (listenerHostname : Option String) : List Finding :=
  (computeHosts lib route.hostnames listenerHostname).2.map (.fault .refs) ++
    if NoHosts lib route listenerHostname then [] else route.ruleFindings lib ord p source

/-- A listener with this hostname does not accept the route. -/
abbrev Refused (route : AnyRoute) (listenerHostname : Option String) : Prop :=
  NoHosts lib route listenerHostname ∨ findings lib ord p source route listenerHostname ≠ []

/-- A route is computed for a listener with this hostname. -/
structure Pass where
  route : AnyRoute
  listenerHostname : Option String

/-- The update that a pass commits. -/
def Pass.update (c : Status.Cache) (validGateway : Bool) (pass : Pass) : RouteConditionsUpdate :=
  let routeAccessor := pass.route.accessor c
  if ¬ validGateway then routeAccessor.addCondition "Accepted" .false "Invalid" "Invalid Gateway"
  else if Refused lib ord p source pass.route pass.listenerHostname then
    rejectRoute (record routeAccessor (findings lib ord p source pass.route pass.listenerHostname))
  else routeAccessor.addCondition "Accepted" .true "Valid" pass.route.validMessage

/-! ## The passes of a run -/

/-- The listener takes routes of this namespace with these parents. -/
def takesRoute (gateway : Gateway) (listener : GatewayListener) (parentRefs : List ParentRef)
    (routeNamespace : String) : Bool :=
  namespaceMatches lib source gateway listener.allowedNamespaces routeNamespace &&
    routeSelectsGatewayListener gateway listener parentRefs routeNamespace

/-- The cached routes of a kind. -/
def routesOfKind (site kind : String) : List AnyRoute :=
  if kind = "HTTPRoute" then (ord.values site source.httproutes).map .http
  else if kind = "TLSRoute" then (ord.values site source.tlsroutes).map .tls
  else []

def kindPasses (gateway : Gateway) (listener : GatewayListener) (routeKind : String × Nat) :
    List Pass :=
  let site := "computeListener " ++ listener.name ++ " " ++ toString routeKind.2 ++ " "
  ((routesOfKind ord source site routeKind.1).filter fun route =>
    takesRoute lib source gateway listener route.parentRefs route.ns).map
      ({ route := ·, listenerHostname := listener.hostname })

/-- The status of a Gateway on which nothing has been recorded. -/
def blankStatus (gateway : Gateway) : Status.GatewayStatusUpdate :=
  Status.Cache.gatewayStatusAccessor (namespacedNameOf gateway.toObjectMeta) gateway.generation []

/-- The passes of a listener. What its protocol and its kinds ask for does not depend on the
status of the Gateway so far; a blank one stands for it. -/
def listenerPasses (gateway : Gateway) (listener : GatewayListener) : List Pass :=
  match listenerSecret lib ord source gateway listener (blankStatus gateway) with
  | .error _ => []
  | .ok _ =>
    (getListenerRouteKinds lib listener (blankStatus gateway)).1.zipIdx.flatMap
      (kindPasses lib ord source gateway listener)

def runPasses : List Pass :=
  match source.gateway, source.gatewayclass with
  | none, _ | _, none => []
  | some gateway, some _ => gateway.listeners.flatMap (listenerPasses lib ord source gateway)

def runUpdates (c : Status.Cache) : List RouteConditionsUpdate :=
  let validGateway := source.gateway.any fun gateway => gateway.addresses = []
  (runPasses lib ord source).map (Pass.update lib ord p source c validGateway)

/-! ## A run commits its passes -/

variable {lib ord p source} {update : Pass → RouteConditionsUpdate} {passes : List Pass}
  {pass : Pass}

/-- Two status caches of one Gateway hand out the same accessors. -/
def SameGateway (c c' : Status.Cache) : Prop :=
  c'.gatewayRef = c.gatewayRef ∧ c'.gatewayController = c.gatewayController

theorem SameGateway.accessor (h : SameGateway c c') (route : AnyRoute) :
    route.accessor c' = route.accessor c := by
  cases route <;>
    simp only [AnyRoute.accessor, Status.Cache.routeConditionsAccessor,
      Status.Cache.getRouteGatewayConditions, h.1, h.2]

theorem SameGateway.commitRoute (h : SameGateway c c') (u : RouteConditionsUpdate) :
    SameGateway c (c'.commitRoute u) := by
  unfold Status.Cache.commitRoute
  split <;> exact h

theorem SameGateway.foldl_commitRoute (h : SameGateway c c') (us : List RouteConditionsUpdate) :
    SameGateway c (us.foldl Status.Cache.commitRoute c') :=
  foldlRecOn _ _ h fun _ hc u _ => hc.commitRoute u

theorem record_accessor_entries (route : AnyRoute) (fs : List Finding) :
    (record (route.accessor c) fs).conditions.entries = [] ↔ fs = [] := by
  constructor
  · intro h
    rcases eq_nil_or_concat fs with rfl | ⟨gs, f, rfl⟩
    · rfl
    · rw [concat_eq_append, record_append] at h
      revert h
      cases f <;> exact fun h => absurd h (cons_ne_nil _ _)
  · rintro rfl
    cases route <;> rfl

/-- A pass commits its update and changes no other status. -/
theorem computeRoute_statusCache (hc : SameGateway c dag.statusCache) (pass : Pass)
    {validGateway : Bool}
    {rules : Map String Unit → RouteState → RouteState}
    (hrules : ∀ hosts st,
      (rules hosts st).routeAccessor =
          record st.routeAccessor (pass.route.ruleFindings lib ord p source) ∧
        (rules hosts st).dag.statusCache = st.dag.statusCache) :
    (computeRoute lib pass.route.validMessage dag (pass.route.accessor dag.statusCache)
      pass.route.hostnames pass.listenerHostname validGateway rules).2.statusCache =
      dag.statusCache.commitRoute (pass.update lib ord p source c validGateway) := by
  have herrors : ∀ errs u, addHostErrors errs u = record u (errs.map (.fault .refs)) :=
    fun errs u => (foldl_map (f := Finding.fault .refs) (g := Finding.record)).symm
  rw [hc.accessor]
  unfold computeRoute Pass.update
  dsimp only
  rw [herrors]
  split
  · rfl
  by_cases hhosts : NoHosts lib pass.route pass.listenerHostname
  · rw [if_pos hhosts, if_pos (.inl hhosts), findings, if_pos hhosts, append_nil]
  · have hfindings : findings lib ord p source pass.route pass.listenerHostname =
        (computeHosts lib pass.route.hostnames pass.listenerHostname).2.map (.fault .refs) ++
          pass.route.ruleFindings lib ord p source := by
      rw [findings, if_neg hhosts]
    rw [if_neg hhosts, (hrules _ _).1, (hrules _ _).2, ← record_append, ← hfindings, acceptRoute]
    by_cases hnone : findings lib ord p source pass.route pass.listenerHostname = []
    · rw [if_pos ((record_accessor_entries _ _).mpr hnone),
        if_neg (not_or.mpr ⟨hhosts, not_not.mpr hnone⟩), hnone]
      rfl
    · rw [if_neg fun h => hnone ((record_accessor_entries _ _).mp h), if_pos (.inr hnone)]

theorem storeEntry_statusCache (listenerSecret : Option Secret) (host : String) (dag : DAG)
    (entry : String × Route) :
    (storeEntry listenerSecret host dag entry).statusCache = dag.statusCache := by
  cases listenerSecret <;> rfl

theorem storeRoutes_statusCache (listenerSecret : Option Secret) (hosts : List String)
    (routes : List Route) (dag : DAG) :
    (storeRoutes listenerSecret hosts routes dag).statusCache = dag.statusCache := by
  refine foldlRecOn _ _ (motive := fun d : DAG => d.statusCache = dag.statusCache) rfl
    fun d hd place _ => ?_
  exact foldlRecOn _ _ (motive := fun d : DAG => d.statusCache = dag.statusCache) hd
    fun d hd entry _ => (storeEntry_statusCache ..).trans hd

/-- A loop over rules whose steps record findings and commit nothing. -/
theorem foldl_rules {α : Type} {step : RouteState → α × Nat → RouteState} {g : α → List Finding}
    (hstep : ∀ st rule, (step st rule).routeAccessor = record st.routeAccessor (g rule.1) ∧
      (step st rule).dag.statusCache = st.dag.statusCache) (rules : List α) (n : Nat)
    (st : RouteState) :
    ((rules.zipIdx n).foldl step st).routeAccessor = record st.routeAccessor (rules.flatMap g) ∧
      ((rules.zipIdx n).foldl step st).dag.statusCache = st.dag.statusCache := by
  induction rules generalizing n st with
  | nil => exact ⟨rfl, rfl⟩
  | cons rule rest ih =>
    obtain ⟨hrule, hsame⟩ := hstep st (rule, n)
    obtain ⟨haccessor, hcache⟩ := ih (n + 1) (step st (rule, n))
    rw [zipIdx_cons, foldl_cons, haccessor, hcache, hrule, hsame, flatMap_cons, record_append]
    exact ⟨rfl, rfl⟩

theorem computeHTTPRoute_statusCache (hc : SameGateway c dag.statusCache) (site : String)
    (route : HTTPRoute) (listenerSecret : Option Secret) (listenerHostname : Option String)
    (validGateway : Bool) :
    (computeHTTPRoute lib ord p source site dag route listenerSecret listenerHostname
      validGateway).2.statusCache =
      dag.statusCache.commitRoute
        (Pass.update lib ord p source c validGateway ⟨.http route, listenerHostname⟩) := by
  have hrule : ∀ hosts st rule,
      (computeRule lib ord p source site route listenerSecret hosts st rule).routeAccessor =
          record st.routeAccessor (httpRuleFindings lib ord p source route.ns rule.1) ∧
        (computeRule lib ord p source site route listenerSecret hosts st
          rule).dag.statusCache = st.dag.statusCache :=
    fun hosts st rule => ⟨ruleRoutes_records route.ns rule.1 _, storeRoutes_statusCache ..⟩
  exact computeRoute_statusCache hc ⟨.http route, listenerHostname⟩ fun hosts =>
    foldl_rules (hrule hosts) route.rules 0

theorem computeTLSRule_records (site : String) (route : TLSRoute) (listenerSecret : Option Secret)
    (hosts : Map String Unit) (st : RouteState) (rule : List BackendRef × Nat) :
    (computeTLSRule lib ord p source site route listenerSecret hosts st rule).routeAccessor =
        record st.routeAccessor (tlsRuleFindings lib ord p source route.ns rule.1) ∧
      (computeTLSRule lib ord p source site route listenerSecret hosts st rule).dag.statusCache =
        st.dag.statusCache := by
  obtain ⟨hrecords, hclusters, hweight⟩ := addTLSBackend_records lib ord p source route.ns rule.1
    { routeAccessor := st.routeAccessor }
  unfold computeTLSRule tlsRuleFindings
  dsimp only at hclusters hweight ⊢
  split
  · exact ⟨rfl, rfl⟩
  rw [record_append, ← hrecords, ← hweight]
  split
  · next hempty =>
    rw [if_neg fun h => h.1 (hclusters.mp hempty).2]
    exact ⟨rfl, rfl⟩
  rename_i hsome
  have hvalid : validBackends lib ord p source route.ns rule.1 ≠ [] := fun hnone =>
    hsome (hclusters.mpr ⟨rfl, hnone⟩)
  split
  · next hzero =>
    rw [if_pos ⟨hvalid, hzero⟩]
    exact ⟨rfl, rfl⟩
  · next hnonzero =>
    rw [if_neg fun h => hnonzero h.2]
    exact ⟨rfl, foldlRecOn _ _ (motive := fun d : DAG => d.statusCache = st.dag.statusCache) rfl
      fun d hd host _ => hd⟩

theorem computeTLSRoute_statusCache (hc : SameGateway c dag.statusCache) (site : String)
    (route : TLSRoute) (listenerSecret : Option Secret) (listenerHostname : Option String)
    (validGateway : Bool) :
    (computeTLSRoute lib ord p source site dag route listenerSecret listenerHostname
      validGateway).2.statusCache =
      dag.statusCache.commitRoute
        (Pass.update lib ord p source c validGateway ⟨.tls route, listenerHostname⟩) :=
  computeRoute_statusCache hc ⟨.tls route, listenerHostname⟩ fun hosts =>
    foldl_rules (computeTLSRule_records site route listenerSecret hosts) route.rules 0

/-- Steps that commit updates, one after the other. -/
theorem foldl_commits {σ α : Type} (cache : σ → Status.Cache) {f : σ → α → σ}
    {updates : α → List RouteConditionsUpdate} (hstep : ∀ s x, SameGateway c (cache s) →
      cache (f s x) = (updates x).foldl Status.Cache.commitRoute (cache s)) (xs : List α) (s : σ)
    (hs : SameGateway c (cache s)) :
    cache (xs.foldl f s) = (xs.flatMap updates).foldl Status.Cache.commitRoute (cache s) := by
  induction xs generalizing s with
  | nil => rfl
  | cons x xs ih =>
    have hx := hstep s x hs
    rw [foldl_cons, ih _ (hx ▸ hs.foldl_commitRoute _), hx, flatMap_cons, foldl_append]

theorem attachKind_statusCache (gateway : Gateway) (listener : GatewayListener)
    (sec : Option Secret) (isGatewayValid : Bool) (acc : Attached) (routeKind : String × Nat)
    (hacc : SameGateway c acc.dag.statusCache) :
    (attachKind lib ord p source gateway listener sec isGatewayValid acc
      routeKind).dag.statusCache =
      ((kindPasses lib ord source gateway listener routeKind).map
        (Pass.update lib ord p source c isGatewayValid)).foldl Status.Cache.commitRoute
          acc.dag.statusCache := by
  unfold attachKind kindPasses routesOfKind
  dsimp only
  split
  · rw [filter_map, map_map, map_map, map_eq_flatMap]
    refine foldl_commits (fun acc : Attached => acc.dag.statusCache) ?_ _ acc hacc
    exact fun acc route hacc => computeHTTPRoute_statusCache hacc ..
  split
  · rw [filter_map, map_map, map_map, map_eq_flatMap]
    refine foldl_commits (fun acc : Attached => acc.dag.statusCache) ?_ _ acc hacc
    exact fun acc route hacc => computeTLSRoute_statusCache hacc ..
  · rfl

variable (lib ord source) in
/-- The certificate of a listener does not depend on the status so far. -/
theorem validGatewayTLS_fst (gateway : Gateway) (tls : GatewayTLSConfig) (listenerName : String)
    (u v : Status.GatewayStatusUpdate) :
    (validGatewayTLS lib ord source gateway tls listenerName u).1 =
      (validGatewayTLS lib ord source gateway tls listenerName v).1 := by
  unfold validGatewayTLS
  split
  · dsimp only
    split_ifs
    · rfl
    · split <;> rfl
    · rfl
  · rfl

variable (lib ord source) in
/-- Whether a listener takes routes does not depend on the status so far. -/
theorem listenerSecret_isOk (gateway : Gateway) (listener : GatewayListener)
    (u v : Status.GatewayStatusUpdate) :
    (listenerSecret lib ord source gateway listener u).isOk =
      (listenerSecret lib ord source gateway listener v).isOk := by
  unfold listenerSecret
  dsimp only
  cases listener.tls with
  | none => cases listener.protocol <;> rfl
  | some tls =>
    have hsame := validGatewayTLS_fst lib ord source gateway tls listener.name u v
    obtain ⟨sec, u', hu⟩ : ∃ sec u', validGatewayTLS lib ord source gateway tls listener.name u =
        (sec, u') := ⟨_, _, rfl⟩
    obtain ⟨sec', v', hv⟩ : ∃ sec' v', validGatewayTLS lib ord source gateway tls listener.name v =
        (sec', v') := ⟨_, _, rfl⟩
    obtain rfl : sec = sec' := by rwa [hu, hv] at hsame
    cases listener.protocol with
    | https =>
      dsimp only
      rw [hu, hv]
      cases sec <;> rfl
    | tls =>
      dsimp only
      cases tls.mode with
      | none => rfl
      | some mode =>
        cases mode with
        | terminate =>
          rw [hu, hv]
          cases sec <;> rfl
        | passthrough =>
          split_ifs <;> rfl
    | _ => rfl

/-- The kinds of a listener do not depend on the status so far. -/
theorem getListenerRouteKinds_fst (listener : GatewayListener) (u v : Status.GatewayStatusUpdate) :
    (getListenerRouteKinds lib listener u).1 = (getListenerRouteKinds lib listener v).1 := by
  unfold getListenerRouteKinds
  split
  · split <;> rfl
  · refine foldl_rel (r := fun (a b : List String × _) => a.1 = b.1) rfl fun kind _ a b hab => ?_
    unfold addRouteKind
    split_ifs <;> simp [hab]

theorem computeListener_statusCache (gateway : Gateway) (isGatewayValid : Bool) (st : GatewayState)
    (listener : GatewayListener) (hst : SameGateway c st.dag.statusCache) :
    (computeListener lib ord p source gateway isGatewayValid st listener).dag.statusCache =
      ((listenerPasses lib ord source gateway listener).map
        (Pass.update lib ord p source c isGatewayValid)).foldl Status.Cache.commitRoute
          st.dag.statusCache := by
  have hok := listenerSecret_isOk lib ord source gateway listener
    st.gwAccessor (blankStatus gateway)
  unfold computeListener listenerPasses
  dsimp only
  split
  · next herror =>
    rw [herror] at hok
    split
    · rfl
    · next hsecret => rw [hsecret] at hok; cases hok
  · next sec gwAccessor hsecret =>
    rw [hsecret] at hok
    split
    · next herror => rw [herror] at hok; cases hok
    · rw [getListenerRouteKinds_fst ..]
      rw [map_flatMap]
      exact foldl_commits (fun acc : Attached => acc.dag.statusCache)
        (attachKind_statusCache gateway listener _ isGatewayValid) _ _ hst

/-- A run commits its updates in order, and then the status of the Gateway. -/
theorem run_routeUpdates (dag : DAG) :
    (run lib ord p source dag).statusCache.routeUpdates =
      ((runUpdates lib ord p source dag.statusCache).foldl Status.Cache.commitRoute
        dag.statusCache).routeUpdates := by
  have hcommit : ∀ (c : Status.Cache) u, (c.commitGateway u).routeUpdates = c.routeUpdates := by
    intro c u
    unfold Status.Cache.commitGateway
    split <;> rfl
  unfold run runUpdates runPasses
  cases source.gateway with
  | none => rfl
  | some gateway =>
    cases source.gatewayclass with
    | none => rfl
    | some _ =>
      rw [hcommit, map_flatMap]
      exact congrArg _ (foldl_commits (fun st : GatewayState => st.dag.statusCache)
        (computeListener_statusCache gateway _) _ _ ⟨rfl, rfl⟩)

theorem Pass.update_eq (c : Status.Cache) (validGateway : Bool) (pass : Pass) :
    pass.update lib ord p source c validGateway =
      { pass.route.accessor c with
        conditions := (pass.update lib ord p source c validGateway).conditions } := by
  unfold Pass.update
  dsimp only
  split
  · rfl
  split
  · rw [rejectRoute, record_eq]
    rfl
  · rfl

/-- The update of a pass is for the route of the pass. -/
theorem Pass.update_route (c : Status.Cache) (validGateway : Bool) (pass : Pass) :
    (pass.update lib ord p source c validGateway).fullName = pass.route.fullName ∧
      (pass.update lib ord p source c validGateway).resource.resource = pass.route.resource := by
  rw [Pass.update_eq]
  cases pass.route <;> exact ⟨rfl, rfl⟩

variable (lib ord p source) in
/-- Every pass records the `Accepted` condition. -/
theorem Pass.update_nonempty (c : Status.Cache) (validGateway : Bool) (pass : Pass) :
    (pass.update lib ord p source c validGateway).conditions.entries ≠ [] := by
  unfold Pass.update
  dsimp only
  split_ifs <;> exact cons_ne_nil _ _

/-! ## The last pass counts -/

/-- The last pass over a route of this name. -/
def lastPass (passes : List Pass) (name : NamespacedName) : Option Pass :=
  (passes.filter fun pass => pass.route.fullName = name).getLast?

theorem exists_lastPass (hpass : pass ∈ passes) :
    ∃ last, lastPass passes pass.route.fullName = some last := by
  rw [← Option.isSome_iff_exists, lastPass, getLast?_isSome]
  exact ne_nil_of_mem (mem_filter.mpr ⟨hpass, decide_eq_true rfl⟩)

/-- The cache holds the update of the last pass of each name. -/
theorem lookup_foldl_commitRoute (hname : ∀ pass, (update pass).fullName = pass.route.fullName)
    (hnonempty : ∀ pass, (update pass).conditions.entries ≠ []) (c : Status.Cache)
    (passes : List Pass) (name : NamespacedName) :
    ((passes.map update).foldl Status.Cache.commitRoute c).routeUpdates.lookup name =
      ((lastPass passes name).map update).or (c.routeUpdates.lookup name) := by
  induction passes using reverseRecOn with
  | nil => rfl
  | append_singleton passes pass ih =>
    rw [map_append, foldl_append, map_singleton, foldl_cons, foldl_nil,
      Status.Cache.commitRoute, if_neg (hnonempty pass), Map.lookup_insert_eq, hname, lastPass,
      filter_append]
    split
    · next heq => simp [heq]
    · next hne =>
      rw [ih, lastPass]
      simp [Ne.symm hne]

/-! ## Which routes are reported -/

/-- Every condition of `u` with status False is one of `v`. -/
def FalseKept (u v : RouteConditionsUpdate) : Prop :=
  ∀ e ∈ u.conditions.toList, e.2.status = .false → e ∈ v.conditions.toList

/-- For every route with a pass there is an update of its kind and name, and it holds all
conditions with status False that any pass over the route records. -/
def RoutesReported (updates : List StatusUpdate) (passes : List Pass)
    (update : Pass → RouteConditionsUpdate) : Prop :=
  ∀ pass ∈ passes, ∃ su ∈ updates,
    su.name = pass.route.fullName ∧ su.resource = pass.route.resource ∧
    ∃ v, su.mutator = .route v ∧
      ∀ pass' ∈ passes, pass'.route.fullName = pass.route.fullName →
        pass'.route.resource = pass.route.resource → FalseKept (update pass') v

/-- The last pass of each name is over a route of the same kind as the others, and records
whatever condition with status False any of them records. -/
def KeptByLast (passes : List Pass) (update : Pass → RouteConditionsUpdate) : Prop :=
  ∀ pass ∈ passes, ∀ last ∈ lastPass passes pass.route.fullName,
    last.route.resource = pass.route.resource ∧ FalseKept (update pass) (update last)

/-- The update of a route that `GetStatusUpdates` returns is the stored one. -/
theorem route_mem_getStatusUpdates (c : Status.Cache) (su : StatusUpdate)
    (v : RouteConditionsUpdate) (hv : su.mutator = .route v) :
    su ∈ c.getStatusUpdates ord ↔
      c.routeUpdates.lookup su.name = some v ∧ su.resource = v.resource.resource := by
  obtain ⟨name, resource, mutator⟩ := su
  cases hv
  simp only [Status.Cache.getStatusUpdates, mem_append, mem_map,
    StatusUpdate.mk.injEq, reduceCtorEq, and_false, exists_false, false_or, or_false,
    Status.Mutator.route.injEq, Prod.exists, ord.mem_range]
  constructor
  · rintro ⟨name, v, hlookup, rfl, rfl, rfl⟩
    exact ⟨hlookup, rfl⟩
  · rintro ⟨hlookup, rfl⟩
    exact ⟨name, v, hlookup, rfl, rfl, rfl⟩

/-- When the cache holds the last update of each name, every route is reported iff the last
passes keep everything. -/
theorem routesReported_iff
    (hresource : ∀ pass, (update pass).resource.resource = pass.route.resource)
    (hlast : ∀ name, ∀ last ∈ lastPass passes name,
      c.routeUpdates.lookup name = some (update last)) :
    RoutesReported (c.getStatusUpdates ord) passes update ↔ KeptByLast passes update := by
  constructor
  · intro h pass hpass last hmem
    obtain ⟨su, hsu, hname, hkind, v, hv, hkept⟩ := h pass hpass
    obtain ⟨hlookup, hsuKind⟩ := (route_mem_getStatusUpdates c su v hv).mp hsu
    rw [hname, hlast _ last hmem] at hlookup
    cases hlookup
    exact ⟨(hresource last).symm.trans (hsuKind.symm.trans hkind), hkept pass hpass rfl rfl⟩
  · intro h pass hpass
    obtain ⟨last, hmem⟩ := exists_lastPass hpass
    refine ⟨⟨pass.route.fullName, pass.route.resource, .route (update last)⟩, ?_, rfl, rfl, _, rfl,
      ?_⟩
    · apply (route_mem_getStatusUpdates c _ _ rfl).mpr
      exact ⟨hlast _ last hmem, by rw [hresource, (h pass hpass last hmem).1]⟩
    · intro pass' hpass' hname' _
      exact (h pass' hpass' last (by rw [hname']; exact hmem)).2

variable (lib ord p source) in
/-- What a run from `dag` records for a pass. -/
def recorded (dag : DAG) : Pass → RouteConditionsUpdate :=
  Pass.update lib ord p source dag.statusCache
    (source.gateway.any fun gateway => gateway.addresses = [])

theorem run_routesReported_iff (dag : DAG) :
    RoutesReported ((run lib ord p source dag).statusCache.getStatusUpdates ord)
        (runPasses lib ord source) (recorded lib ord p source dag) ↔
      KeptByLast (runPasses lib ord source) (recorded lib ord p source dag) := by
  apply routesReported_iff
  · exact fun pass => (Pass.update_route ..).2
  · intro name last hlast
    have hlookup := lookup_foldl_commitRoute
      (fun pass => (Pass.update_route dag.statusCache
        (source.gateway.any fun gateway => gateway.addresses = []) pass).1)
      (Pass.update_nonempty lib ord p source _ _) dag.statusCache (runPasses lib ord source) name
    rw [Option.mem_def.mp hlast] at hlookup
    rw [run_routeUpdates]
    exact hlookup

/-! ## Which listeners take a route -/

section

variable (lib : Stdlib) (ord : MapOrder) (source : KubernetesCache) (gateway : Gateway)
  (listener : GatewayListener)

/-- The listener is valid and accepts routes of the kind. -/
@[mk_iff]
structure TakesKind (kind : String) : Prop where
  valid : (listenerSecret lib ord source gateway listener (blankStatus gateway)).isOk = true
  accepted : kind ∈ (getListenerRouteKinds lib listener (blankStatus gateway)).1

instance (kind : String) : Decidable (TakesKind lib ord source gateway listener kind) :=
  decidable_of_iff' _ (takesKind_iff ..)

/-- The listener takes the route. -/
def Takes (route : AnyRoute) : Prop :=
  TakesKind lib ord source gateway listener route.kind ∧
    takesRoute lib source gateway listener route.parentRefs route.ns = true
  deriving Decidable

/-- The route is computed for the listener. -/
def Computes (route : AnyRoute) : Prop :=
  { route, listenerHostname := listener.hostname } ∈ listenerPasses lib ord source gateway listener

variable {lib ord source gateway listener}

theorem mem_routesOfKind {route : AnyRoute} {site kind : String} :
    route ∈ routesOfKind ord source site kind ↔ route.kind = kind ∧ route.InCache source := by
  unfold routesOfKind
  split
  · next hkind =>
    cases route <;> simp [hkind, AnyRoute.kind, AnyRoute.InCache, ord.mem_values]
  split
  · next hkind =>
    cases route <;> simp [hkind, AnyRoute.kind, AnyRoute.InCache, ord.mem_values]
  · next hhttp htls => cases route <;> simp [AnyRoute.kind, Ne.symm hhttp, Ne.symm htls]

/-- A listener has a pass over a route iff the route is in the cache and the listener takes it. -/
theorem mem_listenerPasses :
    pass ∈ listenerPasses lib ord source gateway listener ↔
      pass.listenerHostname = listener.hostname ∧ pass.route.InCache source ∧
        Takes lib ord source gateway listener pass.route := by
  have hkinds : ∀ kinds : List String,
      pass ∈ kinds.zipIdx.flatMap (kindPasses lib ord source gateway listener) ↔
        pass.listenerHostname = listener.hostname ∧ pass.route.InCache source ∧
          pass.route.kind ∈ kinds ∧
          takesRoute lib source gateway listener pass.route.parentRefs pass.route.ns = true := by
    intro kinds
    simp only [mem_flatMap, kindPasses, mem_map, mem_filter, mem_routesOfKind]
    constructor
    · rintro ⟨routeKind, hmem, route, ⟨⟨hkind, hcache⟩, htakes⟩, rfl⟩
      exact ⟨rfl, hcache, hkind ▸ fst_mem_of_mem_zipIdx hmem, htakes⟩
    · rintro ⟨hhostname, hcache, hmem, htakes⟩
      obtain ⟨n, hn, hkind⟩ := getElem_of_mem hmem
      refine ⟨(pass.route.kind, n), mem_zipIdx_iff_getElem?.mpr ?_, pass.route,
        ⟨⟨rfl, hcache⟩, htakes⟩, ?_⟩
      · rw [getElem?_eq_getElem hn, hkind]
      · rw [← hhostname]
  rw [listenerPasses]
  split
  · next herror =>
    refine iff_of_false not_mem_nil ?_
    rintro ⟨-, -, htakes, -⟩
    have hvalid := htakes.valid
    rw [herror] at hvalid
    cases hvalid
  · next hok =>
    have hvalid : (listenerSecret lib ord source gateway listener
        (blankStatus gateway)).isOk = true := by rw [hok]; rfl
    rw [hkinds]
    exact and_congr_right' (and_congr_right' (and_congr_left' ⟨(⟨hvalid, ·⟩), (·.accepted)⟩))

/-- A route is computed iff it is in the cache and the listener takes it. -/
theorem computes_iff {route : AnyRoute} :
    Computes lib ord source gateway listener route ↔
      route.InCache source ∧ Takes lib ord source gateway listener route :=
  mem_listenerPasses.trans (and_iff_right rfl)

end

/-! ## What the status of a route says -/

theorem record_false (route : AnyRoute) (fs : List Finding) :
    (record (route.accessor c) fs).conditions.lookup "Accepted" = none ∧
      ∀ type cond, (record (route.accessor c) fs).conditions.lookup type = some cond →
        cond.status = .false → ∃ fault : Fault, type = fault.type := by
  refine foldlRecOn _ _ (motive := fun u : RouteConditionsUpdate =>
    u.conditions.lookup "Accepted" = none ∧ ∀ type cond, u.conditions.lookup type = some cond →
      cond.status = .false → ∃ fault : Fault, type = fault.type) ?_ fun u hu f _ => ?_
  · cases route <;> exact ⟨rfl, fun _ _ h => nomatch h⟩
  · obtain ⟨haccepted, hfaults⟩ := hu
    cases f with
    | unsupported reason message =>
      refine ⟨(AList.lookup_insert_ne (by decide)).trans haccepted,
        fun type cond hcond hfalse => ?_⟩
      rw [Finding.record, RouteConditionsUpdate.addCondition, Map.lookup_insert_eq] at hcond
      split at hcond
      · cases hcond
        cases hfalse
      · exact hfaults type cond hcond hfalse
    | fault kind message =>
      refine ⟨(AList.lookup_insert_ne (by cases kind <;> decide)).trans haccepted,
        fun type cond hcond hfalse => ?_⟩
      rw [Finding.record, RouteConditionsUpdate.addCondition, Map.lookup_insert_eq] at hcond
      split at hcond
      · next htype => exact ⟨kind, htype⟩
      · exact hfaults type cond hcond hfalse

section

variable {route : AnyRoute} {listenerHostname last : Option String}

theorem lookup_update_fault (fault : Fault) :
    (Pass.update lib ord p source c true ⟨route, listenerHostname⟩).conditions.lookup fault.type =
      (joined (messages fault (findings lib ord p source route listenerHostname))).map
        (fault.condition (route.accessor c).generation) := by
  have hblank : (route.accessor c).conditions.lookup fault.type =
      (none : Option String).map (fault.condition (route.accessor c).generation) := by
    cases route <;> rfl
  have hne : fault.type ≠ "Accepted" := by cases fault <;> decide
  rw [Pass.update, if_neg (by simp)]
  split
  · rw [rejectRoute, RouteConditionsUpdate.addCondition, Map.lookup_insert_eq, if_neg hne]
    exact lookup_record _ hblank
  · next haccepted =>
    rw [RouteConditionsUpdate.addCondition, Map.lookup_insert_eq, if_neg hne, hblank,
      not_not.mp (not_or.mp haccepted).2]
    rfl

variable (lib ord p source c route listenerHostname) in
theorem lookup_update_accepted :
    (Pass.update lib ord p source c true ⟨route, listenerHostname⟩).conditions.lookup "Accepted" =
      some (if Refused lib ord p source route listenerHostname then
        { type := "Accepted", status := .false, reason := "ErrorsExist",
          message := "Errors found, check other Conditions for details.",
          observedGeneration := (route.accessor c).generation }
      else
        { type := "Accepted", status := .true, reason := "Valid",
          message := route.validMessage,
          observedGeneration := (route.accessor c).generation }) := by
  rw [Pass.update, if_neg (by simp)]
  split
  · rw [rejectRoute, RouteConditionsUpdate.addCondition, Map.lookup_insert_eq, if_pos rfl,
      (record_false route _).1, record_eq]
  · rw [RouteConditionsUpdate.addCondition, Map.lookup_insert_eq, if_pos rfl,
      show (route.accessor c).conditions.lookup "Accepted" = none from (record_false route []).1]

theorem false_of_update {type : String} {cond : Condition}
    (h : (Pass.update lib ord p source c true ⟨route, listenerHostname⟩).conditions.lookup type =
      some cond) (hfalse : cond.status = .false) :
    type = "Accepted" ∨ ∃ fault : Fault, type = fault.type := by
  by_contra hnot
  rw [not_or] at hnot
  rw [Pass.update, if_neg (by simp)] at h
  split at h
  · rw [rejectRoute, RouteConditionsUpdate.addCondition, Map.lookup_insert_eq, if_neg hnot.1] at h
    exact hnot.2 ((record_false route _).2 type cond h hfalse)
  · rw [RouteConditionsUpdate.addCondition, Map.lookup_insert_eq, if_neg hnot.1] at h
    exact hnot.2 ((record_false route []).2 type cond h hfalse)

variable (lib ord p source) in
/-- The last listener finds whatever another one finds wrong with a route: it does not accept
the route either, and the texts about its faults are the same. -/
structure Covers (route : AnyRoute) (listenerHostname last : Option String) : Prop where
  refused : Refused lib ord p source route listenerHostname → Refused lib ord p source route last
  texts : ∀ fault text,
    joined (messages fault (findings lib ord p source route listenerHostname)) = some text →
      joined (messages fault (findings lib ord p source route last)) = some text

/-- The False conditions of one pass are among those of another one iff the Gateway is not
valid or the other listener finds all that this one finds. -/
theorem falseKept_update_iff {validGateway : Bool} :
    FalseKept (Pass.update lib ord p source c validGateway ⟨route, listenerHostname⟩)
        (Pass.update lib ord p source c validGateway ⟨route, last⟩) ↔
      (validGateway = true → Covers lib ord p source route listenerHostname last) := by
  cases validGateway with
  | false => exact iff_of_true (fun e he _ => he) nofun
  | true =>
    constructor
    · intro h _
      refine ⟨fun hrefused => ?_, fun fault text htext => ?_⟩
      · by_contra hnot
        have hlookup := lookup_update_accepted lib ord p source c route listenerHostname
        rw [if_pos hrefused] at hlookup
        have hmem := h ("Accepted", _) (Map.mem_toList.mpr hlookup) rfl
        rw [Map.mem_toList, lookup_update_accepted, if_neg hnot] at hmem
        cases hmem
      · have hmem := h (fault.type, fault.condition (route.accessor c).generation text)
          (Map.mem_toList.mpr (by rw [lookup_update_fault, htext]; rfl)) rfl
        rw [Map.mem_toList, lookup_update_fault] at hmem
        obtain ⟨text', htext', heq⟩ := Option.map_eq_some_iff.mp hmem
        rw [htext', show text' = text from congrArg Condition.message heq]
    · rintro h ⟨type, cond⟩ he hfalse
      rw [Map.mem_toList] at he ⊢
      rcases false_of_update he hfalse with rfl | ⟨fault, rfl⟩
      · rw [lookup_update_accepted] at he ⊢
        by_cases hrefused : Refused lib ord p source route listenerHostname
        · rw [if_pos ((h rfl).refused hrefused)]
          rwa [if_pos hrefused] at he
        · rw [if_neg hrefused] at he
          cases he
          cases hfalse
      · rw [lookup_update_fault] at he ⊢
        obtain ⟨text, htext, hcond⟩ := Option.map_eq_some_iff.mp he
        rw [(h rfl).texts fault text htext]
        exact congrArg some hcond

end

/-! ## Routes that are reported -/

/-- Every route is cached under its own name. -/
def RoutesKeyed (source : KubernetesCache) : Prop :=
  (∀ entry ∈ source.httproutes.toList, namespacedNameOf entry.2.toObjectMeta = entry.1) ∧
    ∀ entry ∈ source.tlsroutes.toList, namespacedNameOf entry.2.toObjectMeta = entry.1
  deriving Decidable

theorem eq_of_keyed {α : Type} {m : Map NamespacedName α} (key : α → NamespacedName) {a b : α}
    (h : ∀ entry ∈ m.toList, key entry.2 = entry.1) (ha : ∃ name, m.lookup name = some a)
    (hb : ∃ name, m.lookup name = some b) (hkey : key a = key b) : a = b := by
  obtain ⟨name, ha⟩ := ha
  obtain ⟨name', hb⟩ := hb
  have hname : name = name' := (h (name, a) (Map.mem_toList.mpr ha)).symm.trans
    (hkey.trans (h (name', b) (Map.mem_toList.mpr hb)))
  rw [hname, hb] at ha
  exact (Option.some.inj ha).symm

theorem RoutesKeyed.unique (h : RoutesKeyed source) {route route' : AnyRoute}
    (hroute : route.InCache source) (hroute' : route'.InCache source)
    (hname : route.fullName = route'.fullName) (hkind : route.resource = route'.resource) :
    route = route' := by
  cases route with
  | http r =>
    cases route' with
    | tls r' => cases hkind
    | http r' =>
      exact congrArg _ (eq_of_keyed (fun r : HTTPRoute => namespacedNameOf r.toObjectMeta)
        h.1 hroute hroute' hname)
  | tls r =>
    cases route' with
    | http r' => cases hkind
    | tls r' =>
      exact congrArg _ (eq_of_keyed (fun r : TLSRoute => namespacedNameOf r.toObjectMeta)
        h.2 hroute hroute' hname)

section

variable (lib ord p source) (gateway : Gateway)

/-- Some listener takes the route. -/
def Taken (route : AnyRoute) : Prop :=
  ∃ listener ∈ gateway.listeners, Takes lib ord source gateway listener route

/-- No finding about a route of the Gateway is lost: no HTTPRoute and TLSRoute of one name are
both taken by listeners, and if the Gateway is valid, the last listener that takes a route
finds whatever another one that takes it finds. -/
structure NoneLost : Prop where
  kinds : ∀ route route', route.InCache source → route'.InCache source →
    route.fullName = route'.fullName → Taken lib ord source gateway route →
    Taken lib ord source gateway route' → route.resource = route'.resource
  listeners : gateway.addresses = [] → ∀ route, route.InCache source →
    ∀ listener ∈ gateway.listeners, Takes lib ord source gateway listener route →
    ∀ last ∈ (gateway.listeners.filter (Takes lib ord source gateway · route)).getLast?,
      Covers lib ord p source route listener.hostname last.hostname

variable {lib ord p source gateway}

/-- The last pass over a route is for the last listener that takes it. -/
theorem lastPass_eq (hkeyed : RoutesKeyed source) {route : AnyRoute} (hroute : route.InCache source)
    (hkinds : ∀ route', route'.InCache source → route'.fullName = route.fullName →
      Taken lib ord source gateway route' → route'.resource = route.resource) :
    lastPass (gateway.listeners.flatMap (listenerPasses lib ord source gateway)) route.fullName =
      (gateway.listeners.filter (Takes lib ord source gateway · route)).getLast?.map
        fun listener => ⟨route, listener.hostname⟩ := by
  rw [lastPass, filter_flatMap, Lib.getLast?_flatMap, ← getLast?_map, ← filterMap_eq_map,
    filterMap_filter, lastWrite]
  refine congrArg getLast? (filterMap_congr fun listener hlistener => ?_)
  -- Every pass of the name is over the route.
  have hmem : ∀ pass, pass ∈ (listenerPasses lib ord source gateway listener).filter
      (fun pass => pass.route.fullName = route.fullName) ↔
        Takes lib ord source gateway listener route ∧ pass = ⟨route, listener.hostname⟩ := by
    rintro ⟨found, listenerHostname⟩
    rw [mem_filter, mem_listenerPasses]
    constructor
    · rintro ⟨⟨rfl, hcache, htakes⟩, hname⟩
      obtain rfl := hkeyed.unique hcache hroute (of_decide_eq_true hname)
        (hkinds found hcache (of_decide_eq_true hname) ⟨listener, hlistener, htakes⟩)
      exact ⟨htakes, rfl⟩
    · rintro ⟨htakes, heq⟩
      cases heq
      exact ⟨⟨rfl, hroute, htakes⟩, decide_eq_true rfl⟩
  by_cases htakes : Takes lib ord source gateway listener route
  · obtain ⟨last, hlast⟩ := Option.isSome_iff_exists.mp
      (getLast?_isSome.mpr (ne_nil_of_mem ((hmem _).mpr ⟨htakes, rfl⟩)))
    rw [hlast, ((hmem last).mp (mem_of_getLast? hlast)).2]
    simp [htakes]
  · rw [eq_nil_iff_forall_not_mem.mpr fun pass h => htakes ((hmem pass).mp h).1]
    simp [htakes]

theorem keptByLast_iff (hkeyed : RoutesKeyed source) :
    KeptByLast (gateway.listeners.flatMap (listenerPasses lib ord source gateway))
        (Pass.update lib ord p source c (gateway.addresses = [])) ↔
      NoneLost lib ord p source gateway := by
  have hpass : ∀ pass, pass ∈ gateway.listeners.flatMap (listenerPasses lib ord source gateway) ↔
      ∃ listener ∈ gateway.listeners, pass.listenerHostname = listener.hostname ∧
        pass.route.InCache source ∧ Takes lib ord source gateway listener pass.route :=
    fun pass => by simp only [mem_flatMap, mem_listenerPasses]
  constructor
  · intro h
    have hkinds : ∀ route route', route.InCache source → route'.InCache source →
        route.fullName = route'.fullName → Taken lib ord source gateway route →
        Taken lib ord source gateway route' → route.resource = route'.resource := by
      rintro route route' hroute hroute' hname ⟨l, hl, htakes⟩ ⟨l', hl', htakes'⟩
      have hmem := (hpass ⟨route, l.hostname⟩).mpr ⟨l, hl, rfl, hroute, htakes⟩
      obtain ⟨last, hlast⟩ := exists_lastPass hmem
      rw [← (h _ hmem last hlast).1]
      exact (h ⟨route', l'.hostname⟩ ((hpass _).mpr ⟨l', hl', rfl, hroute', htakes'⟩) last
        (hname ▸ hlast)).1
    refine ⟨hkinds, fun haddresses route hroute listener hlistener htakes last hlast => ?_⟩
    have hkept := h ⟨route, listener.hostname⟩
      ((hpass _).mpr ⟨listener, hlistener, rfl, hroute, htakes⟩) ⟨route, last.hostname⟩ (by
        rw [lastPass_eq hkeyed hroute fun route' hroute' hname htaken =>
          hkinds route' route hroute' hroute hname htaken ⟨listener, hlistener, htakes⟩]
        exact Option.mem_map_of_mem _ hlast)
    exact falseKept_update_iff.mp hkept.2 (decide_eq_true haddresses)
  · rintro h ⟨route, listenerHostname⟩ hmem last hlast
    obtain ⟨listener, hlistener, rfl, hroute, htakes⟩ := (hpass _).mp hmem
    rw [lastPass_eq hkeyed hroute fun route' hroute' hname htaken =>
      h.kinds route' route hroute' hroute hname htaken ⟨listener, hlistener, htakes⟩] at hlast
    obtain ⟨l, hl, rfl⟩ := Option.mem_map.mp hlast
    exact ⟨rfl, falseKept_update_iff.mpr fun hvalid =>
      h.listeners (of_decide_eq_true hvalid) _ hroute listener hlistener htakes l hl⟩

end

variable (lib ord p) in
/-- After a run every route that was computed for a listener is reported with all its False
conditions iff no finding about a route of the Gateway is lost. -/
theorem routes_reported_iff (hkeyed : RoutesKeyed source) (dag : DAG) :
    RoutesReported ((run lib ord p source dag).statusCache.getStatusUpdates ord)
        (runPasses lib ord source) (recorded lib ord p source dag) ↔
      ∀ gateway ∈ source.gateway, source.gatewayclass.isSome = true →
        NoneLost lib ord p source gateway := by
  rw [run_routesReported_iff, runPasses, recorded]
  cases source.gateway with
  | none => simp [KeptByLast]
  | some gateway =>
    cases source.gatewayclass with
    | none => simp [KeptByLast]
    | some _ => simpa using keptByLast_iff hkeyed

/-! ## Conditions that are lost -/

/-- A reference to the Gateway `n/g`. -/
def toGateway : ParentRef where
  group := some gatewayGroupName
  kind := some "Gateway"
  name := "g"

/-- A route of either kind named `n/r`, and a listener that takes both. -/
def bothKindsCache : KubernetesCache where
  gatewayclass := some { name := "class", ns := "" }
  gateway := some
    { name := "g"
      ns := "n"
      listeners :=
        [{ name := "l", protocol := .tls, tls := some { mode := some .passthrough },
           allowedKinds := [{ kind := "HTTPRoute" }, { kind := "TLSRoute" }] }] }
  httproutes := Map.ofList [(⟨"n", "r"⟩, { name := "r", ns := "n", parentRefs := [toGateway] })]
  tlsroutes := Map.ofList [(⟨"n", "r"⟩, { name := "r", ns := "n", parentRefs := [toGateway] })]

/-- Two listeners, and a route whose hostname only the second one has. -/
def twoListenersCache : KubernetesCache where
  gatewayclass := some { name := "class", ns := "" }
  gateway := some
    { name := "g"
      ns := "n"
      listeners :=
        [{ name := "a", protocol := .http, hostname := some "a.example" },
         { name := "b", protocol := .http, hostname := some "b.example" }] }
  httproutes := Map.ofList
    [(⟨"n", "r"⟩,
      { name := "r", ns := "n", hostnames := ["b.example"], parentRefs := [toGateway] })]

theorem two_listeners_reported_iff :
    RoutesKeyed twoListenersCache ∧
      (RoutesReported
          ((run .plain .storage {} twoListenersCache {}).statusCache.getStatusUpdates .storage)
          (runPasses .plain .storage twoListenersCache)
          (recorded .plain .storage {} twoListenersCache {}) ↔
        ∀ gateway ∈ twoListenersCache.gateway, twoListenersCache.gatewayclass.isSome = true →
          NoneLost .plain .storage {} twoListenersCache gateway) :=
  ⟨by decide, routes_reported_iff .plain .storage {} (by decide) {}⟩

/-- The HTTPRoute of the first cache is not reported, and the route of the second one is
reported without the errors it has on the first listener. -/
theorem route_reports_lost :
    ¬ RoutesReported
        ((run .plain .storage {} bothKindsCache {}).statusCache.getStatusUpdates .storage)
        (runPasses .plain .storage bothKindsCache) (recorded .plain .storage {} bothKindsCache {}) ∧
      ¬ RoutesReported
        ((run .plain .storage {} twoListenersCache {}).statusCache.getStatusUpdates .storage)
        (runPasses .plain .storage twoListenersCache)
        (recorded .plain .storage {} twoListenersCache {}) := by
  rw [run_routesReported_iff, run_routesReported_iff]
  unfold KeptByLast FalseKept
  decide +kernel

end Sesame.Dag.GatewayAPIProcessor
