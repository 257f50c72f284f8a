/-
# Routes of the Gateway API

`computeHTTPRoute` and `computeTLSRoute` add one route to the hosts it selects.
The routes of a rule are pointers that all hosts share: the loop over the hosts
narrows them while earlier hosts already hold them. Their contents are therefore
kept beside the keys under which the hosts hold them, and read when the loop has
ended.
-/

import Mathlib.Data.List.Infix
import Sesame.Dag.Policy
import Sesame.Dag.Service

namespace Sesame.Dag

open List
open Lib Api
open Status (RouteConditionsUpdate)

/-- The configuration of `GatewayAPIProcessor`. -/
structure GatewayAPIProcessor where
  enableExternalNameService : Bool := false

namespace GatewayAPIProcessor

variable (lib : Stdlib) (ord : MapOrder) (p : GatewayAPIProcessor) (source : KubernetesCache)

variable {routeNamespace : String}

/-! ## References between namespaces -/

structure CrossNamespaceFrom where
  group : String
  kind : String
  ns : String

structure CrossNamespaceTo where
  group : String
  kind : String
  ns : String
  name : String

def validCrossNamespaceRef (origin : CrossNamespaceFrom) (target : CrossNamespaceTo) : Bool :=
  (ord.values "validCrossNamespaceRef" source.referencepolicies).any fun referencePolicy =>
    referencePolicy.ns = target.ns &&
    (referencePolicy.sources.any fun refPolicyFrom =>
      refPolicyFrom.ns = origin.ns && refPolicyFrom.group = origin.group &&
        refPolicyFrom.kind = origin.kind) &&
    referencePolicy.targets.any fun refPolicyTo =>
      refPolicyTo.group = target.group && refPolicyTo.kind = target.kind &&
        (refPolicyTo.name = none || refPolicyTo.name = some "" ||
          refPolicyTo.name = some target.name)

/-- The service name that a backend reference resolves to. -/
def backendName (backendRef : BackendRef) (routeNamespace : String) : NamespacedName :=
  { ns := backendRef.ns.getD routeNamespace, name := backendRef.name }

def validateBackendRef (backendRef : BackendRef) (routeKind routeNamespace : String) :
    Except String Service :=
  if ¬ (backendRef.group = none ∨ backendRef.group = some "") then
    .error "Spec.Rules.BackendRef.Group must be \"\""
  else if backendRef.kind ≠ some "Service" then
    .error "Spec.Rules.BackendRef.Kind must be 'Service'"
  else if backendRef.name = "" then .error "Spec.Rules.BackendRef.Name must be specified"
  else
    match backendRef.port with
    | none => .error "Spec.Rules.BackendRef.Port must be specified"
    | some port =>
      let name := backendName backendRef routeNamespace
      -- A backend in the namespace of the route needs no policy.
      if name.ns ≠ routeNamespace ∧ ¬ validCrossNamespaceRef ord source
          { group := gatewayGroupName, kind := routeKind, ns := routeNamespace }
          { group := "", kind := "Service", ns := name.ns, name := name.name } then
        .error ("Spec.Rules.BackendRef.Namespace must match the route's namespace or be " ++
          "covered by a ReferencePolicy")
      else
        match ensureService lib source name (.int port) p.enableExternalNameService with
        | .error err =>
          .error ("service " ++ lib.quote name.name ++ " is invalid: " ++ err)
        | .ok service => .ok service

/-! ## Hosts -/

def validHostName (hostname : String) : Except String Unit :=
  if lib.isIP hostname then
    .error ("hostname " ++ lib.quote hostname ++ " must be a DNS name, not an IP address")
  else
    let errs :=
      if '*' ∈ hostname.toList then lib.isWildcardDNS1123Subdomain hostname
      else lib.isDNS1123Subdomain hostname
    if errs = [] then .ok ()
    else .error ("invalid hostname " ++ lib.quote hostname ++ ": " ++ messageList errs)

def removeFirstDNSLabel (input : String) : List Char :=
  if '.' ∈ input.toList then input.toList.dropWhile (· ≠ '.') else input.toList

/-- A hostname of a route agrees with the hostname of the listener. -/
def hostnameMatches (listenerHostname : Option String) (hostname : String) : Bool :=
  match listenerHostname with
  | none => true
  | some lhn =>
    lhn = "*" || lhn = hostname ||
      ('*' ∈ lhn.toList && removeFirstDNSLabel lhn = removeFirstDNSLabel hostname)

/-- The loop of `computeHosts` over the hostnames of a route. -/
def addHostname (listenerHostname : Option String) (acc : Map String Unit × List String)
    (hostname : String) : Map String Unit × List String :=
  match validHostName lib hostname with
  | .error err => (acc.1, acc.2 ++ [err])
  | .ok _ =>
    if hostnameMatches listenerHostname hostname then (acc.1.insert hostname (), acc.2)
    else
      (acc.1, acc.2 ++ ["gateway hostname " ++ lib.quote (listenerHostname.getD "") ++
        " does not match route hostname " ++ lib.quote hostname])

/-- `computeHosts`: the hosts and the errors. -/
def computeHosts (hostnames : List String) (listenerHostname : Option String) :
    Map String Unit × List String :=
  let perHostname := hostnames.foldl (addHostname lib listenerHostname) (∅, [])
  match listenerHostname with
  | none => if hostnames = [] then ((∅ : Map String Unit).insert "*" (), []) else perHostname
  | some lhn =>
    if lhn = "*" then perHostname
    else
      match validHostName lib lhn with
      | .error err => (∅, [err])
      | .ok _ =>
        if hostnames = [] then ((∅ : Map String Unit).insert lhn (), []) else perHostname

/-! ## Matches and filters -/

structure MatchConditions where
  path : PathMatchCondition
  headers : List HeaderMatchCondition

/-- The check of a path value that prefix and exact matches share; an invalid
value gives the message of its condition. -/
def pathValueError (path : String) : Option String :=
  if ¬ ['/'] <+: path.toList then some "Match.Path.Value must start with '/'."
  else if ['/', '/'] <:+: path.toList then
    some "Match.Path.Value must not contain consecutive '/' characters."
  else none

def rejectPath (routeAccessor : RouteConditionsUpdate) (message : String) :
    RouteConditionsUpdate :=
  routeAccessor.addCondition "ValidMatches" .false "InvalidPathMatch" message

def gatewayPathMatchCondition (m : Option HTTPPathMatch) (routeAccessor : RouteConditionsUpdate) :
    Option PathMatchCondition × RouteConditionsUpdate :=
  match m with
  | none => (some (.pathPrefix "/" .string), routeAccessor)
  | some m =>
    let path := m.value.getD "/"
    match m.type.getD .pathPrefix with
    | .pathPrefix =>
      match pathValueError path with
      | some message => (none, rejectPath routeAccessor message)
      | none =>
        (some (.pathPrefix path (if path = "/" then .string else .segment)), routeAccessor)
    | .exact =>
      match pathValueError path with
      | some message => (none, rejectPath routeAccessor message)
      | none => (some (.exact path), routeAccessor)
    | .regularExpression =>
      (none, routeAccessor.addCondition "NotImplemented" .true "PathMatchType"
        ("HTTPRoute.Spec.Rules.PathMatch: Only Prefix match type and Exact match type are " ++
          "supported."))

/-- `gatewayHeaderMatchConditions`, or none if a match is not exact. -/
def gatewayHeaderMatchConditions : List HTTPHeaderMatch → Option (List HeaderMatchCondition)
  | [] => some []
  | m :: rest =>
    match m.type.getD .exact with
    | .exact =>
      (gatewayHeaderMatchConditions rest).map fun conds =>
        { name := m.name, value := m.value, matchType := .exact } :: conds
    | .regularExpression => none

def methodConditions (method : Option String) : List HeaderMatchCondition :=
  method.toList.map fun value => { name := ":method", value, matchType := .exact }

/-- The loop over the matches of a rule. -/
def addMatch (acc : List MatchConditions × RouteConditionsUpdate) (m : HTTPRouteMatch) :
    List MatchConditions × RouteConditionsUpdate :=
  match gatewayPathMatchCondition m.path acc.2 with
  | (none, routeAccessor) => (acc.1, routeAccessor)
  | (some path, routeAccessor) =>
    match gatewayHeaderMatchConditions m.headers with
    | none =>
      (acc.1, routeAccessor.addCondition "NotImplemented" .true "HeaderMatchType"
        "HTTPRoute.Spec.Rules.HeaderMatch: Only Exact match type is supported.")
    | some headers =>
      (acc.1 ++ [{ path, headers := headers ++ methodConditions m.method }], routeAccessor)

def matchConditions (rule : HTTPRouteRule) (routeAccessor : RouteConditionsUpdate) :
    List MatchConditions × RouteConditionsUpdate :=
  rule.matchRules.foldl addMatch ([], routeAccessor)

/-- `headersPolicyGatewayAPI` with its error recorded. -/
def requestHeaders (filter : HTTPRequestHeaderFilter) (routeAccessor : RouteConditionsUpdate) :
    HeadersPolicy × RouteConditionsUpdate :=
  match headersPolicyGatewayAPI lib ord filter with
  | (policy, []) => (policy, routeAccessor)
  | (policy, errs) =>
    (policy, routeAccessor.addCondition "ResolvedRefs" .false "Degraded"
      (aggregateError errs ++ " on request headers"))

/-- What the filters of a rule ask for. -/
structure RuleFilters where
  headerPolicy : Option HeadersPolicy := none
  redirect : Option HTTPRequestRedirectFilter := none
  routeAccessor : RouteConditionsUpdate

/-- The loop over the filters of a rule; the first filter of a type counts. The
header policy is set from the first header modifier on. -/
def addRuleFilter (acc : RuleFilters) (filter : HTTPRouteFilter) : RuleFilters :=
  match filter with
  | .requestHeaderModifier filter =>
    if acc.headerPolicy.isSome then acc
    else
      let (policy, routeAccessor) := requestHeaders lib ord filter acc.routeAccessor
      { acc with headerPolicy := some policy, routeAccessor }
  | .requestRedirect filter => { acc with redirect := acc.redirect.or filter }
  | .other type =>
    { acc with
      routeAccessor := acc.routeAccessor.addCondition "NotImplemented" .true
        "HTTPRouteFilterType"
        ("HTTPRoute.Spec.Rules.Filters: invalid type " ++ lib.quote type ++
          ": only RequestHeaderModifier and RequestRedirect are supported.") }

/-! ## The routes of a rule -/

/-- The loop over the filters of a backend; the last header modifier counts. -/
def addBackendFilter (acc : Option HeadersPolicy × RouteConditionsUpdate)
    (filter : HTTPRouteFilter) : Option HeadersPolicy × RouteConditionsUpdate :=
  match filter with
  | .requestHeaderModifier filter =>
    let (policy, routeAccessor) := requestHeaders lib ord filter acc.2
    (some policy, routeAccessor)
  | .requestRedirect _ | .other _ =>
    (acc.1, acc.2.addCondition "NotImplemented" .true "HTTPRouteFilterType"
      ("HTTPRoute.Spec.Rules.BackendRef.Filters: Only RequestHeaderModifier type is " ++
        "supported."))

/-- The weight of a backend; it defaults to 1. -/
def backendWeight (backendRef : BackendRef) : UInt32 := (backendRef.weight.getD 1).toUInt32

/-- The clusters of a rule, their total weight and the status. -/
structure Backends where
  clusters : List Cluster := []
  totalWeight : UInt32 := 0
  routeAccessor : RouteConditionsUpdate

def Backends.reject (acc : Backends) (err : String) : Backends :=
  { acc with routeAccessor := acc.routeAccessor.addCondition "ResolvedRefs" .false "Degraded" err }

/-- The loop over the backends of a rule. -/
def addBackend (routeNamespace : String) (acc : Backends) (backendRef : HTTPBackendRef) :
    Backends :=
  match validateBackendRef lib ord p source backendRef.toBackendRef "HTTPRoute" routeNamespace with
  | .error err => acc.reject err
  | .ok service =>
    let (headerPolicy, routeAccessor) :=
      backendRef.filters.foldl (addBackendFilter lib ord) (none, acc.routeAccessor)
    let routeWeight := backendWeight backendRef.toBackendRef
    let service := { service with weighted := { service.weighted with weight := routeWeight } }
    { clusters := acc.clusters ++
        [{ upstream := service, weight := routeWeight, protocol := service.protocol,
           requestHeadersPolicy := headerPolicy }]
      totalWeight := acc.totalWeight + routeWeight
      routeAccessor }

def clusterRoutes (routeNamespace : String) (matchconditions : List MatchConditions)
    (headerPolicy : Option HeadersPolicy) (backendRefs : List HTTPBackendRef)
    (routeAccessor : RouteConditionsUpdate) : List Route × RouteConditionsUpdate :=
  if backendRefs = [] then
    ([], routeAccessor.addCondition "ResolvedRefs" .false "Degraded"
      "At least one Spec.Rules.BackendRef must be specified.")
  else
    let b := backendRefs.foldl (addBackend lib ord p source routeNamespace) { routeAccessor }
    let directResponse :=
      if b.clusters = [] ∨ b.totalWeight = 0 then some serviceUnavailable else none
    (matchconditions.map fun mc =>
      { clusters := b.clusters, pathMatchCondition := mc.path,
        headerMatchConditions := mc.headers, requestHeadersPolicy := headerPolicy,
        directResponse }, b.routeAccessor)

def redirectRoutes (matchconditions : List MatchConditions) (headerPolicy : Option HeadersPolicy)
    (redirect : HTTPRequestRedirectFilter) : List Route :=
  matchconditions.map fun mc =>
    { redirect := some
        { hostname := redirect.hostname.getD "", scheme := redirect.scheme.getD "",
          portNumber := (redirect.port.getD 0).toUInt32,
          statusCode := redirect.statusCode.getD 0 }
      pathMatchCondition := mc.path
      headerMatchConditions := mc.headers
      requestHeadersPolicy := headerPolicy }

/-- The routes of a rule before they are added to hosts. -/
def ruleRoutes (routeNamespace : String) (rule : HTTPRouteRule)
    (routeAccessor : RouteConditionsUpdate) : List Route × RouteConditionsUpdate :=
  let (matchconditions, routeAccessor) := matchConditions rule routeAccessor
  let filters := rule.filters.foldl (addRuleFilter lib ord) { routeAccessor }
  match filters.redirect with
  | some redirect =>
    (redirectRoutes matchconditions filters.headerPolicy redirect, filters.routeAccessor)
  | none =>
    clusterRoutes lib ord p source routeNamespace matchconditions filters.headerPolicy
      rule.backendRefs filters.routeAccessor

/-! ## Routes shared by hosts -/

/-- The routes of a rule while they are added to hosts: what the pointers point
to now, and for each host reached so far the keys it holds them under. -/
structure SharedRoutes where
  routes : List Route
  placed : List (String × List String) := []

/-- A route is narrowed to one label below a wildcard host. -/
def narrowToHost (host : String) (route : Route) : Route :=
  if isWildcard host then
    { route with
      headerMatchConditions := route.headerMatchConditions ++ [wildcardDomainHeaderMatch host] }
  else route

/-- The inner loop: every route is narrowed and added to the host. The key is
that of the route at this moment. -/
def SharedRoutes.addToHost (s : SharedRoutes) (host : String) : SharedRoutes :=
  let routes := s.routes.map (narrowToHost host)
  { routes, placed := s.placed ++ [(host, routes.map conditionsToString)] }

/-- Store one route of a host under its key. -/
def storeEntry (listenerSecret : Option Secret) (host : String) (dag : DAG)
    (entry : String × Route) : DAG :=
  match listenerSecret with
  | some sec =>
    let svhost := dag.ensureSecureVirtualHost host
    dag.putSecureVirtualHost host
      { svhost with secret := some sec, routes := svhost.routes.insert entry.1 entry.2 }
  | none =>
    let vhost := dag.ensureVirtualHost host
    dag.putVirtualHost host { vhost with routes := vhost.routes.insert entry.1 entry.2 }

/-- The loop over the hosts, and what their pointers point to after it. -/
def storeRoutes (listenerSecret : Option Secret) (hosts : List String) (routes : List Route)
    (dag : DAG) : DAG :=
  let s := hosts.foldl SharedRoutes.addToHost { routes }
  s.placed.foldl
    (fun dag place => (place.2.zip s.routes).foldl (storeEntry listenerSecret place.1) dag) dag

/-! ## HTTPRoutes -/

/-- The DAG, the status of a route and whether it was programmed. -/
structure RouteState where
  dag : DAG
  routeAccessor : RouteConditionsUpdate
  programmed : Bool := false

/-- The loop over the rules of an HTTPRoute. Each rule ranges over the hosts anew. -/
def computeRule (site : String) (route : HTTPRoute) (listenerSecret : Option Secret)
    (hosts : Map String Unit) (st : RouteState) (rule : HTTPRouteRule × Nat) : RouteState :=
  let (routes, routeAccessor) := ruleRoutes lib ord p source route.ns rule.1 st.routeAccessor
  let order := (ord.range (site ++ toString rule.2) hosts).map Prod.fst
  { dag := storeRoutes listenerSecret order routes st.dag
    routeAccessor
    programmed := st.programmed || (routes ≠ [] && order ≠ []) }

/-- The errors about hostnames, recorded on a route. -/
def addHostErrors (errs : List String) (routeAccessor : RouteConditionsUpdate) :
    RouteConditionsUpdate :=
  errs.foldl (fun u err => u.addCondition "ResolvedRefs" .false "Degraded" err) routeAccessor

/-- The answer of a route that was not accepted. -/
def rejectRoute (routeAccessor : RouteConditionsUpdate) : RouteConditionsUpdate :=
  routeAccessor.addCondition "Accepted" .false "ErrorsExist"
    "Errors found, check other Conditions for details."

/-- The `Accepted` condition at the end of a route. -/
def acceptRoute (message : String) (routeAccessor : RouteConditionsUpdate) :
    RouteConditionsUpdate :=
  if routeAccessor.conditions.entries = [] then
    routeAccessor.addCondition "Accepted" .true "Valid" message
  else rejectRoute routeAccessor

/-- The frame that HTTPRoutes and TLSRoutes share: the Gateway and the hosts are
checked, the rules are computed, and the status is committed. -/
def computeRoute (message : String) (dag : DAG) (routeAccessor : RouteConditionsUpdate)
    (hostnames : List String) (listenerHostname : Option String) (validGateway : Bool)
    (rules : Map String Unit → RouteState → RouteState) : Bool × DAG :=
  let commit (dag : DAG) (routeAccessor : RouteConditionsUpdate) : DAG :=
    { dag with statusCache := dag.statusCache.commitRoute routeAccessor }
  if ¬ validGateway then
    (false, commit dag (routeAccessor.addCondition "Accepted" .false "Invalid" "Invalid Gateway"))
  else
    let (hosts, errs) := computeHosts lib hostnames listenerHostname
    let routeAccessor := addHostErrors errs routeAccessor
    if hosts.entries = [] then (false, commit dag (rejectRoute routeAccessor))
    else
      let st := rules hosts { dag, routeAccessor }
      (st.programmed, commit st.dag (acceptRoute message st.routeAccessor))

/-- `computeHTTPRoute`: whether the route was programmed, and the DAG. -/
def computeHTTPRoute (site : String) (dag : DAG) (route : HTTPRoute)
    (listenerSecret : Option Secret) (listenerHostname : Option String) (validGateway : Bool) :
    Bool × DAG :=
  let routeAccessor := dag.statusCache.routeConditionsAccessor
    (namespacedNameOf route.toObjectMeta) route.generation .httpRoute route.statusParents
  computeRoute lib "Valid HTTPRoute" dag routeAccessor route.hostnames listenerHostname
    validGateway fun hosts st =>
      route.rules.zipIdx.foldl (computeRule lib ord p source site route listenerSecret hosts) st

/-! ## TLSRoutes -/

/-- The loop over the backends of a rule of a TLSRoute. -/
def addTLSBackend (routeNamespace : String) (acc : Backends) (backendRef : BackendRef) :
    Backends :=
  match validateBackendRef lib ord p source backendRef "TLSRoute" routeNamespace with
  | .error err => acc.reject err
  | .ok service =>
    let routeWeight := backendWeight backendRef
    let service := { service with weighted := { service.weighted with weight := routeWeight } }
    { acc with
      clusters := acc.clusters ++
        [{ upstream := service, sni := service.externalName, weight := routeWeight }]
      totalWeight := acc.totalWeight + routeWeight }

/-- Give a secure host the TCP proxy of a TLSRoute. -/
def storeTCPProxy (listenerSecret : Option Secret) (clusters : List Cluster) (dag : DAG)
    (host : String) : DAG :=
  let secure := dag.ensureSecureVirtualHost host
  dag.putSecureVirtualHost host
    { secure with secret := listenerSecret.or secure.secret, tcpProxy := some clusters }

/-- The loop over the rules of a TLSRoute. -/
def computeTLSRule (site : String) (route : TLSRoute) (listenerSecret : Option Secret)
    (hosts : Map String Unit) (st : RouteState) (rule : List BackendRef × Nat) : RouteState :=
  if rule.1 = [] then
    { st with
      routeAccessor := st.routeAccessor.addCondition "ResolvedRefs" .false "Degraded"
        "At least one Spec.Rules.BackendRef must be specified." }
  else
    let b := rule.1.foldl (addTLSBackend lib ord p source route.ns)
      { routeAccessor := st.routeAccessor }
    if b.clusters = [] then { st with routeAccessor := b.routeAccessor }
    else if b.totalWeight = 0 then
      { st with
        routeAccessor := b.routeAccessor.addCondition "ValidBackendRefs" .false
          "AllBackendRefsHaveZeroWeights"
          "At least one Spec.Rules.BackendRef must have a non-zero weight." }
    else
      let order := (ord.range (site ++ toString rule.2) hosts).map Prod.fst
      { dag := order.foldl (storeTCPProxy listenerSecret b.clusters) st.dag
        routeAccessor := b.routeAccessor
        programmed := st.programmed || order ≠ [] }

/-- `computeTLSRoute`: whether the route was programmed, and the DAG. -/
def computeTLSRoute (site : String) (dag : DAG) (route : TLSRoute)
    (listenerSecret : Option Secret) (listenerHostname : Option String) (validGateway : Bool) :
    Bool × DAG :=
  let routeAccessor := dag.statusCache.routeConditionsAccessor
    (namespacedNameOf route.toObjectMeta) route.generation .tlsRoute route.statusParents
  computeRoute lib "Valid TLSRoute" dag routeAccessor route.hostnames listenerHostname
    validGateway fun hosts st =>
      route.rules.zipIdx.foldl (computeTLSRule lib ord p source site route listenerSecret hosts) st

/-! ## What a route writes -/

/-- What `I` must be closed under to survive the commits of the processor and the writes of a
listener with this secret to the hosts of `H`, where HTTPRoutes write routes of `R` and
TLSRoutes clusters of `C`. -/
structure ClosedUnderRoutes (listenerSecret : Option Secret) (H : String → Prop) (R : Route → Prop)
    (C : Cluster → Prop) (I : DAG → Prop) : Prop where
  commitRoute : ∀ d u, I d → I { d with statusCache := d.statusCache.commitRoute u }
  commitGateway : ∀ d u, I d → I { d with statusCache := d.statusCache.commitGateway u }
  narrow : ∀ host r, R r → R (narrowToHost host r)
  entry : ∀ d host entry, H host → R entry.2 → I d → I (storeEntry listenerSecret host d entry)
  tcpProxy : ∀ d clusters host, H host → (∀ c ∈ clusters, C c) → I d →
    I (storeTCPProxy listenerSecret clusters d host)

/-- The routes of the rules of an HTTPRoute are in `R`. -/
def HTTPRoutesIn (R : Route → Prop) (route : HTTPRoute) : Prop :=
  ∀ rule ∈ route.rules, ∀ u, ∀ r ∈ (ruleRoutes lib ord p source route.ns rule u).1, R r

/-- The clusters of the rules of a TLSRoute are in `C`. -/
def TLSClustersIn (C : Cluster → Prop) (route : TLSRoute) : Prop :=
  ∀ rule ∈ route.rules, ∀ u : RouteConditionsUpdate,
    ∀ c ∈ (rule.foldl (addTLSBackend lib ord p source route.ns) { routeAccessor := u }).clusters,
      C c

/-- The hosts that hold the routes of a rule are the hosts of the loop. -/
theorem placed_hosts (hosts : List String) (s : SharedRoutes) :
    (hosts.foldl SharedRoutes.addToHost s).placed.map Prod.fst =
      s.placed.map Prod.fst ++ hosts := by
  induction hosts generalizing s with
  | nil => simp
  | cons host hosts ih =>
    rw [foldl_cons, ih]
    simp [SharedRoutes.addToHost]

variable {lib ord p source}

/-- A route that is narrowed to a host has the same clusters. -/
theorem allClusters_narrowToHost (host : String) (r : Route) :
    (narrowToHost host r).allClusters = r.allClusters := by
  rw [narrowToHost]
  split <;> rfl

/-- A backend that is accepted names a Service in the namespace of the route or in one that a
policy opens to it. -/
theorem validateBackendRef_eq_ok {backendRef : BackendRef} {routeKind : String} {service : Service}
    (h : validateBackendRef lib ord p source backendRef routeKind routeNamespace = .ok service) :
    (∃ port, ensureService lib source (backendName backendRef routeNamespace) port
      p.enableExternalNameService = .ok service) ∧
    ((backendName backendRef routeNamespace).ns = routeNamespace ∨
      validCrossNamespaceRef ord source
        { group := gatewayGroupName, kind := routeKind, ns := routeNamespace }
        { group := "", kind := "Service", ns := (backendName backendRef routeNamespace).ns,
          name := (backendName backendRef routeNamespace).name } = true) := by
  unfold validateBackendRef at h
  split at h
  · cases h
  split at h
  · cases h
  split at h
  · cases h
  split at h
  · cases h
  rename_i port _
  dsimp only at h
  split at h
  · cases h
  rename_i hpermitted
  split at h
  · cases h
  · next s hs =>
    cases h
    refine ⟨⟨_, hs⟩, ?_⟩
    rw [not_and_or, not_not, not_not] at hpermitted
    exact hpermitted

variable (lib ord p source) in
/-- A cluster of a route of a kind in a namespace forwards to a backend that was accepted. -/
def ForBackend (routeKind routeNamespace : String) (c : Cluster) : Prop :=
  ∃ backendRef service weight,
    validateBackendRef lib ord p source backendRef routeKind routeNamespace = .ok service ∧
    c.upstream = { service with weighted := { service.weighted with weight } }

theorem addBackend_forBackend {acc : Backends}
    (hacc : ∀ c ∈ acc.clusters, ForBackend lib ord p source "HTTPRoute" routeNamespace c)
    (backendRef : HTTPBackendRef) :
    ∀ c ∈ (addBackend lib ord p source routeNamespace acc backendRef).clusters,
      ForBackend lib ord p source "HTTPRoute" routeNamespace c := by
  unfold addBackend
  split
  · exact hacc
  · next service hservice =>
    exact forall_mem_append.mpr ⟨hacc, forall_mem_singleton.mpr
      ⟨backendRef.toBackendRef, service, _, hservice, rfl⟩⟩

theorem addTLSBackend_forBackend {acc : Backends}
    (hacc : ∀ c ∈ acc.clusters, ForBackend lib ord p source "TLSRoute" routeNamespace c)
    (backendRef : BackendRef) :
    ∀ c ∈ (addTLSBackend lib ord p source routeNamespace acc backendRef).clusters,
      ForBackend lib ord p source "TLSRoute" routeNamespace c := by
  unfold addTLSBackend
  split
  · exact hacc
  · next service hservice =>
    exact forall_mem_append.mpr ⟨hacc, forall_mem_singleton.mpr
      ⟨backendRef, service, _, hservice, rfl⟩⟩

variable (lib ord p source) in
/-- The routes of an HTTPRoute forward to its backends. -/
theorem httpRoutesIn_forBackend (route : HTTPRoute) :
    HTTPRoutesIn lib ord p source
      (fun r => ∀ c ∈ r.allClusters, ForBackend lib ord p source "HTTPRoute" route.ns c) route := by
  intro rule _ u
  have hbackends : ∀ acc, ∀ c ∈ (rule.backendRefs.foldl (addBackend lib ord p source route.ns)
      { routeAccessor := acc }).clusters, ForBackend lib ord p source "HTTPRoute" route.ns c :=
    fun acc => foldlRecOn _ _
      (motive := fun acc : Backends => ∀ c ∈ acc.clusters,
        ForBackend lib ord p source "HTTPRoute" route.ns c)
      (by simp) fun acc hacc backendRef _ => addBackend_forBackend hacc backendRef
  unfold ruleRoutes
  dsimp only
  split
  · intro r hr c hc
    obtain ⟨mc, -, rfl⟩ := mem_map.mp hr
    cases hc
  unfold clusterRoutes
  split
  · simp
  · intro r hr c hc
    obtain ⟨mc, -, rfl⟩ := mem_map.mp hr
    rw [Route.allClusters, Option.toList_none, append_nil] at hc
    exact hbackends _ c hc

variable (lib ord p source) in
/-- The rules of a TLSRoute forward to its backends. -/
theorem tlsClustersIn_forBackend (route : TLSRoute) :
    TLSClustersIn lib ord p source (ForBackend lib ord p source "TLSRoute" route.ns) route := by
  intro rule _ u
  refine foldlRecOn rule (addTLSBackend lib ord p source route.ns)
    (motive := fun acc : Backends => ∀ c ∈ acc.clusters,
      ForBackend lib ord p source "TLSRoute" route.ns c) ?_ ?_
  · exact fun c hc => absurd hc not_mem_nil
  · exact fun acc hacc backendRef _ => addTLSBackend_forBackend hacc backendRef

namespace ClosedUnderRoutes

variable {listenerSecret : Option Secret} {H : String → Prop} {R : Route → Prop}
  {C : Cluster → Prop} {I : DAG → Prop} (h : ClosedUnderRoutes listenerSecret H R C I)

variable {dag : DAG} {listenerHostname : Option String} {validGateway : Bool}

include h

theorem addToHosts {s : SharedRoutes} (hs : ∀ r ∈ s.routes, R r) (hosts : List String) :
    ∀ r ∈ (hosts.foldl SharedRoutes.addToHost s).routes, R r := by
  refine foldlRecOn hosts _ (motive := fun s : SharedRoutes => ∀ r ∈ s.routes, R r) hs ?_
  intro s hs host _ r hr
  obtain ⟨r', hr', rfl⟩ := mem_map.mp hr
  exact h.narrow host r' (hs r' hr')

theorem storeRoutes {hosts : List String} (hhosts : ∀ host ∈ hosts, H host) {routes : List Route}
    (hroutes : ∀ r ∈ routes, R r) (hdag : I dag) :
    I (storeRoutes listenerSecret hosts routes dag) := by
  refine foldlRecOn _ _ hdag fun dag hdag place hplace => ?_
  have hhost : place.1 ∈ hosts := by
    have hfst := mem_map_of_mem (f := Prod.fst) hplace
    rwa [placed_hosts, map_nil, nil_append] at hfst
  refine foldlRecOn _ _ hdag fun dag hdag entry hentry =>
    h.entry dag place.1 entry (hhosts _ hhost) ?_ hdag
  exact h.addToHosts hroutes hosts entry.2 (of_mem_zip hentry).2

theorem computeRoute {message : String} {routeAccessor : RouteConditionsUpdate}
    {hostnames : List String} {rules : Map String Unit → RouteState → RouteState}
    (hrules : ∀ st, I st.dag →
      I (rules (computeHosts lib hostnames listenerHostname).1 st).dag) (hdag : I dag) :
    I (computeRoute lib message dag routeAccessor hostnames listenerHostname validGateway
      rules).2 := by
  unfold GatewayAPIProcessor.computeRoute
  dsimp only
  split
  · exact h.commitRoute _ _ hdag
  · split
    · exact h.commitRoute _ _ hdag
    · exact h.commitRoute _ _ (hrules _ hdag)

theorem computeHTTPRoute {site : String} {route : HTTPRoute}
    (hhosts : ∀ host, ((computeHosts lib route.hostnames listenerHostname).1.lookup host).isSome →
      H host) (hroutes : HTTPRoutesIn lib ord p source R route) (hdag : I dag) :
    I (computeHTTPRoute lib ord p source site dag route listenerSecret listenerHostname
      validGateway).2 := by
  refine h.computeRoute (fun st hst => ?_) hdag
  refine foldlRecOn _ _ (motive := fun st : RouteState => I st.dag) hst
    fun st hst rule hrule => h.storeRoutes (fun host hhost => ?_)
      (hroutes rule.1 (fst_mem_of_mem_zipIdx hrule) _) hst
  obtain ⟨e, he, rfl⟩ := mem_map.mp hhost
  exact hhosts e.1 (by rw [ord.mem_range.mp he]; rfl)

theorem computeTLSRoute {site : String} {route : TLSRoute}
    (hhosts : ∀ host, ((computeHosts lib route.hostnames listenerHostname).1.lookup host).isSome →
      H host) (hclusters : TLSClustersIn lib ord p source C route) (hdag : I dag) :
    I (computeTLSRoute lib ord p source site dag route listenerSecret listenerHostname
      validGateway).2 := by
  refine h.computeRoute (fun st hst => ?_) hdag
  refine foldlRecOn _ _ (motive := fun st : RouteState => I st.dag) hst fun st hst rule hrule => ?_
  unfold computeTLSRule
  dsimp only
  split
  · exact hst
  split
  · exact hst
  split
  · exact hst
  · have hrule := hclusters rule.1 (fst_mem_of_mem_zipIdx hrule) st.routeAccessor
    refine foldlRecOn _ _ hst fun dag hdag host hhost =>
      h.tcpProxy dag _ host ?_ hrule hdag
    obtain ⟨e, he, rfl⟩ := mem_map.mp hhost
    exact hhosts e.1 (by rw [ord.mem_range.mp he]; rfl)

end ClosedUnderRoutes

end GatewayAPIProcessor

end Sesame.Dag
