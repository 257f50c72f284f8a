/-
# Routes of HTTPProxies

`computeRoutes` follows the includes of a proxy and turns the routes it finds into
routes of the DAG. Along the way it accumulates the conditions of the includes,
records errors on the status of every proxy it visits, and gives up on a proxy at
the first route that is not valid.

Recursion is on fuel. A chain of includes never visits a proxy twice, so the
number of proxies bounds its length.
-/

import Sesame.Dag.Policy
import Sesame.Dag.Service

namespace Sesame.Dag

open Lib Api
open Status (DetailedCondition ErrorType)

/-- The configuration of `HTTPProxyProcessor`. -/
structure HTTPProxyProcessor where
  disablePermitInsecure : Bool := false
  fallbackCertificate : Option NamespacedName := none
  enableExternalNameService : Bool := false
  dnsLookupFamily : DNSLookupFamily := .unset
  clientCertificate : Option NamespacedName := none
  requestHeadersPolicy : Option HeadersPolicy := none
  responseHeadersPolicy : Option HeadersPolicy := none

namespace HTTPProxyProcessor

/-- What the processor changes while it runs: the DAG and the orphaned proxies. -/
structure State where
  dag : DAG
  orphaned : List NamespacedName := []

def State.commit (st : State) (pu : Status.ProxyUpdate) : State :=
  { st with dag := { st.dag with statusCache := st.dag.statusCache.commitProxy pu } }

/-- A computation that gives up with an error added to the condition. -/
abbrev Checked := Except DetailedCondition

def reject {α : Type} (validCond : DetailedCondition) (type : ErrorType)
    (reason message : String) : Checked α :=
  .error (validCond.addError type reason message)

/-- Take the value of a check, or record its error and give up. -/
def require {α : Type} (check : Except String α) (validCond : DetailedCondition)
    (type : ErrorType) (reason : String) (message : String → String) : Checked α :=
  match check with
  | .ok a => .ok a
  | .error err => reject validCond type reason (message err)

theorem require_eq_ok {α : Type} {check : Except String α} {validCond : DetailedCondition}
    {type : ErrorType} {reason : String} {message : String → String} {a : α}
    (h : require check validCond type reason message = .ok a) : check = .ok a := by
  cases check with
  | error err => cases h
  | ok b =>
    cases h
    rfl

/-! ## Authorization on API objects -/

def authorizationConfigured (v : VirtualHostSpec) : Bool := v.tls.isSome && v.authorization.isSome

/-- The authorization policy of a virtual host with authorization configured. -/
def vhostAuthPolicy (v : VirtualHostSpec) : Option AuthorizationPolicy :=
  if authorizationConfigured v then v.authorization.bind (·.authPolicy) else none

def disableAuthorization (v : VirtualHostSpec) : Bool := (vhostAuthPolicy v).elim false (·.disabled)

/-- `Route.AuthorizationContext` on the context of the virtual host. -/
def authorizationContext (v : VirtualHostSpec) (route : RouteSpec) : Map String String :=
  Map.merge ((vhostAuthPolicy v).elim ∅ (·.context)) (route.authPolicy.elim ∅ (·.context))

/-! ## Services of a route -/

variable (lib : Stdlib) (ord : MapOrder) (p : HTTPProxyProcessor) (source : KubernetesCache)

def getProtocol (service : ServiceRef) (s : Service) : Except String UpstreamProtocol :=
  match service.protocol with
  | none => .ok s.protocol
  | some protocol =>
    if protocol = "h2c" then .ok .h2c
    else if protocol = "h2" then .ok .h2
    else if protocol = "tls" then .ok .tls
    else .error ("unsupported protocol: " ++ protocol)

def determineSNI (routeRequestHeaders clusterRequestHeaders : Option HeadersPolicy)
    (service : Service) : String :=
  let clusterHost := clusterRequestHeaders.elim "" (·.hostRewrite)
  let routeHost := routeRequestHeaders.elim "" (·.hostRewrite)
  if clusterHost ≠ "" then clusterHost
  else if routeHost ≠ "" then routeHost
  else service.externalName

/-- The validation of the upstream certificate, which needs a protocol with TLS. -/
def upstreamValidation (validCond : DetailedCondition) (proxy : HTTPProxy) (service : ServiceRef)
    (protocol : UpstreamProtocol) : Checked (Option PeerValidationContext) :=
  match service.upstreamValidation with
  | none => .ok none
  | some uv =>
    if protocol = .tls ∨ protocol = .h2 then
      let caCertificate := namespacedNameFrom uv.caCertificate proxy.ns
      if source.delegationPermitted ord caCertificate proxy.ns then
        require (source.lookupUpstreamValidation lib (some uv) caCertificate proxy.ns)
          validCond .serviceError "TLSUpstreamValidation" fun err =>
            "Service [" ++ service.name ++ ":" ++ toString service.port ++
              "] TLS upstream validation policy error: " ++ err
      else
        reject validCond .tlsError "CACertificateNotDelegated"
          ("service.UpstreamValidation.CACertificate Secret " ++
            lib.quote caCertificate.string ++ " is not configured for certificate delegation")
    else .ok none

/-- The client certificate that is presented to upstreams, if one is configured. It
is attached for its own namespace: the operator configured it. -/
def clientCertificateSecret (validCond : DetailedCondition) : Checked (Option Secret) :=
  match p.clientCertificate with
  | none => .ok none
  | some name =>
    require ((source.lookupSecret name (validSecret lib) name.ns).map some) validCond .tlsError
      "SecretNotValid" fun err =>
        "tls.envoy-client-certificate Secret " ++ lib.quote name.string ++ " is invalid: " ++ err

/-- A route under construction, with the condition of its proxy and the dynamic
headers, a map that the loops over routes and services share. -/
structure RouteState where
  validCond : DetailedCondition
  dynamicHeaders : Map String String
  route : Route

def serviceHeaders (dynamicHeaders : Map String String) (service : ServiceRef) :
    Map String String :=
  (dynamicHeaders.insert "Sesame_SERVICE_NAME" service.name).insert "Sesame_SERVICE_PORT"
    (toString service.port)

def routeCluster (proxy : HTTPProxy) (spec : RouteSpec) (lbPolicy : LoadBalancerStrategy)
    (st : RouteState) (service : ServiceRef) (s : Service) : Checked Cluster := do
  let protocol ← require (getProtocol service s) st.validCond .serviceError "UnsupportedProtocol" id
  let uv ← upstreamValidation lib ord source st.validCond proxy service protocol
  let dynamicHeaders := serviceHeaders st.dynamicHeaders service
  let reqHP ← require
    (headersPolicyService lib ord p.requestHeadersPolicy service.requestHeadersPolicy
      dynamicHeaders)
    st.validCond .serviceError "RequestHeadersPolicyInvalid" (· ++ " on request headers")
  let respHP ← require
    (headersPolicyService lib ord p.responseHeadersPolicy service.responseHeadersPolicy
      dynamicHeaders)
    st.validCond .serviceError "ResponseHeadersPolicyInvalid" (· ++ " on response headers")
  let cookieRP ← require (cookieRewritePolicies lib service.cookieRewritePolicies) st.validCond
    .routeError "CookieRewritePoliciesInvalid" (· ++ " on service cookie rewrite rules")
  let clientCertSecret ← clientCertificateSecret lib p source st.validCond
  pure
    { upstream := s
      loadBalancerPolicy := lbPolicy
      weight := service.weight.toUInt64.toUInt32
      httpHealthCheckPolicy := httpHealthCheckPolicy spec.healthCheckPolicy
      upstreamValidation := uv
      requestHeadersPolicy := reqHP
      responseHeadersPolicy := respHP
      cookieRewritePolicies := cookieRP
      protocol
      sni := determineSNI st.route.requestHeadersPolicy reqHP s
      dnsLookupFamily := p.dnsLookupFamily
      clientCertificate := clientCertSecret }

/-- The loop of `computeRoutes` over the services of a route. A service that does
not resolve is recorded and left out. -/
def addService (proxy : HTTPProxy) (spec : RouteSpec) (lbPolicy : LoadBalancerStrategy)
    (st : RouteState) (service : ServiceRef) : Checked RouteState :=
  if service.port < 1 ∨ 65535 < service.port then
    reject st.validCond .serviceError "ServicePortInvalid"
      ("service " ++ lib.quote service.name ++ ": port must be in the range 1-65535")
  else
    match ensureService lib source { ns := proxy.ns, name := service.name }
        (.int (Int32.ofInt service.port)) p.enableExternalNameService with
    | .error err =>
      .ok { st with
        validCond := st.validCond.addError .serviceError "ServiceUnresolvedReference"
          ("Spec.Routes unresolved service reference: " ++ err) }
    | .ok s => do
        let c ← routeCluster lib ord p source proxy spec lbPolicy st service s
        let st := { st with dynamicHeaders := serviceHeaders st.dynamicHeaders service }
        if service.mirror then
          if st.route.mirrorPolicy.isSome then
            reject st.validCond .serviceError "OnlyOneMirror"
              "only one service per route may be nominated as mirror"
          else .ok { st with route := { st.route with mirrorPolicy := some c } }
        else .ok { st with route := { st.route with clusters := st.route.clusters ++ [c] } }

/-! ## One route -/

def redirectRoutePolicy (redirect : Option HTTPRequestRedirectPolicy) : Option Redirect :=
  redirect.map fun (redirect : HTTPRequestRedirectPolicy) =>
    { hostname := redirect.hostname.getD ""
      scheme := redirect.scheme.getD ""
      portNumber := redirect.port.elim 0 (·.toUInt32)
      statusCode := redirect.statusCode.getD 0 }

def routeEnforceTLS (enforceTLS permitInsecure : Bool) : Bool := enforceTLS && !permitInsecure

/-- The authorization settings of a route under a root: nothing if the root does
not configure authorization, else the route's own policy or that of the root. -/
def authorizeRoute (root : VirtualHostSpec) (spec : RouteSpec) (r : Route) : Route :=
  if authorizationConfigured root then
    { r with
      authDisabled := spec.authPolicy.elim (disableAuthorization root) (·.disabled)
      authContext := authorizationContext root spec }
  else r

/-- The replacement for a routing prefix: that of the prefix itself, or else the
default one. -/
def prefixReplacement (replacements : List ReplacePrefix) (routingPrefix : String) : String :=
  let exact := (replacements.find? fun r => r.pathPrefix ≠ "" ∧ routingPrefix = r.pathPrefix).elim
    "" (·.replacement)
  if exact = "" then (replacements.find? fun r => r.pathPrefix = "").elim "" (·.replacement)
  else exact

/-- The part of `computeRoutes` on prefix replacements. -/
def replacePrefix (validCond : DetailedCondition) (spec : RouteSpec) (r : Route) : Checked Route :=
  let replacements := spec.pathRewritePolicy.getD []
  if replacements = [] then .ok r
  else
    match r.pathMatchCondition with
    | .pathPrefix routingPrefix _ =>
      match prefixReplacementsAreValid replacements with
      | .error (reason, err) => reject validCond .prefixReplaceError reason err
      | .ok () => .ok { r with prefixRewrite := prefixReplacement replacements routingPrefix }
    | _ =>
      reject validCond .prefixReplaceError "MustHavePrefix"
        "cannot specify prefix replacements without a prefix condition"

/-- The end of the loop body: a route without clusters answers 503 unless it
redirects, and a route of a wildcard host matches the host as well. -/
def finishRoute (fqdn : String) (spec : RouteSpec) (r : Route) : Route :=
  { r with
    directResponse :=
      if r.clusters = [] ∧ spec.requestRedirectPolicy = none then some serviceUnavailable
      else r.directResponse
    headerMatchConditions := r.headerMatchConditions ++ hostConditions fqdn }

/-- The root proxy that routes are computed for, with its virtual host. -/
structure Root where
  proxy : HTTPProxy
  virtualHost : VirtualHostSpec

/-- The place in the tree of includes that is being visited: the proxy, and the
condition blocks of the includes that led to it. -/
structure Position where
  proxy : HTTPProxy
  chain : List (List MatchCondition)

/-- The conditions accumulated along the includes. -/
def Position.conditions (pos : Position) : List MatchCondition := pos.chain.flatten

/-- The loop state of `computeRoutes` over the routes of a proxy. -/
structure LoopState where
  validCond : DetailedCondition
  dynamicHeaders : Map String String
  routes : List Route

/-- The route without its services, and the condition with the warnings about its
load balancer policy. -/
def baseRoute (root : Root) (enforceTLS : Bool) (pos : Position) (st : LoopState)
    (spec : RouteSpec) : Checked (Route × LoadBalancerStrategy × DetailedCondition) := do
  require (pathMatchConditionsValid spec.conditions) st.validCond .routeError
    "PathMatchConditionsNotValid" ("route: " ++ ·)
  let routeConditions := pos.conditions ++ spec.conditions
  require (headerMatchConditionsValid lib routeConditions) st.validCond .routeError
    "HeaderMatchConditionsNotValid" id
  let reqHP ← require
    (headersPolicyRoute lib ord spec.requestHeadersPolicy true st.dynamicHeaders)
    st.validCond .routeError "RequestHeadersPolicyInvalid" (· ++ " on request headers")
  let respHP ← require
    (headersPolicyRoute lib ord spec.responseHeadersPolicy false st.dynamicHeaders)
    st.validCond .routeError "ResponseHeaderPolicyInvalid" (· ++ " on response headers")
  let cookieRP ← require (cookieRewritePolicies lib spec.cookieRewritePolicies) st.validCond
    .routeError "CookieRewritePoliciesInvalid" (· ++ " on route cookie rewrite rules")
  if spec.services = [] ∧ spec.requestRedirectPolicy = none then
    reject st.validCond .routeError "NoServicesPresent"
      "route.services must have at least one entry"
  let tp ← require (timeoutPolicy lib spec.timeoutPolicy) st.validCond .routeError
    "TimeoutPolicyNotValid" ("route.timeoutPolicy failed to parse: " ++ ·)
  let rlp ← require (rateLimitPolicy lib ord spec.rateLimitPolicy) st.validCond .routeError
    "RateLimitPolicyNotValid" ("route.rateLimitPolicy is invalid: " ++ ·)
  let (requestHashPolicies, lbPolicy, validCond) :=
    loadBalancerRequestHashPolicies lib spec.loadBalancerPolicy st.validCond
  let r : Route :=
    { pathMatchCondition := mergePathMatchConditions routeConditions
      headerMatchConditions := mergeHeaderMatchConditions routeConditions
      websocket := spec.enableWebsockets
      httpsUpgrade := routeEnforceTLS enforceTLS (spec.permitInsecure && !p.disablePermitInsecure)
      timeoutPolicy := tp
      retryPolicy := retryPolicy lib spec.retryPolicy
      requestHeadersPolicy := reqHP
      responseHeadersPolicy := respHP
      cookieRewritePolicies := cookieRP
      rateLimitPolicy := rlp
      requestHashPolicies
      redirect := redirectRoutePolicy spec.requestRedirectPolicy
      origin := some
        { root := namespacedNameOf root.proxy.toObjectMeta, chain := pos.chain,
          proxy := namespacedNameOf pos.proxy.toObjectMeta, spec := some spec } }
  let r ← replacePrefix validCond spec (authorizeRoute root.virtualHost spec r)
  pure (r, lbPolicy, validCond)

/-- The loop of `computeRoutes` over the routes of a proxy. -/
def computeRoute (root : Root) (enforceTLS : Bool) (pos : Position) (st : LoopState)
    (spec : RouteSpec) : Checked LoopState := do
  let (r, lbPolicy, validCond) ← baseRoute lib ord p root enforceTLS pos st spec
  let done ← spec.services.foldlM (addService lib ord p source pos.proxy spec lbPolicy)
    { validCond, dynamicHeaders := st.dynamicHeaders, route := r }
  pure
    { validCond := done.validCond
      dynamicHeaders := done.dynamicHeaders
      routes := st.routes ++ [finishRoute root.virtualHost.fqdn spec done.route] }

/-! ## Prefix expansion -/

/-- `strings.TrimRight(s, "/")`. -/
def trimSlashes (s : String) : String :=
  String.ofList ((s.toList.reverse.dropWhile (· = '/')).reverse)

/-- The key under which a routing prefix is grouped. -/
def groupPrefix (routingPrefix : String) : String :=
  if routingPrefix = "/" then routingPrefix else trimSlashes routingPrefix

def addToGroup (groups : Map String (List Route)) (r : Route) : Map String (List Route) :=
  match r.pathMatchCondition with
  | .pathPrefix routingPrefix _ =>
    let key := groupPrefix routingPrefix
    groups.insert key ((groups.lookup key).getD [] ++ [r])
  | _ => groups

/-- What becomes of the routes of one group: a lone route with a replacement is
split into one for the prefix and one for the prefix with a slash. -/
def expandGroup (key : String) (routes : List Route) : List Route :=
  match routes with
  | [r] =>
    if r.prefixRewrite = "" ∨ r.pathMatchCondition = .pathPrefix "/" .string then [r]
    else
      let rewrite := trimSlashes r.prefixRewrite
      [{ r with
          prefixRewrite := if rewrite = "" then "/" else rewrite
          pathMatchCondition := .pathPrefix key .string },
        { r with
          prefixRewrite := rewrite ++ "/"
          pathMatchCondition := .pathPrefix (key ++ "/") .string }]
  | routes => routes

/-- `expandPrefixMatches`. Routes without a path prefix are kept; the source would
panic on them, but no computed route is without one. -/
def expandPrefixMatches (site : String) (routes : List Route) : List Route :=
  let unprefixed := routes.filter fun r =>
    match r.pathMatchCondition with
    | .pathPrefix _ _ => false
    | _ => true
  unprefixed ++
    (ord.range ("expandPrefixMatches " ++ site) (routes.foldl addToGroup ∅)).flatMap fun group =>
      expandGroup group.1 group.2

/-! ## Includes -/

/-- `includeMatchConditionsIdentical`: two neighbouring includes share a condition. -/
def includeMatchConditionsIdentical : List Include → Bool
  | a :: b :: rest =>
    (b.conditions.any fun cA => a.conditions.any fun cB => cA = cB) ||
      includeMatchConditionsIdentical (b :: rest)
  | _ => false

/-- The path of a proxy in messages about cycles. -/
def proxyPath (proxy : HTTPProxy) : String := proxy.ns ++ "/" ++ proxy.name

/-- The answer to requests for an include that was not found. -/
def missingIncludeRoute (root : Root) (pos : Position) (inc : Include) : Route where
  pathMatchCondition := mergePathMatchConditions inc.conditions
  headerMatchConditions := mergeHeaderMatchConditions inc.conditions
  directResponse := some badGateway
  origin := some
    { root := namespacedNameOf root.proxy.toObjectMeta, chain := pos.chain ++ [inc.conditions],
      proxy := namespacedNameOf pos.proxy.toObjectMeta, spec := none }

/-- What a visit of a proxy computes: the state, the condition of the proxy and its
routes. -/
structure Visit where
  state : State
  validCond : DetailedCondition
  routes : List Route := []

/-- An include that is skipped with an error. -/
def Visit.skip (v : Visit) (type : ErrorType) (reason message : String) : Visit :=
  { v with validCond := v.validCond.addError type reason message }

/-- The loop of `computeRoutes` over the includes; `recurse` visits an included
proxy. -/
def computeInclude (recurse : State → DetailedCondition → Position → Visit) (root : Root)
    (pos : Position) (v : Visit) (inc : Include) : Visit :=
  let name : NamespacedName := { ns := stringOrDefault inc.ns pos.proxy.ns, name := inc.name }
  match pathMatchConditionsValid inc.conditions with
  | .error err => v.skip .includeError "PathMatchConditionsNotValid" ("include: " ++ err)
  | .ok () =>
    match headerMatchConditionsValid lib inc.conditions with
    | .error err => v.skip .routeError "HeaderMatchConditionsNotValid" err
    | .ok () =>
      match source.httpproxies.lookup name with
      | none =>
        let v := v.skip .includeError "IncludeNotFound" ("include " ++ name.string ++ " not found")
        if inc.conditions = [] then v
        else { v with routes := v.routes ++ [missingIncludeRoute root pos inc] }
      | some included =>
        if included.virtualHost.isSome then
          v.skip .includeError "RootIncludesRoot"
            "root httpproxy cannot include another root httpproxy"
        else
          let pu := Status.Cache.proxyAccessor included
          let below := recurse v.state pu.conditionFor
            { proxy := included, chain := pos.chain ++ [inc.conditions] }
          let state := below.state.commit { pu with valid := some below.validCond }
          { v with
            state := { state with
              orphaned := state.orphaned.filter (· ≠ { ns := included.ns, name := included.name }) }
            routes := v.routes ++ below.routes }

/-- The dynamic headers at the start of the loop over the routes of a proxy. -/
def proxyHeaders (proxy : HTTPProxy) : Map String String :=
  (∅ : Map String String).insert "Sesame_NAMESPACE" proxy.ns

/-- The loop of `computeRoutes` over the routes, after that over the includes. -/
def routeLoop (root : Root) (enforceTLS : Bool) (pos : Position) (v : Visit) :
    Except DetailedCondition LoopState :=
  pos.proxy.routes.foldlM (computeRoute lib ord p source root enforceTLS pos)
    { validCond := v.validCond, dynamicHeaders := proxyHeaders pos.proxy, routes := v.routes }

/-- What `computeRoutes` returns after the loop over the includes. -/
def takeRoutes (root : Root) (enforceTLS : Bool) (visited : List HTTPProxy) (pos : Position)
    (v : Visit) : Visit :=
  match routeLoop lib ord p source root enforceTLS pos v with
  | .error validCond => { v with validCond, routes := [] }
  | .ok done =>
    { v with
      validCond := done.validCond
      routes := expandPrefixMatches ord (" -> ".intercalate (visited.map proxyPath)) done.routes }

def computeRoutes (root : Root) (enforceTLS : Bool) :
    Nat → List HTTPProxy → State → DetailedCondition → Position → Visit
  | 0, _, state, validCond, _ => { state, validCond }
  | fuel + 1, visited, state, validCond, pos =>
    if visited.any fun v => v.name = pos.proxy.name ∧ v.ns = pos.proxy.ns then
      let path := visited.map proxyPath ++ [proxyPath pos.proxy]
      let message := "include creates an include cycle: " ++ " -> ".intercalate path
      { state, validCond := validCond.addError .includeError "IncludeCreatesCycle" message }
    else if includeMatchConditionsIdentical pos.proxy.includes then
      { state
        validCond := validCond.addError .includeError "DuplicateMatchConditions"
          "duplicate conditions defined on an include" }
    else
      let visited := visited ++ [pos.proxy]
      let v := pos.proxy.includes.foldl
        (computeInclude lib source (computeRoutes root enforceTLS fuel visited) root pos)
        { state, validCond }
      takeRoutes lib ord p source root enforceTLS visited pos v

end HTTPProxyProcessor

end Sesame.Dag
