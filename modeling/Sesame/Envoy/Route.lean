/-
# Routes and virtual hosts

`internal/envoy/v3/route.go`, the rate limits of `ratelimit.go` and
`internal/envoy/route.go`: how a route of the DAG becomes an Envoy route. A message
keeps the fields that depend on the input. The Lua code of a cookie rewrite is
represented by the merged policies that it is generated from, and a maximum age by
its duration.
-/

import Sesame.Dag.Service
import Sesame.Envoy.Listener

namespace Sesame.Envoy

open Lib Dag

/-! ## Matches -/

/-- The specifier of a `HeaderMatcher`. -/
inductive HeaderMatchSpecifier
  | exactMatch (value : String)
  | safeRegexMatch (regex : String)
  | presentMatch
  deriving DecidableEq

structure HeaderMatcher where
  name : String
  invertMatch : Bool
  specifier : HeaderMatchSpecifier
  deriving DecidableEq

def containsMatch (s : String) : HeaderMatchSpecifier :=
  .safeRegexMatch (".*" ++ String.ofList (quoteMeta s.toList) ++ ".*")

def headerMatcher (headers : List HeaderMatchCondition) : List HeaderMatcher :=
  headers.map fun h =>
    { name := h.name
      invertMatch := h.invert
      specifier :=
        match h.matchType with
        | .exact => .exactMatch h.value
        | .contains => containsMatch h.value
        | .present => .presentMatch
        | .regex => .safeRegexMatch h.value }

/-- The path specifier of a `RouteMatch`. -/
inductive PathSpecifier
  | safeRegex (regex : String)
  | pathPrefix (value : String)
  | path (path : String)
  deriving DecidableEq

/-- `RouteMatch`, the message. -/
structure RouteMatch where
  pathSpecifier : PathSpecifier
  headers : List HeaderMatcher
  deriving DecidableEq

def prefixPathMatchSegmentRegex : String := "(?:[\\/].*)*"

def routeMatch (route : Dag.Route) : RouteMatch where
  pathSpecifier :=
    match route.pathMatchCondition with
    | .regex expr => .safeRegex ("^" ++ expr)
    | .pathPrefix value .segment =>
      .safeRegex ("^" ++ String.ofList (quoteMeta value.toList) ++ prefixPathMatchSegmentRegex)
    | .pathPrefix value .string => .pathPrefix value
    | .exact path => .path path
  headers := headerMatcher route.headerMatchConditions

/-! ## Headers, rate limits and cookies -/

structure HeaderValueOption where
  key : String
  value : String
  append : Bool
  deriving DecidableEq

/-- `headerValueList`; the keys of a map differ, so the order in which it is read does
not show in the sorted list. -/
def headerValueList (hvm : Map String String) (app : Bool) : List HeaderValueOption :=
  sortStable (fun a b => a.key < b.key)
    (hvm.toList.map fun e => { key := e.1, value := e.2, append := app })

structure LocalRateLimit where
  statPrefix : String
  maxTokens : UInt32
  tokensPerFill : UInt32
  fillInterval : Int64
  responseHeadersToAdd : List HeaderValueOption
  status : Option UInt32
  deriving DecidableEq

def localRateLimitConfig (config : LocalRateLimitPolicy) (statPrefix : String) :
    LocalRateLimit where
  statPrefix := statPrefix
  maxTokens := config.maxTokens
  tokensPerFill := config.tokensPerFill
  fillInterval := config.fillInterval
  responseHeadersToAdd := headerValueList config.responseHeadersToAdd false
  status := if 0 < config.responseStatusCode then some config.responseStatusCode else none

/-- The action specifier of a `RateLimit_Action`. -/
inductive RateLimitAction
  | genericKey (descriptorKey descriptorValue : String)
  | requestHeaders (headerName descriptorKey : String)
  | headerValueMatch (descriptorValue : String) (expectMatch : Bool) (headers : List HeaderMatcher)
  | remoteAddress
  deriving DecidableEq

def rateLimitAction : RateLimitDescriptorEntry → RateLimitAction
  | .genericKey key value => .genericKey key value
  | .headerMatch headerName key => .requestHeaders headerName key
  | .headerValueMatch headers expectMatch value =>
    .headerValueMatch value expectMatch (headerMatcher headers)
  | .remoteAddress => .remoteAddress

/-- `GlobalRateLimits`: the actions of each descriptor. -/
def globalRateLimits (descriptors : List (List RateLimitDescriptorEntry)) :
    List (List RateLimitAction) :=
  descriptors.map fun entries => entries.map rateLimitAction

/-- A policy with the values that a later policy for the same cookie gives. -/
def updatePolicy (p : CookieRewritePolicy) (old : Option CookieRewritePolicy) :
    CookieRewritePolicy :=
  match old with
  | none => p
  | some old =>
    { old with
      path := p.path <|> old.path
      domain := p.domain <|> old.domain
      secure := if p.secure ≠ 0 then p.secure else old.secure
      sameSite := p.sameSite <|> old.sameSite }

/-- One step of the merge of `cookieRewriteConfig`. -/
def mergeCookiePolicy (merged : Map String CookieRewritePolicy) (p : CookieRewritePolicy) :
    Map String CookieRewritePolicy :=
  merged.insert p.name (updatePolicy p (merged.lookup p.name))

def cookieRewriteConfig (ord : MapOrder) (site : String)
    (routePolicies clusterPolicies : List CookieRewritePolicy) : List CookieRewritePolicy :=
  ord.values site ((routePolicies ++ clusterPolicies).foldl mergeCookiePolicy ∅)

/-! ## Actions -/

structure RedirectAction where
  httpsRedirect : Bool := false
  hostRedirect : String := ""
  schemeRedirect : Option String := none
  portRedirect : UInt32 := 0
  found : Bool := false
  deriving DecidableEq

def upgradeHTTPS : RedirectAction where
  httpsRedirect := true

/-- `routeRedirect`. The response code is 301, unless it is 302, `found`. -/
def routeRedirect (redirect : Redirect) : RedirectAction where
  hostRedirect := redirect.hostname
  schemeRedirect := if redirect.scheme = "" then none else some redirect.scheme
  portRedirect := redirect.portNumber
  found := redirect.statusCode = 302

/-- The `RetryPolicy` message. -/
structure EnvoyRetryPolicy where
  retryOn : String
  retriableStatusCodes : List UInt32
  numRetries : Option UInt32
  perTryTimeout : Option Int64
  deriving DecidableEq

def retryPolicy (r : Dag.Route) : Option EnvoyRetryPolicy :=
  match r.retryPolicy with
  | none => none
  | some rp =>
    if rp.retryOn = "" then none
    else
      some
        { retryOn := rp.retryOn
          retriableStatusCodes := rp.retriableStatusCodes
          numRetries := if 0 < rp.numRetries then some rp.numRetries else none
          perTryTimeout := timeout rp.perTryTimeout }

inductive HashPolicySpecifier
  | header (headerName : String)
  | cookie (name : String) (ttl : Int64) (path : String)
  | connectionProperties
  deriving DecidableEq

/-- `RouteAction_HashPolicy`. -/
structure HashPolicy where
  terminal : Bool
  specifier : Option HashPolicySpecifier
  deriving DecidableEq

/-- One element of `hashPolicy`; a later attribute replaces an earlier one. -/
def hashPolicyOf (rhp : RequestHashPolicy) : HashPolicy where
  terminal := rhp.terminal
  specifier :=
    if rhp.hashSourceIP then some .connectionProperties
    else
      match rhp.cookieHashOptions with
      | some cookie => some (.cookie cookie.cookieName cookie.ttl cookie.path)
      | none => rhp.headerHashOptions.map .header

/-- One cluster of a `WeightedCluster`. -/
structure ClusterWeight where
  name : String
  weight : UInt32
  requestHeadersToAdd : List HeaderValueOption := []
  requestHeadersToRemove : List String := []
  responseHeadersToAdd : List HeaderValueOption := []
  responseHeadersToRemove : List String := []
  lua : Option (List CookieRewritePolicy) := none
  deriving DecidableEq

/-- The cluster specifier of a `RouteAction`. -/
inductive RouteClusterSpecifier
  | cluster (name : String)
  | weightedClusters (clusters : List ClusterWeight) (totalWeight : UInt32)
  deriving DecidableEq

structure RouteAction where
  retryPolicy : Option EnvoyRetryPolicy
  timeout : Option Int64
  idleTimeout : Option Int64
  prefixRewrite : String
  hashPolicy : List HashPolicy
  requestMirrorPolicies : List String
  rateLimits : List (List RateLimitAction)
  hostRewriteLiteral : Option String
  upgradeConfigs : List String
  clusterSpecifier : RouteClusterSpecifier
  deriving DecidableEq

def noHeaders (policy : Option HeadersPolicy) : Bool :=
  match policy with
  | none => true
  | some hp => hp.set.entries = [] && hp.add.entries = [] && hp.remove = []

/-- A response headers policy that changes nothing; it has nothing to add. -/
def noResponseHeaders (policy : Option HeadersPolicy) : Bool :=
  match policy with
  | none => true
  | some hp => hp.set.entries = [] && hp.remove = []

/-- `SingleSimpleCluster`, with the cluster. -/
def singleSimpleCluster (route : Dag.Route) : Option Cluster :=
  match route.clusters with
  | [cluster] =>
    if route.cookieRewritePolicies = [] && noHeaders cluster.requestHeadersPolicy &&
        noResponseHeaders cluster.responseHeadersPolicy && cluster.cookieRewritePolicies = [] then
      some cluster
    else none
  | _ => none

/-- The headers that `buildRoute` and `weightedClusters` add to requests. -/
def requestHeadersToAdd (policy : Option HeadersPolicy) : List HeaderValueOption :=
  policy.elim [] fun hp => headerValueList hp.set false ++ headerValueList hp.add true

def responseHeadersToAdd (policy : Option HeadersPolicy) : List HeaderValueOption :=
  policy.elim [] fun hp => headerValueList hp.set false

def headersToRemove (policy : Option HeadersPolicy) : List String :=
  policy.elim [] fun hp => hp.remove

/-- `httpWeightedClusterSorter`. -/
def clusterWeightLess (a b : ClusterWeight) : Bool :=
  weightedClusterLess (a.name, a.weight) (b.name, b.weight)

/-- The entry of one cluster in `weightedClusters`. -/
def clusterWeight (lib : Stdlib) (ord : MapOrder) (route : Dag.Route) (cluster : Cluster) :
    ClusterWeight where
  name := clustername lib cluster
  weight := cluster.weight
  requestHeadersToAdd := requestHeadersToAdd cluster.requestHeadersPolicy
  requestHeadersToRemove := headersToRemove cluster.requestHeadersPolicy
  responseHeadersToAdd := responseHeadersToAdd cluster.responseHeadersPolicy
  responseHeadersToRemove := headersToRemove cluster.responseHeadersPolicy
  lua :=
    if route.cookieRewritePolicies = [] && cluster.cookieRewritePolicies = [] then none
    else some (cookieRewriteConfig ord ("cookieRewriteConfig " ++ clustername lib cluster)
      route.cookieRewritePolicies cluster.cookieRewritePolicies)

/-- `weightedClusters`. The total weight is a 32-bit sum. -/
def weightedClusters (lib : Stdlib) (ord : MapOrder) (route : Dag.Route) : RouteClusterSpecifier :=
  let clusters := route.clusters.map (clusterWeight lib ord route)
  let total := route.clusters.foldl (fun sum c => sum + c.weight) (0 : UInt32)
  if total = 0 then
    .weightedClusters (sortStable clusterWeightLess (clusters.map fun c => { c with weight := 1 }))
      (UInt32.ofNat route.clusters.length)
  else .weightedClusters (sortStable clusterWeightLess clusters) total

def hostReplaceHeader (hp : Option HeadersPolicy) : String := hp.elim "" (·.hostRewrite)

def routeRoute (lib : Stdlib) (ord : MapOrder) (r : Dag.Route) : RouteAction where
  retryPolicy := retryPolicy r
  timeout := timeout r.timeoutPolicy.responseTimeout
  idleTimeout := timeout r.timeoutPolicy.idleTimeout
  prefixRewrite := r.prefixRewrite
  hashPolicy := r.requestHashPolicies.map hashPolicyOf
  requestMirrorPolicies := r.mirrorPolicy.toList.map (clustername lib)
  rateLimits := (r.rateLimitPolicy.bind (·.globally)).elim [] globalRateLimits
  hostRewriteLiteral :=
    let val := hostReplaceHeader r.requestHeadersPolicy
    if val = "" then none else some val
  upgradeConfigs := if r.websocket then ["websocket"] else []
  clusterSpecifier :=
    match singleSimpleCluster r with
    | some cluster => .cluster (clustername lib cluster)
    | none => weightedClusters lib ord r

/-! ## Routes -/

inductive Action
  | route (action : RouteAction)
  | redirect (action : RedirectAction)
  | directResponse (status : UInt32)
  deriving DecidableEq

inductive ExtAuthzPerRoute
  | disabled
  | checkSettings (contextExtensions : Map String String)
  deriving DecidableEq

/-- `Route`, the message, with its configuration for two filters. -/
structure EnvoyRoute where
  routeMatch : RouteMatch
  action : Action
  requestHeadersToAdd : List HeaderValueOption := []
  requestHeadersToRemove : List String := []
  responseHeadersToAdd : List HeaderValueOption := []
  responseHeadersToRemove : List String := []
  localRateLimit : Option LocalRateLimit := none
  extAuthz : Option ExtAuthzPerRoute := none
  deriving DecidableEq

/-- The override of the authorization filter for a route. -/
def routeAuthz (route : Dag.Route) (authService : Option ExtensionCluster) :
    Option ExtAuthzPerRoute :=
  if authService.isNone then none
  else if route.authDisabled then some .disabled
  else if route.authContext.entries ≠ [] then some (.checkSettings route.authContext)
  else none

def buildRoute (lib : Stdlib) (ord : MapOrder) (dagRoute : Dag.Route) (vhostName : String)
    (secure : Bool) (authService : Option ExtensionCluster) : EnvoyRoute :=
  if dagRoute.httpsUpgrade && !secure then
    { routeMatch := routeMatch dagRoute, action := .redirect upgradeHTTPS }
  else
    match dagRoute.directResponse with
    | some status => { routeMatch := routeMatch dagRoute, action := .directResponse status }
    | none =>
      match dagRoute.redirect with
      | some redirect =>
        { routeMatch := routeMatch dagRoute, action := .redirect (routeRedirect redirect) }
      | none =>
        { routeMatch := routeMatch dagRoute
          action := .route (routeRoute lib ord dagRoute)
          requestHeadersToAdd := requestHeadersToAdd dagRoute.requestHeadersPolicy
          requestHeadersToRemove := headersToRemove dagRoute.requestHeadersPolicy
          responseHeadersToAdd := responseHeadersToAdd dagRoute.responseHeadersPolicy
          responseHeadersToRemove := headersToRemove dagRoute.responseHeadersPolicy
          localRateLimit := (dagRoute.rateLimitPolicy.bind (·.locally)).map fun config =>
            localRateLimitConfig config ("vhost." ++ vhostName)
          extAuthz := routeAuthz dagRoute authService }

/-- What a route has to be like for its action to forward to clusters. -/
theorem buildRoute_forwards_iff {lib : Stdlib} {ord : MapOrder} {dagRoute : Dag.Route}
    {vhostName : String} {secure : Bool} {authService : Option ExtensionCluster} :
    (∃ action, (buildRoute lib ord dagRoute vhostName secure authService).action =
        .route action) ↔
      (dagRoute.httpsUpgrade = true → secure = true) ∧ dagRoute.directResponse = none ∧
        dagRoute.redirect = none := by
  rw [buildRoute]
  cases hupgrade : dagRoute.httpsUpgrade <;> cases secure <;>
    cases hdirect : dagRoute.directResponse <;> cases hredirect : dagRoute.redirect <;> simp

/-! ## Virtual hosts -/

/-- `CorsPolicy`. -/
structure EnvoyCorsPolicy where
  allowCredentials : Bool
  allowHeaders : String
  allowMethods : String
  exposeHeaders : String
  maxAge : Option Int64
  allowOriginStringMatch : List String
  deriving DecidableEq

def corsPolicy (cp : CORSPolicy) : EnvoyCorsPolicy where
  allowCredentials := cp.allowCredentials
  allowHeaders := ",".intercalate cp.allowHeaders
  allowMethods := ",".intercalate cp.allowMethods
  exposeHeaders := ",".intercalate cp.exposeHeaders
  maxAge := timeout cp.maxAge
  allowOriginStringMatch := cp.allowOrigin

/-- `VirtualHost`, the message. -/
structure EnvoyVirtualHost where
  name : String
  domains : List String
  routes : List EnvoyRoute
  cors : Option EnvoyCorsPolicy := none
  localRateLimit : Option LocalRateLimit := none
  rateLimits : List (List RateLimitAction) := []
  deriving DecidableEq

def virtualHostAndRoutes (lib : Stdlib) (ord : MapOrder) (vh : Dag.VirtualHost)
    (dagRoutes : List Dag.Route) (secure : Bool) (authService : Option ExtensionCluster) :
    EnvoyVirtualHost where
  name := resourceName lib [vh.name]
  domains := [vh.name]
  routes := dagRoutes.map fun route => buildRoute lib ord route vh.name secure authService
  cors := vh.corsPolicy.map corsPolicy
  localRateLimit := (vh.rateLimitPolicy.bind (·.locally)).map fun config =>
    localRateLimitConfig config ("vhost." ++ vh.name)
  rateLimits := (vh.rateLimitPolicy.bind (·.globally)).elim [] globalRateLimits

/-- `RouteConfiguration`; the header that it adds to all requests is left out. -/
structure RouteConfiguration where
  name : String
  virtualHosts : List EnvoyVirtualHost := []
  deriving DecidableEq

end Sesame.Envoy
