/-
# The DAG

The graph of hosts, routes and clusters that the processors build from the
Kubernetes objects. Objects are values here: the source shares pointers, and
where a shared object is written after it was attached the model says so at that
place.

Two records carry a history variable that the source does not have and that no
operation reads: `Secret.attachedFor` is the namespace of the object a secret was
attached for, and `Route.origin` is the specification a route was computed from.
-/

import Sesame.Api.HTTPProxy
import Sesame.Timeout

namespace Sesame.Dag

open Lib Api

/-! ## Match conditions -/

inductive PrefixMatchType
  | string
  | segment
  deriving DecidableEq

/-- `prefixMatchTypeToName`. -/
def PrefixMatchType.toName : PrefixMatchType → String
  | .string => "string"
  | .segment => "segment"

/-- The path conditions that implement `MatchCondition`. -/
inductive PathMatchCondition
  | exact (path : String)
  | pathPrefix (value : String) (matchType : PrefixMatchType)
  | regex (expr : String)
  deriving DecidableEq

def PathMatchCondition.string : PathMatchCondition → String
  | .exact path => "exact: " ++ path
  | .pathPrefix value matchType => "prefix: " ++ value ++ " type: " ++ matchType.toName
  | .regex expr => "regex: " ++ expr

/-- The `HeaderMatchType` constants. -/
inductive HeaderMatchType
  | exact
  | contains
  | present
  | regex
  deriving DecidableEq

/-- The text of a `HeaderMatchType` constant. -/
def HeaderMatchType.text : HeaderMatchType → String
  | .exact => "exact"
  | .contains => "contains"
  | .present => "present"
  | .regex => "regex"

structure HeaderMatchCondition where
  name : String
  value : String := ""
  matchType : HeaderMatchType
  invert : Bool := false
  deriving DecidableEq

def formatBool (b : Bool) : String := if b then "true" else "false"

def HeaderMatchCondition.string (hc : HeaderMatchCondition) : String :=
  "header: " ++ "&".intercalate
    ["name=" ++ hc.name, "value=" ++ hc.value, "matchtype=", hc.matchType.text,
      "invert=", formatBool hc.invert]

/-! ## Secrets and services -/

/-- `dag.Secret`, with the namespace of the object it was attached for. -/
structure Secret where
  object : Api.Secret
  attachedFor : String
  deriving DecidableEq

def caCertificateKey : String := "ca.crt"

structure PeerValidationContext where
  caCertificate : Option Secret := none
  subjectName : String := ""
  skipClientCertValidation : Bool := false
  deriving DecidableEq

def getCACertificate (pvc : Option PeerValidationContext) : Bytes :=
  match pvc.bind (·.caCertificate) with
  | none => []
  | some ca => ca.object.value caCertificateKey

def getSubjectName (pvc : Option PeerValidationContext) : String :=
  match pvc with
  | none => ""
  | some pvc => pvc.subjectName

/-- The protocol spoken to an upstream: `""`, `"h2"`, `"h2c"` or `"tls"`. -/
inductive UpstreamProtocol
  | http1
  | h2
  | h2c
  | tls
  deriving DecidableEq

structure WeightedService where
  weight : UInt32
  serviceName : String
  serviceNamespace : String
  servicePort : ServicePort
  deriving DecidableEq

structure Service where
  weighted : WeightedService
  protocol : UpstreamProtocol := .http1
  maxConnections : UInt32 := 0
  maxPendingRequests : UInt32 := 0
  maxRequests : UInt32 := 0
  maxRetries : UInt32 := 0
  externalName : String := ""
  deriving DecidableEq

/-! ## Policies -/

structure TimeoutPolicy where
  responseTimeout : Timeout.Setting := {}
  idleTimeout : Timeout.Setting := {}
  deriving DecidableEq

structure RetryPolicy where
  retryOn : String
  retriableStatusCodes : List UInt32 := []
  numRetries : UInt32 := 0
  perTryTimeout : Timeout.Setting := {}
  deriving DecidableEq

/-- `HeadersPolicy`. A nil map and an empty one behave alike. -/
structure HeadersPolicy where
  hostRewrite : String := ""
  add : Map String String := ∅
  set : Map String String := ∅
  remove : List String := []
  deriving DecidableEq

/-- `CookieRewritePolicy`; `secure` is 0 when unset, 1 for false, 2 for true. -/
structure CookieRewritePolicy where
  name : String
  path : Option String := none
  domain : Option String := none
  secure : Nat := 0
  sameSite : Option String := none
  deriving DecidableEq

structure LocalRateLimitPolicy where
  maxTokens : UInt32
  tokensPerFill : UInt32
  fillInterval : Int64
  responseStatusCode : UInt32 := 0
  responseHeadersToAdd : Map String String := ∅
  deriving DecidableEq

/-- `RateLimitDescriptorEntry`, of which exactly one field is non-nil. -/
inductive RateLimitDescriptorEntry
  | genericKey (key value : String)
  | headerMatch (headerName key : String)
  | headerValueMatch (headers : List HeaderMatchCondition) (expectMatch : Bool) (value : String)
  | remoteAddress
  deriving DecidableEq

/-- `RateLimitPolicy`; the global part lists the entries of each descriptor. -/
structure RateLimitPolicy where
  locally : Option LocalRateLimitPolicy := none
  globally : Option (List (List RateLimitDescriptorEntry)) := none
  deriving DecidableEq

structure CookieHashOptions where
  cookieName : String
  ttl : Int64
  path : String
  deriving DecidableEq

/-- `RequestHashPolicy`; the header hash options are the header name. -/
structure RequestHashPolicy where
  terminal : Bool := false
  headerHashOptions : Option String := none
  cookieHashOptions : Option CookieHashOptions := none
  hashSourceIP : Bool := false
  deriving DecidableEq

structure CORSPolicy where
  allowCredentials : Bool := false
  allowOrigin : List String := []
  allowMethods : List String := []
  allowHeaders : List String := []
  exposeHeaders : List String := []
  maxAge : Timeout.Setting := {}

/-- `HTTPHealthCheckPolicy`, with durations in nanoseconds. -/
structure HTTPHealthCheckPolicy where
  path : String
  host : String := ""
  interval : Int64
  timeout : Int64
  unhealthyThreshold : UInt32
  healthyThreshold : UInt32
  deriving DecidableEq

/-- `TCPHealthCheckPolicy`, with durations in nanoseconds. -/
structure TCPHealthCheckPolicy where
  interval : Int64
  timeout : Int64
  unhealthyThreshold : UInt32
  healthyThreshold : UInt32
  deriving DecidableEq

/-- The load balancer policy of a cluster; `unset` is the empty string. -/
inductive LoadBalancerStrategy
  | unset
  | weightedLeastRequest
  | random
  | roundRobin
  | cookie
  | requestHash
  deriving DecidableEq

/-- The text of a `LoadBalancerPolicy` constant. -/
def LoadBalancerStrategy.text : LoadBalancerStrategy → String
  | .unset => ""
  | .weightedLeastRequest => "WeightedLeastRequest"
  | .random => "Random"
  | .roundRobin => "RoundRobin"
  | .cookie => "Cookie"
  | .requestHash => "RequestHash"

/-- `config.ClusterDNSFamilyType`. -/
inductive DNSLookupFamily
  | unset
  | auto
  | v4
  | v6
  deriving DecidableEq

/-! ## Clusters and routes -/

structure Cluster where
  upstream : Service
  weight : UInt32 := 0
  protocol : UpstreamProtocol := .http1
  upstreamValidation : Option PeerValidationContext := none
  loadBalancerPolicy : LoadBalancerStrategy := .unset
  httpHealthCheckPolicy : Option HTTPHealthCheckPolicy := none
  tcpHealthCheckPolicy : Option TCPHealthCheckPolicy := none
  requestHeadersPolicy : Option HeadersPolicy := none
  responseHeadersPolicy : Option HeadersPolicy := none
  cookieRewritePolicies : List CookieRewritePolicy := []
  sni : String := ""
  dnsLookupFamily : DNSLookupFamily := .unset
  clientCertificate : Option Secret := none
  deriving DecidableEq

structure Redirect where
  hostname : String := ""
  scheme : String := ""
  portNumber : UInt32 := 0
  statusCode : Int := 0
  deriving DecidableEq

/-- Where a route of an HTTPProxy comes from: the root, the condition blocks of
the includes followed from it, the proxy they lead to, and the route of that
proxy's specification, or none for the answer to a missing include. -/
structure RouteOrigin where
  root : NamespacedName
  chain : List (List MatchCondition)
  proxy : NamespacedName
  spec : Option RouteSpec
  deriving DecidableEq

/-- `Route`. A direct response is its status code, a mirror policy its cluster. -/
structure Route where
  pathMatchCondition : PathMatchCondition
  headerMatchConditions : List HeaderMatchCondition := []
  clusters : List Cluster := []
  httpsUpgrade : Bool := false
  authDisabled : Bool := false
  authContext : Map String String := ∅
  websocket : Bool := false
  timeoutPolicy : TimeoutPolicy := {}
  retryPolicy : Option RetryPolicy := none
  prefixRewrite : String := ""
  mirrorPolicy : Option Cluster := none
  requestHeadersPolicy : Option HeadersPolicy := none
  responseHeadersPolicy : Option HeadersPolicy := none
  cookieRewritePolicies : List CookieRewritePolicy := []
  rateLimitPolicy : Option RateLimitPolicy := none
  requestHashPolicies : List RequestHashPolicy := []
  directResponse : Option UInt32 := none
  redirect : Option Redirect := none
  origin : Option RouteOrigin := none
  deriving DecidableEq

def conditionsToString (r : Route) : String :=
  ",".intercalate (r.pathMatchCondition.string :: r.headerMatchConditions.map (·.string))

/-! ## Service clusters -/

structure ServiceCluster where
  clusterName : String
  services : List WeightedService := []

namespace ServiceCluster

/-- The check of the services of a cluster from index `i` on. -/
def validateServices : Nat → List WeightedService → Except String Unit
  | _, [] => .ok ()
  | i, w :: rest =>
    if w.serviceName = "" then
      .error ("empty .Services[" ++ toString i ++ "].ServiceName field")
    else if w.serviceNamespace = "" then
      .error ("empty .Services[" ++ toString i ++ "].ServiceNamespace field")
    else validateServices (i + 1) rest

def validate (s : ServiceCluster) : Except String Unit :=
  if s.clusterName = "" then .error "missing .ClusterName field"
  else if s.services = [] then .error "empty .Services field"
  else validateServices 0 s.services

def addWeightedService (s : ServiceCluster) (weight : UInt32) (name : NamespacedName)
    (port : ServicePort) : ServiceCluster :=
  let w : WeightedService :=
    { weight, serviceName := name.name, serviceNamespace := name.ns, servicePort := port }
  { s with services := s.services ++ [w] }

def rebalance (s : ServiceCluster) : ServiceCluster :=
  if (s.services.foldl (fun sum w => sum + w.weight) (0 : UInt32)) = 0 then
    { s with services := s.services.map fun w => { w with weight := 1 } }
  else s

@[simp]
theorem rebalance_clusterName (s : ServiceCluster) : s.rebalance.clusterName = s.clusterName := by
  unfold rebalance
  split <;> rfl

end ServiceCluster

structure ExtensionCluster where
  name : String
  upstream : ServiceCluster
  protocol : UpstreamProtocol
  upstreamValidation : Option PeerValidationContext := none
  loadBalancerPolicy : LoadBalancerStrategy := .unset
  timeoutPolicy : TimeoutPolicy := {}
  sni : String := ""
  clientCertificate : Option Secret := none

/-! ## Hosts and listeners -/

structure VirtualHost where
  name : String
  corsPolicy : Option CORSPolicy := none
  rateLimitPolicy : Option RateLimitPolicy := none
  routes : Map String Route := ∅

def VirtualHost.addRoute (v : VirtualHost) (route : Route) : VirtualHost :=
  { v with routes := v.routes.insert (conditionsToString route) route }

theorem VirtualHost.foldl_addRoute (v : VirtualHost) (routes : List Route) :
    routes.foldl addRoute v =
      { v with
        routes := routes.foldl (fun m r => m.insert (conditionsToString r) r) v.routes } := by
  induction routes generalizing v with
  | nil => rfl
  | cons r rest ih => exact ih (v.addRoute r)

/-- Of the routes of one key the last one stays. -/
theorem VirtualHost.lookup_foldl_addRoute (v : VirtualHost) (routes : List Route) (key : String) :
    (routes.foldl addRoute v).routes.lookup key =
      ((routes.filter fun r => conditionsToString r = key).getLast?).or (v.routes.lookup key) := by
  rw [foldl_addRoute]
  have hfold := Map.lookup_foldl_insert_last conditionsToString id routes v.routes key
  rwa [Option.map_id] at hfold

def VirtualHost.valid (v : VirtualHost) : Bool := v.routes.entries ≠ []

/-- The minimum TLS version of a host: `""`, `"1.2"` or `"1.3"`. -/
inductive TLSVersion
  | unset
  | v12
  | v13
  deriving DecidableEq

/-- `SecureVirtualHost`; its TCP proxy is the list of clusters. -/
structure SecureVirtualHost extends VirtualHost where
  minTLSVersion : TLSVersion := .unset
  secret : Option Secret := none
  fallbackCertificate : Option Secret := none
  tcpProxy : Option (List Cluster) := none
  downstreamValidation : Option PeerValidationContext := none
  authorizationService : Option ExtensionCluster := none
  authorizationResponseTimeout : Timeout.Setting := {}
  authorizationFailOpen : Bool := false
  authorizationServerWithRequestBody : Option AuthorizationServerBufferSettings := none

namespace SecureVirtualHost

/-- `VirtualHost.addRoute` on the embedded host. -/
def addRoute (s : SecureVirtualHost) (route : Route) : SecureVirtualHost :=
  { s with toVirtualHost := s.toVirtualHost.addRoute route }

theorem foldl_addRoute (s : SecureVirtualHost) (routes : List Route) :
    routes.foldl addRoute s =
      { s with toVirtualHost := routes.foldl VirtualHost.addRoute s.toVirtualHost } := by
  induction routes generalizing s with
  | nil => rfl
  | cons r rest ih => exact ih (s.addRoute r)

/-- `b` differs from `a` in the object that the certificate was attached for at most. -/
def ServesAs (a b : SecureVirtualHost) : Prop :=
  ∃ secret, a.secret.map (·.object) = secret.map (·.object) ∧ b = { a with secret }

theorem ServesAs.refl (a : SecureVirtualHost) : a.ServesAs a := ⟨a.secret, rfl, rfl⟩

def valid (s : SecureVirtualHost) : Bool :=
  (s.secret.isSome && s.toVirtualHost.valid) || s.tcpProxy.isSome

end SecureVirtualHost

structure Listener where
  name : String
  address : String := ""
  port : Int
  virtualHosts : List VirtualHost := []
  secureVirtualHosts : List SecureVirtualHost := []

end Sesame.Dag
