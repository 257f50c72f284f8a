/-
# HTTPProxy, ExtensionService and TLSCertificateDelegation

The custom resources, field by field as their API types declare them. A status
is not part of the model of an object: the translation reads only specifications.
-/

import Sesame.Api.Core

namespace Sesame.Api

open Lib

/-! ## Match conditions -/

structure HeaderCondition where
  name : String
  present : Bool := false
  notPresent : Bool := false
  contains : String := ""
  notContains : String := ""
  exact : String := ""
  notExact : String := ""
  deriving DecidableEq

structure MatchCondition where
  pathPrefix : String := ""
  header : Option HeaderCondition := none
  deriving DecidableEq

structure Include where
  name : String
  ns : String := ""
  conditions : List MatchCondition := []
  deriving DecidableEq

/-! ## Policies -/

structure HeaderValue where
  name : String
  value : String
  deriving DecidableEq

structure HeadersPolicy where
  set : List HeaderValue := []
  remove : List String := []
  deriving DecidableEq

structure TimeoutPolicy where
  response : String := ""
  idle : String := ""
  deriving DecidableEq

structure RetryPolicy where
  numRetries : Int64 := 0
  perTryTimeout : String := ""
  retryOn : List String := []
  retriableStatusCodes : List UInt32 := []
  deriving DecidableEq

structure HTTPHealthCheckPolicy where
  path : String
  host : String := ""
  intervalSeconds : Int64
  timeoutSeconds : Int64
  unhealthyThresholdCount : Int64
  healthyThresholdCount : Int64
  deriving DecidableEq

structure TCPHealthCheckPolicy where
  intervalSeconds : Int64
  timeoutSeconds : Int64
  unhealthyThresholdCount : UInt32
  healthyThresholdCount : UInt32
  deriving DecidableEq

/-- `RequestHashPolicy`; the header hash options are the header name. -/
structure RequestHashPolicy where
  terminal : Bool := false
  headerHashOptions : Option String := none
  hashSourceIP : Bool := false
  deriving DecidableEq

structure LoadBalancerPolicy where
  strategy : String := ""
  requestHashPolicies : List RequestHashPolicy := []
  deriving DecidableEq

structure ReplacePrefix where
  pathPrefix : String := ""
  replacement : String
  deriving DecidableEq

structure CookieRewritePolicy where
  name : String
  pathRewrite : Option String := none
  domainRewrite : Option String := none
  secure : Option Bool := none
  sameSite : Option String := none
  deriving DecidableEq

structure LocalRateLimitPolicy where
  requests : UInt32
  unit : String
  burst : UInt32 := 0
  responseStatusCode : UInt32 := 0
  responseHeadersToAdd : List HeaderValue := []
  deriving DecidableEq

/-- `RateLimitDescriptorEntry`; the fields are optional and one should be set. -/
structure RateLimitDescriptorEntry where
  genericKey : Option (String × String) := none
  requestHeader : Option (String × String) := none
  requestHeaderValueMatch : Option (List HeaderCondition × Bool × String) := none
  remoteAddress : Bool := false
  deriving DecidableEq

/-- `GlobalRateLimitPolicy`: the entries of each descriptor. -/
structure GlobalRateLimitPolicy where
  descriptors : List (List RateLimitDescriptorEntry) := []
  deriving DecidableEq

structure RateLimitPolicy where
  locally : Option LocalRateLimitPolicy := none
  globally : Option GlobalRateLimitPolicy := none
  deriving DecidableEq

structure HTTPRequestRedirectPolicy where
  scheme : Option String := none
  hostname : Option String := none
  port : Option Int32 := none
  statusCode : Option Int := none
  deriving DecidableEq

structure AuthorizationPolicy where
  disabled : Bool := false
  context : Map String String := ∅
  deriving DecidableEq

structure UpstreamValidation where
  caCertificate : String
  subjectName : String
  deriving DecidableEq

/-! ## Routes and services -/

/-- `Service`, a backend of a route or of a TCP proxy. -/
structure ServiceRef where
  name : String
  port : Int
  protocol : Option String := none
  weight : Int64 := 0
  upstreamValidation : Option UpstreamValidation := none
  mirror : Bool := false
  requestHeadersPolicy : Option HeadersPolicy := none
  responseHeadersPolicy : Option HeadersPolicy := none
  cookieRewritePolicies : List CookieRewritePolicy := []
  deriving DecidableEq

/-- `Route`, as the specification of a proxy lists it. -/
structure RouteSpec where
  conditions : List MatchCondition := []
  services : List ServiceRef := []
  enableWebsockets : Bool := false
  permitInsecure : Bool := false
  authPolicy : Option AuthorizationPolicy := none
  timeoutPolicy : Option TimeoutPolicy := none
  retryPolicy : Option RetryPolicy := none
  healthCheckPolicy : Option HTTPHealthCheckPolicy := none
  loadBalancerPolicy : Option LoadBalancerPolicy := none
  pathRewritePolicy : Option (List ReplacePrefix) := none
  requestHeadersPolicy : Option HeadersPolicy := none
  responseHeadersPolicy : Option HeadersPolicy := none
  cookieRewritePolicies : List CookieRewritePolicy := []
  rateLimitPolicy : Option RateLimitPolicy := none
  requestRedirectPolicy : Option HTTPRequestRedirectPolicy := none
  deriving DecidableEq

structure TCPProxyInclude where
  name : String
  ns : String := ""
  deriving DecidableEq

/-- `TCPProxy`. -/
structure TCPProxySpec where
  loadBalancerPolicy : Option LoadBalancerPolicy := none
  services : List ServiceRef := []
  included : Option TCPProxyInclude := none
  includesDeprecated : Option TCPProxyInclude := none
  healthCheckPolicy : Option TCPHealthCheckPolicy := none
  deriving DecidableEq

/-! ## Virtual hosts -/

structure ExtensionServiceReference where
  apiVersion : String := ""
  ns : String := ""
  name : String := ""
  deriving DecidableEq

structure AuthorizationServerBufferSettings where
  maxRequestBytes : UInt32 := 0
  allowPartialMessage : Bool := false
  packAsBytes : Bool := false
  deriving DecidableEq

structure AuthorizationServer where
  extensionServiceRef : ExtensionServiceReference
  authPolicy : Option AuthorizationPolicy := none
  responseTimeout : String := ""
  failOpen : Bool := false
  withRequestBody : Option AuthorizationServerBufferSettings := none
  deriving DecidableEq

structure DownstreamValidation where
  caCertificate : String := ""
  skipClientCertValidation : Bool := false
  deriving DecidableEq

structure TLS where
  secretName : String := ""
  minimumProtocolVersion : String := ""
  passthrough : Bool := false
  clientValidation : Option DownstreamValidation := none
  enableFallbackCertificate : Bool := false
  deriving DecidableEq

structure CORSPolicy where
  allowCredentials : Bool := false
  allowOrigin : List String := []
  allowMethods : List String := []
  allowHeaders : List String := []
  exposeHeaders : List String := []
  maxAge : String := ""
  deriving DecidableEq

/-- `VirtualHost`, the part of a specification that makes a proxy a root. -/
structure VirtualHostSpec where
  fqdn : String
  tls : Option TLS := none
  authorization : Option AuthorizationServer := none
  corsPolicy : Option CORSPolicy := none
  rateLimitPolicy : Option RateLimitPolicy := none
  deriving DecidableEq

structure HTTPProxy extends ObjectMeta where
  virtualHost : Option VirtualHostSpec := none
  routes : List RouteSpec := []
  tcpProxy : Option TCPProxySpec := none
  includes : List Include := []
  ingressClassName : String := ""
  deriving DecidableEq

/-! ## Delegations and extension services -/

structure CertificateDelegation where
  secretName : String
  targetNamespaces : List String

structure TLSCertificateDelegation extends ObjectMeta where
  delegations : List CertificateDelegation := []

structure ExtensionServiceTarget where
  name : String
  port : Int
  weight : UInt32 := 0

structure ExtensionService extends ObjectMeta where
  services : List ExtensionServiceTarget := []
  upstreamValidation : Option UpstreamValidation := none
  protocol : Option String := none
  loadBalancerPolicy : Option LoadBalancerPolicy := none
  timeoutPolicy : Option TimeoutPolicy := none

end Sesame.Api
