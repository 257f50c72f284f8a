/-
# Listeners, filters and downstream TLS

`internal/envoy/v3/listener.go` and the downstream half of `auth.go`: the HTTP
connection manager and its filters, TCP proxies, filter chains and TLS contexts.
A message keeps the fields that depend on the input; constants and access logs
are left out.
-/

import Sesame.Lib.Lua
import Sesame.Lib.Sort
import Sesame.Dag.Graph
import Sesame.Envoy.Names

namespace Sesame.Envoy

open List
open Lib Dag
open Api (Bytes NamespacedName AuthorizationServerBufferSettings)

/-- `envoy.Timeout`: none leaves the field unset. -/
def timeout (d : Timeout.Setting) : Option Int64 :=
  if d.useDefault then none
  else if d.disabled then some 0
  else some d.val

/-! ## HTTP filters -/

structure ExtAuthz where
  clusterName : String
  timeout : Option Int64
  failureModeAllow : Bool
  withRequestBody : Option AuthorizationServerBufferSettings
  deriving DecidableEq

structure GlobalRateLimitConfig where
  extensionService : NamespacedName
  failOpen : Bool
  timeout : Timeout.Setting
  domain : String
  enableXRateLimitHeaders : Bool

structure RateLimit where
  domain : String
  timeout : Option Int64
  failureModeDeny : Bool
  clusterName : String
  enableXRateLimitHeaders : Bool
  deriving DecidableEq

/-- The HTTP filters, by the message in their typed configuration. -/
inductive HttpFilter
  | compressor
  | grpcWeb
  | cors
  | localRateLimit
  | lua (inlineCode : String)
  | router
  | extAuthz (config : ExtAuthz)
  | originalIPDetection (xffNumTrustedHops : UInt32)
  | rateLimit (config : RateLimit)
  deriving DecidableEq

/-- The text of the misdirected-request script before its target. -/
def misdirectedHead : String :=
  "\nfunction envoy_on_request(request_handle)\n" ++
  "\tlocal headers = request_handle:headers()\n" ++
  "\tlocal host = string.lower(headers:get(\":authority\"))\n" ++
  "\tlocal target = "

/-- The text of the misdirected-request script after its target. -/
def misdirectedTail : String :=
  "\n\n\tif host ~= target then\n" ++
  "\t\trequest_handle:respond(\n" ++
  "\t\t\t\x7b[\":status\"] = \"421\"\x7d,\n" ++
  "\t\t\tstring.format(\"misdirected request to %q\", host)\n" ++
  "\t\t)\n\tend\nend\n\t"

/-- The expression for the server name of the connection. -/
def requestedServerName : String := "request_handle:streamInfo():requestedServerName()"

def filterMisdirectedRequests (fqdn : String) : HttpFilter :=
  let target :=
    if ['*', '.'] <+: fqdn.toList then requestedServerName
    else "\"" ++ lowerName fqdn ++ "\""
  .lua (misdirectedHead ++ target ++ misdirectedTail)

def filterExternalAuthz (authzClusterName : String) (failOpen : Bool)
    (responseTimeout : Timeout.Setting)
    (bufferSettings : Option AuthorizationServerBufferSettings) : HttpFilter :=
  .extAuthz
    { clusterName := authzClusterName, timeout := timeout responseTimeout,
      failureModeAllow := failOpen, withRequestBody := bufferSettings }

def originalIPDetectionFilter (xffNumTrustedHops : UInt32) : Option HttpFilter :=
  if xffNumTrustedHops = 0 then none else some (.originalIPDetection xffNumTrustedHops)

def globalRateLimitFilter (config : Option GlobalRateLimitConfig) : Option HttpFilter :=
  config.map fun config =>
    .rateLimit
      { domain := config.domain, timeout := timeout config.timeout,
        failureModeDeny := !config.failOpen,
        clusterName := extensionClusterName config.extensionService,
        enableXRateLimitHeaders := config.enableXRateLimitHeaders }

/-- A filter whose typed configuration is the router. -/
def HttpFilter.isRouter : HttpFilter → Bool
  | .router => true
  | _ => false

/-! ## The HTTP connection manager -/

inductive HTTPVersionType
  | auto
  | http1
  | http2
  | http3
  deriving DecidableEq

def protoNamesForVersions (versions : List HTTPVersionType) : List String :=
  if versions = [] ∨ .auto ∈ versions then ["h2", "http/1.1"]
  else
    (if .http2 ∈ versions then ["h2"] else []) ++
    (if .http1 ∈ versions then ["http/1.1"] else [])

def codecForVersions : List HTTPVersionType → HTTPVersionType
  | [version] => version
  | _ => .auto

structure Timeouts where
  request : Timeout.Setting := {}
  connectionIdle : Timeout.Setting := {}
  streamIdle : Timeout.Setting := {}
  maxConnectionDuration : Timeout.Setting := {}
  delayedClose : Timeout.Setting := {}
  connectionShutdownGracePeriod : Timeout.Setting := {}

structure HTTPConnectionManagerBuilder where
  routeConfigName : String := ""
  metricsPrefix : String := ""
  timeouts : Timeouts := {}
  filters : List HttpFilter := []
  codec : HTTPVersionType := .auto
  allowChunkedLength : Bool := false

structure HttpConnectionManager where
  codecType : HTTPVersionType
  routeConfigName : String
  httpFilters : List HttpFilter
  idleTimeout : Option Int64
  maxConnectionDuration : Option Int64
  allowChunkedLength : Bool
  requestTimeout : Option Int64
  streamIdleTimeout : Option Int64
  drainTimeout : Option Int64
  delayedCloseTimeout : Option Int64
  statPrefix : String

/-- The inline code of the Lua filter in the default filters. -/
def luaPlaceholder : String := "-- Placeholder for per-Route or per-Cluster overrides."

namespace HTTPConnectionManagerBuilder

variable (b : HTTPConnectionManagerBuilder)

def defaultFilters : HTTPConnectionManagerBuilder :=
  { b with filters := b.filters ++
      [.compressor, .grpcWeb, .cors, .localRateLimit, .lua luaPlaceholder, .router] }

/-- `AddFilter`. The filter is appended before the router is searched for, so the
router that is found may be the new filter itself. -/
def addFilter (f : Option HttpFilter) : Except Panic HTTPConnectionManagerBuilder :=
  match f with
  | none => .ok b
  | some f =>
    let filters := b.filters ++ [f]
    if filters.length = 1 then .ok { b with filters }
    else
      match filters.findIdx? HttpFilter.isRouter with
      | none => .error .indexOutOfRange
      | some routerIndex =>
        if f.isRouter then
          .error (.explicit "Can't add more than one router to a filter chain")
        else
          match filters[routerIndex]?, filters[routerIndex + 1]? with
          | some routerFilter, some next =>
            .ok { b with filters := filters.take routerIndex ++ [next, routerFilter] }
          | _, _ => .error .indexOutOfRange

def validate : Except String Unit :=
  match b.filters.getLast? with
  | none => .error "filter list is empty"
  | some f => if f.isRouter then .ok () else .error "last filter is not a Router filter"

def get : Except Panic HttpConnectionManager :=
  match b.validate with
  | .error err => .error (.explicit err)
  | .ok () =>
    let connection := b.timeouts.maxConnectionDuration
    .ok
      { codecType := b.codec, routeConfigName := b.routeConfigName, httpFilters := b.filters,
        idleTimeout := timeout b.timeouts.connectionIdle,
        maxConnectionDuration :=
          if !connection.disabled && !connection.useDefault then some connection.val else none,
        allowChunkedLength := b.allowChunkedLength,
        requestTimeout := timeout b.timeouts.request,
        streamIdleTimeout := timeout b.timeouts.streamIdle,
        drainTimeout := timeout b.timeouts.connectionShutdownGracePeriod,
        delayedCloseTimeout := timeout b.timeouts.delayedClose,
        statPrefix := if b.metricsPrefix ≠ "" then b.metricsPrefix else b.routeConfigName }

variable {b} {before : List HttpFilter}

/-- The filters are `before`, without a router, and a router. -/
structure RouterLast (b : HTTPConnectionManagerBuilder) (before : List HttpFilter) : Prop where
  filters_eq : b.filters = before ++ [.router]
  before_not_router : ∀ g ∈ before, g.isRouter = false

/-- A filter added to a list that ends in its only router goes in front of it. -/
theorem RouterLast.addFilter (h : b.RouterLast before) {f : Option HttpFilter}
    (hf : ∀ g ∈ f, g.isRouter = false) :
    ∃ b', b.addFilter f = .ok b' ∧ b'.RouterLast (before ++ f.toList) ∧
      b'.routeConfigName = b.routeConfigName := by
  cases f with
  | none => exact ⟨b, rfl, by simpa using h, rfl⟩
  | some f =>
    have hnot : f.isRouter = false := hf f rfl
    have hnone : before.findIdx? HttpFilter.isRouter = none :=
      findIdx?_eq_none_iff.mpr h.before_not_router
    have hindex : (before ++ [HttpFilter.router, f]).findIdx? HttpFilter.isRouter =
        some before.length := by
      rw [findIdx?_append, hnone, findIdx?_cons]
      simp [HttpFilter.isRouter]
    have hadd : b.addFilter (some f) = .ok { b with filters := before ++ [f, .router] } := by
      rw [HTTPConnectionManagerBuilder.addFilter, h.filters_eq, append_assoc]
      simp only [cons_append, nil_append, hindex, hnot]
      simp
    refine ⟨_, hadd, ⟨by simp, ?_⟩, rfl⟩
    intro g hg
    rcases mem_append.mp hg with hg | hg
    · exact h.before_not_router g hg
    · exact hf g (Option.mem_toList.mp hg)

theorem RouterLast.get (h : b.RouterLast before) :
    ∃ cm, b.get = .ok cm ∧ cm.httpFilters = before ++ [.router] ∧
      cm.routeConfigName = b.routeConfigName := by
  have hvalid : b.validate = .ok () := by
    simp [validate, h.filters_eq, HttpFilter.isRouter]
  exact ⟨_, by rw [HTTPConnectionManagerBuilder.get, hvalid], h.filters_eq, rfl⟩

end HTTPConnectionManagerBuilder

/-! ## TCP proxies -/

/-- The cluster specifier of a `TcpProxy`. -/
inductive ClusterSpecifier
  | cluster (name : String)
  | weightedClusters (clusters : List (String × UInt32))

structure TcpProxy where
  statPrefix : String
  clusterSpecifier : ClusterSpecifier

/-- `tcpWeightedClusterSorter`. -/
def weightedClusterLess (a b : String × UInt32) : Bool :=
  if a.1 = b.1 then a.2 < b.2 else a.1 < b.1

/-- `TCPProxy`. The total weight is a 32-bit sum. -/
def tcpProxy (lib : Stdlib) (statPrefix : String) (proxy : List Cluster) : TcpProxy :=
  let kept := proxy.filter fun c => 0 < c.weight
  let totalWeight := kept.foldl (fun sum c => sum + c.weight) (0 : UInt32)
  let keepClusters := if totalWeight = 0 then proxy else kept
  match keepClusters with
  | [c] => { statPrefix, clusterSpecifier := .cluster (clustername lib c) }
  | _ =>
    let weightedClusters := keepClusters.map fun c =>
      (clustername lib c, if c.weight = 0 then 1 else c.weight)
    { statPrefix,
      clusterSpecifier :=
        .weightedClusters (sortStable weightedClusterLess weightedClusters) }

/-! ## Downstream TLS -/

/-- `CertificateValidationContext`; an unset CA is `none`. -/
structure CertificateValidationContext where
  acceptUntrusted : Bool
  trustedCa : Option Bytes
  matchSubjectAltNames : List String
  deriving DecidableEq

def validationContext (ca : Bytes) (subjectName : String) (skipVerifyPeerCert : Bool) :
    CertificateValidationContext where
  acceptUntrusted := skipVerifyPeerCert
  trustedCa := if ca = [] then none else some ca
  matchSubjectAltNames := if subjectName = "" then [] else [subjectName]

structure DownstreamTlsContext where
  tlsMinimumProtocolVersion : TLSVersion
  cipherSuites : List String
  sdsSecretName : String
  alpnProtocols : List String
  validationContext : Option CertificateValidationContext
  requireClientCertificate : Bool

def downstreamTLSContext (lib : Stdlib) (serverSecret : Secret) (tlsMinProtoVersion : TLSVersion)
    (cipherSuites : List String) (peerValidationContext : Option PeerValidationContext)
    (alpnProtos : List String) : DownstreamTlsContext where
  tlsMinimumProtocolVersion := tlsMinProtoVersion
  cipherSuites := cipherSuites
  sdsSecretName := secretname lib serverSecret
  alpnProtocols := alpnProtos
  validationContext := peerValidationContext.map fun pvc =>
    validationContext (getCACertificate (some pvc)) "" pvc.skipClientCertValidation
  requireClientCertificate := peerValidationContext.isSome

/-! ## Filter chains and listeners -/

inductive NetworkFilter
  | httpConnectionManager (cm : HttpConnectionManager)
  | tcpProxy (proxy : TcpProxy)

/-- The characters of a DNS name. -/
def DNSName (name : String) : Prop := ∀ c ∈ name.toList, c.isAlphanum = true ∨ c = '.' ∨ c = '-'

instance (name : String) : Decidable (DNSName name) := List.decidableBAll _ name.toList

/-- The names of hosts: `*`, a wildcard, or an exact name. -/
def HostName (name : String) : Prop :=
  name = "*" ∨ (∃ suffix, name = "*." ++ suffix ∧ DNSName suffix) ∨ DNSName name

structure FilterChainMatch where
  serverNames : List String := []
  transportProtocol : String := ""
  deriving DecidableEq

structure FilterChain where
  name : String := ""
  filters : List NetworkFilter
  filterChainMatch : FilterChainMatch := {}
  transportSocket : Option DownstreamTlsContext := none

def filterChainTLS (domain : String) (downstream : Option DownstreamTlsContext)
    (filters : List NetworkFilter) : FilterChain where
  filters := filters
  filterChainMatch :=
    if domain = "*" then { transportProtocol := "tls" } else { serverNames := [domain] }
  transportSocket := downstream

/-- The name of the filter chain for the fallback certificate. -/
def fallbackChainName : String := "fallback-certificate"

def filterChainTLSFallback (downstream : Option DownstreamTlsContext)
    (filters : List NetworkFilter) : FilterChain where
  name := fallbackChainName
  filters := filters
  filterChainMatch := { transportProtocol := "tls" }
  transportSocket := downstream

def containsFallbackFilterChain (chains : List FilterChain) : Bool :=
  chains.any fun fc => fc.name = fallbackChainName

inductive ListenerFilter
  | tlsInspector
  | proxyProtocol

/-- An Envoy `Listener`. -/
structure Listener where
  name : String
  address : String
  port : Int
  listenerFilters : List ListenerFilter := []
  filterChains : List FilterChain := []
  exactBalance : Bool := false

/-! ## Calls on a builder -/

namespace HTTPConnectionManagerBuilder

variable {b : HTTPConnectionManagerBuilder}

theorem isRouter_iff {f : HttpFilter} : f.isRouter = true ↔ f = .router := by
  cases f <;> simp [HttpFilter.isRouter]

/-- When `AddFilter` panics: a filter that is not the first is itself a router, or finds
none. -/
theorem addFilter_error_iff {f : HttpFilter} :
    (∃ panic, b.addFilter (some f) = .error panic) ↔
      b.filters ≠ [] ∧ (f = .router ∨ HttpFilter.router ∉ b.filters) := by
  rw [HTTPConnectionManagerBuilder.addFilter]
  split
  · next hone => simp_all
  rename_i hmore
  have hsome : b.filters ≠ [] := fun h => hmore (by simp [h])
  split
  · next hnone =>
    have hrouter : HttpFilter.router ∉ b.filters := fun h => by
      have := findIdx?_eq_none_iff.mp hnone _ (mem_append_left _ h)
      cases this
    exact iff_of_true ⟨_, rfl⟩ ⟨hsome, .inr hrouter⟩
  · next i hi =>
    split
    · next hrouter => exact iff_of_true ⟨_, rfl⟩ ⟨hsome, .inl (isRouter_iff.mp hrouter)⟩
    rename_i hnot
    obtain ⟨hlt, hfound, -⟩ := findIdx?_eq_some_iff_getElem.mp hi
    have hlast : i < b.filters.length := by
      by_contra hge
      have heq : i = b.filters.length := by simp at hlt; omega
      simp [heq] at hfound
      exact hnot hfound
    have hmem : HttpFilter.router ∈ b.filters := by
      rw [getElem_append_left hlast, isRouter_iff] at hfound
      exact hfound ▸ getElem_mem hlast
    have hnext : i + 1 < (b.filters ++ [f]).length := by simpa using hlast
    rw [getElem?_eq_getElem hlt, getElem?_eq_getElem hnext]
    refine iff_of_false (by simp) fun h => h.2.elim (fun h => ?_) (· hmem)
    exact hnot (isRouter_iff.mpr h)

/-- A call on a builder that concerns its filters. -/
inductive FilterCall
  | addFilter (f : Option HttpFilter)
  | defaultFilters

def FilterCall.added : FilterCall → List HttpFilter
  | .addFilter f => f.toList
  | .defaultFilters => (HTTPConnectionManagerBuilder.defaultFilters {}).filters

def FilterCall.run (b : HTTPConnectionManagerBuilder) :
    FilterCall → Except Panic HTTPConnectionManagerBuilder
  | .addFilter f => b.addFilter f
  | .defaultFilters => .ok b.defaultFilters

/-- The call of `AddFilter` with a filter comes while no filters were added, or a router
among them. -/
def FilterCall.Ready (added : List HttpFilter) (call : FilterCall) : Prop :=
  ∀ f, call = .addFilter (some f) → added = [] ∨ HttpFilter.router ∈ added

/-- Every call comes while the builder is ready for it. -/
def AllReady : List HttpFilter → List FilterCall → Prop
  | _, [] => True
  | added, call :: rest => call.Ready added ∧ AllReady (added ++ call.added) rest

/-- The filters with the routers moved to the end. -/
def routersLast (filters : List HttpFilter) : List HttpFilter :=
  filters.filter (!HttpFilter.isRouter ·) ++ filters.filter HttpFilter.isRouter

/-- One call on a builder whose filters are those added so far. -/
theorem FilterCall.run_routersLast {added : List HttpFilter} (call : FilterCall)
    (hone : (added ++ call.added).countP HttpFilter.isRouter ≤ 1)
    (hb : b.filters = routersLast added) :
    (call.Ready added → ∃ b', call.run b = .ok b' ∧
      b'.filters = routersLast (added ++ call.added)) ∧
    (¬ call.Ready added → ∃ panic, call.run b = .error panic) := by
  rw [countP_append] at hone
  cases call with
  | defaultFilters =>
    have hnone : added.filter HttpFilter.isRouter = [] := by
      rw [filter_eq_nil_iff, ← countP_eq_zero]
      exact Nat.le_zero.mp (Nat.le_of_add_le_add_right hone)
    refine ⟨fun _ => ⟨_, rfl, ?_⟩, fun hready => absurd nofun hready⟩
    rw [HTTPConnectionManagerBuilder.defaultFilters, hb, routersLast, routersLast,
      filter_append, filter_append, hnone]
    simp [FilterCall.added, HTTPConnectionManagerBuilder.defaultFilters, HttpFilter.isRouter]
    rfl
  | addFilter f =>
    cases f with
    | none =>
      refine ⟨fun _ => ⟨b, rfl, ?_⟩, fun hready => absurd nofun hready⟩
      rw [FilterCall.added, Option.toList_none, append_nil, hb]
    | some f =>
      constructor
      · intro hready
        rcases hready f rfl with rfl | hrouter
        · refine ⟨{ b with filters := [f] }, ?_, ?_⟩
          · rw [FilterCall.run, HTTPConnectionManagerBuilder.addFilter, hb]
            rfl
          · cases hf : f.isRouter <;> simp [routersLast, FilterCall.added, hf]
        · -- The router that is there is the only one.
          have hpos : 0 < added.countP HttpFilter.isRouter := countP_pos_iff.mpr ⟨_, hrouter, rfl⟩
          have hf : f.isRouter = false := by
            by_contra h
            rw [FilterCall.added, Option.toList_some, countP_singleton, if_pos (by simpa using h)]
              at hone
            omega
          obtain ⟨g, hg⟩ : ∃ g, added.filter HttpFilter.isRouter = [g] := by
            rw [← length_eq_one_iff, ← countP_eq_length_filter]
            omega
          have hrouters : HttpFilter.router ∈ added.filter HttpFilter.isRouter :=
            mem_filter.mpr ⟨hrouter, rfl⟩
          obtain rfl := mem_singleton.mp (hg ▸ hrouters)
          have hlast : b.RouterLast (added.filter (!HttpFilter.isRouter ·)) :=
            ⟨by rw [hb, routersLast, hg], fun g hg => by simpa using (mem_filter.mp hg).2⟩
          obtain ⟨b₁, hb₁, hlast₁, -⟩ := hlast.addFilter (f := some f) (by simpa using hf)
          refine ⟨b₁, hb₁, ?_⟩
          rw [hlast₁.filters_eq, routersLast, filter_append, filter_append, hg]
          simp [FilterCall.added, hf]
      · intro hready
        obtain ⟨hne, hnot⟩ := not_or.mp fun h => hready fun _ _ => h
        apply addFilter_error_iff.mpr
        rw [hb, routersLast]
        refine ⟨fun hnil => hne ?_, .inr (by simp [HttpFilter.isRouter, hnot])⟩
        rwa [← length_eq_zero_iff, length_append, Nat.add_comm,
          ← length_eq_length_filter_add, length_eq_zero_iff] at hnil

/-- The calls on a builder, as long as one router is added at most. -/
theorem runCalls_routersLast (calls : List FilterCall) {added : List HttpFilter}
    (hone : (added ++ calls.flatMap FilterCall.added).countP HttpFilter.isRouter ≤ 1)
    (hb : b.filters = routersLast added) :
    (∃ b', calls.foldlM FilterCall.run b = .ok b' ∧
      b'.filters = routersLast (added ++ calls.flatMap FilterCall.added)) ↔
      AllReady added calls := by
  induction calls generalizing b added with
  | nil => simpa [AllReady] using ⟨b, rfl, hb⟩
  | cons call rest ih =>
    rw [flatMap_cons, ← append_assoc] at hone ⊢
    obtain ⟨hok, hpanic⟩ := call.run_routersLast (by rw [countP_append] at hone; omega) hb
    rw [foldlM_cons, AllReady]
    by_cases hready : call.Ready added
    · obtain ⟨b', hcall, hb'⟩ := hok hready
      rw [hcall, and_iff_right hready]
      exact ih hone hb'
    · obtain ⟨panic, hcall⟩ := hpanic hready
      simp [hcall, hready, bind, Except.bind]

/-- Filters end up in order with the router last just if the router comes before the
second filter; and `AddFilter` panics because of a second router just where it does not
panic for the lack of a first one. -/
theorem filters_kept_iff (calls : List FilterCall) :
    ((calls.flatMap FilterCall.added).countP HttpFilter.isRouter ≤ 1 →
      ((∃ b, calls.foldlM FilterCall.run {} = .ok b ∧
        b.filters = routersLast (calls.flatMap FilterCall.added)) ↔ AllReady [] calls)) ∧
    ∀ (b : HTTPConnectionManagerBuilder) (f : Option HttpFilter),
      ((∃ panic, b.addFilter f = .error panic) ↔ f = some .router ∧ .router ∈ b.filters) ↔
        FilterCall.Ready b.filters (.addFilter f) := by
  refine ⟨fun hone => ?_, fun b f => ?_⟩
  · rw [← nil_append (calls.flatMap _)] at hone ⊢
    exact runCalls_routersLast calls hone rfl
  cases f with
  | none => simp [HTTPConnectionManagerBuilder.addFilter, FilterCall.Ready]
  | some f =>
    rw [addFilter_error_iff]
    by_cases hnil : b.filters = [] <;> by_cases hrouter : HttpFilter.router ∈ b.filters <;>
      simp_all [FilterCall.Ready]

/-- A router added after another filter. -/
theorem late_router_panics :
    [FilterCall.addFilter (some .cors), .addFilter (some .router)].foldlM FilterCall.run {} =
      .error (.explicit "Can't add more than one router to a filter chain") := rfl

end HTTPConnectionManagerBuilder

end Sesame.Envoy
