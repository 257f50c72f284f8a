/-
# The HTTPProxy processor

`computeHTTPProxy` checks a root, sets up its secure host step by step and adds
the routes. The secure host is in the DAG from the moment its certificate was
accepted, so a step that gives up leaves it there as far as it was set up.
-/

import Sesame.Dag.ProxyRoutes

namespace Sesame.Dag.HTTPProxyProcessor

open Lib Api
open Status (DetailedCondition ErrorType)

variable (lib : Stdlib) (ord : MapOrder) (p : HTTPProxyProcessor) (source : KubernetesCache)

/-! ## The secure host -/

/-- A secure host under construction and the condition of its proxy. -/
structure HostState where
  svhost : SecureVirtualHost
  validCond : DetailedCondition

/-- A step that sets up a secure host; an error is an early return. -/
abbrev HostStep := Except HostState HostState

def HostState.reject (h : HostState) (type : ErrorType) (reason message : String) : HostStep :=
  .error { h with validCond := h.validCond.addError type reason message }

/-- The certificate for clients without a server name. -/
def attachFallback (proxy : HTTPProxy) (vhost : VirtualHostSpec) (tls : TLS) (h : HostState) :
    HostStep :=
  if tls.enableFallbackCertificate ∧ tls.clientValidation.isSome then
    h.reject .tlsError "TLSIncompatibleFeatures"
      "Spec.Virtualhost.TLS fallback & client validation are incompatible"
  else if tls.enableFallbackCertificate ∧ authorizationConfigured vhost then
    h.reject .tlsError "TLSIncompatibleFeatures"
      "Spec.Virtualhost.TLS fallback & client authorization are incompatible"
  else if tls.enableFallbackCertificate then
    match p.fallbackCertificate with
    | none =>
      h.reject .tlsError "FallbackNotPresent"
        ("Spec.Virtualhost.TLS enabled fallback but the fallback Certificate Secret is not " ++
          "configured in Sesame configuration file")
    | some name =>
      match source.lookupSecret name (validSecret lib) proxy.ns with
      | .error err =>
        h.reject .tlsError "FallbackNotValid"
          ("Spec.Virtualhost.TLS Secret " ++ lib.quote name.string ++
            " fallback certificate is invalid: " ++ err)
      | .ok sec =>
        if source.delegationPermitted ord name proxy.ns then
          .ok { h with svhost := { h.svhost with fallbackCertificate := some sec } }
        else
          h.reject .tlsError "FallbackNotDelegated"
            ("Spec.VirtualHost.TLS fallback Secret " ++ lib.quote name.string ++
              " is not configured for certificate delegation")
  else .ok h

/-- The validation of client certificates. Without a CA certificate the error is
recorded, but the host is set up all the same. -/
def attachClientValidation (proxy : HTTPProxy) (tls : TLS) (h : HostState) : HostStep :=
  match tls.clientValidation with
  | none => .ok h
  | some cv =>
    let dv : PeerValidationContext := { skipClientCertValidation := cv.skipClientCertValidation }
    if cv.caCertificate ≠ "" then
      let secretName := namespacedNameFrom cv.caCertificate proxy.ns
      match source.lookupSecret secretName (KubernetesCache.validCA lib) proxy.ns with
      | .error err =>
        h.reject .tlsError "ClientValidationInvalid"
          ("Spec.VirtualHost.TLS client validation is invalid: invalid CA Secret " ++
            lib.quote secretName.string ++ ": " ++ err)
      | .ok cacert =>
        let dv := { dv with caCertificate := some cacert }
        .ok { h with svhost := { h.svhost with downstreamValidation := some dv } }
    else
      let validCond :=
        if cv.skipClientCertValidation then h.validCond
        else h.validCond.addError .tlsError "ClientValidationInvalid"
          "Spec.VirtualHost.TLS client validation is invalid: CA Secret must be specified"
      .ok { validCond, svhost := { h.svhost with downstreamValidation := some dv } }

/-- `sesame_api_v1alpha1.GroupVersion`. -/
def extensionGroupVersion : String := "projectsesame.io/v1alpha1"

def defaultExtensionRef (ref : ExtensionServiceReference) : ExtensionServiceReference :=
  { ref with apiVersion := stringOrDefault ref.apiVersion extensionGroupVersion }

/-- The buffer settings of an authorization server. -/
def bufferSettings (settings : AuthorizationServerBufferSettings) :
    AuthorizationServerBufferSettings :=
  { settings with
    maxRequestBytes := if settings.maxRequestBytes = 0 then 1024 else settings.maxRequestBytes }

/-- The authorization server. -/
def attachAuthorization (dag : DAG) (proxy : HTTPProxy) (vhost : VirtualHostSpec)
    (h : HostState) : HostStep :=
  match vhost.authorization with
  | none => .ok h
  | some auth =>
    let ref := defaultExtensionRef auth.extensionServiceRef
    if ref.apiVersion ≠ extensionGroupVersion then
      h.reject .authError "AuthBadResourceVersion"
        ("Spec.Virtualhost.Authorization.extensionRef specifies an unsupported resource " ++
          "version " ++ lib.quote auth.extensionServiceRef.apiVersion)
    else
      let extensionName : NamespacedName :=
        { ns := stringOrDefault ref.ns proxy.ns, name := ref.name }
      match dag.getExtensionCluster (extensionClusterName extensionName) with
      | none =>
        h.reject .authError "ExtensionServiceNotFound"
          ("Spec.Virtualhost.Authorization.ServiceRef extension service " ++
            lib.quote extensionName.string ++ " not found")
      | some ext =>
        let h := { h with
          svhost := { h.svhost with
            authorizationService := some ext, authorizationFailOpen := auth.failOpen } }
        match Timeout.parse lib auth.responseTimeout with
        | .error err =>
          h.reject .authError "AuthResponseTimeoutInvalid"
            ("Spec.Virtualhost.Authorization.ResponseTimeout is invalid: " ++ err)
        | .ok timeout =>
          .ok { h with
            svhost := { h.svhost with
              authorizationResponseTimeout :=
                if timeout.useDefault then ext.timeoutPolicy.responseTimeout else timeout
              authorizationServerWithRequestBody :=
                match auth.withRequestBody with
                | none => h.svhost.authorizationServerWithRequestBody
                | some settings => some (bufferSettings settings) } }

/-- The steps that set up a secure host after its certificate. -/
def setUpSecureHost (dag : DAG) (proxy : HTTPProxy) (vhost : VirtualHostSpec) (tls : TLS)
    (h : HostState) : HostStep := do
  let h ← attachFallback lib ord p source proxy vhost tls h
  let h ← attachClientValidation lib source proxy tls h
  attachAuthorization lib dag proxy vhost h

/-- The DAG and the condition of the proxy at some point of `computeHTTPProxy`. -/
structure ProxyState where
  state : State
  validCond : DetailedCondition

/-- A part of `computeHTTPProxy`; an error is an early return. -/
abbrev ProxyStep := Except ProxyState ProxyState

def ProxyState.reject (s : ProxyState) (type : ErrorType) (reason message : String) : ProxyStep :=
  .error { s with validCond := s.validCond.addError type reason message }

def ProxyState.addError (s : ProxyState) (type : ErrorType) (reason message : String) :
    ProxyState :=
  { s with validCond := s.validCond.addError type reason message }

def ProxyState.putHost (s : ProxyState) (host : String) (h : HostState) : ProxyState :=
  { state := { s.state with dag := s.state.dag.putSecureVirtualHost host h.svhost }
    validCond := h.validCond }

/-- The secure host of a proxy that terminates TLS. -/
def attachSecret (proxy : HTTPProxy) (vhost : VirtualHostSpec) (tls : TLS) (s : ProxyState) :
    ProxyStep :=
  let secretName := namespacedNameFrom tls.secretName proxy.ns
  match source.lookupSecret secretName (validSecret lib) proxy.ns with
  | .error err =>
    s.reject .tlsError "SecretNotValid"
      ("Spec.VirtualHost.TLS Secret " ++ lib.quote tls.secretName ++ " is invalid: " ++ err)
  | .ok sec =>
    if source.delegationPermitted ord secretName proxy.ns then
      let svhost :=
        { s.state.dag.ensureSecureVirtualHost vhost.fqdn with
          secret := some sec
          minTLSVersion := Annotation.minTLSVersion tls.minimumProtocolVersion .v12 }
      match setUpSecureHost lib ord p source s.state.dag proxy vhost tls
          { svhost, validCond := s.validCond } with
      | .ok h => .ok (s.putHost vhost.fqdn h)
      | .error h => .error (s.putHost vhost.fqdn h)
    else
      s.reject .tlsError "DelegationNotPermitted"
        ("Spec.VirtualHost.TLS Secret " ++ lib.quote tls.secretName ++
          " certificate delegation not permitted")

/-- The TLS part of `computeHTTPProxy`. -/
def attachTLS (proxy : HTTPProxy) (vhost : VirtualHostSpec) (s : ProxyState) : ProxyStep :=
  match vhost.tls with
  | none => .ok s
  | some tls =>
    let s :=
      if tls.passthrough ∧ tls.enableFallbackCertificate then
        s.addError .tlsError "TLSIncompatibleFeatures"
          "Spec.VirtualHost.TLS: both Passthrough and enableFallbackCertificate were specified"
      else s
    if ¬ isBlank tls.secretName ∧ tls.passthrough then
      s.reject .tlsError "TLSConfigNotValid"
        "Spec.VirtualHost.TLS: both Passthrough and SecretName were specified"
    else if isBlank tls.secretName ∧ ¬ tls.passthrough then
      s.reject .tlsError "TLSConfigNotValid"
        "Spec.VirtualHost.TLS: neither Passthrough nor SecretName were specified"
    else if tls.passthrough ∧ tls.clientValidation.isSome then
      s.reject .tlsError "TLSIncompatibleFeatures"
        "Spec.VirtualHost.TLS passthrough cannot be combined with tls.clientValidation"
    else if tls.passthrough then .ok s
    else attachSecret lib ord p source proxy vhost tls s

/-! ## TCP proxies -/

/-- The clusters of the services of a TCP proxy, or the error type, reason and
message. -/
def tcpClusters (httpproxy : HTTPProxy) (tcpproxy : TCPProxySpec)
    (lbPolicy : LoadBalancerStrategy) : List ServiceRef →
    Except (ErrorType × String × String) (List Cluster)
  | [] => .ok []
  | service :: rest =>
    match ensureService lib source { ns := httpproxy.ns, name := service.name }
        (.int (Int32.ofInt service.port)) p.enableExternalNameService with
    | .error err =>
      .error (.tcpProxyError, "ServiceUnresolvedReference",
        "Spec.TCPProxy unresolved service reference: " ++ err)
    | .ok s =>
      match getProtocol service s with
      | .error err => .error (.serviceError, "UnsupportedProtocol", err)
      | .ok protocol =>
        let c : Cluster :=
          { upstream := s, weight := service.weight.toUInt64.toUInt32, protocol,
            loadBalancerPolicy := lbPolicy,
            tcpHealthCheckPolicy := tcpHealthCheckPolicy tcpproxy.healthCheckPolicy,
            sni := s.externalName }
        (tcpClusters httpproxy tcpproxy lbPolicy rest).map (c :: ·)

/-- The load balancer policy of a TCP proxy, and the condition with the warning
about a policy that is not supported. -/
def tcpLoadBalancerPolicy (tcpproxy : TCPProxySpec) (validCond : DetailedCondition) :
    LoadBalancerStrategy × DetailedCondition :=
  match loadBalancerPolicy tcpproxy.loadBalancerPolicy with
  | .cookie => ignored .cookie
  | .requestHash => ignored .requestHash
  | lbPolicy => (lbPolicy, validCond)
where
  ignored (lbPolicy : LoadBalancerStrategy) : LoadBalancerStrategy × DetailedCondition :=
    (.unset, validCond.addWarning .tcpProxyError "IgnoredField"
      ("ignoring field " ++ lib.quote "Spec.TCPProxy.LoadBalancerPolicy" ++ "; " ++
        lbPolicy.text ++ " load balancer policy is not supported for TCPProxies"))

/-- `processHTTPProxyTCPProxy`: the result and whether it was successful. -/
def processHTTPProxyTCPProxy (host : String) :
    Nat → List HTTPProxy → ProxyState → HTTPProxy → Bool × ProxyState
  | 0, _, s, _ => (false, s)
  | fuel + 1, visited, s, httpproxy =>
    match httpproxy.tcpProxy with
    | none => (true, s)
    | some tcpproxy =>
      let visited := visited ++ [httpproxy]
      let tcpProxyInclude := tcpproxy.included.or tcpproxy.includesDeprecated
      if tcpproxy.services ≠ [] ∧ tcpProxyInclude.isSome then
        (false, s.addError .tcpProxyError "NoServicesAndInclude"
          "cannot specify services and include in the same httpproxy")
      else
        let (lbPolicy, validCond) := tcpLoadBalancerPolicy lib tcpproxy s.validCond
        let s := { s with validCond }
        if tcpproxy.services ≠ [] then
          match tcpClusters lib p source httpproxy tcpproxy lbPolicy tcpproxy.services with
          | .error (type, reason, message) => (false, s.addError type reason message)
          | .ok clusters =>
            let secure :=
              { s.state.dag.ensureSecureVirtualHost host with tcpProxy := some clusters }
            (true, s.putHost host { svhost := secure, validCond })
        else
          match tcpProxyInclude with
          | none =>
            (false, s.addError .tcpProxyError "NothingDefined"
              "either services or inclusion must be specified")
          | some inc =>
            let m : NamespacedName :=
              { ns := stringOrDefault inc.ns httpproxy.ns, name := inc.name }
            match source.httpproxies.lookup m with
            | none =>
              (false, s.addError .tcpProxyIncludeError "IncludeNotFound"
                ("include " ++ m.string ++ " not found"))
            | some dest =>
              if dest.virtualHost.isSome then
                (false, s.addError .tcpProxyIncludeError "RootIncludesRoot"
                  "root httpproxy cannot include another root httpproxy")
              else
                let s := { s with state := { s.state with
                  orphaned := s.state.orphaned.filter (· ≠ namespacedNameOf dest.toObjectMeta) } }
                if visited.any fun hp => dest.name = hp.name ∧ dest.ns = hp.ns then
                  let path := visited.map proxyPath ++ [proxyPath dest]
                  (false, s.addError .tcpProxyIncludeError "IncludeCreatesCycle"
                    ("include creates a cycle: " ++ " -> ".intercalate path))
                else
                  let pu := Status.Cache.proxyAccessor dest
                  let (ok, below) := processHTTPProxyTCPProxy host fuel visited
                    { state := s.state, validCond := pu.conditionFor } dest
                  let state := below.state.commit { pu with valid := some below.validCond }
                  (ok, { state, validCond := s.validCond })

/-! ## A root proxy -/

def toCORSPolicy (policy : Option Api.CORSPolicy) : Except String (Option CORSPolicy) :=
  match policy with
  | none => .ok none
  | some policy => do
      let maxAge ← Timeout.parseMaxAge lib policy.maxAge
      if maxAge.val < 0 then .error ("invalid max age value " ++ lib.quote policy.maxAge)
      else
        pure (some
          { allowCredentials := policy.allowCredentials, allowHeaders := policy.allowHeaders,
            allowMethods := policy.allowMethods, allowOrigin := policy.allowOrigin,
            exposeHeaders := policy.exposeHeaders, maxAge })

def rootAllowed (ns : String) : Bool := source.rootNamespaces = [] ∨ ns ∈ source.rootNamespaces

/-- The fuel that the chains of includes among the cached proxies need. -/
def includeFuel : Nat := source.httpproxies.keys.length + 1

/-- The TCP proxy part of `computeHTTPProxy`. -/
def attachTCPProxy (proxy : HTTPProxy) (vhost : VirtualHostSpec) (s : ProxyState) : ProxyStep :=
  if proxy.tcpProxy.isNone then .ok s
  else if vhost.tls.isNone then
    s.reject .tcpProxyError "TLSMustBeConfigured"
      "Spec.TCPProxy requires that either Spec.TLS.Passthrough or Spec.TLS.SecretName be set"
  else
    match processHTTPProxyTCPProxy lib p source vhost.fqdn (includeFuel source) [] s proxy with
    | (true, s) => .ok s
    | (false, s) => .error s

def addRoutes (v : VirtualHost) (routes : List Route) : VirtualHost :=
  routes.foldl VirtualHost.addRoute v

def addSecureRoutes (v : SecureVirtualHost) (routes : List Route) : SecureVirtualHost :=
  routes.foldl SecureVirtualHost.addRoute v

/-- The last part of `computeHTTPProxy`: the routes go to the plaintext host and,
with TLS and without a TCP proxy, to the secure host. The plaintext host exists
from the moment the routes are computed. -/
def attachRoutes (proxy : HTTPProxy) (vhost : VirtualHostSpec) (s : ProxyState) : ProxyStep :=
  let tlsEnabled := vhost.tls.isSome
  let v := computeRoutes lib ord p source { proxy, virtualHost := vhost } tlsEnabled
    (includeFuel source) [] s.state s.validCond { proxy, chain := [] }
  let insecure := v.state.dag.ensureVirtualHost vhost.fqdn
  let put (state : State) (insecure : VirtualHost) : State :=
    { state with dag := state.dag.putVirtualHost vhost.fqdn insecure }
  let s : ProxyState := { state := put v.state insecure, validCond := v.validCond }
  match toCORSPolicy lib vhost.corsPolicy with
  | .error err => s.reject .corsError "PolicyDidNotParse" ("Spec.VirtualHost.CORSPolicy: " ++ err)
  | .ok cp =>
    let insecure := { insecure with corsPolicy := cp }
    let s := { s with state := put s.state insecure }
    match rateLimitPolicy lib ord vhost.rateLimitPolicy with
    | .error err =>
      s.reject .routeError "RateLimitPolicyNotValid"
        ("Spec.VirtualHost.RateLimitPolicy is invalid: " ++ err)
    | .ok rlp =>
      let insecure := addRoutes { insecure with rateLimitPolicy := rlp } v.routes
      let s := { s with state := put s.state insecure }
      if tlsEnabled ∧ proxy.tcpProxy.isNone then
        let secure : SecureVirtualHost :=
          { s.state.dag.ensureSecureVirtualHost vhost.fqdn with
            corsPolicy := cp, rateLimitPolicy := rlp }
        .ok (s.putHost vhost.fqdn
          { svhost := addSecureRoutes secure v.routes, validCond := s.validCond })
      else .ok s

/-- The checks of `computeHTTPProxy` before TLS. -/
def checkRoot (proxy : HTTPProxy) (s : ProxyState) : ProxyStep :=
  if ¬ rootAllowed source proxy.ns then
    s.reject .rootNamespaceError "RootProxyNotAllowedInNamespace"
      "root HTTPProxy cannot be defined in this namespace"
  else if proxy.routes = [] ∧ proxy.includes = [] ∧ proxy.tcpProxy.isNone then
    s.reject .specError "NothingDefined"
      "HTTPProxy.Spec must have at least one Route, Include, or a TCPProxy"
  else .ok s

/-- The parts of `computeHTTPProxy` for a root with an fqdn. -/
def computeRoot (proxy : HTTPProxy) (vhost : VirtualHostSpec) (s : ProxyState) : ProxyStep := do
  let s ← checkRoot source proxy s
  let s ← attachTLS lib ord p source proxy vhost s
  let s ← attachTCPProxy lib p source proxy vhost s
  attachRoutes lib ord p source proxy vhost s

/-- The state in which a part ended, early or not. -/
def ProxyStep.final : ProxyStep → ProxyState
  | .ok s => s
  | .error s => s

def computeHTTPProxy (st : State) (proxy : HTTPProxy) : State :=
  let pu := Status.Cache.proxyAccessor proxy
  match proxy.virtualHost with
  | none =>
    let orphaned := namespacedNameOf proxy.toObjectMeta
    { st with orphaned := if orphaned ∈ st.orphaned then st.orphaned else orphaned :: st.orphaned }
      |>.commit { pu with valid := some pu.conditionFor }
  | some vhost =>
    if isBlank vhost.fqdn then
      st.commit { pu with
        valid := some (pu.conditionFor.addError .virtualHostError "FQDNNotSpecified"
          "Spec.VirtualHost.Fqdn must be specified") }
    else
      let s := (computeRoot lib ord p source proxy vhost
        { state := st, validCond := pu.conditionFor }).final
      s.state.commit { pu with vhost := vhost.fqdn, valid := some s.validCond }

/-! ## All proxies -/

/-- The root proxies by lower-cased fqdn. -/
def proxiesByFqdn (proxies : List HTTPProxy) : Map String (List HTTPProxy) :=
  proxies.foldl
    (fun m proxy =>
      match proxy.virtualHost with
      | none => m
      | some vhost =>
        let fqdn := lowerName vhost.fqdn
        m.insert fqdn ((m.lookup fqdn).getD [] ++ [proxy]))
    ∅

def rejectDuplicates (fqdn : String) (proxies : List HTTPProxy) (st : State) : State :=
  let conflicting := sortStrings (proxies.map proxyPath)
  let msg := "fqdn " ++ lib.quote fqdn ++ " is used in multiple HTTPProxies: " ++
    ", ".intercalate conflicting
  proxies.foldl
    (fun st proxy =>
      let pu := Status.Cache.proxyAccessor proxy
      st.commit { pu with
        vhost := fqdn,
        valid := some (pu.conditionFor.addError .virtualHostError "DuplicateVhost" msg) })
    st

/-- `validHTTPProxies`: the proxies to compute, the included ones first. -/
def validHTTPProxies (st : State) : List HTTPProxy × State :=
  let proxies := ord.values "validHTTPProxies" source.httpproxies
  let included := proxies.filter fun proxy => proxy.virtualHost.isNone
  (ord.range "validHTTPProxies fqdns" (proxiesByFqdn proxies)).foldl
    (fun acc group =>
      match group.2 with
      | [proxy] => (acc.1 ++ [proxy], acc.2)
      | proxies => (acc.1, rejectDuplicates lib group.1 proxies acc.2))
    (included, st)

def rejectOrphaned (st : State) : State :=
  (ord.order "orphaned" st.orphaned).foldl
    (fun st name =>
      match source.httpproxies.lookup name with
      | none => st
      | some proxy =>
        let pu := Status.Cache.proxyAccessor proxy
        st.commit { pu with
          valid := some (pu.conditionFor.addError .orphanedError "Orphaned"
            "this HTTPProxy is not part of a delegation chain from a root HTTPProxy") })
    st

def run (dag : DAG) : DAG :=
  let (proxies, st) := validHTTPProxies lib ord source { dag }
  let st := proxies.foldl (computeHTTPProxy lib ord p source) st
  (rejectOrphaned ord source st).dag

end Sesame.Dag.HTTPProxyProcessor
