/-
# The listener cache

`ListenerCache.OnChange` turns the hosts attached to a DAG's listeners into
Envoy listeners: one connection manager for all plaintext hosts, one filter
chain per secure host, and one more chain for the fallback certificate.
-/

import Sesame.Envoy.Listener
import Sesame.Dag.ListenerProcessor

namespace Sesame.XdsCache

open List
open Lib Dag Envoy

variable {listeners : Map String Envoy.Listener}

def hostMatch (domain : String) : FilterChainMatch :=
  (filterChainTLS domain none []).filterChainMatch

theorem hostMatch_injective : Function.Injective hostMatch := by
  intro a b h
  by_cases ha : a = "*"
  · by_cases hb : b = "*"
    · rw [ha, hb]
    · simp [hostMatch, filterChainTLS, ha, hb] at h
  · by_cases hb : b = "*"
    · simp [hostMatch, filterChainTLS, ha, hb] at h
    · simpa [hostMatch, filterChainTLS, ha, hb] using h

/-- `ENVOY_HTTP_LISTENER`. -/
def envoyHTTPListener : String := "ingress_http"

/-- `ENVOY_FALLBACK_ROUTECONFIG`. -/
def envoyFallbackRouteConfig : String := "ingress_fallbackcert"

/-- `ENVOY_HTTPS_LISTENER`. -/
def envoyHTTPSListener : String := "ingress_https"

structure ListenerAddress where
  name : String
  address : String
  port : Int

/-- `ListenerConfig`. The server configures each listener under its own name and
always configures `ENVOY_HTTPS_LISTENER` among the HTTPS listeners; an empty map
stands for the default listener. -/
structure ListenerConfig where
  httpListeners : Map String ListenerAddress := ∅
  httpsListeners : Map String ListenerAddress := ∅
  useProxyProto : Bool := false
  minimumTLSVersion : TLSVersion := .v12
  cipherSuites : List String := []
  defaultHTTPVersions : List HTTPVersionType := []
  timeouts : Timeouts := {}
  allowChunkedLength : Bool := false
  xffNumTrustedHops : UInt32 := 0
  connectionBalancer : String := ""
  rateLimitConfig : Option GlobalRateLimitConfig := none
  http_named : ∀ name l, httpListeners.lookup name = some l → l.name = name := by simp
  https_present : httpsListeners.keys = [] ∨ (httpsListeners.lookup envoyHTTPSListener).isSome := by
    simp

namespace ListenerConfig

variable (cfg : ListenerConfig)

variable {b : HTTPConnectionManagerBuilder}

/-- `defaultListeners`, on the HTTP side. -/
def defaultHTTPListeners : Map String ListenerAddress :=
  if cfg.httpListeners.keys = [] then
    (∅ : Map String ListenerAddress).insert envoyHTTPListener
      { name := envoyHTTPListener, address := "0.0.0.0", port := 8080 }
  else cfg.httpListeners

/-- `defaultListeners`, on the HTTPS side. -/
def defaultHTTPSListeners : Map String ListenerAddress :=
  if cfg.httpsListeners.keys = [] then
    (∅ : Map String ListenerAddress).insert envoyHTTPSListener
      { name := envoyHTTPSListener, address := "0.0.0.0", port := 8443 }
  else cfg.httpsListeners

def proxyProtocol : List ListenerFilter :=
  if cfg.useProxyProto then [.proxyProtocol] else []

def secureListeners : Map String Envoy.Listener :=
  cfg.defaultHTTPSListeners.mapValues fun l =>
    { name := l.name, address := l.address, port := l.port,
      listenerFilters := cfg.proxyProtocol ++ [.tlsInspector] }

/-- The greater of two TLS versions. -/
def maxVersion : TLSVersion → TLSVersion → TLSVersion
  | .v13, _ => .v13
  | _, .v13 => .v13
  | .v12, _ => .v12
  | _, .v12 => .v12
  | .unset, .unset => .unset

def minTLSVersion : TLSVersion := maxVersion cfg.minimumTLSVersion .v12

/-- The builder calls that the three connection managers share, up to `Get`. -/
def finish (b : HTTPConnectionManagerBuilder) : Except Panic HttpConnectionManager := do
  let b := { b with timeouts := cfg.timeouts, allowChunkedLength := cfg.allowChunkedLength }
  let b ← b.addFilter (originalIPDetectionFilter cfg.xffNumTrustedHops)
  let b ← b.addFilter (globalRateLimitFilter cfg.rateLimitConfig)
  b.get

/-- The connection manager of the plaintext hosts. -/
def httpConnectionManager (name : String) : Except Panic HttpConnectionManager :=
  let b : HTTPConnectionManagerBuilder :=
    { codec := codecForVersions cfg.defaultHTTPVersions, routeConfigName := name,
      metricsPrefix := name }
  cfg.finish b.defaultFilters

def authFilter (vh : SecureVirtualHost) : Option HttpFilter :=
  vh.authorizationService.map fun service =>
    filterExternalAuthz service.name vh.authorizationFailOpen vh.authorizationResponseTimeout
      vh.authorizationServerWithRequestBody

/-- The name of the route configuration of a secure host. -/
def secureRouteConfigName (host : String) : String := pathJoin "https" host

def secureConnectionManager (listenerName : String) (vh : SecureVirtualHost) :
    Except Panic HttpConnectionManager := do
  let b : HTTPConnectionManagerBuilder := { codec := codecForVersions cfg.defaultHTTPVersions }
  let b ← b.addFilter (some (filterMisdirectedRequests vh.name))
  let b ← b.defaultFilters.addFilter (authFilter vh)
  cfg.finish
    { b with routeConfigName := secureRouteConfigName vh.name, metricsPrefix := listenerName }

/-- The connection manager behind the fallback certificate. -/
def fallbackConnectionManager (listenerName : String) : Except Panic HttpConnectionManager :=
  let b : HTTPConnectionManagerBuilder :=
    { routeConfigName := envoyFallbackRouteConfig, metricsPrefix := listenerName }
  cfg.finish b.defaultFilters

variable (lib : Stdlib)

/-- The application protocols offered on the chain of a secure host; a TCP proxy
offers none. -/
def alpnProtos (vh : SecureVirtualHost) : List String :=
  if vh.tcpProxy.isNone then protoNamesForVersions cfg.defaultHTTPVersions else []

def secureFilters (listenerName : String) (vh : SecureVirtualHost) :
    Except Panic (List NetworkFilter) :=
  match vh.tcpProxy with
  | none => (cfg.secureConnectionManager listenerName vh).map fun cm =>
    [.httpConnectionManager cm]
  | some proxy => .ok [.tcpProxy (tcpProxy lib listenerName proxy)]

/-- The downstream TLS context of a secure host; with TLS passthrough there is
none. -/
def secureTLSContext (vh : SecureVirtualHost) : Option DownstreamTlsContext :=
  vh.secret.map fun secret =>
    downstreamTLSContext lib secret (maxVersion cfg.minTLSVersion vh.minTLSVersion)
      cfg.cipherSuites vh.downstreamValidation (cfg.alpnProtos vh)

def secureFilterChain (listenerName : String) (vh : SecureVirtualHost) : Except Panic FilterChain :=
  (cfg.secureFilters lib listenerName vh).map (filterChainTLS vh.name (cfg.secureTLSContext lib vh))

/-- The filter chain for the fallback certificate, made when `vh` is the first
host that has one. -/
def fallbackFilterChain (listenerName : String) (vh : SecureVirtualHost)
    (fallback : Dag.Secret) : Except Panic FilterChain :=
  (cfg.fallbackConnectionManager listenerName).map fun cm =>
    filterChainTLSFallback
      (some (downstreamTLSContext lib fallback cfg.minTLSVersion cfg.cipherSuites
        vh.downstreamValidation (cfg.alpnProtos vh)))
      [.httpConnectionManager cm]

/-- The chains that the loop body adds for one secure host to the chains that are
there. -/
def addSecureHost (listenerName : String) (chains : List FilterChain) (vh : SecureVirtualHost) :
    Except Panic (List FilterChain) := do
  let chain ← cfg.secureFilterChain lib listenerName vh
  let chains := chains ++ [chain]
  match vh.fallbackCertificate with
  | none => pure chains
  | some fallback =>
    if containsFallbackFilterChain chains then pure chains
    else
      let chain ← cfg.fallbackFilterChain lib listenerName vh fallback
      pure (chains ++ [chain])

/-! ### What the connection managers contain -/

/-- The filters that every connection manager has before its last ones. -/
def standardFilters : List HttpFilter :=
  [.compressor, .grpcWeb, .cors, .localRateLimit, .lua luaPlaceholder]

/-- The filters that `finish` adds in front of the router. -/
def configuredFilters : List HttpFilter :=
  (originalIPDetectionFilter cfg.xffNumTrustedHops).toList ++
    (globalRateLimitFilter cfg.rateLimitConfig).toList

variable {cfg}

theorem isRouter_originalIPDetectionFilter {hops : UInt32} :
    ∀ g ∈ originalIPDetectionFilter hops, g.isRouter = false := by
  unfold originalIPDetectionFilter
  split
  · simp
  · rintro g ⟨⟩
    rfl

theorem isRouter_globalRateLimitFilter {config : Option GlobalRateLimitConfig} :
    ∀ g ∈ globalRateLimitFilter config, g.isRouter = false := by
  intro g hg
  cases config with
  | none => cases hg
  | some config =>
    cases hg
    rfl

theorem isRouter_standardFilters : ∀ g ∈ standardFilters, g.isRouter = false := by
  decide

theorem finish_ok {before : List HttpFilter} (h : b.RouterLast before) :
    ∃ cm, cfg.finish b = .ok cm ∧
      cm.httpFilters = before ++ cfg.configuredFilters ++ [.router] ∧
      cm.routeConfigName = b.routeConfigName := by
  let b₀ : HTTPConnectionManagerBuilder :=
    { b with timeouts := cfg.timeouts, allowChunkedLength := cfg.allowChunkedLength }
  have h₀ : b₀.RouterLast before := ⟨h.filters_eq, h.before_not_router⟩
  obtain ⟨b₁, hadd₁, h₁, hname₁⟩ := h₀.addFilter isRouter_originalIPDetectionFilter
  obtain ⟨b₂, hadd₂, h₂, hname₂⟩ := h₁.addFilter
    (f := globalRateLimitFilter cfg.rateLimitConfig) isRouter_globalRateLimitFilter
  obtain ⟨cm, hget, hfilters, hname⟩ := h₂.get
  refine ⟨cm, ?_, ?_, by rw [hname, hname₂, hname₁]⟩
  · show (b₀.addFilter _ >>= fun b => b.addFilter _ >>= fun b => b.get) = _
    rw [hadd₁, ok_bind, hadd₂, ok_bind, hget]
  · rw [hfilters, configuredFilters]
    simp only [append_assoc]

theorem routerLast_defaultFilters (h : ∀ g ∈ b.filters, g.isRouter = false) :
    b.defaultFilters.RouterLast (b.filters ++ standardFilters) := by
  refine ⟨by simp [HTTPConnectionManagerBuilder.defaultFilters, standardFilters], ?_⟩
  intro g hg
  rcases mem_append.mp hg with hg | hg
  · exact h g hg
  · exact isRouter_standardFilters g hg

theorem httpConnectionManager_ok (name : String) :
    ∃ cm, cfg.httpConnectionManager name = .ok cm ∧
      cm.httpFilters = standardFilters ++ cfg.configuredFilters ++ [.router] ∧
      cm.routeConfigName = name :=
  finish_ok (routerLast_defaultFilters (by simp))

theorem fallbackConnectionManager_ok (listenerName : String) :
    ∃ cm, cfg.fallbackConnectionManager listenerName = .ok cm ∧
      cm.httpFilters = standardFilters ++ cfg.configuredFilters ++ [.router] ∧
      cm.routeConfigName = envoyFallbackRouteConfig :=
  finish_ok (routerLast_defaultFilters (by simp))

theorem secureConnectionManager_ok (listenerName : String) (vh : SecureVirtualHost) :
    ∃ cm, cfg.secureConnectionManager listenerName vh = .ok cm ∧
      cm.httpFilters = filterMisdirectedRequests vh.name ::
        (standardFilters ++ (authFilter vh).toList ++ cfg.configuredFilters ++ [.router]) ∧
      cm.routeConfigName = secureRouteConfigName vh.name := by
  let b₀ : HTTPConnectionManagerBuilder :=
    { codec := codecForVersions cfg.defaultHTTPVersions,
      filters := [filterMisdirectedRequests vh.name] }
  have hmisdirected : ∀ g ∈ b₀.filters, g.isRouter = false := by
    intro g hg
    rw [mem_singleton.mp hg]
    rfl
  have hauth : ∀ g ∈ authFilter vh, g.isRouter = false := by
    intro g hg
    obtain ⟨service, -, rfl⟩ := Option.map_eq_some_iff.mp hg
    rfl
  obtain ⟨b₁, hadd, h₁, -⟩ := (routerLast_defaultFilters hmisdirected).addFilter hauth
  obtain ⟨cm, hfinish, hfilters, hname⟩ := cfg.finish_ok
    (b := { b₁ with routeConfigName := secureRouteConfigName vh.name,
                    metricsPrefix := listenerName })
    ⟨h₁.filters_eq, h₁.before_not_router⟩
  refine ⟨cm, ?_, ?_, hname⟩
  · show (b₀.defaultFilters.addFilter (authFilter vh) >>= fun b => cfg.finish _) = _
    rw [hadd, ok_bind, hfinish]
  · rw [hfilters]
    simp [b₀, append_assoc]

/-! ### The chains of the secure hosts -/

theorem secureFilterChain_ok (listenerName : String) (vh : SecureVirtualHost) :
    ∃ fc, cfg.secureFilterChain lib listenerName vh = .ok fc := by
  unfold secureFilterChain secureFilters
  cases vh.tcpProxy with
  | none =>
    obtain ⟨cm, hcm, -, -⟩ := cfg.secureConnectionManager_ok listenerName vh
    rw [hcm]
    exact ⟨_, rfl⟩
  | some proxy => exact ⟨_, rfl⟩

theorem fallbackFilterChain_ok (listenerName : String) (vh : SecureVirtualHost)
    (fallback : Dag.Secret) :
    ∃ fc, cfg.fallbackFilterChain lib listenerName vh fallback = .ok fc := by
  obtain ⟨cm, hcm, -, -⟩ := cfg.fallbackConnectionManager_ok listenerName
  rw [fallbackFilterChain, hcm]
  exact ⟨_, rfl⟩

variable (cfg) in
/-- The chain is the fallback chain made at a host. -/
def FallbackChainOf (listenerName : String) (vh : SecureVirtualHost) (fc : FilterChain) : Prop :=
  ∃ fallback, vh.fallbackCertificate = some fallback ∧
    cfg.fallbackFilterChain lib listenerName vh fallback = .ok fc

variable {lib} {vh : SecureVirtualHost} {listenerName : String}

theorem secureFilterChain_eq {fc : FilterChain}
    (h : cfg.secureFilterChain lib listenerName vh = .ok fc) :
    fc.filterChainMatch = hostMatch vh.name ∧ fc.name = "" := by
  obtain ⟨filters, -, rfl⟩ := map_eq_ok.mp h
  exact ⟨rfl, rfl⟩

theorem fallbackFilterChain_eq {fallback : Dag.Secret} {fc : FilterChain}
    (h : cfg.fallbackFilterChain lib listenerName vh fallback = .ok fc) :
    fc.filterChainMatch = hostMatch "*" ∧ fc.name = fallbackChainName := by
  obtain ⟨cm, -, rfl⟩ := map_eq_ok.mp h
  exact ⟨rfl, rfl⟩

/-- The chain that one more host makes necessary for the fallback certificate, by
the name it is matched with. -/
def fallbackNames (chains : List FilterChain) (hosts : List SecureVirtualHost) : List String :=
  if containsFallbackFilterChain chains then []
  else if hosts.any (·.fallbackCertificate.isSome) then ["*"] else []

variable (lib cfg) in
/-- What the loop over the secure hosts makes of the chains that are there: every host has
its chain, every new chain is the chain of a host or the fallback chain made at one, and
the hosts add one match each and at most one match for the fallback chain. -/
structure AddsChains (listenerName : String) (hosts : List SecureVirtualHost)
    (chains result : List FilterChain) : Prop where
  old : chains ⊆ result
  own : ∀ vh ∈ hosts, ∃ fc ∈ result, cfg.secureFilterChain lib listenerName vh = .ok fc
  new : ∀ fc ∈ result, fc ∈ chains ∨ ∃ vh ∈ hosts,
    cfg.secureFilterChain lib listenerName vh = .ok fc ∨ cfg.FallbackChainOf lib listenerName vh fc
  perm : (result.map (·.filterChainMatch)).Perm
    (chains.map (·.filterChainMatch) ++
      (hosts.map (·.name) ++ fallbackNames chains hosts).map hostMatch)
  fallback : containsFallbackFilterChain result =
    (containsFallbackFilterChain chains || hosts.any (·.fallbackCertificate.isSome))

theorem AddsChains.cons {hosts : List SecureVirtualHost} {chains next result : List FilterChain}
    (h : cfg.AddsChains lib listenerName [vh] chains next)
    (hrest : cfg.AddsChains lib listenerName hosts next result) :
    cfg.AddsChains lib listenerName (vh :: hosts) chains result where
  old fc hfc := hrest.old (h.old hfc)
  own := by
    obtain ⟨fc, hfc, hchain⟩ := h.own vh mem_cons_self
    exact forall_mem_cons.mpr ⟨⟨fc, hrest.old hfc, hchain⟩, hrest.own⟩
  new fc hfc := by
    rcases hrest.new fc hfc with hnext | ⟨vh', hvh', hof⟩
    · refine (h.new fc hnext).imp_right fun ⟨vh', hvh', hof⟩ => ?_
      exact ⟨vh, mem_cons_self, mem_singleton.mp hvh' ▸ hof⟩
    · exact .inr ⟨vh', mem_cons_of_mem vh hvh', hof⟩
  perm := by
    have hfallback : fallbackNames chains (vh :: hosts) =
        fallbackNames chains [vh] ++ fallbackNames next hosts := by
      unfold fallbackNames
      rw [h.fallback]
      cases containsFallbackFilterChain chains <;>
        cases hvh : vh.fallbackCertificate.isSome <;> simp [hvh]
    refine hrest.perm.trans ((h.perm.append_right _).trans ?_)
    rw [hfallback, append_assoc, ← map_append]
    refine Perm.append_left _ (Perm.map _ ?_)
    simp only [map_cons, map_nil, cons_append, nil_append]
    rw [← append_assoc, ← append_assoc]
    exact (perm_append_comm.append_right _).cons _
  fallback := by
    rw [hrest.fallback, h.fallback, any_cons, any_cons, any_nil, Bool.or_false, Bool.or_assoc]

variable (lib)

/-- One host adds its own chain, and the fallback chain if it is the first host with a
fallback certificate. -/
theorem addSecureHost_ok (listenerName : String) (chains : List FilterChain)
    (vh : SecureVirtualHost) :
    ∃ result, cfg.addSecureHost lib listenerName chains vh = .ok result ∧
      cfg.AddsChains lib listenerName [vh] chains result := by
  obtain ⟨chain, hchain⟩ := cfg.secureFilterChain_ok lib listenerName vh
  obtain ⟨hmatch, hname⟩ := secureFilterChain_eq hchain
  have hplain : containsFallbackFilterChain (chains ++ [chain]) =
      containsFallbackFilterChain chains := by
    simp [containsFallbackFilterChain, hname, fallbackChainName]
  have hnew : ∀ more, (∀ fc ∈ more, cfg.FallbackChainOf lib listenerName vh fc) →
      ∀ fc ∈ chains ++ chain :: more, fc ∈ chains ∨ ∃ vh' ∈ [vh],
        cfg.secureFilterChain lib listenerName vh' = .ok fc ∨
          cfg.FallbackChainOf lib listenerName vh' fc := by
    intro more hmore
    refine forall_mem_append.mpr ⟨fun fc hfc => .inl hfc, forall_mem_cons.mpr ⟨?_, ?_⟩⟩
    · exact .inr ⟨vh, mem_cons_self, .inl hchain⟩
    · exact fun fc hfc => .inr ⟨vh, mem_cons_self, .inr (hmore fc hfc)⟩
  have hkept : (vh.fallbackCertificate.isSome = true → containsFallbackFilterChain chains = true) →
      cfg.AddsChains lib listenerName [vh] chains (chains ++ [chain]) := by
    intro hpresent
    refine ⟨by simp, by simpa using .inr hchain, hnew [] nofun, ?_, ?_⟩
    · cases hfallback : vh.fallbackCertificate.isSome <;>
        simp_all [fallbackNames]
    · cases hfallback : vh.fallbackCertificate.isSome <;> simp_all
  rw [addSecureHost, hchain, ok_bind]
  cases hfallback : vh.fallbackCertificate with
  | none => exact ⟨_, rfl, hkept (by simp [hfallback])⟩
  | some fallback =>
    by_cases hpresent : containsFallbackFilterChain chains = true
    · refine ⟨_, ?_, hkept fun _ => hpresent⟩
      simp only [hplain, hpresent, if_true]
      rfl
    · obtain ⟨fc, hfc⟩ := cfg.fallbackFilterChain_ok lib listenerName vh fallback
      obtain ⟨hfcMatch, hfcName⟩ := fallbackFilterChain_eq hfc
      refine ⟨chains ++ [chain, fc], ?_, by simp, by simpa using ⟨chain, by simp, hchain⟩,
        hnew [fc] ?_, ?_, ?_⟩
      · simp only [hplain, hpresent, hfc, ok_bind]
        simp [pure, Except.pure]
      · exact forall_mem_singleton.mpr ⟨fallback, hfallback, hfc⟩
      · simp [hmatch, hfcMatch, fallbackNames, hpresent, hfallback]
      · simp [containsFallbackFilterChain, hfcName, hfallback]

theorem foldlM_addSecureHost_ok (listenerName : String) (hosts : List SecureVirtualHost)
    (chains : List FilterChain) :
    ∃ result, hosts.foldlM (cfg.addSecureHost lib listenerName) chains = .ok result ∧
      cfg.AddsChains lib listenerName hosts chains result := by
  induction hosts generalizing chains with
  | nil =>
    exact ⟨chains, rfl, fun _ h => h, by simp, fun _ h => .inl h, by simp [fallbackNames], by simp⟩
  | cons vh hosts ih =>
    obtain ⟨next, hnext, hadds⟩ := cfg.addSecureHost_ok lib listenerName chains vh
    obtain ⟨result, hresult, hrest⟩ := ih next
    refine ⟨result, ?_, hadds.cons hrest⟩
    rw [foldlM_cons, hnext]
    exact hresult

end ListenerConfig

open ListenerConfig

/-- `filterChainSorter`. -/
def filterChainLess (a b : FilterChain) : Bool :=
  match a.filterChainMatch.serverNames, b.filterChainMatch.serverNames with
  | [], _ => false
  | _, [] => true
  | x :: _, y :: _ => x < y

variable (lib : Stdlib) (cfg : ListenerConfig)

/-- The part of the loop body for the plaintext hosts of a listener. -/
def addHTTPListener (listeners : Map String Envoy.Listener) (listener : Dag.Listener) :
    Except Panic (Map String Envoy.Listener) :=
  match listener.virtualHosts, cfg.defaultHTTPListeners.lookup listener.name with
  | _ :: _, some httpListener => do
      let cm ← cfg.httpConnectionManager httpListener.name
      let l : Envoy.Listener :=
        { name := httpListener.name, address := httpListener.address, port := httpListener.port,
          listenerFilters := cfg.proxyProtocol,
          filterChains := [{ filters := [.httpConnectionManager cm] }] }
      pure (listeners.insert httpListener.name l)
  | _, _ => pure listeners

/-- The part of the loop body for the secure hosts of a listener. -/
def addSecureHosts (listeners : Map String Envoy.Listener) (listener : Dag.Listener) :
    Except Panic (Map String Envoy.Listener) :=
  match listener.secureVirtualHosts with
  | [] => pure listeners
  | hosts =>
    match listeners.lookup listener.name with
    | none => .error .nilDereference
    | some l => do
        let chains ← hosts.foldlM (cfg.addSecureHost lib listener.name) l.filterChains
        pure (listeners.insert listener.name { l with filterChains := chains })

/-- The loop body of `OnChange`. -/
def addListener (listeners : Map String Envoy.Listener) (listener : Dag.Listener) :
    Except Panic (Map String Envoy.Listener) := do
  let listeners ← addHTTPListener cfg listeners listener
  addSecureHosts lib cfg listeners listener

/-- The last part of `OnChange`: the HTTPS listener is dropped if nothing is bound
to it and sorted otherwise. -/
def finishListeners (listeners : Map String Envoy.Listener) :
    Except Panic (Map String Envoy.Listener) :=
  match listeners.lookup envoyHTTPSListener with
  | none => .error .nilDereference
  | some https =>
    let listeners :=
      if https.filterChains = [] then listeners.erase envoyHTTPSListener
      else
        listeners.insert envoyHTTPSListener
          { https with filterChains := sortStable filterChainLess https.filterChains }
    pure (Map.mapValues
      (fun l => { l with exactBalance := cfg.connectionBalancer = "exact" }) listeners)

/-- `ListenerCache.OnChange`. -/
def listenersOf (root : DAG) : Except Panic (Map String Envoy.Listener) := do
  let listeners ← root.listeners.foldlM (addListener lib cfg) cfg.secureListeners
  finishListeners cfg listeners

/-! ## The listeners of an attached DAG -/

variable {cfg}

theorem secureListeners_https :
    ∃ l, cfg.secureListeners.lookup envoyHTTPSListener = some l ∧ l.filterChains = [] := by
  have hpresent :
      ∃ address, cfg.defaultHTTPSListeners.lookup envoyHTTPSListener = some address := by
    unfold defaultHTTPSListeners
    split
    · exact ⟨_, AList.lookup_insert _⟩
    · next h => exact Option.isSome_iff_exists.mp (cfg.https_present.resolve_left h)
  obtain ⟨address, haddress⟩ := hpresent
  rw [secureListeners, Map.lookup_mapValues, haddress]
  exact ⟨_, rfl, rfl⟩

variable (cfg) in
/-- The chain that holds the plaintext hosts. -/
def HTTPChain (fc : FilterChain) : Prop :=
  ∃ cm, cfg.httpConnectionManager envoyHTTPListener = .ok cm ∧
    fc = { filters := [.httpConnectionManager cm] }

variable (cfg) in
/-- Listeners before the secure hosts are added: nothing is bound to the HTTPS
listener, and the other listeners hold plaintext hosts only. -/
structure BeforeSecure (listeners : Map String Envoy.Listener) : Prop where
  https : ∃ l, listeners.lookup envoyHTTPSListener = some l ∧ l.filterChains = []
  others : ∀ name l, listeners.lookup name = some l → ∀ fc ∈ l.filterChains, HTTPChain cfg fc

theorem beforeSecure_secureListeners : BeforeSecure cfg cfg.secureListeners := by
  refine ⟨secureListeners_https, ?_⟩
  intro name l hl fc hfc
  rw [secureListeners, Map.lookup_mapValues] at hl
  obtain ⟨address, -, rfl⟩ := Option.map_eq_some_iff.mp hl
  cases hfc

theorem defaultHTTPListeners_named {name : String} {address : ListenerAddress}
    (h : cfg.defaultHTTPListeners.lookup name = some address) : address.name = name := by
  unfold defaultHTTPListeners at h
  split at h
  · exact Map.forall_lookup_insert (P := fun name address => address.name = name) rfl nofun _ _ h
  · exact cfg.http_named name address h

theorem BeforeSecure.addHTTPListener (h : BeforeSecure cfg listeners) {listener : Dag.Listener}
    (hname : listener.name = envoyHTTPListener) :
    ∃ listeners', addHTTPListener cfg listeners listener = .ok listeners' ∧
      BeforeSecure cfg listeners' := by
  unfold XdsCache.addHTTPListener
  split
  · next _ _ _ address _ hlookup =>
    have haddress : address.name = envoyHTTPListener :=
      (defaultHTTPListeners_named hlookup).trans hname
    obtain ⟨cm, hcm, -, -⟩ := cfg.httpConnectionManager_ok envoyHTTPListener
    rw [haddress, hcm]
    refine ⟨_, rfl, ?_, ?_⟩
    · obtain ⟨l, hl, hempty⟩ := h.https
      refine ⟨l, ?_, hempty⟩
      rw [Map.lookup_insert_eq, if_neg (by decide), hl]
    · refine Map.forall_lookup_insert (forall_mem_singleton.mpr ?_) h.others
      exact ⟨cm, hcm, rfl⟩
  · exact ⟨listeners, rfl, h⟩

variable (cfg) in
/-- A chain that stands for one of the secure hosts. -/
def SecureChain (hosts : List SecureVirtualHost) (fc : FilterChain) : Prop :=
  ∃ vh ∈ hosts, cfg.secureFilterChain lib envoyHTTPSListener vh = .ok fc ∨
    cfg.FallbackChainOf lib envoyHTTPSListener vh fc

variable (cfg) in
theorem beforeSecure_httpListener (hosts : List VirtualHost) :
    ∃ listeners, (ListenerProcessor.httpListener hosts).foldlM (addListener lib cfg)
      cfg.secureListeners = .ok listeners ∧ BeforeSecure cfg listeners := by
  cases hosts with
  | nil => exact ⟨_, rfl, beforeSecure_secureListeners⟩
  | cons vh hosts =>
    let listener : Dag.Listener :=
      { name := ListenerProcessor.httpListenerName, port := 80, virtualHosts := vh :: hosts }
    have hname : listener.name = envoyHTTPListener := rfl
    obtain ⟨listeners, hadd, hbefore⟩ := beforeSecure_secureListeners.addHTTPListener hname
    refine ⟨listeners, ?_, hbefore⟩
    rw [ListenerProcessor.httpListener, foldlM_cons, addListener, hadd]
    · rfl
    · exact cons_ne_nil vh hosts

theorem BeforeSecure.httpsListener (h : BeforeSecure cfg listeners)
    (hosts : List SecureVirtualHost) :
    ∃ listeners' l, (ListenerProcessor.httpsListener hosts).foldlM (addListener lib cfg)
        listeners = .ok listeners' ∧
      listeners'.lookup envoyHTTPSListener = some l ∧
      cfg.AddsChains lib envoyHTTPSListener hosts [] l.filterChains ∧
      ∀ name, name ≠ envoyHTTPSListener → listeners'.lookup name = listeners.lookup name := by
  obtain ⟨l, hl, hempty⟩ := h.https
  cases hosts with
  | nil =>
    obtain ⟨chains, hchains, hadds⟩ := cfg.foldlM_addSecureHost_ok lib envoyHTTPSListener [] []
    cases hchains
    exact ⟨listeners, l, rfl, hl, by rwa [hempty], fun _ _ => rfl⟩
  | cons vh hosts =>
    obtain ⟨chains, hchains, hadds⟩ :=
      cfg.foldlM_addSecureHost_ok lib envoyHTTPSListener (vh :: hosts) []
    let listener : Dag.Listener :=
      { name := ListenerProcessor.httpsListenerName, port := 443,
        secureVirtualHosts := vh :: hosts }
    refine ⟨listeners.insert envoyHTTPSListener { l with filterChains := chains }, _, ?_,
      AList.lookup_insert _, hadds, fun name hname => AList.lookup_insert_ne hname⟩
    have hhttp : XdsCache.addHTTPListener cfg listeners listener = .ok listeners := rfl
    have hadd : XdsCache.addSecureHosts lib cfg listeners listener =
        .ok (listeners.insert envoyHTTPSListener { l with filterChains := chains }) := by
      have hlookup : listeners.lookup listener.name = some l := hl
      have hrun : (vh :: hosts).foldlM (cfg.addSecureHost lib listener.name) [] = .ok chains :=
        hchains
      simp only [XdsCache.addSecureHosts, listener, hlookup, hempty, hrun]
      rfl
    have hlisteners : ListenerProcessor.httpsListener (vh :: hosts) = [listener] := rfl
    rw [hlisteners, foldlM_cons, addListener, hhttp, ok_bind, hadd]
    rfl

variable (cfg) in
/-- The listeners generated for a DAG whose hosts the listener processor attached. The
chains of the HTTPS listener are those of the attached secure hosts, sorted, and the
listener is there if there are any. The chains of other listeners hold plaintext hosts. -/
theorem listenersOf_run_https (ord : MapOrder) {d : DAG} (hd : d.listeners = []) :
    ∃ listeners chains, listenersOf lib cfg (ListenerProcessor.run ord d) = .ok listeners ∧
      cfg.AddsChains lib envoyHTTPSListener (ListenerProcessor.httpsHosts ord d) [] chains ∧
      (∀ l, listeners.lookup envoyHTTPSListener = some l →
        l.filterChains = sortStable filterChainLess chains) ∧
      (chains ≠ [] → ∃ l, listeners.lookup envoyHTTPSListener = some l) ∧
      ∀ name l, name ≠ envoyHTTPSListener → listeners.lookup name = some l →
        ∀ fc ∈ l.filterChains, HTTPChain cfg fc := by
  obtain ⟨before, hhttp, hbefore⟩ :=
    beforeSecure_httpListener lib cfg (ListenerProcessor.httpHosts ord d)
  obtain ⟨listeners, https, hrun, hlookup, hadds, hothers⟩ :=
    hbefore.httpsListener lib (ListenerProcessor.httpsHosts ord d)
  have hloop : (ListenerProcessor.run ord d).listeners.foldlM (addListener lib cfg)
      cfg.secureListeners = .ok listeners := by
    rw [ListenerProcessor.run_eq, hd, nil_append, foldlM_append, hhttp]
    exact hrun
  have hfinish : listenersOf lib cfg (ListenerProcessor.run ord d) =
      finishListeners cfg listeners := by
    rw [listenersOf, hloop]
    rfl
  rw [hfinish, finishListeners, hlookup]
  refine ⟨_, https.filterChains, rfl, hadds, ?_, ?_, ?_⟩
  · intro l hl
    rw [Map.lookup_mapValues] at hl
    obtain ⟨l', hl', rfl⟩ := Option.map_eq_some_iff.mp hl
    split at hl'
    · rw [AList.lookup_erase] at hl'
      cases hl'
    · rw [AList.lookup_insert] at hl'
      cases hl'
      rfl
  · intro hne
    rw [Map.lookup_mapValues, if_neg hne, AList.lookup_insert]
    exact ⟨_, rfl⟩
  · intro name l hname hl
    rw [Map.lookup_mapValues] at hl
    obtain ⟨l', hl', rfl⟩ := Option.map_eq_some_iff.mp hl
    refine hbefore.others name l' ?_
    rw [← hothers name hname]
    split at hl'
    · rwa [AList.lookup_erase_ne hname] at hl'
    · rwa [AList.lookup_insert_ne hname] at hl'

variable (cfg) in
/-- Every attached secure host has its chain on the HTTPS listener, and every chain holds
plaintext hosts or stands for a secure host. -/
theorem listenersOf_run (ord : MapOrder) {d : DAG} (hd : d.listeners = []) :
    ∃ listeners, listenersOf lib cfg (ListenerProcessor.run ord d) = .ok listeners ∧
      (∀ vh ∈ ListenerProcessor.httpsHosts ord d, ∃ l fc,
        listeners.lookup envoyHTTPSListener = some l ∧ fc ∈ l.filterChains ∧
          cfg.secureFilterChain lib envoyHTTPSListener vh = .ok fc) ∧
      ∀ name l, listeners.lookup name = some l → ∀ fc ∈ l.filterChains,
        HTTPChain cfg fc ∨ SecureChain lib cfg (ListenerProcessor.httpsHosts ord d) fc := by
  obtain ⟨listeners, chains, hlisteners, hadds, hsorted, hpresent, hothers⟩ :=
    listenersOf_run_https lib cfg ord hd
  refine ⟨listeners, hlisteners, ?_, ?_⟩
  · intro vh hvh
    obtain ⟨fc, hfc, hchain⟩ := hadds.own vh hvh
    obtain ⟨l, hl⟩ := hpresent (ne_nil_of_mem hfc)
    exact ⟨l, fc, hl, by rw [hsorted l hl]; exact mem_sortStable.mpr hfc, hchain⟩
  · intro name l hl fc hfc
    by_cases hname : name = envoyHTTPSListener
    · rw [hname] at hl
      rw [hsorted l hl, mem_sortStable] at hfc
      exact .inr ((hadds.new fc hfc).resolve_left not_mem_nil)
    · exact .inl (hothers name l hname hl fc hfc)

end Sesame.XdsCache
