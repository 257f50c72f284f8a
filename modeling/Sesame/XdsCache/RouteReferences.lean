/-
# Route configurations that listeners refer to

A connection manager names the route configuration that Envoy asks for. The
listener cache and the route cache decide on their own which configurations there
are: the first looks at TCP proxies and certificates, the second at routes. They
agree on every configuration but the one behind the fallback certificate, which
the listener cache refers to for a TCP-proxied host as well, while the route cache
makes it for hosts with routes.
-/

import Sesame.XdsCache.FilterChains
import Sesame.XdsCache.Route

namespace Sesame.Envoy

/-- The names of the route configurations that a chain refers to. -/
def FilterChain.routeConfigs (fc : FilterChain) : List String :=
  fc.filters.filterMap fun
    | .httpConnectionManager cm => some cm.routeConfigName
    | .tcpProxy _ => none

end Sesame.Envoy

namespace Sesame.XdsCache

open List
open Lib Dag Envoy
open Api (NamespacedName)

/-! ## The configurations of the route cache -/

variable {vh : SecureVirtualHost} {root : DAG}

namespace RouteCache

theorem isSome_appendHosts {vh : EnvoyVirtualHost} (names : List String)
    {configs : Map String RouteConfiguration} {name : String} :
    ((names.foldl (appendHost vh) configs).lookup name).isSome = true ↔
      (configs.lookup name).isSome = true ∨ name ∈ names := by
  induction names generalizing configs with
  | nil => simp
  | cons name' rest ih =>
    rw [foldl_cons, ih, appendHost, Map.lookup_insert_eq, mem_cons]
    by_cases hname : name = name' <;> simp [hname]

/-- A loop that appends hosts to configurations makes the configurations it names. -/
theorem isSome_foldl {α : Type} (names : α → List String) (host : α → EnvoyVirtualHost)
    {f : Map String RouteConfiguration → α → Map String RouteConfiguration}
    (hf : ∀ configs a, f configs a = (names a).foldl (appendHost (host a)) configs)
    (entries : List α) {configs : Map String RouteConfiguration} {name : String} :
    ((entries.foldl f configs).lookup name).isSome = true ↔
      (configs.lookup name).isSome = true ∨ ∃ a ∈ entries, name ∈ names a := by
  induction entries generalizing configs with
  | nil => simp
  | cons a rest ih =>
    rw [foldl_cons, ih, hf, isSome_appendHosts, exists_mem_cons_iff, or_assoc]

variable {lib : Stdlib} {ord : MapOrder}

/-- The route cache has the configuration of the plaintext hosts and those that the
secure hosts with routes go to. -/
theorem isSome_onChange {name : String} :
    ((onChange lib ord root).lookup name).isSome = true ↔
      name = envoyHTTPListener ∨
        ∃ entry ∈ root.getSecureVirtualHostRoutes ord, name ∈ configNames entry.1 := by
  have hsecure := isSome_foldl (f := addSecureHost lib ord) (fun entry => configNames entry.1)
    (secureHost lib ord) fun configs entry => by rw [addSecureHost]
  have hplain := isSome_foldl (f := addHost lib ord) (fun _ => [envoyHTTPListener])
    (plainHost lib ord) fun configs entry => by rw [addHost, foldl_cons, foldl_nil]
  have hstart : (((∅ : Map String RouteConfiguration).insert envoyHTTPListener
      { name := envoyHTTPListener }).lookup name).isSome = true ↔ name = envoyHTTPListener := by
    rw [Map.lookup_insert_eq]
    split <;> simp_all
  rw [onChange, Map.lookup_mapValues, Option.isSome_map, hsecure, hplain, hstart]
  simp only [(ord.perm _ _).mem_iff, mem_singleton]
  tauto

variable (ord) in
/-- A secure host of a listener with routes goes to its configurations. -/
theorem exists_secureHost (hvh : Attached root vh) (hroutes : vh.routes.entries ≠ []) :
    ∃ entry ∈ root.getSecureVirtualHostRoutes ord, entry.1 = vh := by
  obtain ⟨e, he⟩ := exists_mem_of_ne_nil _ hroutes
  have hvalue : e.2 ∈ ord.values ("GetSecureVirtualHostRoutes " ++ vh.name) vh.routes :=
    ord.mem_values.mpr ⟨e.1, AList.mem_lookup_iff.mpr he⟩
  exact ⟨(vh, _), mem_getSecureVirtualHostRoutes.mpr ⟨hvh, ne_nil_of_mem hvalue, rfl⟩, rfl⟩

/-- A secure host that the route cache knows is attached and has routes. -/
theorem attached_of_mem {entry : SecureVirtualHost × List Route}
    (h : entry ∈ root.getSecureVirtualHostRoutes ord) :
    Attached root entry.1 ∧ entry.1.routes.entries ≠ [] := by
  obtain ⟨hvh, hne, hroutes⟩ := mem_getSecureVirtualHostRoutes.mp h
  refine ⟨hvh, fun hempty => hne ?_⟩
  rw [hroutes, eq_nil_iff_forall_not_mem]
  intro r hr
  obtain ⟨key, hkey⟩ := ord.mem_values.mp hr
  have hmem := AList.mem_lookup_iff.mp hkey
  rw [hempty] at hmem
  cases hmem

end RouteCache

/-! ## References of connection managers -/

namespace ListenerConfig

variable {lib : Stdlib} {cfg : ListenerConfig} {listenerName : String} {vh : SecureVirtualHost}
  {fc : FilterChain}

/-- The chain of a secure host refers to the configuration of the host, and to none
if the host is TCP-proxied. -/
theorem mem_secureFilterChain_routeConfigs
    (h : cfg.secureFilterChain lib listenerName vh = .ok fc) {config : String}
    (hconfig : config ∈ fc.routeConfigs) :
    vh.tcpProxy = none ∧ config = secureRouteConfigName vh.name := by
  rw [secureFilterChain, secureFilters] at h
  cases htcp : vh.tcpProxy with
  | none =>
    obtain ⟨cm, hcm, -, hname⟩ := cfg.secureConnectionManager_ok listenerName vh
    rw [htcp] at h
    simp only [hcm] at h
    cases h
    simpa [FilterChain.routeConfigs, filterChainTLS, hname] using hconfig
  | some proxy =>
    rw [htcp] at h
    cases h
    cases hconfig

theorem fallbackFilterChain_routeConfigs {fallback : Dag.Secret}
    (h : cfg.fallbackFilterChain lib listenerName vh fallback = .ok fc) :
    fc.routeConfigs = [envoyFallbackRouteConfig] := by
  obtain ⟨cm, hcm, -, hname⟩ := cfg.fallbackConnectionManager_ok listenerName
  rw [fallbackFilterChain, hcm] at h
  cases h
  simp [FilterChain.routeConfigs, filterChainTLSFallback, hname]

end ListenerConfig

theorem HTTPChain.routeConfigs {cfg : ListenerConfig} {fc : FilterChain} (h : HTTPChain cfg fc) :
    fc.routeConfigs = [envoyHTTPListener] := by
  obtain ⟨cm, hcm, rfl⟩ := h
  obtain ⟨cm', hcm', -, hname⟩ := cfg.httpConnectionManager_ok envoyHTTPListener
  obtain rfl : cm = cm' := Except.ok.inj (hcm.symm.trans hcm')
  simp [FilterChain.routeConfigs, hname]

/-- Every configuration that a listener refers to is in the route cache, and the one
that the chain of a secure host refers to has a virtual host of exactly its name. -/
structure RouteConfigsResolve (lib : Stdlib) (ord : MapOrder) (cfg : ListenerConfig) (root : DAG)
    (listeners : Map String Envoy.Listener) : Prop where
  known : ∀ name l, listeners.lookup name = some l → ∀ fc ∈ l.filterChains,
    ∀ config ∈ fc.routeConfigs, ((RouteCache.onChange lib ord root).lookup config).isSome = true
  own : ∀ vh, Attached root vh → ∃ https fc,
    listeners.lookup envoyHTTPSListener = some https ∧ fc ∈ https.filterChains ∧
      cfg.secureFilterChain lib envoyHTTPSListener vh = .ok fc ∧
      ∀ config ∈ fc.routeConfigs,
        ∃ evh ∈ RouteCache.hostsOf (RouteCache.onChange lib ord root) config,
          evh.domains = [vh.name]

/-- If a host with a fallback certificate is attached, then some attached host with
routes goes to the fallback configuration. -/
def FallbackRouted (root : DAG) : Prop :=
  (∃ vh, Attached root vh ∧ vh.fallbackCertificate.isSome = true) →
    ∃ vh, Attached root vh ∧ vh.routes.entries ≠ [] ∧
      envoyFallbackRouteConfig ∈ RouteCache.configNames vh

section

variable {lib : Stdlib} {ord : MapOrder} {cfg : ListenerConfig}

/-- An attached host without TCP proxy has routes. -/
theorem routes_of_attached {d : DAG} (hd : d.listeners = [])
    (hvh : Attached (ListenerProcessor.run ord d) vh) (htcp : vh.tcpProxy = none) :
    vh.routes.entries ≠ [] := by
  have hvalid := (ListenerProcessor.mem_httpsHosts.mp
    ((ListenerProcessor.mem_secureVirtualHosts_run hd).mp hvh)).2
  simp only [SecureVirtualHost.valid, htcp, Option.isSome_none, Bool.or_false, Bool.and_eq_true,
    VirtualHost.valid, decide_eq_true_eq] at hvalid
  exact hvalid.2

/-- A host with routes finds itself in every configuration that it goes to. -/
theorem RouteCache.exists_ownHost (hvh : Attached root vh) (hroutes : vh.routes.entries ≠ [])
    {config : String} (hconfig : config ∈ RouteCache.configNames vh) :
    ∃ evh ∈ RouteCache.hostsOf (RouteCache.onChange lib ord root) config,
      evh.domains = [vh.name] := by
  obtain ⟨entry, hentry, rfl⟩ := RouteCache.exists_secureHost ord hvh hroutes
  exact ⟨_, RouteCache.mem_onChange.mpr (.inr ⟨entry, hentry, hconfig, rfl⟩), rfl⟩

end

/-- If a host with a fallback certificate is attached, the HTTPS listener has the
fallback chain of one of the hosts. -/
theorem exists_fallbackChain (lib : Stdlib) (cfg : ListenerConfig) (ord : MapOrder) {d : DAG}
    (hd : d.listeners = []) {listeners : Map String Envoy.Listener}
    (hlisteners : listenersOf lib cfg (ListenerProcessor.run ord d) = .ok listeners)
    (hfallback : ∃ vh ∈ ListenerProcessor.httpsHosts ord d, vh.fallbackCertificate.isSome = true) :
    ∃ l fc vh, listeners.lookup envoyHTTPSListener = some l ∧ fc ∈ l.filterChains ∧
      cfg.FallbackChainOf lib envoyHTTPSListener vh fc := by
  obtain ⟨listeners', chains, hlisteners', hadds, hsorted, hpresent, -⟩ :=
    listenersOf_run_https lib cfg ord hd
  obtain rfl : listeners = listeners' := Except.ok.inj (hlisteners.symm.trans hlisteners')
  have hany : containsFallbackFilterChain chains = true := by
    rw [hadds.fallback, Bool.or_eq_true, any_eq_true]
    exact .inr hfallback
  obtain ⟨fc, hfc, hname⟩ := any_eq_true.mp hany
  obtain ⟨l, hl⟩ := hpresent (ne_nil_of_mem hfc)
  rcases hadds.new fc hfc with hnil | ⟨vh, -, hchain | hchain⟩
  · cases hnil
  · rw [(ListenerConfig.secureFilterChain_eq hchain).2] at hname
    exact absurd hname (by decide)
  · exact ⟨l, fc, vh, hl, by rw [hsorted l hl]; exact mem_sortStable.mpr hfc, hchain⟩

/-- In a built DAG the listeners and the route configurations agree exactly when a
fallback certificate on an attached host comes with an attached host whose routes go
to the fallback configuration. -/
theorem route_configs_resolve_iff (lib : Stdlib) (cfg : ListenerConfig) {ord : MapOrder}
    {dbc : DagBuilderConfig} {source : KubernetesCache} {root : DAG}
    (hbuild : Builder.build lib ord dbc source = .ok root) :
    ∃ listeners, listenersOf lib cfg root = .ok listeners ∧
      (RouteConfigsResolve lib ord cfg root listeners ↔ FallbackRouted root) := by
  obtain ⟨dag, -, hdag, rfl⟩ := Builder.build_eq hbuild
  obtain ⟨listeners, hlisteners, hhosts, hcases⟩ := listenersOf_run lib cfg ord hdag
  refine ⟨listeners, hlisteners, ?_⟩
  have hattached : ∀ vh, Attached (ListenerProcessor.run ord dag) vh ↔
      vh ∈ ListenerProcessor.httpsHosts ord dag :=
    fun vh => ListenerProcessor.mem_secureVirtualHosts_run hdag
  have hknown : ∀ {vh config}, Attached (ListenerProcessor.run ord dag) vh →
      vh.routes.entries ≠ [] → config ∈ RouteCache.configNames vh →
      ((RouteCache.onChange lib ord
        (ListenerProcessor.run ord dag)).lookup config).isSome = true := by
    intro vh config hvh hroutes hconfig
    obtain ⟨entry, hentry, rfl⟩ := RouteCache.exists_secureHost ord hvh hroutes
    exact RouteCache.isSome_onChange.mpr (.inr ⟨entry, hentry, hconfig⟩)
  constructor
  · rintro hresolve ⟨vh, hvh, hfallback⟩
    obtain ⟨l, fc, vh', hl, hfc, fallback, -, hchain⟩ :=
      exists_fallbackChain lib cfg ord hdag hlisteners ⟨vh, (hattached vh).mp hvh, hfallback⟩
    have hconfig : ((RouteCache.onChange lib ord (ListenerProcessor.run ord dag)).lookup
        envoyFallbackRouteConfig).isSome = true :=
      hresolve.known _ l hl fc hfc _
        (by rw [ListenerConfig.fallbackFilterChain_routeConfigs hchain]; exact mem_singleton_self _)
    rcases RouteCache.isSome_onChange.mp hconfig with hhttp | ⟨entry, hentry, hnames⟩
    · exact absurd hhttp (by decide)
    · obtain ⟨hentry, hroutes⟩ := RouteCache.attached_of_mem hentry
      exact ⟨entry.1, hentry, hroutes, hnames⟩
  · intro hrouted
    constructor
    · intro name l hl fc hfc config hconfig
      rcases hcases name l hl fc hfc with hhttp | ⟨vh, hvh, hchain | ⟨fallback, hsome, hchain⟩⟩
      · rw [hhttp.routeConfigs, mem_singleton] at hconfig
        exact RouteCache.isSome_onChange.mpr (.inl hconfig)
      · obtain ⟨htcp, rfl⟩ := ListenerConfig.mem_secureFilterChain_routeConfigs hchain hconfig
        have hvh := (hattached vh).mpr hvh
        exact hknown hvh (routes_of_attached hdag hvh htcp) mem_cons_self
      · rw [ListenerConfig.fallbackFilterChain_routeConfigs hchain, mem_singleton] at hconfig
        obtain ⟨vh', hvh', hroutes, hnames⟩ :=
          hrouted ⟨vh, (hattached vh).mpr hvh, by rw [hsome]; rfl⟩
        exact hknown hvh' hroutes (hconfig ▸ hnames)
    · intro vh hvh
      obtain ⟨https, fc, hhttps, hfc, hchain⟩ := hhosts vh ((hattached vh).mp hvh)
      refine ⟨https, fc, hhttps, hfc, hchain, ?_⟩
      intro config hconfig
      obtain ⟨htcp, rfl⟩ := ListenerConfig.mem_secureFilterChain_routeConfigs hchain hconfig
      exact RouteCache.exists_ownHost hvh (routes_of_attached hdag hvh htcp) mem_cons_self

/-- A root proxy `h` with a certificate and the fallback certificate, TCP-proxied or
with a route. -/
def fallbackProxy (tcpProxied : Bool) : KubernetesCache where
  secrets := Api.byName (·.toObjectMeta) [Api.certificate "n" "cert"]
  services := Api.byName (·.toObjectMeta) [Api.webService "n" "s"]
  httpproxies := Api.byName (·.toObjectMeta)
    [{ name := "p", ns := "n",
       virtualHost := some
         { fqdn := "h", tls := some { secretName := "cert", enableFallbackCertificate := true } },
       tcpProxy := if tcpProxied then some { services := [{ name := "s", port := 80 }] } else none,
       routes := if tcpProxied then [] else [{ requestRedirectPolicy := some {} }] }]

def fallbackProxyDAG (tcpProxied : Bool) : DAG :=
  match Builder.build .plain .storage fallbackConfig (fallbackProxy tcpProxied) with
  | .ok root => root
  | .error _ => {}

/-- With a route, the fallback configuration is there. -/
theorem routed_fallback_resolves :
    Builder.build .plain .storage fallbackConfig (fallbackProxy false) =
        .ok (fallbackProxyDAG false) ∧
      (∃ l ∈ (fallbackProxyDAG false).listeners, ∃ vh ∈ l.secureVirtualHosts,
        vh.fallbackCertificate.isSome = true) ∧
      ∃ listeners, listenersOf .plain {} (fallbackProxyDAG false) = .ok listeners ∧
        RouteConfigsResolve .plain .storage {} (fallbackProxyDAG false) listeners := by
  have hbuild : Builder.build .plain .storage fallbackConfig (fallbackProxy false) =
      .ok (fallbackProxyDAG false) := rfl
  have hhost : ∃ l ∈ (fallbackProxyDAG false).listeners, ∃ vh ∈ l.secureVirtualHosts,
      vh.fallbackCertificate.isSome = true ∧ vh.routes.entries ≠ [] ∧
        envoyFallbackRouteConfig ∈ RouteCache.configNames vh := by
    decide +kernel
  obtain ⟨l, hl, vh, hvh, hfallback, hroutes, hnames⟩ := hhost
  obtain ⟨listeners, hlisteners, hiff⟩ := route_configs_resolve_iff .plain {} hbuild
  exact ⟨hbuild, ⟨l, hl, vh, hvh, hfallback⟩, listeners, hlisteners,
    hiff.mpr fun _ => ⟨vh, ⟨l, hl, hvh⟩, hroutes, hnames⟩⟩

/-- TCP-proxied, the listener refers to the fallback configuration, and the route
cache does not have it. -/
theorem tcp_proxied_fallback_dangles :
    Builder.build .plain .storage fallbackConfig (fallbackProxy true) =
        .ok (fallbackProxyDAG true) ∧
      ∃ listeners l fc, listenersOf .plain {} (fallbackProxyDAG true) = .ok listeners ∧
        listeners.lookup envoyHTTPSListener = some l ∧ fc ∈ l.filterChains ∧
        envoyFallbackRouteConfig ∈ fc.routeConfigs ∧
        (RouteCache.onChange .plain .storage (fallbackProxyDAG true)).lookup
          envoyFallbackRouteConfig = none := by
  have hdangling : ∃ listeners ∈ (listenersOf .plain {} (fallbackProxyDAG true)).toOption,
      ∃ l ∈ listeners.lookup envoyHTTPSListener, ∃ fc ∈ l.filterChains,
        envoyFallbackRouteConfig ∈ fc.routeConfigs ∧
        (RouteCache.onChange .plain .storage (fallbackProxyDAG true)).lookup
          envoyFallbackRouteConfig = none := by
    decide +kernel
  obtain ⟨listeners, hlisteners, l, hl, fc, hfc, hrefers, hnone⟩ := hdangling
  exact ⟨rfl, listeners, l, fc, toOption_eq_some.mp hlisteners, hl, hfc, hrefers, hnone⟩

end Sesame.XdsCache
