/-
# The route cache

`RouteCache.OnChange` turns the hosts attached to a DAG's listeners into route
configurations: one for all plaintext hosts, one per secure host, and one more for
the secure hosts with a fallback certificate. `mem_onChange` says which hosts a
configuration has.

Sorting the routes of a host sorts their header conditions in place in the source. A
route that is on a plaintext host and on a secure one is then sorted twice, which
changes nothing, so the model sorts copies.
-/

import Sesame.Dag.HostContents
import Sesame.Envoy.Route
import Sesame.XdsCache.Listener
import Sesame.XdsCache.RouteOrder

namespace Sesame.XdsCache.RouteCache

open List
open Lib Dag Envoy

variable (lib : Stdlib) (ord : MapOrder)

/-- The message of a plaintext host with its routes. -/
def plainHost (entry : Dag.VirtualHost × List Route) : EnvoyVirtualHost :=
  virtualHostAndRoutes lib ord entry.1 (sortRoutes entry.2) false none

/-- The message of a secure host with its routes. -/
def secureHost (entry : SecureVirtualHost × List Route) : EnvoyVirtualHost :=
  virtualHostAndRoutes lib ord entry.1.toVirtualHost (sortRoutes entry.2) true
    entry.1.authorizationService

/-- The names of the configurations that a secure host goes to. -/
def configNames (svh : SecureVirtualHost) : List String :=
  ListenerConfig.secureRouteConfigName svh.name ::
    if svh.fallbackCertificate.isSome then [envoyFallbackRouteConfig] else []

/-- Append a host to a configuration, which is added if it is not there yet. -/
def appendHost (vh : EnvoyVirtualHost) (configs : Map String RouteConfiguration) (name : String) :
    Map String RouteConfiguration :=
  let config := (configs.lookup name).getD { name }
  configs.insert name { config with virtualHosts := config.virtualHosts ++ [vh] }

/-- The body of the loop over the plaintext hosts. -/
def addHost (configs : Map String RouteConfiguration) (entry : Dag.VirtualHost × List Route) :
    Map String RouteConfiguration :=
  appendHost (plainHost lib ord entry) configs envoyHTTPListener

def addSecureHost (configs : Map String RouteConfiguration)
    (entry : SecureVirtualHost × List Route) : Map String RouteConfiguration :=
  (configNames entry.1).foldl (appendHost (secureHost lib ord entry)) configs

/-- The configurations that `OnChange` hands to `Update`. -/
def onChange (root : DAG) : Map String RouteConfiguration :=
  let configs := (∅ : Map String RouteConfiguration).insert envoyHTTPListener
    { name := envoyHTTPListener }
  let configs := (ord.order "RouteCache.OnChange" (root.getVirtualHostRoutes ord)).foldl
    (addHost lib ord) configs
  let configs := (ord.order "RouteCache.OnChange secure"
    (root.getSecureVirtualHostRoutes ord)).foldl (addSecureHost lib ord) configs
  configs.mapValues fun config =>
    { config with
      virtualHosts := sortStable (fun a b => a.name < b.name) config.virtualHosts }

def hostsOf (configs : Map String RouteConfiguration) (name : String) : List EnvoyVirtualHost :=
  (configs.lookup name).elim [] (·.virtualHosts)

/-! ## The hosts of a configuration -/

theorem mem_hostsOf_appendHost {vh vh' : EnvoyVirtualHost}
    {configs : Map String RouteConfiguration} {name name' : String} :
    vh' ∈ hostsOf (appendHost vh configs name) name' ↔
      vh' ∈ hostsOf configs name' ∨ name' = name ∧ vh = vh' := by
  rw [hostsOf, appendHost, Map.lookup_insert_eq]
  by_cases hname : name' = name
  · subst hname
    cases hlookup : configs.lookup name' <;> simp [hostsOf, hlookup, eq_comm]
  · simp [hostsOf, hname]

theorem mem_hostsOf_appendHosts {vh vh' : EnvoyVirtualHost} (names : List String)
    {configs : Map String RouteConfiguration} {name : String} :
    vh' ∈ hostsOf (names.foldl (appendHost vh) configs) name ↔
      vh' ∈ hostsOf configs name ∨ name ∈ names ∧ vh = vh' := by
  induction names generalizing configs with
  | nil => simp
  | cons name' rest ih =>
    rw [foldl_cons, ih, mem_hostsOf_appendHost, mem_cons]
    tauto

/-- A loop that appends a host per entry to configurations leaves those hosts in them and
the hosts that were there. -/
theorem mem_hostsOf_foldl {α : Type} (names : α → List String) (host : α → EnvoyVirtualHost)
    {f : Map String RouteConfiguration → α → Map String RouteConfiguration}
    (hf : ∀ configs a, f configs a = (names a).foldl (appendHost (host a)) configs)
    (entries : List α) {configs : Map String RouteConfiguration} {name : String}
    {vh : EnvoyVirtualHost} :
    vh ∈ hostsOf (entries.foldl f configs) name ↔
      vh ∈ hostsOf configs name ∨ ∃ a ∈ entries, name ∈ names a ∧ host a = vh := by
  induction entries generalizing configs with
  | nil => simp
  | cons a rest ih =>
    rw [foldl_cons, ih, hf, mem_hostsOf_appendHosts, exists_mem_cons_iff, or_assoc]

variable {lib ord} {er : EnvoyRoute} {root : DAG}

/-- The hosts of a configuration are those that the listeners of the DAG have for it. -/
theorem mem_onChange {name : String} {vh : EnvoyVirtualHost} :
    vh ∈ hostsOf (onChange lib ord root) name ↔
      (name = envoyHTTPListener ∧
        ∃ entry ∈ root.getVirtualHostRoutes ord, plainHost lib ord entry = vh) ∨
      ∃ entry ∈ root.getSecureVirtualHostRoutes ord,
        name ∈ configNames entry.1 ∧ secureHost lib ord entry = vh := by
  have hsort : ∀ configs : Map String RouteConfiguration,
      vh ∈ hostsOf (configs.mapValues fun config =>
        { config with
          virtualHosts := sortStable (fun a b => a.name < b.name) config.virtualHosts }) name ↔
        vh ∈ hostsOf configs name := by
    intro configs
    rw [hostsOf, Map.lookup_mapValues, hostsOf]
    cases configs.lookup name <;> simp [mem_sortStable]
  have hstart : vh ∉ hostsOf ((∅ : Map String RouteConfiguration).insert envoyHTTPListener
      { name := envoyHTTPListener }) name := by
    rw [hostsOf, Map.lookup_insert_eq]
    split <;> simp
  have hsecure := mem_hostsOf_foldl (f := addSecureHost lib ord)
    (fun entry => configNames entry.1) (secureHost lib ord)
    fun configs entry => by rw [addSecureHost]
  have hplain := mem_hostsOf_foldl (f := addHost lib ord)
    (fun _ => [envoyHTTPListener]) (plainHost lib ord)
    fun configs entry => by rw [addHost, foldl_cons, foldl_nil]
  rw [onChange, hsort, hsecure, hplain]
  simp only [hstart, false_or, (ord.perm _ _).mem_iff, mem_singleton]
  simp only [and_left_comm, exists_and_left]

/-! ## The routes of a host -/

theorem of_mem_getVirtualHostRoutes {entry : Dag.VirtualHost × List Route}
    (h : entry ∈ root.getVirtualHostRoutes ord) :
    (∃ l ∈ root.listeners, entry.1 ∈ l.virtualHosts) ∧
      entry.2 = ord.values ("GetVirtualHostRoutes " ++ entry.1.name) entry.1.routes := by
  simp only [DAG.getVirtualHostRoutes, mem_filterMap, mem_flatMap] at h
  obtain ⟨v, hv, hentry⟩ := h
  split at hentry
  · cases hentry
  · cases hentry
    exact ⟨hv, rfl⟩

theorem mem_getSecureVirtualHostRoutes {entry : SecureVirtualHost × List Route} :
    entry ∈ root.getSecureVirtualHostRoutes ord ↔
      (∃ l ∈ root.listeners, entry.1 ∈ l.secureVirtualHosts) ∧ entry.2 ≠ [] ∧
        entry.2 = ord.values ("GetSecureVirtualHostRoutes " ++ entry.1.name) entry.1.routes := by
  simp only [DAG.getSecureVirtualHostRoutes, mem_filterMap, mem_flatMap]
  constructor
  · rintro ⟨s, hs, hentry⟩
    split at hentry
    · cases hentry
    · next hroutes =>
      cases hentry
      exact ⟨hs, hroutes, rfl⟩
  · rintro ⟨hs, hne, hroutes⟩
    refine ⟨entry.1, hs, ?_⟩
    rw [← hroutes, if_neg hne]

/-- The routes of a message are built from the routes of its host. -/
theorem exists_of_mem_virtualHostAndRoutes {vh : Dag.VirtualHost} {site : String} {secure : Bool}
    {authService : Option ExtensionCluster}
    (h : er ∈ (virtualHostAndRoutes lib ord vh (sortRoutes (ord.values site vh.routes)) secure
        authService).routes) :
    ∃ key r, vh.routes.lookup key = some r ∧
      buildRoute lib ord (sortHeaders r) vh.name secure authService = er := by
  simp only [virtualHostAndRoutes, mem_map, mem_sortRoutes, ord.mem_values] at h
  obtain ⟨_, ⟨r, ⟨key, hkey⟩, rfl⟩, her⟩ := h
  exact ⟨key, r, hkey, her⟩

/-! ## The configurations of a host -/

/-- No name without a slash sends a secure host to the configuration of the plaintext
hosts. -/
theorem secureRouteConfigName_ne {name : String} (hname : '/' ∉ name.toList) :
    ListenerConfig.secureRouteConfigName name ≠ envoyHTTPListener := by
  have hsegments : ("https".toList ++ '/' :: name.toList).splitOn '/' =
      ["https".toList, name.toList] := by
    rw [splitOn_append_cons_self_of_not_mem (by decide), splitOn_eq_singleton hname]
  have hkept : ((("https".toList ++ '/' :: name.toList).splitOn '/').foldl cleanSegment []) =
      cleanSegment ["https".toList] name.toList := by
    rw [hsegments]
    rfl
  rw [ListenerConfig.secureRouteConfigName, pathJoin]
  simp only [hkept]
  by_cases hskip : name.toList = [] ∨ name.toList = ['.']
  · rw [cleanSegment, if_pos hskip]
    decide
  by_cases hup : name.toList = ['.', '.']
  · rw [hup]
    decide
  rw [cleanSegment, if_neg hskip, if_neg hup]
  have hjoin : "/".intercalate ([name.toList, "https".toList].reverse.map String.ofList) =
      "https" ++ "/" ++ name := by
    simp [String.intercalate_cons_cons]
  intro heq
  have hhead := congrArg (fun s : String => s.toList.head?) (hjoin.symm.trans heq)
  simp [envoyHTTPListener] at hhead

section Build

variable {dbc : DagBuilderConfig} {source : KubernetesCache} {root : DAG}
  (hbuild : Builder.build lib ord dbc source = .ok root) {evh : EnvoyVirtualHost}

include hbuild

/-- A plaintext host of a listener of a built DAG is the host of its name. -/
theorem lookup_of_mem_virtualHosts {v : Dag.VirtualHost}
    (hv : ∃ l ∈ root.listeners, v ∈ l.virtualHosts) : root.virtualHosts.lookup v.name = some v := by
  have hnamed := Builder.build_hostsNamed hbuild
  obtain ⟨dag, -, hlisteners, rfl⟩ := Builder.build_eq hbuild
  obtain ⟨⟨key, hkey⟩, -⟩ := ListenerProcessor.mem_httpHosts.mp
    (ListenerProcessor.mem_httpHosts_of_run hlisteners hv)
  rw [ListenerProcessor.run_eq] at hnamed ⊢
  rw [hnamed.hosts key v hkey]
  exact hkey

/-- A secure host of a listener of a built DAG is the host of its name. -/
theorem lookup_of_mem_secureVirtualHosts {s : SecureVirtualHost}
    (hs : ∃ l ∈ root.listeners, s ∈ l.secureVirtualHosts) :
    root.secureVirtualHosts.lookup s.name = some s := by
  have hnamed := Builder.build_hostsNamed hbuild
  obtain ⟨dag, -, hlisteners, rfl⟩ := Builder.build_eq hbuild
  obtain ⟨⟨key, hkey⟩, -⟩ := ListenerProcessor.mem_httpsHosts.mp
    ((ListenerProcessor.mem_secureVirtualHosts_run hlisteners).mp hs)
  rw [ListenerProcessor.run_eq] at hnamed ⊢
  rw [hnamed.secureHosts key s hkey]
  exact hkey

/-- Every route of a configuration is built from a route of a host of the DAG. -/
theorem exists_hasRoute {routeOrd : MapOrder} {name : String}
    (hevh : evh ∈ hostsOf (onChange lib routeOrd root) name) (her : er ∈ evh.routes) :
    ∃ host r secure authService, root.HasRoute host r ∧
      buildRoute lib routeOrd (sortHeaders r) host secure authService = er := by
  rcases mem_onChange.mp hevh with ⟨-, ⟨v, rs⟩, hentry, rfl⟩ | ⟨⟨s, rs⟩, hentry, -, rfl⟩
  · obtain ⟨hv, hrs⟩ := of_mem_getVirtualHostRoutes hentry
    obtain rfl : rs = routeOrd.values ("GetVirtualHostRoutes " ++ v.name) v.routes := hrs
    obtain ⟨key, r, hr, hbuilt⟩ := exists_of_mem_virtualHostAndRoutes her
    exact ⟨v.name, r, false, none, .inl ⟨v, key, lookup_of_mem_virtualHosts hbuild hv, hr⟩, hbuilt⟩
  · obtain ⟨hs, -, hrs⟩ := mem_getSecureVirtualHostRoutes.mp hentry
    obtain rfl : rs = routeOrd.values ("GetSecureVirtualHostRoutes " ++ s.name) s.routes := hrs
    obtain ⟨key, r, hr, hbuilt⟩ := exists_of_mem_virtualHostAndRoutes her
    exact ⟨s.name, r, true, s.authorizationService,
      .inr ⟨s, key, lookup_of_mem_secureVirtualHosts hbuild hs, hr⟩, hbuilt⟩

/-- The routes that the plaintext configuration has for a name without a slash are those
of the plaintext host of that name. -/
theorem routes_plaintext {fqdn : String} (hslash : '/' ∉ fqdn.toList)
    (hevh : evh ∈ hostsOf (onChange lib ord root) envoyHTTPListener) (hfqdn : fqdn ∈ evh.domains)
    (her : er ∈ evh.routes) :
    ∃ v key r, root.virtualHosts.lookup fqdn = some v ∧ v.routes.lookup key = some r ∧
      buildRoute lib ord (sortHeaders r) fqdn false none = er := by
  rcases mem_onChange.mp hevh with ⟨-, ⟨v, rs⟩, hentry, rfl⟩ | ⟨⟨s, rs⟩, -, hname, rfl⟩
  · obtain rfl : fqdn = v.name := mem_singleton.mp hfqdn
    obtain ⟨hv, hrs⟩ := of_mem_getVirtualHostRoutes hentry
    obtain rfl : rs = ord.values ("GetVirtualHostRoutes " ++ v.name) v.routes := hrs
    obtain ⟨key, r, hr, hbuilt⟩ := exists_of_mem_virtualHostAndRoutes her
    exact ⟨v, key, r, lookup_of_mem_virtualHosts hbuild hv, hr, hbuilt⟩
  · obtain rfl : fqdn = s.name := mem_singleton.mp hfqdn
    rcases mem_cons.mp hname with hsecure | hfallback
    · exact absurd hsecure.symm (secureRouteConfigName_ne hslash)
    · split at hfallback
      · exact absurd (mem_singleton.mp hfallback) (by decide)
      · cases hfallback

end Build

end Sesame.XdsCache.RouteCache
