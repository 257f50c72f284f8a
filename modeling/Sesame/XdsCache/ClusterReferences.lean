/-
# Clusters that routes and listeners refer to

Routes, mirror policies, TCP proxies and authorization filters name the clusters
they send to, and an EDS cluster names the load assignment with its endpoints. The
cluster cache and the endpoints translator walk the DAG on their own, and the
translator drops service clusters that do not validate. For a DAG that was built
from named Services all of these references resolve.
-/

import Sesame.Dag.ClusterUse
import Sesame.XdsCache.Cluster
import Sesame.XdsCache.EndpointsNotify
import Sesame.XdsCache.RouteReferences

namespace Sesame.Envoy

open Lib Dag

/-! ## The names in the messages -/

/-- The clusters that the specifier of a route action names. -/
def RouteClusterSpecifier.clusterNames : RouteClusterSpecifier → List String
  | .cluster name => [name]
  | .weightedClusters clusters _ => clusters.map (·.name)

/-- The clusters that a route sends to, mirrors included. -/
def EnvoyRoute.clusterNames (r : EnvoyRoute) : List String :=
  match r.action with
  | .route action => action.clusterSpecifier.clusterNames ++ action.requestMirrorPolicies
  | .redirect _ | .directResponse _ => []

def TcpProxy.clusterNames (proxy : TcpProxy) : List String :=
  match proxy.clusterSpecifier with
  | .cluster name => [name]
  | .weightedClusters clusters => clusters.map Prod.fst

/-- The cluster that an authorization filter asks. -/
def HttpFilter.authorizationCluster : HttpFilter → Option String
  | .extAuthz config => some config.clusterName
  | _ => none

/-- The clusters that the filters of a chain name: those of a TCP proxy, or those
that authorize requests. -/
def FilterChain.clusterNames (fc : FilterChain) : List String :=
  fc.filters.flatMap fun
    | .httpConnectionManager cm => cm.httpFilters.filterMap HttpFilter.authorizationCluster
    | .tcpProxy proxy => proxy.clusterNames

variable {lib : Stdlib} {name : String}

/-- A route action names clusters of its route. -/
theorem mem_clusterNames_routeRoute {ord : MapOrder} {r : Dag.Route}
    (h : name ∈ (routeRoute lib ord r).clusterSpecifier.clusterNames ++
      (routeRoute lib ord r).requestMirrorPolicies) :
    ∃ c ∈ r.allClusters, clustername lib c = name := by
  rcases List.mem_append.mp h with hcluster | hmirror
  · have hmem : ∃ c ∈ r.clusters, clustername lib c = name := by
      unfold routeRoute at hcluster
      dsimp only at hcluster
      split at hcluster
      · next c hc =>
        unfold singleSimpleCluster at hc
        split at hc
        · next c' hclusters =>
          split at hc
          · cases hc
            exact ⟨c, by simp [hclusters], (List.mem_singleton.mp hcluster).symm⟩
          · cases hc
        · cases hc
      · unfold weightedClusters at hcluster
        dsimp only at hcluster
        split at hcluster
        · simpa [RouteClusterSpecifier.clusterNames, mem_sortStable, clusterWeight] using hcluster
        · simpa [RouteClusterSpecifier.clusterNames, mem_sortStable, clusterWeight] using hcluster
    obtain ⟨c, hc, hname⟩ := hmem
    exact ⟨c, List.mem_append_left _ hc, hname⟩
  · obtain ⟨c, hc, hname⟩ := List.mem_map.mp hmirror
    exact ⟨c, List.mem_append_right _ hc, hname⟩

theorem mem_clusterNames_buildRoute {ord : MapOrder} {r : Dag.Route} {vhostName : String}
    {secure : Bool} {authService : Option ExtensionCluster}
    (h : name ∈ (buildRoute lib ord r vhostName secure authService).clusterNames) :
    ∃ c ∈ r.allClusters, clustername lib c = name := by
  unfold buildRoute at h
  split at h
  · cases h
  · split at h
    · cases h
    · split at h
      · cases h
      · exact mem_clusterNames_routeRoute h

/-- A TCP proxy names clusters of the proxy. -/
theorem mem_clusterNames_tcpProxy {statPrefix : String} {proxy : List Cluster}
    (h : name ∈ (tcpProxy lib statPrefix proxy).clusterNames) :
    ∃ c ∈ proxy, clustername lib c = name := by
  have hkept : ∀ c ∈ (if (proxy.filter fun c => 0 < c.weight).foldl (fun sum c => sum + c.weight)
      (0 : UInt32) = 0 then proxy else proxy.filter fun c => 0 < c.weight), c ∈ proxy := by
    intro c hc
    split at hc
    · exact hc
    · exact List.mem_of_mem_filter hc
  unfold tcpProxy at h
  dsimp only at h
  split at h
  · next c hc =>
    rw [hc] at hkept
    exact ⟨c, hkept c List.mem_cons_self, (List.mem_singleton.mp h).symm⟩
  · simp only [TcpProxy.clusterNames, List.mem_map, mem_sortStable] at h
    obtain ⟨_, ⟨c, hc, rfl⟩, hname⟩ := h
    exact ⟨c, hkept c hc, hname⟩

end Sesame.Envoy

namespace Sesame.XdsCache

open Lib Dag Envoy
open Api (NamespacedName)

variable {lib : Stdlib} {cfg : ListenerConfig} {root : DAG} {fc : FilterChain} {name : String}
  {c : Cluster}

/-! ## The clusters of the cluster cache -/

/-- Every cluster name in the route configurations and the listeners is a key of
the clusters, and every EDS cluster has its load assignment. -/
structure ClustersResolve (routes : Map String RouteConfiguration)
    (listeners : Map String Envoy.Listener) (clusters : Map String EnvoyCluster)
    (entries : Assignments) : Prop where
  routes : ∀ name config, routes.lookup name = some config → ∀ vh ∈ config.virtualHosts,
    ∀ r ∈ vh.routes, ∀ cluster ∈ r.clusterNames, (clusters.lookup cluster).isSome = true
  listeners : ∀ name l, listeners.lookup name = some l → ∀ fc ∈ l.filterChains,
    ∀ cluster ∈ fc.clusterNames, (clusters.lookup cluster).isSome = true
  endpoints : ∀ name c, clusters.lookup name = some c → ∀ serviceName,
    c.discovery = .eds serviceName → (entries.lookup serviceName).isSome = true

theorem ClusterCache.isSome_of_mem (lib : Stdlib) (ord : MapOrder) (hc : c ∈ root.getClusters ord) :
    ((ClusterCache.onChange lib ord root).lookup (clustername lib c)).isSome = true := by
  obtain ⟨first, -, -, hlookup⟩ := ClusterCache.lookup_onChange_of_mem lib ord hc
  rw [hlookup]
  rfl

/-- Under a name `GetExtensionClusters` has the last extension cluster of that name. -/
theorem lookup_getExtensionClusters (root : DAG) (name : String) :
    root.getExtensionClusters.lookup name =
      root.extensionClusters.reverse.find? fun ec => ec.name = name := by
  rw [DAG.getExtensionClusters, Map.lookup_foldl_insert_last]
  simp

theorem ClusterCache.isSome_of_extension (lib : Stdlib) (ord : MapOrder) {ec : ExtensionCluster}
    (h : ec ∈ root.extensionClusters) :
    ((ClusterCache.onChange lib ord root).lookup ec.name).isSome = true := by
  have hfound : (root.getExtensionClusters.lookup ec.name).isSome = true := by
    rw [lookup_getExtensionClusters, List.find?_isSome]
    exact ⟨ec, List.mem_reverse.mpr h, by simp⟩
  rw [ClusterCache.lookup_onChange, Option.isSome_or, Option.isSome_map, Option.isSome_map, hfound,
    Bool.or_true]

/-- What is published is the message of a cluster of a host or of an extension
cluster. -/
theorem ClusterCache.exists_of_lookup {ord : MapOrder} {ec : EnvoyCluster}
    (h : (ClusterCache.onChange lib ord root).lookup name = some ec) :
    (∃ c ∈ root.getClusters ord, ec = cluster lib c) ∨
      ∃ e ∈ root.extensionClusters, ec = extensionCluster lib e := by
  rw [ClusterCache.lookup_onChange, Option.or_eq_some_iff] at h
  rcases h with h | ⟨-, h⟩
  · obtain ⟨c, hc, rfl⟩ := Option.map_eq_some_iff.mp h
    exact .inl ⟨c, List.mem_of_find?_eq_some hc, rfl⟩
  · obtain ⟨e, he, rfl⟩ := Option.map_eq_some_iff.mp h
    rw [lookup_getExtensionClusters] at he
    exact .inr ⟨e, List.mem_reverse.mp (List.mem_of_find?_eq_some he), rfl⟩

/-! ## The load assignments of the translator -/

/-- After `OnChange` there is a load assignment for every cluster it kept. -/
theorem EndpointsTranslator.isSome_entries (lib : Stdlib) (ord : MapOrder)
    (e : EndpointsTranslator) {sc : ServiceCluster} (hsc : sc ∈ clustersOf ord root) :
    ((e.onChange lib ord root).entries.lookup sc.clusterName).isSome = true := by
  obtain ⟨index, hindex, -⟩ := setClusters_clustersOf lib {} ord root
  have hnew : ((recalculation e.cache.endpoints (clustersOf ord root)).lookup
      sc.clusterName).isSome = true := by
    rw [recalculation, lookup_recalculateStale, AList.lookup_empty, Option.none_or,
      Option.isSome_map, List.find?_isSome]
    exact ⟨sc.rebalance, List.mem_map_of_mem hsc, by simp⟩
  simp only [EndpointsTranslator.onChange, EndpointsCache.setClusters, hindex,
    EndpointsCache.recalculate]
  split
  · next hequal =>
    rw [same_of_equal hequal]
    exact hnew
  · exact hnew

/-- A valid service cluster of the DAG has a load assignment under its name. -/
theorem EndpointsTranslator.isSome_of_valid (lib : Stdlib) (ord : MapOrder)
    (e : EndpointsTranslator) {sc : ServiceCluster} (hsc : sc ∈ root.getServiceClusters ord)
    (hvalid : sc.validate = .ok ()) :
    ((e.onChange lib ord root).entries.lookup sc.clusterName).isSome = true := by
  rcases exists_mem_dropDuplicates [] hsc hvalid with htaken | ⟨kept, hkept, hname⟩
  · cases htaken
  · rw [← hname]
    exact e.isSome_entries lib ord hkept

/-! ## References -/

namespace ListenerConfig

variable {vh : SecureVirtualHost}

/-- Of the filters of a connection manager only the authorization filter asks a
cluster for authorization. -/
theorem filterMap_authorizationCluster (cfg : ListenerConfig) (auth : Option HttpFilter) :
    (standardFilters ++ auth.toList ++ cfg.configuredFilters ++ [HttpFilter.router]).filterMap
        HttpFilter.authorizationCluster =
      auth.toList.filterMap HttpFilter.authorizationCluster := by
  have hstandard : standardFilters.filterMap HttpFilter.authorizationCluster = [] := rfl
  have hdetection : (originalIPDetectionFilter cfg.xffNumTrustedHops).toList.filterMap
      HttpFilter.authorizationCluster = [] := by
    unfold originalIPDetectionFilter
    split <;> rfl
  have hlimit : (globalRateLimitFilter cfg.rateLimitConfig).toList.filterMap
      HttpFilter.authorizationCluster = [] := by
    cases cfg.rateLimitConfig <;> rfl
  have hrouter : [HttpFilter.router].filterMap HttpFilter.authorizationCluster = [] := rfl
  simp only [configuredFilters, List.filterMap_append, hstandard, hdetection, hlimit, hrouter,
    List.nil_append, List.append_nil]

/-- The chain of a secure host names the clusters of its TCP proxy, or its
authorization service. -/
theorem mem_secureFilterChain_clusterNames {listenerName : String}
    (h : cfg.secureFilterChain lib listenerName vh = .ok fc) (hname : name ∈ fc.clusterNames) :
    (∃ c ∈ vh.tcpProxy.getD [], clustername lib c = name) ∨
      ∃ e, vh.authorizationService = some e ∧ e.name = name := by
  rw [secureFilterChain, secureFilters] at h
  cases htcp : vh.tcpProxy with
  | none =>
    obtain ⟨cm, hcm, hfilters, -⟩ := cfg.secureConnectionManager_ok listenerName vh
    rw [htcp] at h
    simp only [hcm] at h
    cases h
    have hauth : name ∈ (authFilter vh).toList.filterMap HttpFilter.authorizationCluster := by
      rw [← filterMap_authorizationCluster cfg]
      simp only [FilterChain.clusterNames, filterChainTLS, List.flatMap_cons, List.flatMap_nil,
        List.append_nil, hfilters] at hname
      exact hname
    cases hservice : vh.authorizationService with
    | none => simp [authFilter, hservice] at hauth
    | some e =>
      have heq : name = e.name := by
        simpa [authFilter, hservice, filterExternalAuthz, HttpFilter.authorizationCluster]
          using hauth
      exact .inr ⟨e, rfl, heq.symm⟩
  | some proxy =>
    rw [htcp] at h
    cases h
    left
    have hproxy : name ∈ (tcpProxy lib listenerName proxy).clusterNames := by
      simpa [FilterChain.clusterNames, filterChainTLS] using hname
    exact mem_clusterNames_tcpProxy hproxy

theorem fallbackFilterChain_clusterNames {listenerName : String} {fallback : Dag.Secret}
    (h : cfg.fallbackFilterChain lib listenerName vh fallback = .ok fc) : fc.clusterNames = [] := by
  obtain ⟨cm, hcm, hfilters, -⟩ := cfg.fallbackConnectionManager_ok listenerName
  rw [fallbackFilterChain, hcm] at h
  cases h
  have hnone := filterMap_authorizationCluster cfg none
  simpa [FilterChain.clusterNames, filterChainTLSFallback, hfilters] using hnone

end ListenerConfig

theorem HTTPChain.clusterNames (h : HTTPChain cfg fc) : fc.clusterNames = [] := by
  obtain ⟨cm, hcm, rfl⟩ := h
  obtain ⟨cm', hcm', hfilters, -⟩ := cfg.httpConnectionManager_ok envoyHTTPListener
  obtain rfl : cm = cm' := Except.ok.inj (hcm.symm.trans hcm')
  have hnone := ListenerConfig.filterMap_authorizationCluster cfg none
  simpa [FilterChain.clusterNames, hfilters] using hnone

/-- A cluster that forwards to a named Service stands for a valid service cluster. -/
theorem validate_serviceClusterOf {source : KubernetesCache} (hnamed : source.ServicesNamed)
    {svc : Api.Service} (hsvc : source.StandsFor c.upstream.weighted svc) :
    (DAG.serviceClusterOf c).validate = .ok () := by
  obtain ⟨hkey, hns', hname'⟩ := hnamed _ svc hsvc
  obtain ⟨hns, hname⟩ := NamespacedName.mk.inj hkey
  refine ServiceCluster.validate_ok ?_ (List.cons_ne_nil _ _) ?_
  · intro hempty
    have hlist := congrArg String.toList hempty
    simp only [DAG.serviceClusterOf, clusterLoadAssignmentName] at hlist
    split at hlist <;> simp [String.intercalate_cons_cons] at hlist
  · refine List.forall_mem_singleton.mpr ⟨?_, ?_⟩
    · rw [hname]
      exact hname'
    · rw [hns]
      exact hns'

section Built

variable {ord : MapOrder} {dbc : DagBuilderConfig} {source : KubernetesCache} {root : DAG}

theorem cluster_discovery (c : Cluster) :
    (cluster lib c).discovery = clusterDiscovery c.upstream := by
  cases hprotocol : c.protocol <;> simp [cluster, hprotocol]

theorem extensionCluster_discovery (e : ExtensionCluster) :
    (extensionCluster lib e).discovery = .eds e.upstream.clusterName := by
  cases hprotocol : e.protocol <;> simp [extensionCluster, hprotocol]

/-- All clusters of the hosts of a built DAG forward to Services in the cache. -/
theorem exists_standsFor_of_mem_getClusters (hnamed : source.ServicesNamed)
    (hbuild : Builder.build lib ord dbc source = .ok root) {clusterOrd : MapOrder}
    (hc : c ∈ root.getClusters clusterOrd) : ∃ svc, source.StandsFor c.upstream.weighted svc := by
  obtain ⟨referrer, -, hmakes⟩ := Builder.made_of_hasCluster hbuild
    (Builder.hasCluster_of_mem_getClusters hbuild hc)
  obtain ⟨svc, hsvc, -⟩ := hmakes.mayUse fun name svc hsvc => (hnamed name svc hsvc).1
  exact ⟨svc, hsvc⟩

/-- The clusters that the routes of a configuration name are clusters of the DAG. -/
theorem exists_cluster_of_route {routeOrd : MapOrder} (clusterOrd : MapOrder)
    {vh : EnvoyVirtualHost}
    (hvh : vh ∈ RouteCache.hostsOf (RouteCache.onChange lib routeOrd root) name) {er : EnvoyRoute}
    (her : er ∈ vh.routes) {clusterName : String} (hname : clusterName ∈ er.clusterNames) :
    ∃ c ∈ root.getClusters clusterOrd, clustername lib c = clusterName := by
  rcases RouteCache.mem_onChange.mp hvh with
    ⟨-, ⟨v, rs⟩, hentry, rfl⟩ | ⟨⟨s, rs⟩, hentry, -, rfl⟩
  · obtain ⟨⟨l, hl, hv⟩, hrs⟩ := RouteCache.of_mem_getVirtualHostRoutes hentry
    rw [RouteCache.plainHost, hrs] at her
    obtain ⟨key, r, hr, rfl⟩ := RouteCache.exists_of_mem_virtualHostAndRoutes her
    obtain ⟨c, hc, hc'⟩ := mem_clusterNames_buildRoute hname
    exact ⟨c, DAG.mem_getClusters.mpr ⟨l, hl, .inl ⟨v, hv, key, r, hr, hc⟩⟩, hc'⟩
  · obtain ⟨⟨l, hl, hs⟩, -, hrs⟩ := RouteCache.mem_getSecureVirtualHostRoutes.mp hentry
    rw [RouteCache.secureHost, hrs] at her
    obtain ⟨key, r, hr, rfl⟩ := RouteCache.exists_of_mem_virtualHostAndRoutes her
    obtain ⟨c, hc, hc'⟩ := mem_clusterNames_buildRoute hname
    exact ⟨c, DAG.mem_getClusters.mpr ⟨l, hl, .inr ⟨s, hs, .inl ⟨key, r, hr, hc⟩⟩⟩, hc'⟩

end Built

/-- In a built DAG every cluster that routes, mirrors, TCP proxies and authorization
filters name is in the cluster cache, and every EDS cluster of the cluster cache has a
load assignment in the translator, whatever the translator held before. Every
traversal may have its own order. -/
theorem clusters_resolve (lib : Stdlib) (cfg : ListenerConfig) (e : EndpointsTranslator)
    (routeOrd clusterOrd endpointOrd : MapOrder) {ord : MapOrder} {dbc : DagBuilderConfig}
    {source : KubernetesCache} {root : DAG}
    (hnamed : source.ServicesNamed) (hserved : source.ExtensionsServed)
    (hbuild : Builder.build lib ord dbc source = .ok root) :
    ∃ listeners, listenersOf lib cfg root = .ok listeners ∧
      ClustersResolve (RouteCache.onChange lib routeOrd root) listeners
        (ClusterCache.onChange lib clusterOrd root) (e.onChange lib endpointOrd root).entries := by
  have hvalid := Builder.build_extensions_valid hnamed hserved hbuild
  have hauthorization := fun {host : String} {s : SecureVirtualHost} =>
    @Builder.build_authorization lib ord dbc source root hbuild host s
  have hclusters := fun {c : Cluster} (hc : c ∈ root.getClusters clusterOrd) =>
    exists_standsFor_of_mem_getClusters hnamed hbuild hc
  have hlookup := fun s => RouteCache.lookup_of_mem_secureVirtualHosts hbuild (s := s)
  obtain ⟨dag, -, hdag, rfl⟩ := Builder.build_eq hbuild
  obtain ⟨listeners, hlisteners, -, hcases⟩ := listenersOf_run lib cfg ord hdag
  refine ⟨listeners, hlisteners, ?_, ?_, ?_⟩
  · intro name config hconfig vh hvh r hr cluster hcluster
    have hhost : vh ∈ RouteCache.hostsOf
        (RouteCache.onChange lib routeOrd (ListenerProcessor.run ord dag)) name := by
      rw [RouteCache.hostsOf, hconfig]
      exact hvh
    obtain ⟨c, hc, rfl⟩ := exists_cluster_of_route clusterOrd hhost hr hcluster
    exact ClusterCache.isSome_of_mem lib clusterOrd hc
  · intro name l hl fc hfc cluster hcluster
    rcases hcases name l hl fc hfc with hhttp | ⟨vh, hvh, hchain | ⟨fallback, -, hchain⟩⟩
    · rw [hhttp.clusterNames] at hcluster
      cases hcluster
    · obtain ⟨l', hl', hvh⟩ := (ListenerProcessor.mem_secureVirtualHosts_run hdag).mpr hvh
      rcases ListenerConfig.mem_secureFilterChain_clusterNames hchain hcluster with
        ⟨c, hc, rfl⟩ | ⟨ext, hext, rfl⟩
      · exact ClusterCache.isSome_of_mem lib clusterOrd
          (DAG.mem_getClusters.mpr ⟨l', hl', .inr ⟨vh, hvh, .inr hc⟩⟩)
      · exact ClusterCache.isSome_of_extension lib clusterOrd
          (hauthorization (hlookup vh ⟨l', hl', hvh⟩) hext)
    · rw [ListenerConfig.fallbackFilterChain_clusterNames hchain] at hcluster
      cases hcluster
  · intro name ec hec serviceName hservice
    rcases ClusterCache.exists_of_lookup hec with ⟨c, hc, rfl⟩ | ⟨ext, hext, rfl⟩
    · rw [cluster_discovery, clusterDiscovery] at hservice
      split at hservice
      · cases hservice
        have hmem : DAG.serviceClusterOf c ∈
            (ListenerProcessor.run ord dag).getServiceClusters endpointOrd :=
          List.mem_append_left _ (List.mem_map_of_mem
            (DAG.mem_getClusters.mpr (DAG.mem_getClusters.mp hc)))
        obtain ⟨svc, hsvc⟩ := hclusters hc
        exact e.isSome_of_valid lib endpointOrd hmem (validate_serviceClusterOf hnamed hsvc)
      · cases hservice
    · rw [extensionCluster_discovery] at hservice
      cases hservice
      exact e.isSome_of_valid lib endpointOrd
        (List.mem_append_right _ (List.mem_map_of_mem hext)) (hvalid ext hext)

/-- A root proxy over TLS whose requests the ExtensionService `n/e` authorizes. It
forwards to two services and mirrors to a third one. -/
def authorizedProxy : KubernetesCache where
  secrets := Api.byName (·.toObjectMeta) [Api.certificate "n" "cert"]
  services := Api.byName (·.toObjectMeta)
    [Api.webService "n" "a",
     Api.webService "n" "b",
     Api.webService "n" "m"]
  extensions := Api.byName (·.toObjectMeta)
    [{ name := "e", ns := "n", services := [{ name := "a", port := 80 }] }]
  httpproxies := Api.byName (·.toObjectMeta)
    [{ name := "p", ns := "n",
       virtualHost := some
         { fqdn := "h", tls := some { secretName := "cert" },
           authorization := some { extensionServiceRef := { name := "e" } } },
       routes :=
         [{ services :=
             [{ name := "a", port := 80 }, { name := "b", port := 80 },
              { name := "m", port := 80, mirror := true }] }] }]

def authorizedProxyDAG : DAG :=
  match Builder.build .plain .storage {} authorizedProxy with
  | .ok root => root
  | .error _ => {}

/-- Its three upstreams and its authorization service are in the cluster cache, with
their endpoints. -/
theorem authorized_proxy_resolves :
    Builder.build .plain .storage {} authorizedProxy = .ok authorizedProxyDAG ∧
      (∃ config ∈ (RouteCache.onChange .plain .storage authorizedProxyDAG).lookup
          "https/h", ∃ vh ∈ config.virtualHosts, ∃ r ∈ vh.routes, r.clusterNames.length = 3) ∧
      ∃ listeners, listenersOf .plain {} authorizedProxyDAG = .ok listeners ∧
        ClustersResolve (RouteCache.onChange .plain .storage authorizedProxyDAG)
          listeners (ClusterCache.onChange .plain .storage authorizedProxyDAG)
          (({} : EndpointsTranslator).onChange .plain .storage authorizedProxyDAG).entries := by
  have hbuild : Builder.build .plain .storage {} authorizedProxy =
      .ok authorizedProxyDAG := rfl
  have hservices : ∀ e ∈ authorizedProxy.services.toList,
      e.1 = { ns := e.2.ns, name := e.2.name } ∧ e.2.ns ≠ "" ∧ e.2.name ≠ "" := by
    decide +kernel
  have hextensions : ∀ e ∈ authorizedProxy.extensions.toList, e.2.services ≠ [] := by
    decide +kernel
  refine ⟨hbuild, by decide +kernel, clusters_resolve .plain {} {} .storage
    .storage .storage ?_ ?_ hbuild⟩
  · exact fun name svc hsvc => hservices (name, svc) (Map.mem_toList.mpr hsvc)
  · exact fun name e he => hextensions (name, e) (Map.mem_toList.mpr he)

end Sesame.XdsCache
