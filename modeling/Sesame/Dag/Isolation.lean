/-
# Isolation of upstream services

Every cluster of a host was made for a backend of an object in the cache. An Ingress
and an HTTPProxy reach the Services of their own namespace only, where the namespace of
an included proxy counts and not that of the root that includes it. A route of the Gateway
API reaches a Service of another namespace if a ReferencePolicy there opens it to routes
of that kind and namespace. Extension clusters reach the Services beside the
ExtensionService.
-/

import Sesame.Dag.CacheRuns
import Sesame.Dag.HostContents

namespace Sesame.Dag

open List
open Lib Api

/-! ## Upstream services -/

/-- An upstream of the graph stands for a Service in the cache. -/
def KubernetesCache.StandsFor (kc : KubernetesCache) (w : WeightedService) (svc : Api.Service) :
    Prop :=
  kc.services.lookup { ns := w.serviceNamespace, name := w.serviceName } = some svc

/-- The Service is a name for a host outside of the cluster. -/
def IsExternal (svc : Api.Service) : Prop := svc.type = .externalName ∧ svc.externalName ≠ ""

/-- A ReferencePolicy in the namespace of the Service opens it to the routes of a kind in
another namespace. -/
def OpenedTo (source : KubernetesCache) (routeKind routeNamespace : String) (svc : Api.Service) :
    Prop :=
  ∃ name policy, source.referencepolicies.lookup name = some policy ∧ policy.ns = svc.ns ∧
    (∃ origin ∈ policy.sources, origin.group = gatewayGroupName ∧ origin.kind = routeKind ∧
      origin.ns = routeNamespace) ∧
    ∃ target ∈ policy.targets, target.group = "" ∧ target.kind = "Service" ∧
      (target.name = none ∨ target.name = some "" ∨ target.name = some svc.name)

variable {lib : Stdlib} {ord : MapOrder} {dbc : DagBuilderConfig} {source : KubernetesCache}
  {c : Cluster} {clusters : List Cluster}

theorem externalName_eq_empty {svc : Api.Service} : externalName svc = "" ↔ ¬ IsExternal svc := by
  unfold externalName IsExternal
  cases svc.type <;> simp

/-- What a reference resolves to. -/
theorem ensureService_standsFor {name : NamespacedName} {port : IntOrString}
    {enableExternalNameSvc : Bool} {s : Service} (hkeyed : source.ServicesKeyed)
    (h : ensureService lib source name port enableExternalNameSvc = .ok s) :
    ∃ svc, source.StandsFor s.weighted svc ∧ svc.ns = name.ns ∧ svc.name = name.name ∧
      (enableExternalNameSvc = false → ¬ IsExternal svc) := by
  obtain ⟨⟨svc, svcPort⟩, hsvc, h⟩ := bind_eq_ok.mp h
  obtain ⟨_, hvalid, h⟩ := bind_eq_ok.mp h
  cases h
  have hlookup := lookupService_eq_ok hsvc
  have hname := hkeyed name svc hlookup
  subst hname
  refine ⟨svc, hlookup, rfl, rfl, fun hdisabled => ?_⟩
  rw [← externalName_eq_empty]
  unfold validateExternalName at hvalid
  dsimp only at hvalid
  split at hvalid
  · next hempty => exact hempty
  · simp [hdisabled] at hvalid

/-- What a cross-namespace reference needs. -/
theorem openedTo_of_validCrossNamespaceRef {routeKind routeNamespace : String} {svc : Api.Service}
    (h : GatewayAPIProcessor.validCrossNamespaceRef ord source
      { group := gatewayGroupName, kind := routeKind, ns := routeNamespace }
      { group := "", kind := "Service", ns := svc.ns, name := svc.name } = true) :
    OpenedTo source routeKind routeNamespace svc := by
  obtain ⟨policy, hpolicy, h⟩ := any_eq_true.mp h
  obtain ⟨name, hname⟩ := ord.mem_values.mp hpolicy
  simp only [Bool.and_eq_true, decide_eq_true_eq, any_eq_true, Bool.or_eq_true] at h
  obtain ⟨⟨hns, origin, horigin, ⟨hons, hogroup⟩, hokind⟩, target, htarget, ⟨htgroup, htkind⟩,
    htname⟩ := h
  exact ⟨name, policy, hname, hns, ⟨origin, horigin, hogroup, hokind, hons⟩,
    target, htarget, htgroup, htkind, or_assoc.mp htname⟩

/-! ## Objects that refer to services -/

/-- An object whose backends become clusters of hosts. -/
inductive Referrer
  | ingress (ing : Ingress)
  | httpProxy (proxy : HTTPProxy)
  | httpRoute (route : HTTPRoute)
  | tlsRoute (route : TLSRoute)

namespace Referrer

/-- The object is in the cache. -/
def InCache (source : KubernetesCache) : Referrer → Prop
  | ingress ing => ∃ name, source.ingresses.lookup name = some ing
  | httpProxy proxy => ∃ name, source.httpproxies.lookup name = some proxy
  | httpRoute route => ∃ name, source.httproutes.lookup name = some route
  | tlsRoute route => ∃ name, source.tlsroutes.lookup name = some route

/-- The Services that an object may forward to. -/
def MayUse (source : KubernetesCache) : Referrer → Api.Service → Prop
  | ingress ing, svc => svc.ns = ing.ns
  | httpProxy proxy, svc => svc.ns = proxy.ns
  | httpRoute route, svc => svc.ns = route.ns ∨ OpenedTo source "HTTPRoute" route.ns svc
  | tlsRoute route, svc => svc.ns = route.ns ∨ OpenedTo source "TLSRoute" route.ns svc

variable (lib ord dbc source) in
/-- The clusters that the processors make for the backends of an object: those of the
routes of an Ingress, of the routes that a proxy defines, at whatever position of a tree,
or of its TCP proxy, and of the rules of a route. -/
def Makes : Referrer → Cluster → Prop
  | ingress ing, c =>
    ∃ w ∈ IngressProcessor.routesOf lib ord dbc.ingressProcessor source ing, c ∈ w.route.allClusters
  | httpProxy proxy, c =>
    (∃ root enforceTLS chain spec r, spec ∈ proxy.routes ∧
      HTTPProxyProcessor.IsRouteOf lib ord dbc.httpProxyProcessor source root enforceTLS
        { proxy, chain } spec r ∧ c ∈ r.allClusters) ∨
    ∃ tcpproxy lbPolicy clusters, proxy.tcpProxy = some tcpproxy ∧
      HTTPProxyProcessor.tcpClusters lib dbc.httpProxyProcessor source proxy tcpproxy lbPolicy
        tcpproxy.services = .ok clusters ∧ c ∈ clusters
  | httpRoute route, c =>
    ∃ rule ∈ route.rules, ∃ u, ∃ r ∈ (GatewayAPIProcessor.ruleRoutes lib ord
      dbc.gatewayAPIProcessor source route.ns rule u).1, c ∈ r.allClusters
  | tlsRoute route, c =>
    ∃ rule ∈ route.rules, ∃ u, c ∈ (rule.foldl (GatewayAPIProcessor.addTLSBackend lib ord
      dbc.gatewayAPIProcessor source route.ns) { routeAccessor := u }).clusters

end Referrer

/-! ### What the clusters of an object forward to -/

/-- Every cluster of a TCP proxy forwards to one of its services. -/
theorem HTTPProxyProcessor.tcpClusters_upstream {p : HTTPProxyProcessor}
    {lbPolicy : LoadBalancerStrategy} {httpproxy : HTTPProxy} {tcpproxy : TCPProxySpec}
    {services : List ServiceRef}
    (h : tcpClusters lib p source httpproxy tcpproxy lbPolicy services = .ok clusters) :
    ∀ c ∈ clusters, ∃ service ∈ services,
      ensureService lib source { ns := httpproxy.ns, name := service.name }
        (.int (Int32.ofInt service.port)) p.enableExternalNameService = .ok c.upstream := by
  induction services generalizing clusters with
  | nil =>
    cases h
    intro c hc
    cases hc
  | cons service rest ih =>
    unfold tcpClusters at h
    split at h
    · cases h
    rename_i s hs
    split at h
    · cases h
    · obtain ⟨more, hrest, rfl⟩ := map_eq_ok.mp h
      refine forall_mem_cons.mpr ⟨⟨service, mem_cons_self, hs⟩, ?_⟩
      intro c hc
      obtain ⟨service', hservice', hs'⟩ := ih hrest c hc
      exact ⟨service', mem_cons_of_mem _ hservice', hs'⟩

namespace Referrer

/-- A cluster forwards to a Service in the cache that the object may use. -/
theorem Makes.mayUse (hkeyed : source.ServicesKeyed) {referrer : Referrer}
    (h : referrer.Makes lib ord dbc source c) :
    ∃ svc, source.StandsFor c.upstream.weighted svc ∧ referrer.MayUse source svc ∧
      (dbc.enableExternalNameService = false → ¬ IsExternal svc) := by
  -- A backend of a route of the Gateway API, of either kind.
  have hbackend : ∀ routeKind routeNamespace,
      GatewayAPIProcessor.ForBackend lib ord dbc.gatewayAPIProcessor source routeKind
        routeNamespace c →
      ∃ svc, source.StandsFor c.upstream.weighted svc ∧
        (svc.ns = routeNamespace ∨ OpenedTo source routeKind routeNamespace svc) ∧
        (dbc.enableExternalNameService = false → ¬ IsExternal svc) := by
    intro routeKind routeNamespace hc
    obtain ⟨backendRef, service, weight, hservice, hupstream⟩ := hc
    obtain ⟨⟨port, hensured⟩, hpermitted⟩ := GatewayAPIProcessor.validateBackendRef_eq_ok hservice
    obtain ⟨svc, hsvc, hns, hname, hexternal⟩ := ensureService_standsFor hkeyed hensured
    rw [hupstream]
    refine ⟨svc, hsvc, ?_, hexternal⟩
    rw [← hns, ← hname] at hpermitted
    exact hpermitted.imp id openedTo_of_validCrossNamespaceRef
  cases referrer with
  | ingress ing =>
    obtain ⟨w, hw, hc⟩ := h
    obtain ⟨_, _, -, -, hfor⟩ := IngressProcessor.routesOf_isFor hw
    obtain ⟨name, port, hensured⟩ := hfor.upstream c hc
    obtain ⟨svc, hsvc, hns, -, hexternal⟩ := ensureService_standsFor hkeyed hensured
    exact ⟨svc, hsvc, hns, hexternal⟩
  | httpProxy proxy =>
    have hensured : ∃ name port, ensureService lib source { ns := proxy.ns, name } port
        dbc.enableExternalNameService = .ok c.upstream := by
      rcases h with ⟨root, enforceTLS, chain, spec, r, -, hr, hc⟩ |
          ⟨tcpproxy, lbPolicy, clusters, -, hclusters, hc⟩
      · obtain ⟨lbPolicy, st, service, s, hensured, hcluster⟩ := hr.allClusters hc
        rw [(HTTPProxyProcessor.routeCluster_spec hcluster).upstream]
        exact ⟨_, _, hensured⟩
      · obtain ⟨service, -, hensured⟩ := HTTPProxyProcessor.tcpClusters_upstream hclusters c hc
        exact ⟨_, _, hensured⟩
    obtain ⟨name, port, hensured⟩ := hensured
    obtain ⟨svc, hsvc, hns, -, hexternal⟩ := ensureService_standsFor hkeyed hensured
    exact ⟨svc, hsvc, hns, hexternal⟩
  | httpRoute route =>
    obtain ⟨rule, hrule, u, r, hr, hc⟩ := h
    exact hbackend _ _
      (GatewayAPIProcessor.httpRoutesIn_forBackend _ _ _ _ route rule hrule u r hr c hc)
  | tlsRoute route =>
    obtain ⟨rule, hrule, u, hc⟩ := h
    exact hbackend _ _
      (GatewayAPIProcessor.tlsClustersIn_forBackend _ _ _ _ route rule hrule u c hc)

end Referrer

/-! ## The clusters of a graph -/

/-- A cluster of a route or of the TCP proxy of a host. -/
def DAG.HasCluster (dag : DAG) (c : Cluster) : Prop :=
  (∃ host r, dag.HasRoute host r ∧ c ∈ r.allClusters) ∨
    ∃ host s clusters, dag.secureVirtualHosts.lookup host = some s ∧
      s.tcpProxy = some clusters ∧ c ∈ clusters

/-- The clusters that listeners serve are clusters of hosts. -/
theorem Builder.hasCluster_of_mem_getClusters {root : DAG}
    (hbuild : Builder.build lib ord dbc source = .ok root) {clusterOrd : MapOrder}
    (hc : c ∈ root.getClusters clusterOrd) : root.HasCluster c := by
  obtain ⟨dag, -, hlisteners, rfl⟩ := Builder.build_eq hbuild
  suffices h : dag.HasCluster c by
    rw [ListenerProcessor.run_eq]
    exact h
  obtain ⟨l, hl, ⟨v, hv, key, r, hr, hc⟩ | ⟨s, hs, hc⟩⟩ := DAG.mem_getClusters.mp hc
  · obtain ⟨⟨host, hhost⟩, -⟩ := ListenerProcessor.mem_httpHosts.mp
      (ListenerProcessor.mem_httpHosts_of_run hlisteners ⟨l, hl, hv⟩)
    exact .inl ⟨host, r, .inl ⟨v, key, hhost, hr⟩, hc⟩
  · obtain ⟨⟨host, hhost⟩, -⟩ := ListenerProcessor.mem_httpsHosts.mp
      ((ListenerProcessor.mem_secureVirtualHosts_run hlisteners).mp ⟨l, hl, hs⟩)
    rcases hc with ⟨key, r, hr, hc⟩ | hc
    · exact .inl ⟨host, r, .inr ⟨s, key, hhost, hr⟩, hc⟩
    · cases htcp : s.tcpProxy with
      | none =>
        rw [htcp] at hc
        cases hc
      | some clusters =>
        rw [htcp] at hc
        exact .inr ⟨host, s, clusters, hhost, htcp, hc⟩

/-! ### The processors -/

variable (lib ord dbc source) in
/-- A cluster that is made for an object in the cache. -/
def Made (c : Cluster) : Prop :=
  ∃ referrer : Referrer, referrer.InCache source ∧ referrer.Makes lib ord dbc source c

theorem HTTPProxyProcessor.Puts.made {extensions : List ExtensionCluster} {host : String}
    {r : Route}
    (h : Puts lib ord dbc.httpProxyProcessor source extensions host r) :
    ∀ c ∈ r.allClusters, Made lib ord dbc source c := by
  obtain ⟨proxy, vhost, hroot, -, -, hr⟩ := h
  refine computeRoutes_inv (P := fun r => ∀ c ∈ r.allClusters, Made lib ord dbc source c)
    ⟨?_, ?_, ?_⟩ _ _ _ _ .start r hr
  · intro pos spec r hpos hspec hr c hc
    exact ⟨.httpProxy pos.proxy, hpos.cached hroot.cached,
      .inl ⟨_, _, pos.chain, spec, r, hspec, hr, hc⟩⟩
  · intro pos inc _ _ _ c hc
    cases hc
  · intro r routingPrefix m hr _ _ _ rewrite _
    exact ⟨hr, hr⟩

theorem HTTPProxyProcessor.IsTCPProxyOf.made {name : NamespacedName} {proxy : HTTPProxy}
    (hname : source.httpproxies.lookup name = some proxy)
    (h : IsTCPProxyOf lib dbc.httpProxyProcessor source proxy clusters) :
    ∀ c ∈ clusters, Made lib ord dbc source c := by
  obtain ⟨httpproxy, tcpproxy, lbPolicy, hfound, htcp, -, hclusters⟩ := h
  intro c hc
  refine ⟨.httpProxy httpproxy, ?_, .inr ⟨tcpproxy, lbPolicy, clusters, htcp, hclusters, hc⟩⟩
  rcases hfound with rfl | hcached
  · exact ⟨name, hname⟩
  · exact hcached

theorem GatewayAPIProcessor.Puts.made {host : String} {r : Route}
    (h : Puts lib ord dbc.gatewayAPIProcessor source host r) :
    ∀ c ∈ r.allClusters, Made lib ord dbc source c := by
  obtain ⟨-, name, route, rule, u, hname, hrule, r₀, hr₀, hosts, rfl⟩ := h
  have hsame : (hosts.foldl (fun r host => narrowToHost host r) r₀).allClusters = r₀.allClusters :=
    foldlRecOn hosts _ (motive := fun r : Route => r.allClusters = r₀.allClusters) rfl
      fun r hr host _ => (allClusters_narrowToHost host r).trans hr
  rw [hsame]
  exact fun c hc => ⟨.httpRoute route, ⟨name, hname⟩, rule, hrule, u, r₀, hr₀, hc⟩

/-- Every cluster of a host of a built graph was made for an object in the cache. -/
theorem Builder.made_of_hasCluster {root : DAG}
    (hbuild : Builder.build lib ord dbc source = .ok root) (hc : root.HasCluster c) :
    Made lib ord dbc source c := by
  have hwithin : root.Within
      { route := fun _ r => ∀ c ∈ r.allClusters, Made lib ord dbc source c,
        tcpCluster := Made lib ord dbc source } := by
    apply build_within hbuild
    · exact ⟨fun _ => trivial, fun _ _ _ _ _ _ _ => trivial,
        fun name ing hing w hw c hc => ⟨.ingress ing, ⟨name, hing⟩, w, hw, hc⟩⟩
    · exact ⟨fun _ => trivial, fun _ _ _ _ => trivial, fun _ _ _ _ _ => trivial,
        fun _ _ => trivial, fun _ _ => trivial, fun _ _ hname _ h => h.made hname,
        fun _ _ h => h.made⟩
    · exact ⟨fun _ => trivial, fun _ => trivial, fun name route hname rule hrule u c hc =>
        ⟨.tlsRoute route, ⟨name, hname⟩, rule, hrule, u, hc⟩, fun _ _ h => h.made⟩
  rcases hc with ⟨host, r, hr, hc⟩ | ⟨host, s, clusters, hs, htcp, hc⟩
  · exact hwithin.hasRoute hr c hc
  · exact (hwithin.secureHosts host s hs).tcpProxy clusters htcp c hc

/-! ## Extension clusters -/

namespace ExtensionServiceProcessor

variable {p : ExtensionServiceProcessor} {ext : ExtensionService}

variable (lib ord p) in
/-- An extension cluster that is built for an ExtensionService. -/
def IsBuiltFor (source : KubernetesCache) (ext : ExtensionService) (e : ExtensionCluster) : Prop :=
  ∃ validCondition, (buildExtensionService lib ord p source ext validCondition).1 = some e

theorem Adds.isBuiltFor {e : ExtensionCluster} (h : Adds lib ord p source ext e) :
    IsBuiltFor lib ord p source ext e :=
  h.imp fun _ h => h.1

theorem attachValidation_kept {st st' : BuildState}
    (h : (attachValidation lib ord source ext st).1 = some st') :
    st'.extension.name = st.extension.name ∧ st'.extension.upstream = st.extension.upstream := by
  rcases attachValidation_extension h with heq | ⟨v, uv, -, -, heq⟩
  · rw [heq]
    exact ⟨rfl, rfl⟩
  · rw [heq]
    exact ⟨rfl, rfl⟩

/-- Its services are Services of the namespace of the ExtensionService and not external. -/
theorem IsBuiltFor.standsFor (hkeyed : source.ServicesKeyed) {e : ExtensionCluster}
    (h : IsBuiltFor lib ord p source ext e) :
    ∀ w ∈ e.upstream.services, ∃ svc, source.StandsFor w svc ∧ svc.ns = ext.ns ∧
      ¬ IsExternal svc := by
  obtain ⟨validCondition, h⟩ := h
  obtain ⟨st, hst, rfl, -⟩ := buildExtensionService_eq_some h
  refine foldlRecOn _ _ (motive := fun st : BuildState =>
    ∀ w ∈ st.extension.upstream.services, ∃ svc, source.StandsFor w svc ∧
      svc.ns = ext.ns ∧ ¬ IsExternal svc) ?_ ?_
  · rw [(attachValidation_kept hst).2]
    intro w hw
    cases hw
  · intro st hst target _
    rcases addTarget_cases lib source ext target with ⟨_, -, heq⟩ | ⟨svc, port, hfound, hext, heq⟩
    · rw [heq]
      exact hst
    · have hlookup := lookupService_eq_ok hfound
      have hname := NamespacedName.mk.inj (hkeyed _ svc hlookup)
      rw [heq]
      refine forall_mem_append.mpr ⟨hst, forall_mem_singleton.mpr ?_⟩
      exact ⟨svc, hlookup, hname.1.symm, fun hsvc => hsvc.2 hext⟩

end ExtensionServiceProcessor

/-! ## Built graphs -/

/-- In a built graph every cluster of a host was made for an object in the cache, and every
extension cluster for an ExtensionService. What is made for an object forwards to Services
that it may use, and to external ones only if the configuration allows them. -/
theorem upstreams_isolated {root : DAG} (hkeyed : source.ServicesKeyed)
    (hbuild : Builder.build lib ord dbc source = .ok root) :
    (∀ c, root.HasCluster c → ∃ referrer : Referrer, referrer.InCache source ∧
      referrer.Makes lib ord dbc source c) ∧
    (∀ (referrer : Referrer) (c : Cluster), referrer.Makes lib ord dbc source c →
      ∃ svc, source.StandsFor c.upstream.weighted svc ∧ referrer.MayUse source svc ∧
        (dbc.enableExternalNameService = false → ¬ IsExternal svc)) ∧
    (∀ e ∈ root.extensionClusters, ∃ name ext, source.extensions.lookup name = some ext ∧
      ExtensionServiceProcessor.IsBuiltFor lib ord dbc.extensionServiceProcessor source ext e) ∧
    ∀ ext e, ExtensionServiceProcessor.IsBuiltFor lib ord dbc.extensionServiceProcessor source
        ext e →
      ∀ w ∈ e.upstream.services, ∃ svc, source.StandsFor w svc ∧ svc.ns = ext.ns ∧
        ¬ IsExternal svc := by
  refine ⟨fun c hc => Builder.made_of_hasCluster hbuild hc,
    fun referrer c hmakes => hmakes.mayUse hkeyed, ?_, fun ext e he => he.standsFor hkeyed⟩
  intro e he
  obtain ⟨name, ext, hname, hadds⟩ := Builder.build_extensions hbuild e he
  exact ⟨name, ext, hname, hadds.isBuiltFor⟩

/-- A Gateway with an HTTPRoute in the namespace `n` that forwards to `m/s`, which a
ReferencePolicy opens, and a root proxy and an ExtensionService for `n/a`. -/
def crossingCache : KubernetesCache where
  services := byName (·.toObjectMeta) [webService "n" "a", webService "m" "s"]
  extensions := byName (·.toObjectMeta)
    [{ name := "e", ns := "n", services := [{ name := "a", port := 80 }] }]
  httpproxies := byName (·.toObjectMeta)
    [{ name := "p", ns := "n", virtualHost := some { fqdn := "proxied" },
       routes := [{ services := [{ name := "a", port := 80 }] }] }]
  gatewayclass := some { name := "class", ns := "" }
  gateway := some
    { name := "gateway", ns := "n", listeners := [{ name := "http", protocol := .http }] }
  httproutes := byName (·.toObjectMeta)
    [{ name := "route", ns := "n", hostnames := ["routed"],
       parentRefs :=
         [{ group := some gatewayGroupName, kind := some "Gateway", name := "gateway" }],
       rules :=
         [{ matchRules := [{}],
            backendRefs :=
             [{ kind := some "Service", name := "s", ns := some "m", port := some 80 }] }] }]
  referencepolicies := byName (·.toObjectMeta)
    [{ name := "policy", ns := "m",
       sources := [{ group := gatewayGroupName, kind := "HTTPRoute", ns := "n" }],
       targets := [{ group := "", kind := "Service" }] }]

def crossingDAG : DAG :=
  match Builder.build .plain .storage { gatewayAPIConfigured := true } crossingCache with
  | .ok root => root
  | .error _ => {}

theorem build_crossingCache : Builder.build .plain .storage
    { gatewayAPIConfigured := true } crossingCache = .ok crossingDAG := rfl

theorem crossingCache_servicesKeyed : crossingCache.ServicesKeyed := by
  have hall : ∀ e ∈ crossingCache.services.toList, e.1 = { ns := e.2.ns, name := e.2.name } := by
    decide +kernel
  exact fun name svc hsvc => hall (name, svc) (Map.mem_toList.mpr hsvc)

/-- The route reaches the Service of the other namespace, and whatever it reaches is open
to it. -/
theorem crossing_upstreams_isolated :
    (∃ c, crossingDAG.HasCluster c ∧ c.upstream.weighted.serviceNamespace = "m" ∧
      c.upstream.weighted.serviceName = "s") ∧
    (∀ c, crossingDAG.HasCluster c → ∃ referrer : Referrer, referrer.InCache crossingCache ∧
      ∃ svc, crossingCache.StandsFor c.upstream.weighted svc ∧
        referrer.MayUse crossingCache svc ∧ ¬ IsExternal svc) ∧
    crossingDAG.extensionClusters ≠ [] := by
  obtain ⟨hstems, huses, -⟩ := upstreams_isolated crossingCache_servicesKeyed build_crossingCache
  refine ⟨?_, ?_, by decide +kernel⟩
  · have hroute : ∃ v ∈ crossingDAG.virtualHosts.lookup "routed",
        ∃ r ∈ v.routes.lookup "prefix: / type: string", ∃ c ∈ r.allClusters,
          c.upstream.weighted.serviceNamespace = "m" ∧ c.upstream.weighted.serviceName = "s" := by
      decide +kernel
    obtain ⟨v, hv, r, hr, c, hc, hservice⟩ := hroute
    exact ⟨c, .inl ⟨"routed", r, .inl ⟨v, _, hv, hr⟩, hc⟩, hservice⟩
  · intro c hc
    obtain ⟨referrer, hcached, hmakes⟩ := hstems c hc
    obtain ⟨svc, hsvc, hmayUse, hexternal⟩ := huses referrer c hmakes
    exact ⟨referrer, hcached, svc, hsvc, hmayUse, hexternal rfl⟩

end Sesame.Dag
