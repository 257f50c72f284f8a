/-
# Plaintext requests for a host with TLS

The flag that turns a plaintext request into a redirect is set when a route is
computed, copied by every prefix expansion above it, and read when the route
configurations are built. For a root with TLS it is set on every route, except those
that permit plaintext requests while the processor does not disable that. A route
that has no upstream answers by itself and needs no redirect.
-/

import Sesame.Dag.Delegation
import Sesame.XdsCache.Route

namespace Sesame.XdsCache

open Lib Api Dag Envoy
open Dag.HTTPProxyProcessor

/-- A route stems from a route of a proxy that the includes of a root lead to, which
permits plaintext requests, and permitting them is not disabled. -/
structure PermittedInsecure (p : HTTPProxyProcessor) (source : KubernetesCache) (root : Root)
    (r : Route) : Prop where
  enabled : p.disablePermitInsecure = false
  stems : ∃ pos, Reaches source root pos ∧ ∃ spec ∈ pos.proxy.routes,
    spec.permitInsecure = true ∧ r.origin = some
      { root := namespacedNameOf root.proxy.toObjectMeta, chain := pos.chain,
        proxy := namespacedNameOf pos.proxy.toObjectMeta, spec := some spec }

section

variable {lib : Stdlib} {ord : MapOrder} {p : HTTPProxyProcessor} {source : KubernetesCache}

/-- With TLS enforced, a route answers by itself, is upgraded, or is permitted. -/
theorem computeRoutes_upgraded {root : Root} (fuel : Nat) (visited : List HTTPProxy) (st : State)
    (vc : Status.DetailedCondition) :
    ∀ r ∈ (computeRoutes lib ord p source root true fuel visited st vc
        { proxy := root.proxy, chain := [] }).routes,
      r.directResponse.isSome = true ∨ r.httpsUpgrade = true ∨
        PermittedInsecure p source root r := by
  refine computeRoutes_inv (P := fun r => r.directResponse.isSome = true ∨ r.httpsUpgrade = true ∨
    PermittedInsecure p source root r) ⟨?_, ?_, ?_⟩ fuel visited st vc .start
  · intro pos spec r hpos hspec hr
    have horigin := hr.origin
    obtain ⟨_, base, clusters, mirrorPolicy, hbase, rfl⟩ := hr.eq_finishRoute
    have hupgrade := hbase.upgrade
    rw [routeEnforceTLS, Bool.true_and] at hupgrade
    right
    cases hpermit : spec.permitInsecure && !p.disablePermitInsecure with
    | false =>
      left
      rw [hpermit] at hupgrade
      exact hupgrade
    | true =>
      right
      rw [Bool.and_eq_true, Bool.not_eq_true'] at hpermit
      exact ⟨hpermit.2, pos, hpos, spec, hspec, hpermit.1, horigin⟩
  · intro pos inc _ _ _
    exact .inl rfl
  · intro r routingPrefix m hr _ _ _ rewrite _
    constructor
    · exact hr.imp_right (Or.imp_right fun h => ⟨h.enabled, h.stems⟩)
    · exact hr.imp_right (Or.imp_right fun h => ⟨h.enabled, h.stems⟩)

end

theorem slash_not_mem_of_hostName {name : String} (h : HostName name) : '/' ∉ name.toList := by
  have hdns : ∀ s : String, DNSName s → '/' ∉ s.toList := by
    intro s hs hmem
    have hchar := hs '/' hmem
    revert hchar
    decide
  rcases h with rfl | ⟨suffix, rfl, hsuffix⟩ | hexact
  · decide
  · rw [String.toList_append, List.mem_append, not_or]
    exact ⟨by decide, hdns suffix hsuffix⟩
  · exact hdns name hexact

/-- In the plaintext configuration, a route for the host of a root with TLS forwards
requests only if it stems from a route that permits plaintext requests; every other
route of the host redirects or answers by itself. -/
theorem plaintext_forwards_permitted {lib : Stdlib} {ord : MapOrder} {dbc : DagBuilderConfig}
    {source : KubernetesCache} {root : DAG} (hbuild : Builder.build lib ord dbc source = .ok root)
    {name : NamespacedName} {proxy : HTTPProxy} {vhost : VirtualHostSpec}
    (hcached : source.httpproxies.lookup name = some proxy)
    (hvhost : proxy.virtualHost = some vhost) (htls : vhost.tls.isSome = true)
    (hname : HostName vhost.fqdn)
    (hingress : ¬ IngressProcessor.UsesHost source vhost.fqdn)
    (hgateway : ¬ GatewayAPIProcessor.UsesHost lib source vhost.fqdn) :
    ∀ evh ∈ RouteCache.hostsOf (RouteCache.onChange lib ord root) envoyHTTPListener,
      vhost.fqdn ∈ evh.domains → ∀ er ∈ evh.routes,
      ∃ r ∈ routesOf lib ord dbc.httpProxyProcessor source proxy vhost,
        buildRoute lib ord (sortHeaders r) vhost.fqdn false none = er ∧
        ((∃ action, er.action = .route action) →
          PermittedInsecure dbc.httpProxyProcessor source { proxy, virtualHost := vhost } r) ∧
        (¬ PermittedInsecure dbc.httpProxyProcessor source { proxy, virtualHost := vhost } r →
          (∃ redirect, er.action = .redirect redirect) ∨
            ∃ status, er.action = .directResponse status) := by
  intro evh hevh hfqdn er her
  obtain ⟨v, key, r, hv, hr, rfl⟩ := RouteCache.routes_plaintext hbuild
    (slash_not_mem_of_hostName hname) hevh hfqdn her
  have hmem : r ∈ routesOf lib ord dbc.httpProxyProcessor source proxy vhost := by
    rcases Builder.puts_of_hasRoute hbuild (.inl ⟨v, key, hv, hr⟩) with
      ⟨name, ing, rules, rule, hing, hrules, hrule, hhost, -⟩ | ⟨extensions, hputs⟩ | hputs
    · exact absurd ⟨name, ing, hing, .inr ⟨rules, hrules, rule, hrule, hhost.symm⟩⟩ hingress
    · exact hputs.mem_routesOf hcached hvhost
    · exact absurd hputs.1 hgateway
  have hpermitted : (∃ action, (buildRoute lib ord (sortHeaders r) vhost.fqdn false none).action =
      .route action) →
      PermittedInsecure dbc.httpProxyProcessor source { proxy, virtualHost := vhost } r := by
    intro hforwards
    obtain ⟨hupgrade, hdirect, -⟩ := buildRoute_forwards_iff.mp hforwards
    have hroute := hmem
    rw [routesOf, htls] at hroute
    rcases computeRoutes_upgraded _ _ _ _ r hroute with hsome | htrue | hpermitted
    · have hnone : r.directResponse = none := hdirect
      rw [hnone] at hsome
      cases hsome
    · cases hupgrade htrue
    · exact hpermitted
  refine ⟨r, hmem, rfl, hpermitted, ?_⟩
  intro hnot
  cases haction : (buildRoute lib ord (sortHeaders r) vhost.fqdn false none).action with
  | route action => exact absurd (hpermitted ⟨action, haction⟩) hnot
  | redirect redirect => exact .inl ⟨redirect, rfl⟩
  | directResponse status => exact .inr ⟨status, rfl⟩

/-- The root `n/p` of the host `h` with TLS; of its two routes to the service `s`, the one
for `/open` permits plaintext requests. -/
def insecureProxy : HTTPProxy where
  name := "p"
  ns := "n"
  virtualHost := some { fqdn := "h", tls := some { secretName := "cert" } }
  routes :=
    [{ services := [{ name := "s", port := 80 }] },
      { conditions := [{ pathPrefix := "/open" }], services := [{ name := "s", port := 80 }],
        permitInsecure := true }]

/-- A cache with the root, its certificate and the service. -/
def insecureCache : KubernetesCache where
  httpproxies := byName (·.toObjectMeta) [insecureProxy]
  secrets := byName (·.toObjectMeta) [certificate "n" "cert"]
  services := byName (·.toObjectMeta) [webService "n" "s"]

def insecureDAG : DAG :=
  match Builder.build .plain .storage {} insecureCache with
  | .ok dag => dag
  | .error _ => {}

/-- The plaintext configuration forwards on one route of the host and redirects on the
other; the one that forwards is permitted. -/
theorem open_route_permitted :
    Builder.build .plain .storage {} insecureCache = .ok insecureDAG ∧
      ∃ evh ∈ RouteCache.hostsOf (RouteCache.onChange .plain .storage insecureDAG)
          envoyHTTPListener, "h" ∈ evh.domains ∧
        (∃ er ∈ evh.routes, er.action = .redirect upgradeHTTPS) ∧
        ∃ er ∈ evh.routes, (∃ action, er.action = .route action) ∧
          ∃ r, buildRoute .plain .storage (sortHeaders r) "h" false none = er ∧
            PermittedInsecure ({} : DagBuilderConfig).httpProxyProcessor insecureCache
              { proxy := insecureProxy,
                virtualHost := { fqdn := "h", tls := some { secretName := "cert" } } } r := by
  have hbuild : Builder.build .plain .storage {} insecureCache = .ok insecureDAG := rfl
  have hroutes : ∃ evh ∈ RouteCache.hostsOf
      (RouteCache.onChange .plain .storage insecureDAG) envoyHTTPListener,
      "h" ∈ evh.domains ∧ (∃ er ∈ evh.routes, er.action = .redirect upgradeHTTPS) ∧
        ∃ er ∈ evh.routes, (match er.action with | .route _ => true | _ => false) = true := by
    decide +kernel
  obtain ⟨evh, hevh, hfqdn, hredirects, er, her, haction⟩ := hroutes
  have hforwards : ∃ action, er.action = .route action := by
    cases hcase : er.action <;> simp_all
  have hcached : insecureCache.httpproxies.lookup ⟨"n", "p"⟩ = some insecureProxy := rfl
  have hdns : DNSName "h" := by decide
  have hingress : ¬ IngressProcessor.UsesHost insecureCache "h" := by
    rintro ⟨name, ing, hing, -⟩
    cases hing
  have hgateway : ¬ GatewayAPIProcessor.UsesHost .plain insecureCache "h" := by
    rintro ⟨gateway, -, -, hgateway, -⟩
    cases hgateway
  obtain ⟨r, -, hbuilt, hpermitted, -⟩ := plaintext_forwards_permitted hbuild hcached rfl rfl
    (.inr (.inr hdns)) hingress hgateway evh hevh hfqdn er her
  exact ⟨hbuild, evh, hevh, hfqdn, hredirects, er, her, hforwards, r, hbuilt, hpermitted hforwards⟩

end Sesame.XdsCache
