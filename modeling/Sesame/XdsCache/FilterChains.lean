/-
# The filter chains of the HTTPS listener

Envoy refuses a listener with two filter chains of the same match. The chains of
`ingress_https` are one per secure host and one more for the fallback
certificate. A host is matched by its name, but `*` has no server name and is
matched by the transport protocol, and so is the fallback chain: the two exclude
each other.
-/

import Sesame.Dag.HostContents
import Sesame.XdsCache.Listener

namespace Sesame.XdsCache

open List
open Lib Dag Envoy
open Api (NamespacedName)

/-- The secure host is attached to a listener of the DAG. -/
def Attached (root : DAG) (vh : SecureVirtualHost) : Prop :=
  ∃ l ∈ root.listeners, vh ∈ l.secureVirtualHosts

/-- A listener that Envoy can accept: its filter chains have different matches. -/
def DistinctMatches (l : Envoy.Listener) : Prop :=
  (l.filterChains.map (·.filterChainMatch)).Nodup
  deriving Decidable

/-- The hosts that the listener processor attaches have different names. -/
theorem nodup_httpsHosts_names (ord : MapOrder) {d : DAG} (hd : d.HostsNamed) :
    ((ListenerProcessor.httpsHosts ord d).map (·.name)).Nodup := by
  have hnames : (ord.values "buildHTTPSListener" d.secureVirtualHosts).map (·.name) =
      (ord.range "buildHTTPSListener" d.secureVirtualHosts).map Prod.fst := by
    rw [MapOrder.values, map_map]
    refine map_congr_left ?_
    intro e he
    exact hd.secureHosts e.1 e.2 (ord.mem_range.mp he)
  have hnodup : ((ord.values "buildHTTPSListener" d.secureVirtualHosts).map (·.name)).Nodup := by
    rw [hnames]
    exact ord.nodup_range_keys _ _
  rw [ListenerProcessor.httpsHosts, ((sortStable_perm _ _).map _).nodup_iff]
  exact hnodup.sublist (filter_sublist.map _)

/-- In a built DAG the filter chains of the HTTPS listener have different matches
unless a host `*` and a host with a fallback certificate are both attached. -/
theorem distinct_matches_iff (lib : Stdlib) (cfg : ListenerConfig) {ord : MapOrder}
    {dbc : DagBuilderConfig} {source : KubernetesCache} {root : DAG}
    (hbuild : Builder.build lib ord dbc source = .ok root) :
    ∃ listeners, listenersOf lib cfg root = .ok listeners ∧
      ((∀ l, listeners.lookup envoyHTTPSListener = some l → DistinctMatches l) ↔
        ¬ ((∃ vh, Attached root vh ∧ vh.name = "*") ∧
          ∃ vh, Attached root vh ∧ vh.fallbackCertificate.isSome = true)) := by
  have hnamed := Builder.build_hostsNamed hbuild
  obtain ⟨dag, -, hdag, rfl⟩ := Builder.build_eq hbuild
  have hnodup : ((ListenerProcessor.httpsHosts ord dag).map (·.name)).Nodup := by
    rw [ListenerProcessor.run_eq] at hnamed
    exact nodup_httpsHosts_names ord ⟨hnamed.hosts, hnamed.secureHosts⟩
  have hattached : ∀ vh, Attached (ListenerProcessor.run ord dag) vh ↔
      vh ∈ ListenerProcessor.httpsHosts ord dag :=
    fun vh => ListenerProcessor.mem_secureVirtualHosts_run hdag
  obtain ⟨listeners, chains, hlisteners, hadds, hsorted, hpresent, -⟩ :=
    listenersOf_run_https lib cfg ord hdag
  have hperm := hadds.perm
  refine ⟨listeners, hlisteners, ?_⟩
  simp only [hattached]
  generalize ListenerProcessor.httpsHosts ord dag = hosts at hnodup hperm
  -- The matches are those of the names of the hosts and, once more, of the fallback chain.
  have hmatches : (chains.map (·.filterChainMatch)).Nodup ↔
      ¬ ((∃ vh, vh ∈ hosts ∧ vh.name = "*") ∧
        ∃ vh, vh ∈ hosts ∧ vh.fallbackCertificate.isSome = true) := by
    rw [hperm.nodup_iff, map_nil, nil_append, nodup_map_iff hostMatch_injective, nodup_append]
    by_cases hfallback : ∃ vh, vh ∈ hosts ∧ vh.fallbackCertificate.isSome = true
    · simp [ListenerConfig.fallbackNames, containsFallbackFilterChain, hfallback, hnodup]
    · simp [ListenerConfig.fallbackNames, containsFallbackFilterChain, hfallback, hnodup]
  rw [← hmatches]
  constructor
  · intro hdistinct
    by_cases hempty : chains = []
    · simp [hempty]
    · obtain ⟨l, hl⟩ := hpresent hempty
      have hl' := hdistinct l hl
      rw [DistinctMatches, hsorted l hl, ((sortStable_perm _ _).map _).nodup_iff] at hl'
      exact hl'
  · intro hdistinct l hl
    rw [DistinctMatches, hsorted l hl, ((sortStable_perm _ _).map _).nodup_iff]
    exact hdistinct

/-- A Gateway for the given host, and a root proxy `h` with the fallback
certificate. -/
def fallbackBesideGateway (hostname : Option String) : KubernetesCache :=
  { redirectGateway hostname with
    httpproxies := Api.byName (·.toObjectMeta)
      [{ name := "p", ns := "n",
         virtualHost := some
           { fqdn := "h", tls := some { secretName := "cert", enableFallbackCertificate := true } },
         routes := [{ requestRedirectPolicy := some {} }] }] }

/-- A configuration with the Gateway API and a fallback certificate. -/
def fallbackConfig : DagBuilderConfig where
  gatewayAPIConfigured := true
  fallbackCert := some ⟨"n", "cert"⟩

def fallbackDAG (hostname : Option String) : DAG :=
  match Builder.build .plain .storage fallbackConfig (fallbackBesideGateway hostname) with
  | .ok root => root
  | .error _ => {}

/-- With a hostname for the Gateway, the listener has three chains of different
matches. -/
theorem named_host_and_fallback_distinct :
    Builder.build .plain .storage fallbackConfig
        (fallbackBesideGateway (some "a")) = .ok (fallbackDAG (some "a")) ∧
      ∃ listeners, listenersOf .plain {} (fallbackDAG (some "a")) = .ok listeners ∧
        ∀ l, listeners.lookup envoyHTTPSListener = some l → DistinctMatches l := by
  have hbuild : Builder.build .plain .storage fallbackConfig
      (fallbackBesideGateway (some "a")) = .ok (fallbackDAG (some "a")) := rfl
  have hnames : ∀ l ∈ (fallbackDAG (some "a")).listeners, ∀ vh ∈ l.secureVirtualHosts,
      vh.name ≠ "*" := by
    decide +kernel
  obtain ⟨listeners, hlisteners, hiff⟩ := distinct_matches_iff .plain {} hbuild
  refine ⟨hbuild, listeners, hlisteners, hiff.mpr ?_⟩
  rintro ⟨⟨vh, ⟨l, hl, hvh⟩, hstar⟩, -⟩
  exact hnames l hl vh hvh hstar

/-- The Gateway route without hostnames gives the host `*`. Its chain and the
fallback chain have the same match. -/
theorem star_and_fallback_match_alike :
    Builder.build .plain .storage fallbackConfig (fallbackBesideGateway none) =
        .ok (fallbackDAG none) ∧
      ∃ listeners l, listenersOf .plain {} (fallbackDAG none) = .ok listeners ∧
        listeners.lookup envoyHTTPSListener = some l ∧ ¬ DistinctMatches l := by
  have hlisteners : ∃ listeners ∈ (listenersOf .plain {} (fallbackDAG none)).toOption,
      ∃ l ∈ listeners.lookup envoyHTTPSListener, ¬ DistinctMatches l := by
    decide +kernel
  obtain ⟨listeners, hlisteners, l, hl, hsame⟩ := hlisteners
  exact ⟨rfl, listeners, l, toOption_eq_some.mp hlisteners, hl, hsame⟩

end Sesame.XdsCache
