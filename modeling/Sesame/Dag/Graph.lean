/-
# The DAG and its accessors

Processors reach hosts by name, and the Envoy caches read the finished graph
through its listeners. The source ranges over the route map of every host anew
in each accessor, so each such loop has its own site.
-/

import Sesame.Dag.Types
import Sesame.Status.Cache

namespace Sesame.Dag

open Lib Api

structure DAG where
  statusCache : Status.Cache := {}
  listeners : List Listener := []
  virtualHosts : Map String VirtualHost := ∅
  secureVirtualHosts : Map String SecureVirtualHost := ∅
  extensionClusters : List ExtensionCluster := []

def clusterLoadAssignmentName (service : NamespacedName) (portName : String) : String :=
  if portName = "" then "/".intercalate [service.ns, service.name]
  else "/".intercalate [service.ns, service.name, portName]

def extensionClusterName (name : NamespacedName) : String :=
  "/".intercalate ["extension", name.ns, name.name]

def Route.allClusters (route : Route) : List Cluster := route.clusters ++ route.mirrorPolicy.toList

namespace DAG

def getSecureVirtualHost (d : DAG) (hostname : String) : Option SecureVirtualHost :=
  d.secureVirtualHosts.lookup hostname

/-- The host that `EnsureSecureVirtualHost` returns. -/
def ensureSecureVirtualHost (d : DAG) (hostname : String) : SecureVirtualHost :=
  (d.getSecureVirtualHost hostname).getD { name := hostname }

/-- Write a secure host back under its name; what a processor does to the host
that `EnsureSecureVirtualHost` returned becomes visible this way. -/
def putSecureVirtualHost (d : DAG) (hostname : String) (svh : SecureVirtualHost) : DAG :=
  { d with secureVirtualHosts := d.secureVirtualHosts.insert hostname svh }

def getVirtualHost (d : DAG) (hostname : String) : Option VirtualHost :=
  d.virtualHosts.lookup hostname

/-- The host that `EnsureVirtualHost` returns. -/
def ensureVirtualHost (d : DAG) (hostname : String) : VirtualHost :=
  (d.getVirtualHost hostname).getD { name := hostname }

def putVirtualHost (d : DAG) (hostname : String) (vhost : VirtualHost) : DAG :=
  { d with virtualHosts := d.virtualHosts.insert hostname vhost }

def getClusters (ord : MapOrder) (d : DAG) : List Cluster :=
  d.listeners.flatMap fun l =>
    (l.virtualHosts.flatMap fun vhost =>
      (ord.values ("GetClusters " ++ vhost.name) vhost.routes).flatMap Route.allClusters) ++
    (l.secureVirtualHosts.flatMap fun svh =>
      (ord.values ("GetClusters secure " ++ svh.name) svh.routes).flatMap Route.allClusters ++
        svh.tcpProxy.getD [])

/-- A cluster of `GetClusters` is one of a route of an attached host or of its TCP
proxy. -/
theorem mem_getClusters {ord : MapOrder} {d : DAG} {c : Cluster} :
    c ∈ d.getClusters ord ↔ ∃ l ∈ d.listeners,
      (∃ v ∈ l.virtualHosts, ∃ key r, v.routes.lookup key = some r ∧ c ∈ r.allClusters) ∨
      ∃ s ∈ l.secureVirtualHosts,
        (∃ key r, s.routes.lookup key = some r ∧ c ∈ r.allClusters) ∨ c ∈ s.tcpProxy.getD [] := by
  have hroutes : ∀ site (routes : Map String Route),
      (∃ r ∈ ord.values site routes, c ∈ r.allClusters) ↔
        ∃ key r, routes.lookup key = some r ∧ c ∈ r.allClusters := by
    intro site routes
    simp only [ord.mem_values]
    constructor
    · rintro ⟨r, ⟨key, hr⟩, hc⟩
      exact ⟨key, r, hr, hc⟩
    · rintro ⟨key, r, hr, hc⟩
      exact ⟨r, ⟨key, hr⟩, hc⟩
  simp only [getClusters, List.mem_flatMap, List.mem_append, hroutes]

/-- The service cluster that stands for the one service of a cluster. -/
def serviceClusterOf (cluster : Cluster) : ServiceCluster where
  clusterName := clusterLoadAssignmentName
    { ns := cluster.upstream.weighted.serviceNamespace,
      name := cluster.upstream.weighted.serviceName }
    cluster.upstream.weighted.servicePort.name
  services := [cluster.upstream.weighted]

def getServiceClusters (ord : MapOrder) (d : DAG) : List ServiceCluster :=
  (d.getClusters ord).map serviceClusterOf ++ d.extensionClusters.map (·.upstream)

def getExtensionClusters (d : DAG) : Map String ExtensionCluster :=
  d.extensionClusters.foldl (fun res ec => res.insert ec.name ec) ∅

def getExtensionCluster (d : DAG) (name : String) : Option ExtensionCluster :=
  d.extensionClusters.find? fun ec => ec.name = name

def getSecrets (ord : MapOrder) (d : DAG) : List Secret :=
  (d.listeners.flatMap fun l => l.secureVirtualHosts.flatMap fun svh =>
    svh.secret.toList ++ svh.fallbackCertificate.toList) ++
  (d.getClusters ord).flatMap fun c => c.clientCertificate.toList

/-- `GetVirtualHostRoutes`: the hosts with at least one route. -/
def getVirtualHostRoutes (ord : MapOrder) (d : DAG) : List (VirtualHost × List Route) :=
  (d.listeners.flatMap (·.virtualHosts)).filterMap fun vhost =>
    let routes := ord.values ("GetVirtualHostRoutes " ++ vhost.name) vhost.routes
    if routes = [] then none else some (vhost, routes)

/-- `GetSecureVirtualHostRoutes`: the secure hosts with at least one route. -/
def getSecureVirtualHostRoutes (ord : MapOrder) (d : DAG) : List (SecureVirtualHost × List Route) :=
  (d.listeners.flatMap (·.secureVirtualHosts)).filterMap fun svh =>
    let routes := ord.values ("GetSecureVirtualHostRoutes " ++ svh.name) svh.routes
    if routes = [] then none else some (svh, routes)

/-! ## What a processor leaves alone

A processor reads and writes hosts by name. `Frame H d d'` says that `d'` comes from `d` by
changing statuses and hosts in `H` and nothing else, so the frames of the parts of a run
compose. -/

theorem putVirtualHost_putVirtualHost (d : DAG) (host : String) (v v' : VirtualHost) :
    (d.putVirtualHost host v).putVirtualHost host v' = d.putVirtualHost host v' := by
  simp [putVirtualHost, AList.insert_insert]

/-- `d'` differs from `d` in statuses and in the hosts of `H` only. -/
structure Frame (H : String → Prop) (d d' : DAG) : Prop where
  listeners : d'.listeners = d.listeners
  extensionClusters : d'.extensionClusters = d.extensionClusters
  virtualHosts : ∀ host, ¬ H host → d'.virtualHosts.lookup host = d.virtualHosts.lookup host
  secureVirtualHosts : ∀ host, ¬ H host →
    d'.secureVirtualHosts.lookup host = d.secureVirtualHosts.lookup host

/-- Only statuses differ. -/
def SameHosts (d d' : DAG) : Prop := ∃ statusCache, d' = { d with statusCache }

namespace SameHosts

variable {d d₁ d₂ : DAG}

theorem refl (d : DAG) : SameHosts d d := ⟨d.statusCache, rfl⟩

theorem trans (h₁ : SameHosts d d₁) (h₂ : SameHosts d₁ d₂) : SameHosts d d₂ := by
  obtain ⟨c₁, rfl⟩ := h₁
  obtain ⟨c₂, rfl⟩ := h₂
  exact ⟨c₂, rfl⟩

theorem status (h : SameHosts d d₁) (statusCache : Status.Cache) :
    SameHosts d { d₁ with statusCache } :=
  h.trans ⟨statusCache, rfl⟩

theorem getSecureVirtualHost (h : SameHosts d d₁) (host : String) :
    d₁.getSecureVirtualHost host = d.getSecureVirtualHost host := by
  obtain ⟨c, rfl⟩ := h
  rfl

theorem ensureSecureVirtualHost (h : SameHosts d d₁) (host : String) :
    d₁.ensureSecureVirtualHost host = d.ensureSecureVirtualHost host := by
  rw [DAG.ensureSecureVirtualHost, h.getSecureVirtualHost, DAG.ensureSecureVirtualHost]

theorem frame (h : SameHosts d d₁) (H : String → Prop) : Frame H d d₁ := by
  obtain ⟨c, rfl⟩ := h
  exact ⟨rfl, rfl, fun _ _ => rfl, fun _ _ => rfl⟩

end SameHosts

namespace Frame

variable {H H' : String → Prop} {d d₁ d₂ : DAG}

theorem refl (d : DAG) : Frame H d d := ⟨rfl, rfl, fun _ _ => rfl, fun _ _ => rfl⟩

theorem trans (h₁ : Frame H d d₁) (h₂ : Frame H d₁ d₂) : Frame H d d₂ where
  listeners := h₂.listeners.trans h₁.listeners
  extensionClusters := h₂.extensionClusters.trans h₁.extensionClusters
  virtualHosts host hhost := (h₂.virtualHosts host hhost).trans (h₁.virtualHosts host hhost)
  secureVirtualHosts host hhost :=
    (h₂.secureVirtualHosts host hhost).trans (h₁.secureVirtualHosts host hhost)

/-- A status update changes no host. -/
theorem status (h : Frame H d d₁) (statusCache : Status.Cache) :
    Frame H d { d₁ with statusCache } :=
  ⟨h.listeners, h.extensionClusters, h.virtualHosts, h.secureVirtualHosts⟩

theorem putVirtualHost (h : Frame H d d₁) {host : String} (hhost : H host) (vhost : VirtualHost) :
    Frame H d (d₁.putVirtualHost host vhost) where
  listeners := h.listeners
  extensionClusters := h.extensionClusters
  virtualHosts other hother := by
    rw [DAG.putVirtualHost, Map.lookup_insert_eq, if_neg, h.virtualHosts other hother]
    rintro rfl
    exact hother hhost
  secureVirtualHosts := h.secureVirtualHosts

theorem putSecureVirtualHost (h : Frame H d d₁) {host : String} (hhost : H host)
    (svh : SecureVirtualHost) : Frame H d (d₁.putSecureVirtualHost host svh) where
  listeners := h.listeners
  extensionClusters := h.extensionClusters
  virtualHosts := h.virtualHosts
  secureVirtualHosts other hother := by
    rw [DAG.putSecureVirtualHost, Map.lookup_insert_eq, if_neg, h.secureVirtualHosts other hother]
    rintro rfl
    exact hother hhost

end Frame

end DAG

end Sesame.Dag
