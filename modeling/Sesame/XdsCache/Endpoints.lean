/-
# The endpoints translator

Endpoints objects and the service clusters of the last DAG become one load
assignment for every cluster. `EndpointsCache` keeps the clusters that need
recalculation in its stale list, which both a DAG change and an Endpoints event
fill and drain.
-/

import Mathlib.Data.List.Sort
import Sesame.Dag.Graph

namespace Sesame.XdsCache

open List
open Lib Api Dag

variable {clusters svcs : List ServiceCluster}

/-! ## Load assignments -/

/-- `envoy_core_v3.SocketAddress`, as `SocketAddress` builds it. -/
structure SocketAddress where
  address : String
  portValue : UInt32
  ipv4Compat : Bool := false
  deriving DecidableEq

def socketAddress (address : String) (port : Int32) : SocketAddress where
  address := address
  portValue := port.toUInt32
  ipv4Compat := address = "::"

/-- `LocalityEndpoints`, with its endpoints by their addresses. -/
structure LocalityEndpoints where
  lbEndpoints : List SocketAddress
  loadBalancingWeight : Option UInt32
  deriving DecidableEq

structure ClusterLoadAssignment where
  clusterName : String
  endpoints : List LocalityEndpoints
  deriving DecidableEq

def uint32OrNil (val : UInt32) : Option UInt32 := if val = 0 then none else some val

/-- Whether an endpoint port serves a service port. -/
def portMatches (port : ServicePort) (p : EndpointPort) : Bool :=
  !(port.protocol ≠ p.protocol && p.protocol ≠ .tcp) && !(port.name ≠ "" && port.name ≠ p.name)

/-- The ready addresses of a subset, by increasing IP. -/
def sortedAddresses (s : EndpointSubset) : List EndpointAddress :=
  s.addresses.insertionSort fun a b => a.ip ≤ b.ip

/-- `RecalculateEndpoints`. The result is nil exactly when it is empty. -/
def recalculateEndpoints (port : ServicePort) (ep : Option Endpoints) : List SocketAddress :=
  match ep with
  | none => []
  | some ep =>
    -- A subset without ready addresses contributes nothing.
    ep.subsets.flatMap fun s =>
      (s.ports.filter (portMatches port)).flatMap fun p =>
        (sortedAddresses s).map fun a => socketAddress a.ip p.port

/-- The name of the service a weighted service stands for. -/
def serviceNameOf (w : WeightedService) : NamespacedName where
  ns := w.serviceNamespace
  name := w.serviceName

/-- The endpoints of one service of a cluster, if it has any. -/
def localityOf (endpoints : Map NamespacedName Endpoints) (w : WeightedService) :
    Option LocalityEndpoints :=
  let lb := recalculateEndpoints w.servicePort (endpoints.lookup (serviceNameOf w))
  if lb = [] then none
  else some { lbEndpoints := lb, loadBalancingWeight := uint32OrNil w.weight }

/-- The load assignment that `Recalculate` computes for one cluster. -/
def loadAssignment (endpoints : Map NamespacedName Endpoints) (cluster : ServiceCluster) :
    ClusterLoadAssignment where
  clusterName := cluster.clusterName
  endpoints := cluster.services.filterMap (localityOf endpoints)

/-- The assignments of a translator, by cluster name. -/
abbrev Assignments := Map String ClusterLoadAssignment

/-! ## The endpoints cache -/

structure EndpointsCache where
  stale : List ServiceCluster := []
  services : Map NamespacedName (List ServiceCluster) := ∅
  endpoints : Map NamespacedName Endpoints := ∅

/-- The loop of `Recalculate`: a name that already has an assignment is skipped. -/
def recalculateStale (endpoints : Map NamespacedName Endpoints) :
    List ServiceCluster → Assignments → Assignments
  | [], assignments => assignments
  | cluster :: rest, assignments =>
    match assignments.lookup cluster.clusterName with
    | some _ => recalculateStale endpoints rest assignments
    | none =>
      recalculateStale endpoints rest
        (assignments.insert cluster.clusterName (loadAssignment endpoints cluster))

/-- A stale name gets the assignment of its first stale cluster. -/
theorem lookup_recalculateStale (endpoints : Map NamespacedName Endpoints)
    (stale : List ServiceCluster) (assignments : Assignments) (k : String) :
    (recalculateStale endpoints stale assignments).lookup k =
      (assignments.lookup k).or
        ((stale.find? fun c => c.clusterName = k).map (loadAssignment endpoints)) := by
  induction stale generalizing assignments with
  | nil => simp [recalculateStale]
  | cons cluster rest ih =>
    by_cases hname : cluster.clusterName = k
    · subst hname
      cases hlookup : assignments.lookup cluster.clusterName with
      | some old => simp [recalculateStale, hlookup, ih]
      | none => simp [recalculateStale, hlookup, ih]
    · cases hlookup : assignments.lookup cluster.clusterName with
      | some old => simp [recalculateStale, hlookup, ih, hname]
      | none =>
        simp [recalculateStale, hlookup, ih, hname, Ne.symm hname]

/-- Enter a cluster in the index under each of its services. -/
def indexCluster (cluster : ServiceCluster) (index : Map NamespacedName (List ServiceCluster)) :
    Map NamespacedName (List ServiceCluster) :=
  cluster.services.foldl (fun index s =>
    index.insert (serviceNameOf s) ((index.lookup (serviceNameOf s)).getD [] ++ [cluster])) index

/-- The loop of `SetClusters`: validate, rebalance and index every cluster. -/
def reindex (lib : Stdlib) : List ServiceCluster → Map NamespacedName (List ServiceCluster) →
    Except String (Map NamespacedName (List ServiceCluster))
  | [], index => .ok index
  | cluster :: rest, index =>
    match cluster.validate with
    | .error err =>
      .error ("invalid ServiceCluster " ++ lib.quote cluster.clusterName ++ ": " ++ err)
    | .ok () => reindex lib rest (indexCluster cluster.rebalance index)

/-- What the index holds under a name after a cluster was entered. -/
theorem mem_indexCluster (cluster c : ServiceCluster)
    (index : Map NamespacedName (List ServiceCluster)) (n : NamespacedName) :
    c ∈ ((indexCluster cluster index).lookup n).getD [] ↔
      c ∈ (index.lookup n).getD [] ∨ (c = cluster ∧ n ∈ cluster.services.map serviceNameOf) := by
  unfold indexCluster
  generalize cluster.services = services
  induction services generalizing index with
  | nil => simp
  | cons s rest ih =>
    rw [foldl_cons, ih, Map.lookup_insert_eq]
    by_cases hname : n = serviceNameOf s
    · subst hname
      simp
      tauto
    · simp [hname]

/-- The services of a cluster keep their names when it is rebalanced. -/
@[simp]
theorem map_serviceNameOf_rebalance (c : ServiceCluster) :
    c.rebalance.services.map serviceNameOf = c.services.map serviceNameOf := by
  unfold ServiceCluster.rebalance
  split
  · simp [map_map, Function.comp_def, serviceNameOf]
  · rfl

/-- After `reindex` the index holds, under each name, what it held before and the
rebalanced clusters that have a service of that name. -/
theorem mem_reindex {lib : Stdlib} {index result : Map NamespacedName (List ServiceCluster)}
    (hok : reindex lib clusters index = .ok result) (c : ServiceCluster) (n : NamespacedName) :
    c ∈ (result.lookup n).getD [] ↔
      c ∈ (index.lookup n).getD [] ∨
        ∃ a ∈ clusters, c = a.rebalance ∧ n ∈ a.services.map serviceNameOf := by
  induction clusters generalizing index with
  | nil =>
    obtain rfl : index = result := by simpa [reindex] using hok
    simp
  | cons cluster rest ih =>
    cases hvalid : cluster.validate with
    | error err => simp [reindex, hvalid] at hok
    | ok valid =>
      rw [reindex, hvalid] at hok
      rw [ih hok, mem_indexCluster, map_serviceNameOf_rebalance]
      simp [or_assoc]

/-- Clusters that pass their own validation are always accepted. -/
theorem reindex_ok (lib : Stdlib) (hvalid : ∀ c ∈ clusters, c.validate = .ok ())
    (index : Map NamespacedName (List ServiceCluster)) :
    ∃ result, reindex lib clusters index = .ok result := by
  induction clusters generalizing index with
  | nil => exact ⟨index, rfl⟩
  | cons cluster rest ih =>
    rw [reindex, hvalid cluster mem_cons_self]
    exact ih (fun c hc => hvalid c (mem_cons_of_mem cluster hc)) _

namespace EndpointsCache

def recalculate (c : EndpointsCache) : Assignments × EndpointsCache :=
  (recalculateStale c.endpoints c.stale ∅, { c with stale := [] })

def setClusters (lib : Stdlib) (c : EndpointsCache) (clusters : List ServiceCluster) :
    Except String EndpointsCache :=
  match reindex lib clusters ∅ with
  | .error err => .error err
  | .ok index => .ok { c with stale := clusters.map (·.rebalance), services := index }

/-- The clusters that use a service become stale. -/
def markStale (c : EndpointsCache) (name : NamespacedName) : Bool × EndpointsCache :=
  match c.services.lookup name with
  | some (cluster :: rest) => (true, { c with stale := c.stale ++ cluster :: rest })
  | _ => (false, c)

def updateEndpoint (c : EndpointsCache) (ep : Endpoints) : Bool × EndpointsCache :=
  let name := namespacedNameOf ep.toObjectMeta
  { c with endpoints := c.endpoints.insert name ep }.markStale name

def deleteEndpoint (c : EndpointsCache) (ep : Endpoints) : Bool × EndpointsCache :=
  let name := namespacedNameOf ep.toObjectMeta
  { c with endpoints := c.endpoints.erase name }.markStale name

end EndpointsCache

/-! ## The translator -/

/-- The loop at the start of `OnChange`: invalid clusters and later clusters of a
name already taken are dropped. -/
def dropDuplicates : List ServiceCluster → List String → List ServiceCluster
  | [], _ => []
  | svc :: rest, names =>
    match svc.validate with
    | .error _ => dropDuplicates rest names
    | .ok () =>
      if svc.clusterName ∈ names then dropDuplicates rest names
      else svc :: dropDuplicates rest (svc.clusterName :: names)

/-- A cluster that `OnChange` keeps is valid and has a name not taken before. -/
theorem mem_dropDuplicates {names : List String} {c : ServiceCluster}
    (hc : c ∈ dropDuplicates svcs names) : c.validate = .ok () ∧ c.clusterName ∉ names := by
  induction svcs generalizing names with
  | nil => simp [dropDuplicates] at hc
  | cons svc rest ih =>
    cases hvalid : svc.validate with
    | error err => exact ih (by simpa [dropDuplicates, hvalid] using hc)
    | ok valid =>
      by_cases hname : svc.clusterName ∈ names
      · exact ih (by simpa [dropDuplicates, hvalid, hname] using hc)
      rw [dropDuplicates, hvalid] at hc
      simp only [hname, if_false, mem_cons] at hc
      rcases hc with rfl | hc
      · exact ⟨hvalid, hname⟩
      · obtain ⟨hok, hnotin⟩ := ih hc
        exact ⟨hok, fun hmem => hnotin (mem_cons_of_mem _ hmem)⟩

/-- The name of a valid cluster is kept, or was taken before. -/
theorem exists_mem_dropDuplicates (names : List String) {c : ServiceCluster} (hc : c ∈ svcs)
    (hvalid : c.validate = .ok ()) :
    c.clusterName ∈ names ∨
      ∃ kept ∈ dropDuplicates svcs names, kept.clusterName = c.clusterName := by
  induction svcs generalizing names with
  | nil => cases hc
  | cons svc rest ih =>
    rcases mem_cons.mp hc with rfl | hrest
    · by_cases hname : c.clusterName ∈ names
      · exact .inl hname
      · exact .inr ⟨c, by simp [dropDuplicates, hvalid, hname], rfl⟩
    · cases hsvc : svc.validate with
      | error err => simpa [dropDuplicates, hsvc] using ih names hrest
      | ok valid =>
        by_cases hname : svc.clusterName ∈ names
        · simpa [dropDuplicates, hsvc, hname] using ih names hrest
        simp only [dropDuplicates, hsvc, hname, if_false]
        rcases ih (svc.clusterName :: names) hrest with htaken | ⟨kept, hkept, hsame⟩
        · rcases mem_cons.mp htaken with hsame | hbefore
          · exact .inr ⟨svc, mem_cons_self, hsame.symm⟩
          · exact .inl hbefore
        · exact .inr ⟨kept, mem_cons_of_mem _ hkept, hsame⟩

theorem nodup_names_dropDuplicates (svcs : List ServiceCluster) (names : List String) :
    ((dropDuplicates svcs names).map (·.clusterName)).Nodup := by
  induction svcs generalizing names with
  | nil => simp [dropDuplicates]
  | cons svc rest ih =>
    cases hvalid : svc.validate with
    | error err => simpa [dropDuplicates, hvalid] using ih names
    | ok valid =>
      by_cases hname : svc.clusterName ∈ names
      · simpa [dropDuplicates, hvalid, hname] using ih names
      · rw [dropDuplicates, hvalid]
        simp only [hname, if_false, map_cons, nodup_cons, mem_map]
        refine ⟨?_, ih _⟩
        rintro ⟨c, hc, heq⟩
        exact (mem_dropDuplicates hc).2 (heq ▸ mem_cons_self)

/-- The clusters that `OnChange` hands to `SetClusters`. -/
def clustersOf (ord : MapOrder) (root : DAG) : List ServiceCluster :=
  dropDuplicates (root.getServiceClusters ord) []

def equal (a b : Assignments) : Bool :=
  a.entries.length = b.entries.length && a.entries.all fun e => b.lookup e.1 = some e.2

theorem same_of_equal {a b : Assignments} (h : equal a b = true) : Map.Same a b := by
  simp only [equal, Bool.and_eq_true, decide_eq_true_eq, all_eq_true] at h
  obtain ⟨hlength, hall⟩ := h
  have hkeys : b.keys.length ≤ a.keys.length := by
    simp [AList.keys, keys, hlength]
  refine Map.same_of_subset hkeys fun k v hv => ?_
  exact hall ⟨k, v⟩ (AList.mem_lookup_iff.mp hv)

/-- An object that an informer delivers. Endpoints come with the address of the
object, which is all that `oldObj == newObj` compares. -/
inductive InformerObject
  | endpoints (address : Nat) (ep : Endpoints)
  | deletedFinalStateUnknown (obj : InformerObject)
  | other
  deriving DecidableEq

inductive EndpointsEvent
  | onAdd (obj : InformerObject)
  | onUpdate (oldObj newObj : InformerObject)
  | onDelete (obj : InformerObject)

/-- The operation on the cache that an event handler starts with. -/
inductive EndpointOp
  | update (ep : Endpoints)
  | delete (ep : Endpoints)

/-- What `OnDelete` does with an object; a tombstone is opened first. -/
def deleteOp : InformerObject → Option EndpointOp
  | .endpoints _ ep => some (.delete ep)
  | .deletedFinalStateUnknown obj => deleteOp obj
  | .other => none

/-- The cache operation of `OnAdd`, `OnUpdate` and `OnDelete`, or none if the
handler returns before it touches the cache. -/
def EndpointsEvent.op : EndpointsEvent → Option EndpointOp
  | .onAdd (.endpoints _ ep) => some (.update ep)
  | .onAdd _ => none
  | .onUpdate (.endpoints oldAddress old) (.endpoints newAddress new) =>
    if oldAddress = newAddress then none
    else if old.subsets = [] ∧ new.subsets = [] then none
    else some (.update new)
  | .onUpdate _ _ => none
  | .onDelete obj => deleteOp obj

/-- Run the operation of an event on the cache. -/
def EndpointsCache.apply (c : EndpointsCache) : EndpointOp → Bool × EndpointsCache
  | .update ep => c.updateEndpoint ep
  | .delete ep => c.deleteEndpoint ep

/-- The service whose endpoints an operation changes. -/
def EndpointOp.target : EndpointOp → NamespacedName
  | .update ep | .delete ep => namespacedNameOf ep.toObjectMeta

namespace EndpointsCache

theorem markStale_eq (c : EndpointsCache) (name : NamespacedName) :
    c.markStale name =
      (decide ((c.services.lookup name).getD [] ≠ []),
        { c with stale := c.stale ++ (c.services.lookup name).getD [] }) := by
  unfold markStale
  split
  · next cluster rest hlookup => simp [hlookup]
  rename_i hlookup
  cases hcase : c.services.lookup name with
  | none => simp
  | some affected =>
    cases affected with
    | nil => simp
    | cons cluster rest => exact absurd hcase (hlookup cluster rest)

/-- What an operation does: the clusters indexed under its target become stale and
only the endpoints of its target change. -/
theorem apply_eq (c : EndpointsCache) (op : EndpointOp) :
    ∃ endpoints, (∀ n, n ≠ op.target → endpoints.lookup n = c.endpoints.lookup n) ∧
      c.apply op =
        (decide ((c.services.lookup op.target).getD [] ≠ []),
          { c with endpoints,
                   stale := c.stale ++ (c.services.lookup op.target).getD [] }) := by
  cases op with
  | update ep =>
    exact ⟨c.endpoints.insert (namespacedNameOf ep.toObjectMeta) ep,
      fun n hn => AList.lookup_insert_ne hn, markStale_eq _ _⟩
  | delete ep =>
    exact ⟨c.endpoints.erase (namespacedNameOf ep.toObjectMeta),
      fun n hn => AList.lookup_erase_ne hn, markStale_eq _ _⟩

end EndpointsCache

end Sesame.XdsCache
