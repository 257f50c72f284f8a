/-
# Concurrent runs of the endpoints translator

A DAG change and an Endpoints event each take several steps, and each step holds
one of the two mutexes. Changes are serialised among themselves and so are
events, so a state has at most one call of each kind in progress. A run is any
interleaving of their steps.

The entries equal the from-scratch result in every quiet state as long as no event
merges a batch while a change is in progress that the batch was computed for, or after
a change that it was computed before.
-/

import Sesame.Lib.Transition
import Sesame.XdsCache.Endpoints

namespace Sesame.XdsCache

open List
open Lib Api Dag

/-! ## Steps -/

/-- How far an `OnChange` call has come. -/
inductive ChangeCall
  | idle
  | clustersSet
  | recalculated (entries : Assignments)
  deriving DecidableEq

/-- How far an Endpoints event has come. A batch keeps the number of DAGs that
had been accepted when it was computed, as a history variable. -/
inductive EventCall
  | idle
  | updated
  | recalculated (batch : Assignments) (epoch : Nat)
  deriving DecidableEq

/-- The translator with its calls in progress. `accepted` and `epoch` are history
variables: the clusters of the last `SetClusters` that succeeded, and how many
succeeded so far. -/
structure World where
  cache : EndpointsCache := {}
  entries : Assignments := ∅
  change : ChangeCall := .idle
  event : EventCall := .idle
  accepted : List ServiceCluster := []
  epoch : Nat := 0

/-- The atomic steps. A call starts with its first step; `eventStart` ends at once
when no service cluster is affected. -/
inductive Step
  | changeStart (ord : MapOrder) (root : DAG)
  | changeRecalculate
  | changeAssign
  | eventStart (e : EndpointsEvent)
  | eventRecalculate
  | eventMerge

namespace World

/-- `OnChange` up to and including `SetClusters`, which logs an error and goes on. -/
def setClusters (lib : Stdlib) (w : World) (clusters : List ServiceCluster) : World :=
  match w.cache.setClusters lib clusters with
  | .error _ => { w with change := .clustersSet }
  | .ok cache =>
    { w with cache, change := .clustersSet, accepted := clusters, epoch := w.epoch + 1 }

/-- `OnAdd`, `OnUpdate` and `OnDelete` up to and including the cache operation. -/
def startEvent (w : World) (e : EndpointsEvent) : World :=
  match e.op with
  | none => w
  | some op =>
    match w.cache.apply op with
    | (true, cache) => { w with cache, event := .updated }
    | (false, cache) => { w with cache }

def step (lib : Stdlib) (w : World) : Step → Option World
  | .changeStart ord root =>
    if w.change = .idle then some (w.setClusters lib (clustersOf ord root)) else none
  | .changeRecalculate =>
    if w.change = .clustersSet then
      let (entries, cache) := w.cache.recalculate
      some { w with cache, change := .recalculated entries }
    else none
  | .changeAssign =>
    match w.change with
    | .recalculated entries =>
      some { w with
        entries := if equal w.entries entries then w.entries else entries
        change := .idle }
    | _ => none
  | .eventStart e => if w.event = .idle then some (w.startEvent e) else none
  | .eventRecalculate =>
    if w.event = .updated then
      let (batch, cache) := w.cache.recalculate
      some { w with cache, event := .recalculated batch w.epoch }
    else none
  | .eventMerge =>
    match w.event with
    | .recalculated batch _ =>
      some { w with entries := w.entries.merge batch, event := .idle }
    | _ => none

/-- No call is in progress. -/
def Quiet (w : World) : Prop := w.change = .idle ∧ w.event = .idle
  deriving Decidable

end World

/-- `NewEndpointsTranslator` and its calls. -/
def translator (lib : Stdlib) : Machine World Step where
  init := {}
  step := World.step lib

/-! ## The from-scratch result -/

/-- The assignment that a fresh computation gives a name: the one of the cluster
with that name, rebalanced, and none if there is no such cluster. -/
def fromScratch (endpoints : Map NamespacedName Endpoints) (clusters : List ServiceCluster)
    (k : String) : Option ClusterLoadAssignment :=
  (clusters.find? fun c => c.clusterName = k).map fun c => loadAssignment endpoints c.rebalance

namespace World

/-- The from-scratch result of a state. -/
def expected (w : World) (k : String) : Option ClusterLoadAssignment :=
  fromScratch w.cache.endpoints w.accepted k

/-- The entries are the from-scratch result, under every key. -/
def Current (w : World) : Prop := ∀ k, w.entries.lookup k = w.expected k

end World

/-- A merge of the batch of `call` meets the order of changes: the batch is empty,
or it belongs to the last accepted DAG exactly when no change is in progress. -/
def BatchInOrder (w : World) : EventCall → Prop
  | .recalculated batch epoch => batch.entries = [] ∨ (w.change = .idle ↔ epoch = w.epoch)
  | _ => True

instance (w : World) (call : EventCall) : Decidable (BatchInOrder w call) := by
  unfold BatchInOrder
  split <;> infer_instance

/-- The condition on a step: a merge meets the order of changes. -/
def MergesInOrder (w : World) : Step → Prop
  | .eventMerge => BatchInOrder w w.event
  | _ => True

instance (w : World) (i : Step) : Decidable (MergesInOrder w i) := by
  unfold MergesInOrder
  split <;> infer_instance

/-! ## The invariant -/

namespace World

/-- A name with a cluster in the stale list. -/
def StaleName (w : World) (k : String) : Prop := ∃ c ∈ w.cache.stale, c.clusterName = k

/-- The batch of an event in progress, if it was computed from the last accepted
DAG. -/
def freshBatch (w : World) (k : String) : Option ClusterLoadAssignment :=
  match w.event with
  | .recalculated batch epoch => if epoch = w.epoch then batch.lookup k else none
  | _ => none

/-- What the entries will be once the change in progress is over, as far as it is
known yet. -/
def base (w : World) (k : String) : Option ClusterLoadAssignment :=
  match w.change with
  | .idle => w.entries.lookup k
  | .clustersSet => none
  | .recalculated entries => entries.lookup k

/-- The clusters in the cache are those of the last accepted DAG. -/
structure Indexed (w : World) : Prop where
  nodup : (w.accepted.map (·.clusterName)).Nodup
  stale : ∀ c ∈ w.cache.stale, ∃ a ∈ w.accepted, c = a.rebalance
  index : ∀ c n, c ∈ (w.cache.services.lookup n).getD [] ↔
    ∃ a ∈ w.accepted, c = a.rebalance ∧ n ∈ a.services.map serviceNameOf

/-- The invariant of ordered runs: a name that is not stale has its from-scratch
value in the fresh batch or else in the base. -/
structure Covered (w : World) : Prop extends Indexed w where
  epoch : ∀ batch e, w.event = .recalculated batch e → e ≤ w.epoch
  pending : w.cache.stale ≠ [] → w.change = .clustersSet ∨ w.event = .updated
  batch : ∀ k v, w.freshBatch k = some v → w.expected k = some v
  covered : ∀ k, ¬ w.StaleName k → (w.freshBatch k).or (w.base k) = w.expected k

end World

/-! ## What single operations do -/

variable {endpoints : Map NamespacedName Endpoints}

section Operations

variable {w : World}

/-- With unique names, the expected value is that of any cluster of the name. -/
theorem expected_of_mem (hnodup : (w.accepted.map (·.clusterName)).Nodup)
    {a : ServiceCluster} (ha : a ∈ w.accepted) :
    w.expected a.clusterName = some (loadAssignment w.cache.endpoints a.rebalance) := by
  have hfind : w.accepted.find? (fun c => c.clusterName = a.clusterName) = some a := by
    cases hfound : w.accepted.find? fun c => c.clusterName = a.clusterName with
    | none => exact False.elim (by simpa using find?_eq_none.mp hfound a ha)
    | some b =>
      have hb := mem_of_find?_eq_some hfound
      have hname : b.clusterName = a.clusterName := by
        simpa using find?_some hfound
      rw [inj_on_of_nodup_map hnodup hb ha hname]
  simp [World.expected, fromScratch, hfind]

/-- Recalculation gives a stale name its expected value. -/
theorem lookup_recalculate_of_stale (h : w.Indexed) {k : String} (hstale : w.StaleName k) :
    w.cache.recalculate.1.lookup k = w.expected k := by
  rw [EndpointsCache.recalculate, lookup_recalculateStale]
  obtain ⟨c, hc, rfl⟩ := hstale
  cases hfound : w.cache.stale.find? fun c' => c'.clusterName = c.clusterName with
  | none => exact False.elim (by simpa using find?_eq_none.mp hfound c hc)
  | some c' =>
    have hname : c'.clusterName = c.clusterName := by simpa using find?_some hfound
    obtain ⟨a, ha, rfl⟩ := h.stale c' (mem_of_find?_eq_some hfound)
    rw [ServiceCluster.rebalance_clusterName] at hname
    simp [← hname, expected_of_mem h.nodup ha]

/-- Recalculation gives a name that is not stale no value. -/
theorem lookup_recalculate_of_not_stale {k : String} (hstale : ¬ w.StaleName k) :
    w.cache.recalculate.1.lookup k = none := by
  rw [EndpointsCache.recalculate, lookup_recalculateStale]
  have hnone : w.cache.stale.find? (fun c => c.clusterName = k) = none := by
    rw [find?_eq_none]
    intro c hc
    simpa using fun hname => hstale ⟨c, hc, hname⟩
  simp [hnone]

/-- The load assignment of a cluster only depends on the endpoints of its services. -/
theorem loadAssignment_congr {endpoints' : Map NamespacedName Endpoints} {c : ServiceCluster}
    (h : ∀ n ∈ c.services.map serviceNameOf, endpoints'.lookup n = endpoints.lookup n) :
    loadAssignment endpoints' c = loadAssignment endpoints c := by
  have hlocality : ∀ w ∈ c.services, localityOf endpoints' w = localityOf endpoints w := by
    intro w hw
    simp only [localityOf, h (serviceNameOf w) (mem_map_of_mem hw)]
  simp only [loadAssignment, filterMap_congr hlocality]

end Operations

/-! ## What each step preserves -/

section Steps

variable {lib : Stdlib} {w : World}

theorem covered_init : ({} : World).Covered where
  nodup := by simp
  stale := by simp
  index := by simp
  epoch := by simp
  pending := by simp
  batch := by simp [World.freshBatch]
  covered := by simp [World.freshBatch, World.base, World.expected, fromScratch]

/-- A DAG that passed the validation of `OnChange` is accepted. -/
theorem setClusters_clustersOf (lib : Stdlib) (w : World) (ord : MapOrder) (root : DAG) :
    ∃ index, reindex lib (clustersOf ord root) ∅ = .ok index ∧
      w.setClusters lib (clustersOf ord root) =
        { w with
          cache := { w.cache with stale := (clustersOf ord root).map (·.rebalance),
                                  services := index }
          change := .clustersSet
          accepted := clustersOf ord root
          epoch := w.epoch + 1 } := by
  obtain ⟨index, hindex⟩ :=
    reindex_ok lib (fun c hc => (mem_dropDuplicates hc).1 : ∀ c ∈ clustersOf ord root, _) ∅
  exact ⟨index, hindex, by simp [World.setClusters, EndpointsCache.setClusters, hindex]⟩

theorem covered_changeStart (h : w.Covered) (ord : MapOrder) (root : DAG) :
    (w.setClusters lib (clustersOf ord root)).Covered := by
  obtain ⟨index, hindex, heq⟩ := setClusters_clustersOf lib w ord root
  rw [heq]
  have hbatch : ∀ k, World.freshBatch
      { w with
        cache := { w.cache with stale := (clustersOf ord root).map (·.rebalance),
                                services := index }
        change := .clustersSet
        accepted := clustersOf ord root
        epoch := w.epoch + 1 } k = none := by
    intro k
    cases hevent : w.event with
    | idle => simp [World.freshBatch]
    | updated => simp [World.freshBatch]
    | recalculated batch e =>
      have hle := h.epoch batch e hevent
      have hne : e ≠ w.epoch + 1 := by omega
      simp [World.freshBatch, hne]
  refine ⟨⟨nodup_names_dropDuplicates _ _, ?_, ?_⟩, ?_, ?_, ?_, ?_⟩
  · intro c hc
    obtain ⟨a, ha, rfl⟩ := mem_map.mp hc
    exact ⟨a, ha, rfl⟩
  · intro c n
    simpa using mem_reindex hindex c n
  · intro batch e hevent
    exact Nat.le_succ_of_le (h.epoch batch e hevent)
  · intro _
    exact Or.inl rfl
  · intro k v hv
    simp [hbatch] at hv
  · intro k hstale
    have hnone : fromScratch w.cache.endpoints (clustersOf ord root) k = none := by
      rw [fromScratch, Option.map_eq_none_iff, find?_eq_none]
      intro a ha
      simpa using fun hname =>
        hstale ⟨a.rebalance, mem_map_of_mem ha, by simpa using hname⟩
    simp [hbatch, World.base, World.expected, hnone]

theorem covered_changeRecalculate (h : w.Covered) (hchange : w.change = .clustersSet) :
    World.Covered
      { w with cache := w.cache.recalculate.2,
               change := .recalculated w.cache.recalculate.1 } := by
  refine ⟨⟨h.nodup, ?_, h.index⟩, h.epoch, ?_, h.batch, ?_⟩
  · simp [EndpointsCache.recalculate]
  · simp [EndpointsCache.recalculate]
  · intro k _
    show (w.freshBatch k).or (w.cache.recalculate.1.lookup k) = w.expected k
    by_cases hstale : w.StaleName k
    · rw [lookup_recalculate_of_stale h.toIndexed hstale]
      cases hfresh : w.freshBatch k with
      | none => rfl
      | some v => exact (h.batch k v hfresh).symm
    · rw [lookup_recalculate_of_not_stale hstale]
      simpa [World.base, hchange] using h.covered k hstale

theorem covered_changeAssign (h : w.Covered) {entries : Assignments}
    (hchange : w.change = .recalculated entries) :
    World.Covered
      { w with entries := if equal w.entries entries then w.entries else entries,
               change := .idle } := by
  have hentries : ∀ k, (if equal w.entries entries then w.entries else entries).lookup k =
      entries.lookup k := by
    intro k
    split
    · next heq => exact same_of_equal heq k
    · rfl
  refine ⟨⟨h.nodup, h.stale, h.index⟩, h.epoch, ?_, h.batch, ?_⟩
  · intro hstale
    simpa [hchange] using h.pending hstale
  · intro k hstale
    have hcovered := h.covered k hstale
    rw [World.base, hchange] at hcovered
    show (w.freshBatch k).or
      ((if equal w.entries entries then w.entries else entries).lookup k) = w.expected k
    rw [hentries, hcovered]

theorem covered_eventRecalculate (h : w.Covered) (hevent : w.event = .updated) :
    World.Covered
      { w with cache := w.cache.recalculate.2,
               event := .recalculated w.cache.recalculate.1 w.epoch } := by
  refine ⟨⟨h.nodup, ?_, h.index⟩, ?_, ?_, ?_, ?_⟩
  · simp [EndpointsCache.recalculate]
  · rintro batch e heq
    cases heq
    exact le_rfl
  · simp [EndpointsCache.recalculate]
  · intro k v hv
    simp only [World.freshBatch, if_true] at hv
    by_cases hstale : w.StaleName k
    · rw [lookup_recalculate_of_stale h.toIndexed hstale] at hv
      exact hv
    · rw [lookup_recalculate_of_not_stale hstale] at hv
      cases hv
  · intro k _
    show (if w.epoch = w.epoch then w.cache.recalculate.1.lookup k else none).or (w.base k) =
      w.expected k
    rw [if_pos rfl]
    by_cases hstale : w.StaleName k
    · obtain ⟨c, hc, rfl⟩ := hstale
      obtain ⟨a, ha, hca⟩ := h.stale c hc
      have hsome := expected_of_mem h.nodup ha
      have hname : a.clusterName = c.clusterName := by simp [hca]
      rw [lookup_recalculate_of_stale h.toIndexed ⟨c, hc, rfl⟩, ← hname, hsome]
      rfl
    · rw [lookup_recalculate_of_not_stale hstale]
      simpa [World.freshBatch, hevent] using h.covered k hstale

theorem covered_eventMerge (h : w.Covered) {batch : Assignments} {e : Nat}
    (hevent : w.event = .recalculated batch e)
    (horder : batch.entries = [] ∨ (w.change = .idle ↔ e = w.epoch)) :
    World.Covered { w with entries := w.entries.merge batch, event := .idle } := by
  refine ⟨⟨h.nodup, h.stale, h.index⟩, ?_, ?_, ?_, ?_⟩
  · simp
  · intro hstale
    simpa [hevent] using h.pending hstale
  · simp [World.freshBatch]
  · intro k hstale
    have hcovered := h.covered k hstale
    rw [World.freshBatch, hevent] at hcovered
    show (none : Option ClusterLoadAssignment).or _ = w.expected k
    rw [← hcovered, Option.none_or]
    rcases horder with hempty | horder
    · have hnone : batch.lookup k = none := by
        rw [AList.lookup_eq_none]
        simp [AList.mem_keys, AList.keys, hempty]
      cases hchange : w.change <;> simp [World.base, hchange, hnone]
    · cases hchange : w.change with
      | idle => simp [World.base, hchange, horder.mp hchange]
      | clustersSet =>
        have hne : e ≠ w.epoch := fun he => by simp [horder.mpr he] at hchange
        simp [World.base, hchange, hne]
      | recalculated entries =>
        have hne : e ≠ w.epoch := fun he => by simp [horder.mpr he] at hchange
        simp [World.base, hchange, hne]

/-- An operation leaves the expected value of every name that it does not make
stale. -/
theorem expected_apply (h : w.Indexed) {op : EndpointOp}
    (hendpoints : ∀ n, n ≠ op.target → endpoints.lookup n = w.cache.endpoints.lookup n)
    {k : String} (hstale : ¬ ∃ c ∈ (w.cache.services.lookup op.target).getD [], c.clusterName = k) :
    fromScratch endpoints w.accepted k = w.expected k := by
  unfold World.expected fromScratch
  cases hfound : w.accepted.find? fun c => c.clusterName = k with
  | none => rfl
  | some a =>
    have ha := mem_of_find?_eq_some hfound
    have hname : a.clusterName = k := by simpa using find?_some hfound
    have hunused : op.target ∉ a.services.map serviceNameOf := fun hmem =>
      hstale ⟨a.rebalance, (h.index _ _).mpr ⟨a, ha, rfl, hmem⟩, by simpa using hname⟩
    simp only [Option.map_some, Option.some.injEq]
    apply loadAssignment_congr
    intro n hn
    rw [map_serviceNameOf_rebalance] at hn
    exact hendpoints n fun heq => hunused (heq ▸ hn)

theorem covered_eventStart (h : w.Covered) (hevent : w.event = .idle) (e : EndpointsEvent) :
    (w.startEvent e).Covered := by
  cases hop : e.op with
  | none => simpa [World.startEvent, hop] using h
  | some op =>
    obtain ⟨endpoints, hendpoints, hcache⟩ := w.cache.apply_eq op
    have hexpected := fun k => expected_apply (k := k) h.toIndexed hendpoints
    have hcovered : ∀ k, ¬ w.StaleName k → w.base k = w.expected k := by
      intro k hstale
      simpa [World.freshBatch, hevent] using h.covered k hstale
    rw [World.startEvent, hop]
    simp only [hcache]
    by_cases haffected : (w.cache.services.lookup op.target).getD [] = []
    · simp only [haffected, ne_eq, not_true_eq_false, decide_false, append_nil]
      refine ⟨⟨h.nodup, h.stale, h.index⟩, h.epoch, h.pending, ?_, ?_⟩
      · simp [World.freshBatch, hevent]
      · intro k hstale
        simp only [World.freshBatch, hevent, Option.none_or]
        exact (hcovered k hstale).trans (hexpected k (by simp [haffected])).symm
    · simp only [haffected, ne_eq, not_false_eq_true, decide_true]
      refine ⟨⟨h.nodup, ?_, h.index⟩, ?_, ?_, ?_, ?_⟩
      · intro c hc
        rcases mem_append.mp hc with hc | hc
        · exact h.stale c hc
        · obtain ⟨a, ha, hca, _⟩ := (h.index c _).mp hc
          exact ⟨a, ha, hca⟩
      · simp
      · intro _
        exact Or.inr rfl
      · simp [World.freshBatch]
      · intro k hstale
        simp only [World.freshBatch, Option.none_or]
        refine (hcovered k fun ⟨c, hc, hname⟩ => hstale ⟨c, ?_, hname⟩).trans
          (hexpected k fun ⟨c, hc, hname⟩ => hstale ⟨c, ?_, hname⟩).symm
        · exact mem_append_left _ hc
        · exact mem_append_right _ hc

end Steps

/-! ## Whole runs -/

/-- Every step that merges in order keeps the invariant. -/
theorem covered_step {lib : Stdlib} {w w' : World} {i : Step} (h : w.Covered)
    (horder : MergesInOrder w i) (hstep : w.step lib i = some w') : w'.Covered := by
  cases i with
  | changeStart ord root =>
    simp only [World.step, Option.ite_none_right_eq_some, Option.some.injEq] at hstep
    obtain ⟨_, rfl⟩ := hstep
    exact covered_changeStart h ord root
  | changeRecalculate =>
    simp only [World.step, Option.ite_none_right_eq_some, Option.some.injEq] at hstep
    obtain ⟨hchange, rfl⟩ := hstep
    exact covered_changeRecalculate h hchange
  | changeAssign =>
    cases hchange : w.change with
    | idle => simp [World.step, hchange] at hstep
    | clustersSet => simp [World.step, hchange] at hstep
    | recalculated entries =>
      simp only [World.step, hchange, Option.some.injEq] at hstep
      exact hstep ▸ covered_changeAssign h hchange
  | eventStart e =>
    simp only [World.step, Option.ite_none_right_eq_some, Option.some.injEq] at hstep
    obtain ⟨hevent, rfl⟩ := hstep
    exact covered_eventStart h hevent e
  | eventRecalculate =>
    simp only [World.step, Option.ite_none_right_eq_some, Option.some.injEq] at hstep
    obtain ⟨hevent, rfl⟩ := hstep
    exact covered_eventRecalculate h hevent
  | eventMerge =>
    cases hevent : w.event with
    | idle => simp [World.step, hevent] at hstep
    | updated => simp [World.step, hevent] at hstep
    | recalculated batch e =>
      simp only [World.step, hevent, Option.some.injEq] at hstep
      simp only [MergesInOrder, hevent, BatchInOrder] at horder
      exact hstep ▸ covered_eventMerge h hevent horder

/-- In a quiet state the invariant says that the entries are current. -/
theorem World.Covered.current {w : World} (h : w.Covered) (hquiet : w.Quiet) : w.Current := by
  obtain ⟨hchange, hevent⟩ := hquiet
  have hstale : w.cache.stale = [] := by
    by_contra hne
    simpa [hchange, hevent] using h.pending hne
  intro k
  have hcovered := h.covered k (by simp [World.StaleName, hstale])
  simpa [World.freshBatch, hevent, World.base, hchange, World.expected] using hcovered

/-- Along every interleaving whose merges are in order, the entries equal the
from-scratch result whenever no call is in progress. -/
theorem current_of_merges_in_order (lib : Stdlib) {w : World}
    (hreach : (translator lib).ReachableBy MergesInOrder w) (hquiet : w.Quiet) : w.Current := by
  have hcovered : w.Covered := hreach.invariant covered_init covered_step
  exact hcovered.current hquiet

/-- A DAG with one cluster, of the service `n/s`. -/
def oneClusterDAG : DAG :=
  let service : WeightedService :=
    { weight := 1, serviceName := "s", serviceNamespace := "n", servicePort := { port := 80 } }
  let upstream : ServiceCluster := { clusterName := "c", services := [service] }
  { extensionClusters := [{ name := "x", upstream, protocol := .h2 }] }

/-- The addition of an Endpoints object for the service `n/s`. -/
def oneEndpointAdded : EndpointsEvent :=
  let subset : EndpointSubset := { addresses := [{ ip := "1" }], ports := [{ port := 80 }] }
  .onAdd (.endpoints 0 { ns := "n", name := "s", subsets := [subset] })

theorem current_after_ordered_run :
    ∃ w, ((translator .plain).ReachableBy MergesInOrder w ∧ w.Quiet ∧
      w.entries.lookup "c" ≠ none) ∧ w.Current := by
  have hrun : ∃ w, (translator .plain).ReachableBy MergesInOrder w ∧ w.Quiet ∧
      w.entries.lookup "c" ≠ none :=
    Machine.exists_reachableBy
      [.changeStart .storage oneClusterDAG, .changeRecalculate, .changeAssign,
        .eventStart oneEndpointAdded, .eventRecalculate, .eventMerge] (by decide)
  obtain ⟨w, hreach, hquiet, hentry⟩ := hrun
  exact ⟨w, ⟨hreach, hquiet, hentry⟩, current_of_merges_in_order .plain hreach hquiet⟩

/-- Without the order a run can lose an assignment: the event drains the stale list
between `SetClusters` and the recalculation of the change, which then finds nothing
to recalculate and replaces the merged entries by none. -/
theorem entries_lost_between_steps :
    ∃ w, (translator .plain).Reachable w ∧ w.Quiet ∧ ¬ w.Current := by
  have hrun : ∃ w, (translator .plain).Reachable w ∧ w.Quiet ∧
      w.entries.lookup "c" ≠ w.expected "c" :=
    Machine.exists_reachableBy
      [.changeStart .storage oneClusterDAG, .eventStart oneEndpointAdded, .eventRecalculate,
        .eventMerge, .changeRecalculate, .changeAssign] (by decide)
  obtain ⟨w, hreach, hquiet, hlost⟩ := hrun
  exact ⟨w, hreach, hquiet, fun hcurrent => hlost (hcurrent "c")⟩

end Sesame.XdsCache
