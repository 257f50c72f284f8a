/-
# What the clients of the endpoints translator were told

DAG changes and Endpoints events handled one after another. An xDS client reads
the entries when it is notified, so what it knows is the value the entries had
at the last `Notify`. Handlers skip the notification, and some skip the update
of the cache as well, but nothing a client could see is lost.

The handlers are the whole calls whose steps `EndpointsRuns` interleaves, so the
invariant of its runs carries over.
-/

import Sesame.XdsCache.EndpointsRuns

namespace Sesame.XdsCache

open Lib Api Dag

/-! ## The handlers -/

/-- `EndpointsTranslator`. The history variable `told` is the value of the entries
at the last `Notify`. -/
structure EndpointsTranslator where
  cache : EndpointsCache := {}
  entries : Assignments := ∅
  told : Assignments := ∅

namespace EndpointsTranslator

def notify (e : EndpointsTranslator) : EndpointsTranslator := { e with told := e.entries }

def merge (e : EndpointsTranslator) (entries : Assignments) : EndpointsTranslator :=
  { e with entries := e.entries.merge entries }

/-- `EndpointsTranslator.OnChange`; an error of `SetClusters` is only logged. -/
def onChange (lib : Stdlib) (ord : MapOrder) (e : EndpointsTranslator) (root : DAG) :
    EndpointsTranslator :=
  let cache :=
    match e.cache.setClusters lib (clustersOf ord root) with
    | .error _ => e.cache
    | .ok cache => cache
  let (entries, cache) := cache.recalculate
  let e := { e with cache }
  if equal e.entries entries then e else { e with entries }.notify

/-- `OnAdd`, `OnUpdate` and `OnDelete` from their cache operation on. -/
def handleOp (e : EndpointsTranslator) (op : EndpointOp) : EndpointsTranslator :=
  match e.cache.apply op with
  | (false, cache) => { e with cache }
  | (true, cache) =>
    let (entries, cache) := cache.recalculate
    ({ e with cache }.merge entries).notify

/-- `OnAdd`, `OnUpdate` and `OnDelete`. -/
def onEvent (e : EndpointsTranslator) (event : EndpointsEvent) : EndpointsTranslator :=
  match event.op with
  | none => e
  | some op => e.handleOp op

end EndpointsTranslator

/-! ## Deliveries -/

inductive TranslatorCall
  | onChange (ord : MapOrder) (root : DAG)
  | endpoints (event : EndpointsEvent)

/-- The Endpoints object in a delivered object, with its address. -/
def InformerObject.opened : InformerObject → Option (Nat × Endpoints)
  | .endpoints address ep => some (address, ep)
  | .deletedFinalStateUnknown obj => obj.opened
  | .other => none

/-- The translator and what happened around it: the service clusters of the last
DAG, the Endpoints that exist, and the last object delivered for each name. -/
structure Deliveries where
  translator : EndpointsTranslator := {}
  clusters : List ServiceCluster := []
  existing : Map NamespacedName Endpoints := ∅
  last : Map NamespacedName (Nat × Endpoints) := ∅

namespace Deliveries

def store (d : Deliveries) (address : Nat) (ep : Endpoints) : Deliveries :=
  let name := namespacedNameOf ep.toObjectMeta
  { d with existing := d.existing.insert name ep, last := d.last.insert name (address, ep) }

def drop (d : Deliveries) (address : Nat) (ep : Endpoints) : Deliveries :=
  let name := namespacedNameOf ep.toObjectMeta
  { d with existing := d.existing.erase name, last := d.last.insert name (address, ep) }

/-- What an Endpoints event says about the Endpoints that exist. -/
def observe (d : Deliveries) : EndpointsEvent → Deliveries
  | .onAdd (.endpoints address ep) => d.store address ep
  | .onUpdate _ (.endpoints address ep) => d.store address ep
  | .onDelete obj =>
    match obj.opened with
    | some (address, ep) => d.drop address ep
    | none => d
  | .onAdd _ | .onUpdate _ _ => d

def handle (lib : Stdlib) (d : Deliveries) : TranslatorCall → Deliveries
  | .onChange ord root =>
    { d with translator := d.translator.onChange lib ord root, clusters := clustersOf ord root }
  | .endpoints event => { d.observe event with translator := d.translator.onEvent event }

/-- What informers guarantee of an update of an Endpoints object: the old object is
the last one delivered for its name, and an update that delivers the very same
object again leaves it as it is. -/
def InOrder (d : Deliveries) : TranslatorCall → Prop
  | .endpoints (.onUpdate oldObj (.endpoints address new)) =>
    ∃ old ∈ d.last.lookup (namespacedNameOf new.toObjectMeta),
      oldObj = .endpoints old.1 old.2 ∧
        (old.1 = address →
          old.2 = new ∧ d.existing.lookup (namespacedNameOf new.toObjectMeta) ≠ none)
  | _ => True

instance (d : Deliveries) (call : TranslatorCall) : Decidable (d.InOrder call) := by
  unfold InOrder
  split <;> infer_instance

end Deliveries

def deliveries (lib : Stdlib) : Machine Deliveries TranslatorCall where
  init := {}
  step d call := some (d.handle lib call)

/-- The full recalculation: every cluster stale, from no assignments. -/
def recalculation (endpoints : Map NamespacedName Endpoints) (clusters : List ServiceCluster) :
    Assignments :=
  recalculateStale endpoints (clusters.map (·.rebalance)) ∅

theorem lookup_recalculation (endpoints : Map NamespacedName Endpoints)
    (clusters : List ServiceCluster) (k : String) :
    (recalculation endpoints clusters).lookup k = fromScratch endpoints clusters k := by
  rw [recalculation, lookup_recalculateStale, fromScratch, List.find?_map]
  simp [Function.comp_def]

/-! ## The translator against its cache -/

namespace EndpointsTranslator

variable {clusters : List ServiceCluster} {e : EndpointsTranslator}

/-- The entries are the from-scratch result for the clusters and the Endpoints in
the cache, nothing is stale, and the clients were told the entries. -/
structure Settled (e : EndpointsTranslator) (clusters : List ServiceCluster) : Prop where
  covered : ∃ epoch, World.Covered
    { cache := e.cache, entries := e.entries, accepted := clusters, epoch := epoch }
  told : e.told = e.entries

theorem Settled.lookup_told (h : e.Settled clusters) (k : String) :
    e.told.lookup k = fromScratch e.cache.endpoints clusters k := by
  obtain ⟨epoch, hcovered⟩ := h.covered
  rw [h.told]
  exact hcovered.current ⟨rfl, rfl⟩ k

theorem settled_init : ({} : EndpointsTranslator).Settled [] := ⟨⟨0, covered_init⟩, rfl⟩

theorem Settled.onChange {lib : Stdlib} (h : e.Settled clusters) (ord : MapOrder) (root : DAG) :
    (e.onChange lib ord root).Settled (clustersOf ord root) := by
  obtain ⟨epoch, hcovered⟩ := h.covered
  have hstart := @covered_changeStart lib _ hcovered ord root
  obtain ⟨index, hindex, hset⟩ := setClusters_clustersOf lib _ ord root
  rw [hset] at hstart
  have hassign := covered_changeAssign (covered_changeRecalculate hstart rfl) rfl
  simp only [EndpointsTranslator.onChange, EndpointsCache.setClusters, hindex]
  constructor
  · refine ⟨epoch + 1, ?_⟩
    split
    · next hequal => simpa [hequal] using hassign
    · next hequal => simpa [hequal, notify] using hassign
  · split
    · exact h.told
    · rfl

theorem Settled.handleOp (h : e.Settled clusters) {event : EndpointsEvent} {op : EndpointOp}
    (hop : event.op = some op) : (e.handleOp op).Settled clusters := by
  obtain ⟨epoch, hcovered⟩ := h.covered
  have hstart := covered_eventStart hcovered rfl event
  simp only [World.startEvent, hop] at hstart
  unfold EndpointsTranslator.handleOp
  split
  · next cache hcache =>
    rw [hcache] at hstart
    exact ⟨⟨epoch, hstart⟩, h.told⟩
  · next cache hcache =>
    rw [hcache] at hstart
    have hmerge := covered_eventMerge (covered_eventRecalculate hstart rfl) rfl
      (.inr ⟨fun _ => rfl, fun _ => rfl⟩)
    exact ⟨⟨epoch, hmerge⟩, rfl⟩

end EndpointsTranslator

/-! ## The cache against the Endpoints that exist -/

/-- Endpoints that no service port can tell apart. -/
def Interchangeable (a b : Option Endpoints) : Prop :=
  ∀ port, recalculateEndpoints port a = recalculateEndpoints port b

/-- Interchangeable Endpoints give one load assignment. -/
theorem fromScratch_congr {a b : Map NamespacedName Endpoints}
    (h : ∀ n, Interchangeable (a.lookup n) (b.lookup n)) (clusters : List ServiceCluster)
    (k : String) : fromScratch a clusters k = fromScratch b clusters k := by
  have hlocality : localityOf a = localityOf b := by
    funext w
    simp only [localityOf, h (serviceNameOf w) w.servicePort]
  have hassignment : loadAssignment a = loadAssignment b := by
    funext c
    simp only [loadAssignment, hlocality]
  simp only [fromScratch, hassignment]

namespace Deliveries

/-- The invariant of the deliveries: the cache has every existing Endpoints object,
up to objects without subsets, and an object that exists is the last one
delivered. -/
structure Tracked (d : Deliveries) : Prop where
  settled : d.translator.Settled d.clusters
  cached : ∀ n, Interchangeable (d.translator.cache.endpoints.lookup n) (d.existing.lookup n)
  last : ∀ n ep, d.existing.lookup n = some ep → ∃ address, d.last.lookup n = some (address, ep)

theorem tracked_init : ({} : Deliveries).Tracked where
  settled := EndpointsTranslator.settled_init
  cached := fun _ _ => rfl
  last := by simp

/-- The Endpoints in the cache after an operation. -/
theorem endpoints_handleOp (e : EndpointsTranslator) (op : EndpointOp) :
    (e.handleOp op).cache.endpoints =
      match op with
      | .update ep => e.cache.endpoints.insert (namespacedNameOf ep.toObjectMeta) ep
      | .delete ep => e.cache.endpoints.erase (namespacedNameOf ep.toObjectMeta) := by
  have happly : (e.handleOp op).cache.endpoints = (e.cache.apply op).2.endpoints := by
    unfold EndpointsTranslator.handleOp
    split
    · next cache hcache => rw [hcache]
    · next cache hcache => rw [hcache]; rfl
  rw [happly]
  cases op with
  | update ep =>
    simp [EndpointsCache.apply, EndpointsCache.updateEndpoint, EndpointsCache.markStale_eq]
  | delete ep =>
    simp [EndpointsCache.apply, EndpointsCache.deleteEndpoint, EndpointsCache.markStale_eq]

theorem endpoints_onChange (lib : Stdlib) (ord : MapOrder) (e : EndpointsTranslator) (root : DAG) :
    (e.onChange lib ord root).cache.endpoints = e.cache.endpoints := by
  obtain ⟨index, hindex, -⟩ := setClusters_clustersOf lib {} ord root
  simp only [EndpointsTranslator.onChange, EndpointsCache.setClusters, hindex]
  split <;> rfl

variable {lib : Stdlib} {d : Deliveries}

theorem Tracked.last_store (h : d.Tracked) (address : Nat) (ep : Endpoints) :
    ∀ n ep', (d.store address ep).existing.lookup n = some ep' →
      ∃ a, (d.store address ep).last.lookup n = some (a, ep') := by
  intro n ep' hep'
  simp only [Deliveries.store, Map.lookup_insert_eq] at hep' ⊢
  split at hep'
  · next hn =>
    cases hep'
    exact ⟨address, if_pos hn⟩
  · next hn =>
    rw [if_neg hn]
    exact h.last n ep' hep'

/-- An object is stored and the cache takes it over. -/
theorem Tracked.store (h : d.Tracked) (address : Nat) (ep : Endpoints)
    (hop : ∃ event : EndpointsEvent, event.op = some (.update ep)) :
    Tracked { d.store address ep with translator := d.translator.handleOp (.update ep) } := by
  obtain ⟨event, hop⟩ := hop
  refine ⟨h.settled.handleOp hop, ?_, h.last_store address ep⟩
  intro n
  simp only [endpoints_handleOp, Deliveries.store, Map.lookup_insert_eq]
  split
  · exact fun _ => rfl
  · exact h.cached n

/-- An object is stored and the cache keeps what it has, which no service port can
tell from it. -/
theorem Tracked.skip (h : d.Tracked) (address : Nat) (ep : Endpoints)
    (hep : Interchangeable
      (d.translator.cache.endpoints.lookup (namespacedNameOf ep.toObjectMeta)) (some ep)) :
    Tracked { d.store address ep with translator := d.translator } := by
  refine ⟨h.settled, ?_, h.last_store address ep⟩
  intro n
  simp only [Deliveries.store, Map.lookup_insert_eq]
  split
  · next hn =>
    subst hn
    exact hep
  · exact h.cached n

/-- An object is dropped, from the cache as well. -/
theorem Tracked.drop (h : d.Tracked) (address : Nat) (ep : Endpoints)
    (hop : ∃ event : EndpointsEvent, event.op = some (.delete ep)) :
    Tracked { d.drop address ep with translator := d.translator.handleOp (.delete ep) } := by
  obtain ⟨event, hop⟩ := hop
  refine ⟨h.settled.handleOp hop, ?_, ?_⟩
  · intro n
    simp only [endpoints_handleOp, Deliveries.drop, Map.lookup_erase_eq]
    split
    · exact fun _ => rfl
    · exact h.cached n
  · intro n ep' hep'
    simp only [Deliveries.drop, Map.lookup_erase_eq, Map.lookup_insert_eq] at hep' ⊢
    split at hep'
    · cases hep'
    · next hn =>
      rw [if_neg hn]
      exact h.last n ep' hep'

/-- An object without subsets serves no port. -/
theorem recalculateEndpoints_of_subsets {ep : Endpoints} (hep : ep.subsets = [])
    (port : ServicePort) : recalculateEndpoints port (some ep) = [] := by
  simp [recalculateEndpoints, hep]

/-- What the cache has for the name of an update that `OnUpdate` skips cannot be
told from the new object. -/
theorem Tracked.interchangeable_skipped (h : d.Tracked) {oldAddress address : Nat}
    {old new : Endpoints}
    (hlast : d.last.lookup (namespacedNameOf new.toObjectMeta) = some (oldAddress, old))
    (hsame : oldAddress = address →
      old = new ∧ d.existing.lookup (namespacedNameOf new.toObjectMeta) ≠ none)
    (hskip : oldAddress = address ∨ old.subsets = [] ∧ new.subsets = []) :
    Interchangeable
      (d.translator.cache.endpoints.lookup (namespacedNameOf new.toObjectMeta)) (some new) := by
  have hcached := h.cached (namespacedNameOf new.toObjectMeta)
  -- An object that exists is the old one, since that was delivered last.
  have hold : ∀ ep, d.existing.lookup (namespacedNameOf new.toObjectMeta) = some ep → ep = old := by
    intro ep hep
    obtain ⟨a, ha⟩ := h.last _ ep hep
    rw [hlast] at ha
    cases ha
    rfl
  intro port
  rw [hcached port]
  cases hexists : d.existing.lookup (namespacedNameOf new.toObjectMeta) with
  | none =>
    rcases hskip with hskip | ⟨-, hnew⟩
    · exact absurd hexists (hsame hskip).2
    · rw [recalculateEndpoints_of_subsets hnew]
      rfl
  | some ep =>
    obtain rfl := hold ep hexists
    rcases hskip with hskip | ⟨hep, hnew⟩
    · rw [(hsame hskip).1]
    · rw [recalculateEndpoints_of_subsets hnew, recalculateEndpoints_of_subsets hep]

theorem Tracked.onUpdate (h : d.Tracked) {oldObj : InformerObject} {address : Nat}
    {new : Endpoints}
    (horder : d.InOrder (.endpoints (.onUpdate oldObj (.endpoints address new)))) :
    (d.handle lib (.endpoints (.onUpdate oldObj (.endpoints address new)))).Tracked := by
  obtain ⟨⟨oldAddress, old⟩, hlast, rfl, hsame⟩ := horder
  simp only [handle, observe, EndpointsTranslator.onEvent]
  cases hop : (EndpointsEvent.onUpdate (.endpoints oldAddress old) (.endpoints address new)).op with
  | none =>
    have hskip : oldAddress = address ∨ old.subsets = [] ∧ new.subsets = [] := by
      simpa [EndpointsEvent.op, or_iff_not_imp_left] using hop
    exact h.skip address new (h.interchangeable_skipped hlast hsame hskip)
  | some op =>
    obtain rfl : op = .update new := by
      simp only [EndpointsEvent.op] at hop
      split at hop
      · cases hop
      · split at hop <;> cases hop
        rfl
    exact h.store address new ⟨_, hop⟩

theorem deleteOp_eq (obj : InformerObject) :
    deleteOp obj = obj.opened.map fun o => .delete o.2 := by
  induction obj with
  | endpoints address ep => rfl
  | deletedFinalStateUnknown obj ih => exact ih
  | other => rfl

theorem Tracked.onDelete (h : d.Tracked) (obj : InformerObject) :
    (d.handle lib (.endpoints (.onDelete obj))).Tracked := by
  have hop : (EndpointsEvent.onDelete obj).op = obj.opened.map fun o => .delete o.2 :=
    deleteOp_eq obj
  simp only [handle, observe, EndpointsTranslator.onEvent]
  cases hopened : obj.opened with
  | none =>
    rw [hop, hopened]
    exact h
  | some o =>
    rw [hopened] at hop
    rw [hop]
    exact h.drop o.1 o.2 ⟨_, hop⟩

/-- Every call that is in order keeps the invariant. -/
theorem tracked_step {d' : Deliveries} {call : TranslatorCall} (h : d.Tracked)
    (horder : d.InOrder call) (hstep : (deliveries lib).step d call = some d') : d'.Tracked := by
  obtain rfl : d.handle lib call = d' := Option.some.inj hstep
  cases call with
  | onChange ord root =>
    refine ⟨h.settled.onChange ord root, ?_, h.last⟩
    intro n
    simpa [handle, endpoints_onChange] using h.cached n
  | endpoints event =>
    cases event with
    | onAdd obj =>
      cases obj with
      | endpoints address ep => exact h.store address ep ⟨.onAdd (.endpoints address ep), rfl⟩
      | deletedFinalStateUnknown obj => exact h
      | other => exact h
    | onUpdate oldObj newObj =>
      cases newObj with
      | endpoints address new => exact h.onUpdate horder
      | deletedFinalStateUnknown obj => cases oldObj <;> exact h
      | other => cases oldObj <;> exact h
    | onDelete obj => exact h.onDelete obj

end Deliveries

/-- After every call, in every sequence of calls whose updates are in order, the
clients were told the full recalculation from the service clusters of the last DAG
and the Endpoints that exist. -/
theorem told_recalculation (lib : Stdlib) {d : Deliveries}
    (hreach : (deliveries lib).ReachableBy Deliveries.InOrder d) :
    Map.Same d.translator.told (recalculation d.existing d.clusters) := by
  have htracked : d.Tracked := hreach.invariant Deliveries.tracked_init Deliveries.tracked_step
  intro k
  rw [htracked.settled.lookup_told k, lookup_recalculation]
  exact fromScratch_congr htracked.cached d.clusters k

/-- A DAG, an Endpoints object with one address, an update that leaves it without
subsets, one that is skipped, and its deletion by a tombstone. -/
theorem told_after_shrinking :
    ∃ d, ((deliveries .plain).ReachableBy Deliveries.InOrder d ∧
      d.translator.told.lookup "c" ≠ none ∧ d.existing.lookup ⟨"n", "s"⟩ = none) ∧
      Map.Same d.translator.told (recalculation d.existing d.clusters) := by
  have hrun : ∃ d, (deliveries .plain).ReachableBy Deliveries.InOrder d ∧
      d.translator.told.lookup "c" ≠ none ∧ d.existing.lookup ⟨"n", "s"⟩ = none :=
    Machine.exists_reachableBy
      [.onChange .storage oneClusterDAG, .endpoints oneEndpointAdded,
        .endpoints (.onUpdate
          (.endpoints 0
            { ns := "n", name := "s",
              subsets := [{ addresses := [{ ip := "1" }], ports := [{ port := 80 }] }] })
          (.endpoints 1 { ns := "n", name := "s", subsets := [] })),
        .endpoints (.onUpdate (.endpoints 1 { ns := "n", name := "s", subsets := [] })
          (.endpoints 2 { ns := "n", name := "s", subsets := [] })),
        .endpoints (.onDelete (.deletedFinalStateUnknown
          (.endpoints 2 { ns := "n", name := "s", subsets := [] })))]
      (by decide +kernel)
  obtain ⟨d, hreach, htold, hgone⟩ := hrun
  exact ⟨d, ⟨hreach, htold, hgone⟩, told_recalculation .plain hreach⟩

end Sesame.XdsCache
