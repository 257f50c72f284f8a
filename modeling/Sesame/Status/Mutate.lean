/-
# Status mutators

A mutator takes the object as the API server holds it and returns it with the status of
an update. The mutators of routes and Gateways mean to keep a condition that is newer
than the update. What they compare with was collected when the accessor was made, and
there only the types of the conditions were entered, each with an empty condition: a
newer condition is therefore replaced, or dropped if the update has none of its type.
-/

import Mathlib.Data.List.Induction
import Sesame.Status.Cache

namespace Sesame.Status

open List
open Lib Api

variable {conditions : Map String Condition} {calls : List AddedCondition}

/-! ## Conditions to write -/

/-- A computed condition with the generation and the time of its update. -/
def stamp (generation : Int64) (now : Nat) (cond : Condition) : Condition :=
  { cond with observedGeneration := generation, lastTransitionTime := now }

/-- What is written for a computed condition: an existing one of its type, if that is
newer. -/
def conditionToWrite (ord : MapOrder) (existing : Map String Condition) (generation : Int64)
    (now : Nat) (cond : Condition) : Condition :=
  let cond := stamp generation now cond
  ((ord.values ("ExistingConditions " ++ cond.type) existing).find? fun existingCond =>
    existingCond.type = cond.type ∧ cond.observedGeneration < existingCond.observedGeneration).getD
    cond

/-- The loop over the computed conditions that both mutators have. -/
def conditionsToWrite (ord : MapOrder) (existing : Map String Condition) (generation : Int64)
    (now : Nat) (conditions : Map String Condition) : List Condition :=
  (ord.values "Conditions" conditions).map (conditionToWrite ord existing generation now)

/-! ## Routes -/

def parentRefForGateway (gateway : NamespacedName) : ParentRef where
  group := some gatewayGroupName
  kind := some "Gateway"
  ns := some gateway.ns
  name := gateway.name

namespace RouteConditionsUpdate

def combineConditions (u : RouteConditionsUpdate) (parents : List RouteParentStatus) :
    List RouteParentStatus :=
  parents.filter fun rgs => ! isRefToGateway rgs.parentRef u.gatewayRef

/-- What `RouteConditionsUpdate.Mutate` makes of the parents in the status of a route. -/
def mutateParents (u : RouteConditionsUpdate) (ord : MapOrder) (now : Nat)
    (parents : List RouteParentStatus) : List RouteParentStatus :=
  { parentRef := parentRefForGateway u.gatewayRef
    controllerName := u.gatewayController
    conditions := conditionsToWrite ord u.existingConditions u.generation now u.conditions } ::
    u.combineConditions parents

/-- `RouteConditionsUpdate.Mutate` on an HTTPRoute. -/
def mutateHTTPRoute (u : RouteConditionsUpdate) (ord : MapOrder) (now : Nat) (route : HTTPRoute) :
    HTTPRoute :=
  { route with statusParents := u.mutateParents ord now route.statusParents }

/-- `RouteConditionsUpdate.Mutate` on a TLSRoute. -/
def mutateTLSRoute (u : RouteConditionsUpdate) (ord : MapOrder) (now : Nat) (route : TLSRoute) :
    TLSRoute :=
  { route with statusParents := u.mutateParents ord now route.statusParents }

end RouteConditionsUpdate

/-! ## Gateways -/

/-- The part of a `GatewayStatus` that the mutator writes. -/
structure GatewayStatus where
  conditions : List Condition := []
  listeners : List ListenerStatus := []

namespace GatewayStatusUpdate

/-- `GatewayStatusUpdate.Mutate`. All listener statuses are replaced; the time of their
conditions is that of the build. -/
def mutate (u : GatewayStatusUpdate) (ord : MapOrder) (now : Nat) : GatewayStatus where
  conditions := conditionsToWrite ord u.existingConditions u.generation now u.conditions
  listeners := (ord.values "ListenerStatus" u.listenerStatus).map fun status =>
    { status with conditions := status.conditions.map ({ · with lastTransitionTime := now }) }

end GatewayStatusUpdate

/-! ## Status updates -/

inductive Resource
  | httpProxy
  | httpRoute
  | tlsRoute
  | gateway
  | extensionService
  deriving DecidableEq

/-- The resource of a `RouteConditionsUpdate`. -/
def RouteKind.resource : RouteKind → Resource
  | .httpRoute => .httpRoute
  | .tlsRoute => .tlsRoute

inductive Mutator
  | proxy (update : ProxyUpdate)
  | route (update : RouteConditionsUpdate)
  | gateway (update : GatewayStatusUpdate)
  | extension (entry : ExtensionCacheEntry)

structure StatusUpdate where
  name : NamespacedName
  resource : Resource
  mutator : Mutator

def Cache.getStatusUpdates (c : Cache) (ord : MapOrder) : List StatusUpdate :=
  ((ord.range "proxyUpdates" c.proxyUpdates).map fun entry =>
      { name := entry.1, resource := .httpProxy, mutator := .proxy entry.2 }) ++
    ((ord.range "routeUpdates" c.routeUpdates).map fun entry =>
      { name := entry.1, resource := entry.2.resource.resource, mutator := .route entry.2 }) ++
    ((ord.range "gatewayUpdates" c.gatewayUpdates).map fun entry =>
      { name := entry.1, resource := .gateway, mutator := .gateway entry.2 }) ++
    (ord.values "entries" c.entries).map fun entry =>
      { name := entry.name, resource := .extensionService, mutator := .extension entry }

/-! ## Calls of `AddCondition` -/

/-- The arguments of a call of `AddCondition`. -/
structure AddedCondition where
  cond : String
  status : ConditionStatus
  reason : String
  message : String

/-- An update after some calls of `AddCondition`. -/
def RouteConditionsUpdate.addConditions (u : RouteConditionsUpdate)
    (calls : List AddedCondition) : RouteConditionsUpdate :=
  calls.foldl (fun u call => u.addCondition call.cond call.status call.reason call.message) u

/-- An update after some calls of `AddCondition`. -/
def GatewayStatusUpdate.addConditions (u : GatewayStatusUpdate) (calls : List AddedCondition) :
    GatewayStatusUpdate :=
  calls.foldl (fun u call => u.addCondition call.cond call.status call.reason call.message) u

/-- Every condition is stored under its type, and the types are those of the calls. -/
structure Holds (conditions : Map String Condition) (calls : List AddedCondition) : Prop where
  type : ∀ key cond, conditions.lookup key = some cond → cond.type = key
  called : ∀ key, (conditions.lookup key).isSome = true ↔ ∃ call ∈ calls, call.cond = key

theorem holds_empty : Holds ∅ [] where
  type _ _ h := by cases h
  called key := by simp

theorem Holds.insert (h : Holds conditions calls) (call : AddedCondition) {cond : Condition}
    (htype : cond.type = call.cond) :
    Holds (conditions.insert call.cond cond) (calls ++ [call]) := by
  constructor
  · exact Map.forall_lookup_insert htype h.type
  · intro key
    rw [Map.lookup_insert_eq]
    split
    · next hkey => simp [hkey]
    · next hkey =>
      rw [h.called key]
      simp [or_and_right, exists_or, Ne.symm hkey]

/-- The calls fill the conditions of an update and leave the rest of it alone. -/
theorem RouteConditionsUpdate.addConditions_holds (u : RouteConditionsUpdate)
    (hempty : u.conditions = ∅) (calls : List AddedCondition) :
    Holds (u.addConditions calls).conditions calls ∧
      (u.addConditions calls).existingConditions = u.existingConditions ∧
      (u.addConditions calls).generation = u.generation ∧
      (u.addConditions calls).gatewayRef = u.gatewayRef := by
  induction calls using reverseRecOn with
  | nil => exact ⟨hempty ▸ holds_empty, rfl, rfl, rfl⟩
  | append_singleton calls call ih =>
    obtain ⟨hholds, hrest⟩ := ih
    rw [addConditions, foldl_append, foldl_cons, foldl_nil]
    exact ⟨hholds.insert call rfl, hrest⟩

theorem GatewayStatusUpdate.addConditions_holds (u : GatewayStatusUpdate)
    (hempty : u.conditions = ∅) (calls : List AddedCondition) :
    Holds (u.addConditions calls).conditions calls ∧
      (u.addConditions calls).existingConditions = u.existingConditions ∧
      (u.addConditions calls).generation = u.generation := by
  induction calls using reverseRecOn with
  | nil => exact ⟨hempty ▸ holds_empty, rfl, rfl⟩
  | append_singleton calls call ih =>
    obtain ⟨hholds, hrest⟩ := ih
    rw [addConditions, foldl_append, foldl_cons, foldl_nil]
    exact ⟨hholds.insert call rfl, hrest⟩

/-! ## What is written -/

/-- The existing conditions are all empty, and there are any iff the status has
conditions. -/
theorem conditionsByType_spec (conditions : List Condition) :
    (∀ key cond, (conditionsByType conditions).lookup key = some cond → cond = {}) ∧
      ((∃ key, ((conditionsByType conditions).lookup key).isSome = true) ↔ conditions ≠ []) := by
  induction conditions using reverseRecOn with
  | nil => simp [conditionsByType]
  | append_singleton conditions cond ih =>
    obtain ⟨hblank, hnonempty⟩ := ih
    rw [conditionsByType, foldl_append, foldl_cons, foldl_nil]
    rw [← conditionsByType]
    constructor
    · split
      · exact Map.forall_lookup_insert rfl hblank
      · exact hblank
    · apply iff_of_true
      · refine ⟨cond.type, ?_⟩
        split
        · simp
        · next hsome => simp [hsome]
      · simp

variable (ord : MapOrder) (now : Nat)

/-- When the existing conditions are empty ones, the only condition newer than the update
that is ever written is the empty one, in place of a condition without a type. -/
theorem conditionToWrite_newer {existing : Map String Condition}
    (hblank : ∀ key cond, existing.lookup key = some cond → cond = {}) {generation : Int64}
    {newer : Condition} (hnewer : generation < newer.observedGeneration) (cond : Condition) :
    conditionToWrite ord existing generation now cond = newer ↔
      newer = {} ∧ cond.type = "" ∧ ∃ key, (existing.lookup key).isSome = true := by
  unfold conditionToWrite
  dsimp only
  cases hfound : (ord.values ("ExistingConditions " ++ (stamp generation now cond).type)
      existing).find? fun existingCond =>
        existingCond.type = (stamp generation now cond).type ∧
          (stamp generation now cond).observedGeneration < existingCond.observedGeneration with
  | none =>
    apply iff_of_false
    · rintro rfl
      exact Int64.lt_irrefl hnewer
    · rintro ⟨rfl, htype, key, hkey⟩
      obtain ⟨e, he⟩ := Option.isSome_iff_exists.mp hkey
      have hnot := find?_eq_none.mp hfound e (ord.mem_values.mpr ⟨key, he⟩)
      rw [hblank key e he] at hnot
      apply hnot
      exact decide_eq_true ⟨htype.symm, hnewer⟩
  | some e =>
    obtain ⟨key, hkey⟩ := ord.mem_values.mp (mem_of_find?_eq_some hfound)
    have hmatches : e.type = cond.type ∧ generation < e.observedGeneration := by
      have hfind := find?_some hfound
      exact of_decide_eq_true hfind
    rw [hblank key e hkey] at hmatches ⊢
    constructor
    · rintro rfl
      exact ⟨rfl, hmatches.1.symm, key, by rw [hkey]; rfl⟩
    · rintro ⟨rfl, -⟩
      rfl

/-- Which conditions newer than the update are written. -/
theorem mem_conditionsToWrite_newer {status : List Condition} (hcalls : Holds conditions calls)
    {generation : Int64} {newer : Condition} (hnewer : generation < newer.observedGeneration) :
    newer ∈ conditionsToWrite ord (conditionsByType status) generation now conditions ↔
      newer = {} ∧ status ≠ [] ∧ ∃ call ∈ calls, call.cond = "" := by
  obtain ⟨hblank, hnonempty⟩ := conditionsByType_spec status
  rw [conditionsToWrite, mem_map]
  simp only [conditionToWrite_newer ord now hblank hnewer, hnonempty]
  constructor
  · rintro ⟨cond, hcond, hempty, htype, hstatus⟩
    obtain ⟨key, hkey⟩ := ord.mem_values.mp hcond
    have hkeyType := hcalls.type key cond hkey
    rw [htype] at hkeyType
    rw [← hkeyType] at hkey
    exact ⟨hempty, hstatus, (hcalls.called "").mp (by rw [hkey]; rfl)⟩
  · rintro ⟨hempty, hstatus, hcall⟩
    obtain ⟨cond, hcond⟩ := Option.isSome_iff_exists.mp ((hcalls.called "").mpr hcall)
    exact ⟨cond, ord.mem_values.mpr ⟨"", hcond⟩, hempty, hcalls.type "" cond hcond, hstatus⟩

/-! ## Newer conditions -/

/-- Every condition that is newer than the update is still there. -/
def KeepsNewer (generation : Int64) (old new : List Condition) : Prop :=
  ∀ cond ∈ old, generation < cond.observedGeneration → cond ∈ new

/-- No condition is newer than the update, apart from empty conditions that the update
happens to write: it has a condition without a type, and there was one to compare it
with. -/
def OnlyEmptyNewer (generation : Int64) (old compared : List Condition)
    (calls : List AddedCondition) : Prop :=
  ∀ cond ∈ old, generation < cond.observedGeneration →
    cond = {} ∧ compared ≠ [] ∧ ∃ call ∈ calls, call.cond = ""

def gatewayConditions (gateway : NamespacedName) (parents : List RouteParentStatus) :
    List Condition :=
  (parents.filter fun rgs => isRefToGateway rgs.parentRef gateway).flatMap (·.conditions)

/-- The conditions of the first entry for a Gateway. -/
def firstConditions (gateway : NamespacedName) (parents : List RouteParentStatus) :
    List Condition :=
  (parents.find? fun rgs => isRefToGateway rgs.parentRef gateway).elim [] (·.conditions)

theorem isRefToGateway_parentRefForGateway (gateway : NamespacedName) :
    isRefToGateway (parentRefForGateway gateway) gateway = true := by
  simp [isRefToGateway, parentRefForGateway]

theorem getRouteGatewayConditions_eq (c : Cache) (parents : List RouteParentStatus) :
    c.getRouteGatewayConditions parents =
      conditionsByType (firstConditions c.gatewayRef parents) := by
  unfold Cache.getRouteGatewayConditions firstConditions
  split
  · next hnone => rw [hnone]; rfl
  · next gs hsome => rw [hsome]; rfl

/-- The entries after a mutation: one for the Gateway, and those of other gateways in
order. -/
theorem mutateParents_entries (u : RouteConditionsUpdate) (parents : List RouteParentStatus) :
    ((u.mutateParents ord now parents).filter fun rgs =>
        isRefToGateway rgs.parentRef u.gatewayRef) =
      [{ parentRef := parentRefForGateway u.gatewayRef, controllerName := u.gatewayController,
         conditions := conditionsToWrite ord u.existingConditions u.generation now u.conditions }] ∧
    ((u.mutateParents ord now parents).filter fun rgs =>
        ! isRefToGateway rgs.parentRef u.gatewayRef) =
      parents.filter fun rgs => ! isRefToGateway rgs.parentRef u.gatewayRef := by
  have hown := isRefToGateway_parentRefForGateway u.gatewayRef
  unfold RouteConditionsUpdate.mutateParents RouteConditionsUpdate.combineConditions
  constructor
  · simp [hown, filter_filter]
  · simp [hown, filter_filter]

/-- A route keeps the conditions that are newer than the update iff there are none, and
a Gateway does as well. The entries of other gateways are kept, and there is exactly one
entry for the Gateway. -/
theorem newer_conditions_kept_iff :
    (∀ (c : Cache) (nsName : NamespacedName) (generation : Int64) (kind : RouteKind)
        (parents : List RouteParentStatus) (calls : List AddedCondition),
      let u := (c.routeConditionsAccessor nsName generation kind parents).addConditions calls
      let result := u.mutateParents ord now parents
      (KeepsNewer generation (gatewayConditions c.gatewayRef parents)
          (gatewayConditions c.gatewayRef result) ↔
        OnlyEmptyNewer generation (gatewayConditions c.gatewayRef parents)
          (firstConditions c.gatewayRef parents) calls) ∧
      (result.filter fun rgs => ! isRefToGateway rgs.parentRef c.gatewayRef) =
        (parents.filter fun rgs => ! isRefToGateway rgs.parentRef c.gatewayRef) ∧
      (result.filter fun rgs => isRefToGateway rgs.parentRef c.gatewayRef).length = 1) ∧
    ∀ (nsName : NamespacedName) (generation : Int64) (status : List Condition)
        (calls : List AddedCondition),
      let u := (Cache.gatewayStatusAccessor nsName generation status).addConditions calls
      (KeepsNewer generation status (u.mutate ord now).conditions ↔
        OnlyEmptyNewer generation status status calls) := by
  constructor
  · intro c nsName generation kind parents calls u result
    obtain ⟨hholds, hexisting, hgeneration, hgateway⟩ :=
      RouteConditionsUpdate.addConditions_holds
        (c.routeConditionsAccessor nsName generation kind parents) rfl calls
    have hgateway' : u.gatewayRef = c.gatewayRef := hgateway
    have hexisting' : u.existingConditions =
        conditionsByType (firstConditions c.gatewayRef parents) :=
      hexisting.trans (getRouteGatewayConditions_eq c parents)
    have hgeneration' : u.generation = generation := hgeneration
    obtain ⟨hown, hothers⟩ := mutateParents_entries ord now u parents
    rw [hgateway'] at hown hothers
    refine ⟨?_, hothers, by rw [hown]; rfl⟩
    have hresult : gatewayConditions c.gatewayRef result =
        conditionsToWrite ord (conditionsByType (firstConditions c.gatewayRef parents)) generation
          now u.conditions := by
      rw [gatewayConditions, hown, hexisting', hgeneration']
      simp
    rw [KeepsNewer, OnlyEmptyNewer, hresult]
    exact forall₃_congr fun cond _ hnewer => mem_conditionsToWrite_newer ord now hholds hnewer
  · intro nsName generation status calls u
    obtain ⟨hholds, hexisting, hgeneration⟩ :=
      GatewayStatusUpdate.addConditions_holds
        (Cache.gatewayStatusAccessor nsName generation status) rfl calls
    have hresult : (u.mutate ord now).conditions =
        conditionsToWrite ord (conditionsByType status) generation now u.conditions := by
      rw [GatewayStatusUpdate.mutate, hexisting, hgeneration]
      rfl
    rw [KeepsNewer, OnlyEmptyNewer, hresult]
    exact forall₃_congr fun cond _ hnewer => mem_conditionsToWrite_newer ord now hholds hnewer

/-- A route of generation 3 whose status for the Gateway was written for generation 5. -/
def newerParents : List RouteParentStatus :=
  [{ parentRef := parentRefForGateway ⟨"n", "g"⟩
     conditions := [{ type := "Accepted", status := .true, observedGeneration := 5 }] }]

/-- The newer condition of a route is replaced by the older one, and so is that of a
Gateway. -/
theorem newer_condition_replaced :
    (let c : Cache := { gatewayRef := ⟨"n", "g"⟩ }
     let u := (c.routeConditionsAccessor ⟨"n", "r"⟩ 3 .httpRoute newerParents).addConditions
       [⟨"Accepted", .false, "Invalid", "Invalid Gateway"⟩]
     ¬ KeepsNewer 3 (gatewayConditions ⟨"n", "g"⟩ newerParents)
        (gatewayConditions ⟨"n", "g"⟩ (u.mutateParents .storage 0 newerParents))) ∧
    (let status : List Condition := [{ type := "Ready", status := .true, observedGeneration := 5 }]
     let u := (Cache.gatewayStatusAccessor ⟨"n", "g"⟩ 3 status).addConditions
       [⟨"Ready", .false, "Invalid", "Unsupported value"⟩]
     ¬ KeepsNewer 3 status (u.mutate .storage 0).conditions) := by
  unfold KeepsNewer
  decide

end Sesame.Status
