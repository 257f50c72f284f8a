/-
# The status cache

Status updates are collected during a build, one accessor per object, and handed
to the API server afterwards. An accessor here is a value that its user updates
and then commits. The transition times of an update are set when it is applied.
-/

import Sesame.Api.Gateway
import Sesame.Api.HTTPProxy

namespace Sesame.Status

open Lib Api

/-! ## Detailed conditions -/

/-- The `ConditionType…Error` constants. -/
inductive ErrorType
  | authError
  | corsError
  | includeError
  | orphanedError
  | prefixReplaceError
  | rootNamespaceError
  | routeError
  | serviceError
  | specError
  | tcpProxyIncludeError
  | tcpProxyError
  | tlsError
  | virtualHostError
  deriving DecidableEq

/-- `SubCondition`; its status is always true. -/
structure SubCondition where
  type : ErrorType
  reason : String
  message : String

structure DetailedCondition extends Condition where
  errors : List SubCondition := []
  warnings : List SubCondition := []

def validConditionType : String := "Valid"

def longMessageLength : Nat := 32760

/-- The longest part of a text, by whole characters, that fits in `n` bytes. -/
def takeBytes : Nat → List Char → List Char
  | _, [] => []
  | n, c :: rest => if c.utf8Size ≤ n then c :: takeBytes (n - c.utf8Size) rest else []

/-- `truncateLongMessage`. A text that is cut within a character loses it. -/
def truncateLongMessage (message : String) : String :=
  if message.utf8ByteSize > longMessageLength then
    String.ofList (takeBytes longMessageLength message.toList)
  else message

namespace DetailedCondition

def isPositivePolarity (dc : DetailedCondition) : Bool := dc.type = validConditionType

/-- `AddError`, and `AddErrorf` on an already formatted message. -/
def addError (dc : DetailedCondition) (errorType : ErrorType) (reason message : String) :
    DetailedCondition :=
  { dc with
    status := if dc.isPositivePolarity then .false else .true
    reason := "ErrorPresent"
    message := "At least one error present, see Errors for details"
    errors := dc.errors ++ [{ type := errorType, reason, message := truncateLongMessage message }] }

/-- `AddWarning`, and `AddWarningf` on an already formatted message. -/
def addWarning (dc : DetailedCondition) (warnType : ErrorType) (reason message : String) :
    DetailedCondition :=
  { dc with
    warnings :=
      dc.warnings ++ [{ type := warnType, reason, message := truncateLongMessage message }] }

end DetailedCondition

/-! ## Updates -/

/-- `ProxyUpdate`. The only condition in use is `Valid`; it is absent until
`ConditionFor` was called. -/
structure ProxyUpdate where
  fullname : NamespacedName
  generation : Int64
  vhost : String := ""
  valid : Option DetailedCondition := none

/-- `ProxyUpdate.ConditionFor(ValidCondition)`. -/
def ProxyUpdate.conditionFor (pu : ProxyUpdate) : DetailedCondition :=
  pu.valid.getD
    { type := validConditionType, observedGeneration := pu.generation, status := .true,
      reason := "Valid", message := "Valid HTTPProxy" }

/-- `ExtensionCacheEntry`, with its `Valid` condition. -/
structure ExtensionCacheEntry where
  name : NamespacedName
  generation : Int64
  valid : Option DetailedCondition := none

/-- `ConditionCache.ConditionFor(ValidCondition)`. -/
def ExtensionCacheEntry.conditionFor (e : ExtensionCacheEntry) : DetailedCondition :=
  e.valid.getD { type := validConditionType, status := .unknown }

/-- The kinds of route a `RouteConditionsUpdate` is for. -/
inductive RouteKind
  | httpRoute
  | tlsRoute

structure RouteConditionsUpdate where
  fullName : NamespacedName
  conditions : Map String Condition := ∅
  existingConditions : Map String Condition := ∅
  gatewayRef : NamespacedName
  gatewayController : String
  resource : RouteKind
  generation : Int64

def RouteConditionsUpdate.addCondition (u : RouteConditionsUpdate) (cond : String)
    (status : ConditionStatus) (reason message : String) : RouteConditionsUpdate :=
  let message :=
    match u.conditions.lookup cond with
    | some c => c.message ++ ", " ++ message
    | none => message
  let newDc : Condition :=
    { type := cond, status, reason, message, observedGeneration := u.generation }
  { u with conditions := u.conditions.insert cond newDc }

structure GatewayStatusUpdate where
  fullName : NamespacedName
  conditions : Map String Condition := ∅
  existingConditions : Map String Condition := ∅
  listenerStatus : Map String ListenerStatus := ∅
  generation : Int64

namespace GatewayStatusUpdate

def addCondition (u : GatewayStatusUpdate) (cond : String) (status : ConditionStatus)
    (reason message : String) : GatewayStatusUpdate :=
  let message :=
    match u.conditions.lookup cond with
    | some c => c.message ++ ", " ++ message
    | none => message
  let newCond : Condition :=
    { type := cond, status, reason, message, observedGeneration := u.generation }
  { u with conditions := u.conditions.insert cond newCond }

/-- The status of a listener, created when it is first needed. -/
def listener (u : GatewayStatusUpdate) (listenerName : String) : ListenerStatus :=
  (u.listenerStatus.lookup listenerName).getD { name := listenerName }

def setListenerSupportedKinds (u : GatewayStatusUpdate) (listenerName : String)
    (kinds : List String) : GatewayStatusUpdate :=
  let old := u.listener listenerName
  let added := kinds.map fun kind => (some gatewayGroupName, kind)
  let new := { old with supportedKinds := old.supportedKinds ++ added }
  { u with listenerStatus := u.listenerStatus.insert listenerName new }

def setListenerAttachedRoutes (u : GatewayStatusUpdate) (listenerName : String)
    (numRoutes : Nat) : GatewayStatusUpdate :=
  let new := { u.listener listenerName with attachedRoutes := Int32.ofNat numRoutes }
  { u with listenerStatus := u.listenerStatus.insert listenerName new }

/-- Replace the first condition of the type of `newCond`, whose message is put
before the new one, or add `newCond` at the end. -/
def upsertCondition (newCond : Condition) : List Condition → List Condition
  | [] => [newCond]
  | existing :: rest =>
    if existing.type = newCond.type then
      { newCond with message := existing.message ++ ", " ++ newCond.message } :: rest
    else existing :: upsertCondition newCond rest

def addListenerCondition (u : GatewayStatusUpdate) (listenerName cond : String)
    (status : ConditionStatus) (reason message : String) : GatewayStatusUpdate :=
  let old := u.listener listenerName
  let newCond : Condition :=
    { type := cond, status, reason, message, observedGeneration := u.generation }
  let new := { old with conditions := upsertCondition newCond old.conditions }
  { u with listenerStatus := u.listenerStatus.insert listenerName new }

end GatewayStatusUpdate

/-! ## The cache -/

/-- `status.Cache`. `entries` holds the entries of the kind ExtensionService, the
only kind that is put there. -/
structure Cache where
  gatewayRef : NamespacedName := { ns := "", name := "" }
  gatewayController : String := ""
  proxyUpdates : Map NamespacedName ProxyUpdate := ∅
  gatewayUpdates : Map NamespacedName GatewayStatusUpdate := ∅
  routeUpdates : Map NamespacedName RouteConditionsUpdate := ∅
  entries : Map NamespacedName ExtensionCacheEntry := ∅

def isRefToGateway (ref : ParentRef) (gateway : NamespacedName) : Bool :=
  ref.group = some gatewayGroupName && ref.kind = some "Gateway" &&
    ref.ns = some gateway.ns && ref.name = gateway.name

/-- The loop body shared by `getGatewayConditions` and `getRouteGatewayConditions`:
each type is entered with the value a failed map lookup returns. -/
def conditionsByType (conditions : List Condition) : Map String Condition :=
  conditions.foldl (fun m cond =>
    match m.lookup cond.type with
    | none => m.insert cond.type {}
    | some _ => m) ∅

namespace Cache

def proxyAccessor (proxy : HTTPProxy) : ProxyUpdate where
  fullname := namespacedNameOf proxy.toObjectMeta
  generation := proxy.generation

/-- The commit function of `ProxyAccessor`. An update that would set a proxy with
a recorded error back to valid is dropped. -/
def commitProxy (c : Cache) (pu : ProxyUpdate) : Cache :=
  match pu.valid with
  | none => c
  | some valid =>
    match (c.proxyUpdates.lookup pu.fullname).bind (·.valid) with
    | some existing =>
      if existing.status = .false ∧ valid.status = .true then c
      else { c with proxyUpdates := c.proxyUpdates.insert pu.fullname pu }
    | none => { c with proxyUpdates := c.proxyUpdates.insert pu.fullname pu }

/-- `ExtensionAccessor`: the shared entry of an extension service. -/
def extensionAccessor (c : Cache) (ext : ExtensionService) : ExtensionCacheEntry :=
  let name := namespacedNameOf ext.toObjectMeta
  (c.entries.lookup name).getD { name, generation := ext.generation }

/-- The commit function of `ExtensionAccessor`. -/
def commitExtension (c : Cache) (e : ExtensionCacheEntry) : Cache :=
  { c with entries := c.entries.insert e.name e }

def getRouteGatewayConditions (c : Cache) (parents : List RouteParentStatus) :
    Map String Condition :=
  match parents.find? fun gs => isRefToGateway gs.parentRef c.gatewayRef with
  | none => ∅
  | some gs => conditionsByType gs.conditions

def routeConditionsAccessor (c : Cache) (nsName : NamespacedName) (generation : Int64)
    (resource : RouteKind) (parents : List RouteParentStatus) : RouteConditionsUpdate where
  fullName := nsName
  existingConditions := c.getRouteGatewayConditions parents
  gatewayRef := c.gatewayRef
  gatewayController := c.gatewayController
  generation := generation
  resource := resource

/-- The commit function of `RouteConditionsAccessor`. -/
def commitRoute (c : Cache) (u : RouteConditionsUpdate) : Cache :=
  if u.conditions.entries = [] then c
  else { c with routeUpdates := c.routeUpdates.insert u.fullName u }

def gatewayStatusAccessor (nsName : NamespacedName) (generation : Int64)
    (statusConditions : List Condition) : GatewayStatusUpdate where
  fullName := nsName
  existingConditions := conditionsByType statusConditions
  generation := generation

/-- The commit function of `GatewayStatusAccessor`. -/
def commitGateway (c : Cache) (u : GatewayStatusUpdate) : Cache :=
  if u.conditions.entries = [] ∧ u.listenerStatus.entries = [] then c
  else { c with gatewayUpdates := c.gatewayUpdates.insert u.fullName u }

end Cache

end Sesame.Status
