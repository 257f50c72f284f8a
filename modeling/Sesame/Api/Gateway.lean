/-
# Gateway API objects

Gateways, HTTPRoutes, TLSRoutes and ReferencePolicies, with the parts of their
specifications and statuses that the translation reads. A filter of an HTTPRoute
carries the settings of its type, as the admission webhook of the API demands.
-/

import Sesame.Api.Core

namespace Sesame.Api

open Lib

/-- `gatewayapi_v1alpha2.GroupName`. -/
def gatewayGroupName : String := "gateway.networking.k8s.io"

/-! ## Conditions and statuses -/

/-- `metav1.ConditionStatus`; `unset` is the empty text. -/
inductive ConditionStatus
  | true
  | false
  | unknown
  | unset
  deriving DecidableEq

/-- `metav1.Condition`; the transition time is in seconds. -/
structure Condition where
  type : String := ""
  status : ConditionStatus := .unset
  reason : String := ""
  message : String := ""
  observedGeneration : Int64 := 0
  lastTransitionTime : Nat := 0
  deriving DecidableEq

structure ParentRef where
  group : Option String := none
  kind : Option String := none
  ns : Option String := none
  name : String
  sectionName : Option String := none
  deriving DecidableEq

structure RouteParentStatus where
  parentRef : ParentRef
  controllerName : String := ""
  conditions : List Condition := []
  deriving DecidableEq

/-- `ListenerStatus`; a supported kind is a group and a kind. -/
structure ListenerStatus where
  name : String
  supportedKinds : List (Option String × String) := []
  attachedRoutes : Int32 := 0
  conditions : List Condition := []

/-! ## Gateways -/

/-- `ProtocolType` of a listener. -/
inductive ProtocolType
  | http
  | https
  | tls
  | other (name : String)
  deriving DecidableEq

/-- The text of a `ProtocolType`. -/
def ProtocolType.text : ProtocolType → String
  | .http => "HTTP"
  | .https => "HTTPS"
  | .tls => "TLS"
  | .other name => name

structure SecretObjectReference where
  group : Option String := none
  kind : Option String := none
  ns : Option String := none
  name : String

inductive TLSModeType
  | terminate
  | passthrough

/-- The text of a `TLSModeType`. -/
def TLSModeType.text : TLSModeType → String
  | .terminate => "Terminate"
  | .passthrough => "Passthrough"

structure GatewayTLSConfig where
  mode : Option TLSModeType := none
  certificateRefs : List SecretObjectReference := []

inductive FromNamespaces
  | all
  | selector
  | same

structure RouteNamespaces where
  fromNamespaces : Option FromNamespaces := none
  selector : Option LabelSelector := none

structure RouteGroupKind where
  group : Option String := none
  kind : String

/-- `Listener` of a Gateway. Its allowed routes are always present: the schema
of the API gives them a default. -/
structure GatewayListener where
  name : String
  hostname : Option String := none
  protocol : ProtocolType
  tls : Option GatewayTLSConfig := none
  allowedKinds : List RouteGroupKind := []
  allowedNamespaces : Option RouteNamespaces := none

/-- `Gateway`; of the addresses only whether there are any matters. -/
structure Gateway extends ObjectMeta where
  addresses : List String := []
  listeners : List GatewayListener := []
  statusConditions : List Condition := []

structure GatewayClass extends ObjectMeta where
  controllerName : String := ""

/-! ## Routes -/

structure BackendRef where
  group : Option String := none
  kind : Option String := none
  name : String
  ns : Option String := none
  port : Option Int32 := none
  weight : Option Int32 := none
  deriving DecidableEq

structure HTTPHeader where
  name : String
  value : String
  deriving DecidableEq

structure HTTPRequestHeaderFilter where
  set : List HTTPHeader := []
  add : List HTTPHeader := []
  remove : List String := []
  deriving DecidableEq

structure HTTPRequestRedirectFilter where
  scheme : Option String := none
  hostname : Option String := none
  port : Option Int32 := none
  statusCode : Option Int := none
  deriving DecidableEq

inductive HTTPRouteFilter
  | requestHeaderModifier (filter : HTTPRequestHeaderFilter)
  | requestRedirect (filter : Option HTTPRequestRedirectFilter)
  | other (type : String)
  deriving DecidableEq

inductive PathMatchType
  | exact
  | pathPrefix
  | regularExpression
  deriving DecidableEq

structure HTTPPathMatch where
  type : Option PathMatchType := none
  value : Option String := none
  deriving DecidableEq

/-- `HeaderMatchType` of the API. -/
inductive HTTPHeaderMatchType
  | exact
  | regularExpression
  deriving DecidableEq

structure HTTPHeaderMatch where
  type : Option HTTPHeaderMatchType := none
  name : String
  value : String
  deriving DecidableEq

structure HTTPRouteMatch where
  path : Option HTTPPathMatch := none
  headers : List HTTPHeaderMatch := []
  method : Option String := none
  deriving DecidableEq

structure HTTPBackendRef extends BackendRef where
  filters : List HTTPRouteFilter := []
  deriving DecidableEq

structure HTTPRouteRule where
  matchRules : List HTTPRouteMatch := []
  filters : List HTTPRouteFilter := []
  backendRefs : List HTTPBackendRef := []
  deriving DecidableEq

structure HTTPRoute extends ObjectMeta where
  parentRefs : List ParentRef := []
  hostnames : List String := []
  rules : List HTTPRouteRule := []
  statusParents : List RouteParentStatus := []
  deriving DecidableEq

/-- `TLSRoute`; a rule is its list of backends. -/
structure TLSRoute extends ObjectMeta where
  parentRefs : List ParentRef := []
  hostnames : List String := []
  rules : List (List BackendRef) := []
  statusParents : List RouteParentStatus := []

/-! ## Reference policies -/

structure ReferencePolicyFrom where
  group : String
  kind : String
  ns : String

structure ReferencePolicyTo where
  group : String
  kind : String
  name : Option String := none

structure ReferencePolicy extends ObjectMeta where
  sources : List ReferencePolicyFrom := []
  targets : List ReferencePolicyTo := []

end Sesame.Api
