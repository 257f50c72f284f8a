/-
# Kubernetes objects

The core and networking objects the cache holds, with the fields that the
translation to Envoy configuration reads. Object metadata keeps the name, the
namespace, the annotations, the labels and the generation; the zero value of a
string is the empty string, and a pointer is an `Option`.

A definition without a comment is what the source has under its name.
-/

import Sesame.Lib.Maps

namespace Sesame.Api

open Lib

structure NamespacedName where
  ns : String
  name : String
  deriving DecidableEq

namespace NamespacedName

/-- `NamespacedName.String()`. -/
def string (n : NamespacedName) : String := n.ns ++ "/" ++ n.name

end NamespacedName

structure ObjectMeta where
  name : String
  ns : String
  annotations : Map String String := ∅
  labels : Map String String := ∅
  generation : Int64 := 0
  deriving DecidableEq

def namespaceDefault : String := "default"

def namespacedNameOf (obj : ObjectMeta) : NamespacedName where
  ns := if obj.ns = "" then namespaceDefault else obj.ns
  name := obj.name

/-- `v1.Protocol`, the transport protocol of a port; `unset` is the empty
string of an object that was not defaulted. -/
inductive Protocol
  | unset
  | tcp
  | udp
  | sctp
  deriving DecidableEq

/-- The text of a `v1.Protocol`. -/
def Protocol.text : Protocol → String
  | .unset => ""
  | .tcp => "TCP"
  | .udp => "UDP"
  | .sctp => "SCTP"

inductive IntOrString
  | int (val : Int32)
  | string (val : String)

/-! ## Services and endpoints -/

structure ServicePort where
  name : String := ""
  protocol : Protocol := .tcp
  port : Int32
  deriving DecidableEq

/-- `v1.ServiceType`, as far as the translation distinguishes it. -/
inductive ServiceType
  | externalName
  | other

structure Service extends ObjectMeta where
  type : ServiceType := .other
  externalName : String := ""
  ports : List ServicePort := []

structure EndpointAddress where
  ip : String
  deriving DecidableEq

structure EndpointPort where
  name : String := ""
  port : Int32
  protocol : Protocol := .tcp
  deriving DecidableEq

/-- `v1.EndpointSubset`, with its ready addresses. -/
structure EndpointSubset where
  addresses : List EndpointAddress
  ports : List EndpointPort
  deriving DecidableEq

structure Endpoints extends ObjectMeta where
  subsets : List EndpointSubset
  deriving DecidableEq

/-! ## Secrets and namespaces -/

abbrev Bytes := List UInt8

inductive SecretType
  | tls
  | generic
  | other
  deriving DecidableEq

structure Secret extends ObjectMeta where
  type : SecretType
  data : Map String Bytes
  deriving DecidableEq

def tlsCertKey : String := "tls.crt"

def tlsPrivateKeyKey : String := "tls.key"

/-- `Data[key]`: a missing key reads as no bytes. -/
def Secret.value (s : Secret) (key : String) : Bytes := (s.data.lookup key).getD []

structure LabelSelectorRequirement where
  key : String
  operator : String
  values : List String := []

structure LabelSelector where
  matchLabels : Map String String := ∅
  matchExpressions : List LabelSelectorRequirement := []

structure Namespace extends ObjectMeta

/-! ## Ingresses -/

structure ServiceBackendPort where
  name : String := ""
  number : Int32 := 0

structure IngressServiceBackend where
  name : String
  port : ServiceBackendPort

/-- `networking.IngressBackend`. A backend that names a resource has no service. -/
structure IngressBackend where
  service : Option IngressServiceBackend

inductive PathType
  | exact
  | prefixed
  | implementationSpecific

structure HTTPIngressPath where
  path : String := ""
  pathType : Option PathType := none
  backend : IngressBackend

/-- `networking.IngressRule`; `http` is nil when the rule has no paths value. -/
structure IngressRule where
  host : String := ""
  http : Option (List HTTPIngressPath) := none

structure IngressTLS where
  hosts : List String := []
  secretName : String := ""

structure Ingress extends ObjectMeta where
  ingressClassName : Option String := none
  defaultBackend : Option IngressBackend := none
  tls : List IngressTLS := []
  rules : List IngressRule := []

structure IngressClass extends ObjectMeta

/-! ## Small objects -/

/-- Objects under their own names. -/
def byName {α : Type} (toMeta : α → ObjectMeta) (objects : List α) : Map NamespacedName α :=
  Map.ofList (objects.map fun obj => (namespacedNameOf (toMeta obj), obj))

/-- A Service with the port 80. -/
def webService (ns name : String) : Service := { name, ns, ports := [{ port := 80 }] }

/-- A backend for the port 80 of a Service. -/
def webBackend (name : String) : IngressBackend where
  service := some { name, port := { number := 80 } }

/-- A certificate with its key. -/
def certificate (ns name : String) : Secret where
  name
  ns
  type := .tls
  data := Map.ofList [(tlsCertKey, [1]), (tlsPrivateKeyKey, [1])]

end Sesame.Api
