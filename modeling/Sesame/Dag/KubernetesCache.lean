/-
# The Kubernetes cache

`internal/dag/cache.go`: the objects the translation works on, what `Insert` and
`Remove` do to them, whether a change is worth a rebuild, and the lookups the
processors make.
-/

import Sesame.Api.Gateway
import Sesame.Dag.SecretValidation

namespace Sesame.Dag

open Lib Api

structure KubernetesCache where
  rootNamespaces : List String := []
  ingressClassName : String := ""
  configuredSecretRefs : List NamespacedName := []
  ingresses : Map NamespacedName Ingress := ∅
  ingressclass : Option IngressClass := none
  httpproxies : Map NamespacedName HTTPProxy := ∅
  secrets : Map NamespacedName Api.Secret := ∅
  tlscertificatedelegations : Map NamespacedName TLSCertificateDelegation := ∅
  services : Map NamespacedName Api.Service := ∅
  namespaces : Map String Namespace := ∅
  gatewayclass : Option GatewayClass := none
  gateway : Option Gateway := none
  httproutes : Map NamespacedName HTTPRoute := ∅
  tlsroutes : Map NamespacedName TLSRoute := ∅
  referencepolicies : Map NamespacedName ReferencePolicy := ∅
  extensions : Map NamespacedName ExtensionService := ∅

/-- The objects that can be inserted and removed; the others are not interesting
to the cache. -/
inductive Object
  | secret (obj : Api.Secret)
  | service (obj : Api.Service)
  | namespaceObj (obj : Namespace)
  | ingress (obj : Ingress)
  | ingressClass (obj : IngressClass)
  | httpProxy (obj : HTTPProxy)
  | tlsCertificateDelegation (obj : TLSCertificateDelegation)
  | gatewayClass (obj : GatewayClass)
  | gateway (obj : Gateway)
  | httpRoute (obj : HTTPRoute)
  | tlsRoute (obj : TLSRoute)
  | referencePolicy (obj : ReferencePolicy)
  | extensionService (obj : ExtensionService)
  | other

namespace KubernetesCache

/-! ## Which changes trigger a rebuild -/

/-- `backend.Service.Name == name`; a backend without service is dereferenced all
the same. -/
def backendNames (name : String) (backend : IngressBackend) : Except Panic Bool :=
  match backend.service with
  | none => .error .nilDereference
  | some service => .ok (service.name = name)

/-- The backends of an Ingress in the order in which they are looked at. -/
def ingressBackends (ing : Ingress) : List IngressBackend :=
  ing.defaultBackend.toList ++ ing.rules.flatMap fun rule => (rule.http.getD []).map (·.backend)

def isRefToService (ref : BackendRef) (service : Api.Service) (routeNamespace : String) : Bool :=
  ref.group = some "" && ref.kind = some "Service" &&
    ref.ns.getD routeNamespace = service.ns && ref.name = service.name

/-- A route or the TCP proxy of an HTTPProxy names the service. -/
def proxyNamesService (proxy : HTTPProxy) (service : Api.Service) : Bool :=
  proxy.ns = service.ns &&
    ((proxy.routes.any fun route => route.services.any fun s => s.name = service.name) ||
      proxy.tcpProxy.any fun tcpproxy => tcpproxy.services.any fun s => s.name = service.name)

/-- A rule of an HTTPRoute refers to the service. -/
def routeNamesService (route : HTTPRoute) (service : Api.Service) : Bool :=
  route.rules.any fun rule =>
    rule.backendRefs.any fun backend => isRefToService backend.toBackendRef service route.ns

variable (ord : MapOrder) (kc : KubernetesCache)

def serviceTriggersRebuild (service : Api.Service) : Except Panic Bool := do
  let byIngress ← (ord.values "serviceTriggersRebuild ingresses" kc.ingresses).anyM fun ing =>
    if ing.ns ≠ service.ns then pure false
    else (ingressBackends ing).anyM (backendNames service.name)
  pure (byIngress ||
    (ord.values "serviceTriggersRebuild proxies" kc.httpproxies).any
      (proxyNamesService · service) ||
    (ord.values "serviceTriggersRebuild routes" kc.httproutes).any (routeNamesService · service))

def isRefToSecret (ref : SecretObjectReference) (secret : Api.Secret)
    (gatewayNamespace : String) : Bool :=
  ref.group = some "" && ref.kind = some "Secret" &&
    ref.ns.getD gatewayNamespace = secret.ns && ref.name = secret.name

/-- The entry `targetNamespace/secretName` of the set that `secretTriggersRebuild`
collects from all delegations, whatever namespace they are in. -/
def delegationListed (targetNamespace secretName : String) : Bool :=
  (ord.values "secretTriggersRebuild delegations" kc.tlscertificatedelegations).any fun d =>
    d.delegations.any fun cd => cd.targetNamespaces.any fun n =>
      n ++ "/" ++ cd.secretName = targetNamespace ++ "/" ++ secretName

/-- The test that one `secretName` of an object in namespace `ns` names the secret. -/
def secretNamed (secretName ns : String) (secret : Api.Secret) : Bool :=
  (ns = secret.ns && secretName = secret.name) ||
    ((delegationListed ord kc ns secret.name || delegationListed ord kc "*" secret.name) &&
      secretName = secret.ns ++ "/" ++ secret.name)

def secretTriggersRebuild (secret : Api.Secret) : Bool :=
  (secret.data.lookup caCertificateKey).isSome ||
  ((ord.values "secretTriggersRebuild ingresses" kc.ingresses).any fun ing =>
    ing.tls.any fun tls => kc.secretNamed ord tls.secretName ing.ns secret) ||
  ((ord.values "secretTriggersRebuild proxies" kc.httpproxies).any fun proxy =>
    (proxy.virtualHost.bind (·.tls)).any fun tls =>
      kc.secretNamed ord tls.secretName proxy.ns secret) ||
  (kc.configuredSecretRefs.any fun s => s.ns = secret.ns && s.name = secret.name) ||
  kc.gateway.any fun gateway => gateway.listeners.any fun listener =>
    listener.tls.any fun tls => tls.certificateRefs.any fun ref =>
      isRefToSecret ref secret gateway.ns

/-! ## Inserting and removing objects -/

def matchesIngressClass (obj : IngressClass) : Bool :=
  if kc.ingressClassName = "" then obj.name = Annotation.defaultClassName
  else obj.name = kc.ingressClassName

/-- `Insert`: the answer and the cache after it. -/
def insert (lib : Stdlib) (obj : Object) : Except Panic (Bool × KubernetesCache) :=
  match obj with
  | .secret obj =>
    if isValidSecret lib obj then
      let kc := { kc with secrets := kc.secrets.insert (namespacedNameOf obj.toObjectMeta) obj }
      .ok (kc.secretTriggersRebuild ord obj, kc)
    else .ok (false, kc)
  | .service obj =>
    let kc := { kc with services := kc.services.insert (namespacedNameOf obj.toObjectMeta) obj }
    (kc.serviceTriggersRebuild ord obj).map fun answer => (answer, kc)
  | .namespaceObj obj => .ok (true, { kc with namespaces := kc.namespaces.insert obj.name obj })
  | .ingress obj =>
    if Annotation.matchesIngress obj kc.ingressClassName then
      .ok (true, { kc with
        ingresses := kc.ingresses.insert (namespacedNameOf obj.toObjectMeta) obj })
    else .ok (false, kc)
  | .ingressClass obj =>
    if kc.matchesIngressClass obj then .ok (true, { kc with ingressclass := some obj })
    else .ok (false, kc)
  | .httpProxy obj =>
    if Annotation.matchesHTTPProxy obj kc.ingressClassName then
      .ok (true, { kc with
        httpproxies := kc.httpproxies.insert (namespacedNameOf obj.toObjectMeta) obj })
    else .ok (false, kc)
  | .tlsCertificateDelegation obj =>
    .ok (true, { kc with
      tlscertificatedelegations :=
        kc.tlscertificatedelegations.insert (namespacedNameOf obj.toObjectMeta) obj })
  | .gatewayClass obj => .ok (true, { kc with gatewayclass := some obj })
  | .gateway obj => .ok (true, { kc with gateway := some obj })
  | .httpRoute obj =>
    .ok (true, { kc with
      httproutes := kc.httproutes.insert (namespacedNameOf obj.toObjectMeta) obj })
  | .tlsRoute obj =>
    .ok (true, { kc with
      tlsroutes := kc.tlsroutes.insert (namespacedNameOf obj.toObjectMeta) obj })
  | .referencePolicy obj =>
    .ok (true, { kc with
      referencepolicies := kc.referencepolicies.insert (namespacedNameOf obj.toObjectMeta) obj })
  | .extensionService obj =>
    .ok (true, { kc with
      extensions := kc.extensions.insert (namespacedNameOf obj.toObjectMeta) obj })
  | .other => .ok (false, kc)

/-- `Remove`: the answer and the cache after it. -/
def remove (obj : Object) : Bool × KubernetesCache :=
  match obj with
  | .secret obj =>
    let m := namespacedNameOf obj.toObjectMeta
    ((kc.secrets.lookup m).isSome, { kc with secrets := kc.secrets.erase m })
  | .service obj =>
    let m := namespacedNameOf obj.toObjectMeta
    ((kc.services.lookup m).isSome, { kc with services := kc.services.erase m })
  | .namespaceObj obj =>
    ((kc.namespaces.lookup obj.name).isSome, { kc with namespaces := kc.namespaces.erase obj.name })
  | .ingress obj =>
    let m := namespacedNameOf obj.toObjectMeta
    ((kc.ingresses.lookup m).isSome, { kc with ingresses := kc.ingresses.erase m })
  | .ingressClass obj =>
    if kc.matchesIngressClass obj then (true, { kc with ingressclass := none })
    else (false, kc)
  | .httpProxy obj =>
    let m := namespacedNameOf obj.toObjectMeta
    ((kc.httpproxies.lookup m).isSome, { kc with httpproxies := kc.httpproxies.erase m })
  | .tlsCertificateDelegation obj =>
    let m := namespacedNameOf obj.toObjectMeta
    ((kc.tlscertificatedelegations.lookup m).isSome,
      { kc with tlscertificatedelegations := kc.tlscertificatedelegations.erase m })
  | .gatewayClass _ => (true, { kc with gatewayclass := none })
  | .gateway _ => (true, { kc with gateway := none })
  | .httpRoute obj =>
    let m := namespacedNameOf obj.toObjectMeta
    ((kc.httproutes.lookup m).isSome, { kc with httproutes := kc.httproutes.erase m })
  | .tlsRoute obj =>
    let m := namespacedNameOf obj.toObjectMeta
    ((kc.tlsroutes.lookup m).isSome, { kc with tlsroutes := kc.tlsroutes.erase m })
  | .referencePolicy obj =>
    let m := namespacedNameOf obj.toObjectMeta
    ((kc.referencepolicies.lookup m).isSome,
      { kc with referencepolicies := kc.referencepolicies.erase m })
  | .extensionService obj =>
    let m := namespacedNameOf obj.toObjectMeta
    ((kc.extensions.lookup m).isSome, { kc with extensions := kc.extensions.erase m })
  | .other => (false, kc)

/-! ## Lookups -/

/-- `LookupSecret` for an object in namespace `attachedFor`. -/
def lookupSecret (name : NamespacedName) (validate : Api.Secret → Except String Unit)
    (attachedFor : String) : Except String Secret :=
  match kc.secrets.lookup name with
  | none => .error "Secret not found"
  | some sec => (validate sec).map fun _ => { object := sec, attachedFor }

/-- What a lookup finds: the valid object stored under the name, for the object that
asked. -/
theorem lookupSecret_eq_ok {kc : KubernetesCache} {name : NamespacedName}
    {validate : Api.Secret → Except String Unit} {ns : String} {s : Secret}
    (h : kc.lookupSecret name validate ns = .ok s) :
    kc.secrets.lookup name = some s.object ∧ s.attachedFor = ns ∧ validate s.object = .ok () := by
  rw [lookupSecret] at h
  cases hsec : kc.secrets.lookup name with
  | none =>
    rw [hsec] at h
    cases h
  | some sec =>
    rw [hsec] at h
    obtain ⟨_, hvalid, rfl⟩ := map_eq_ok.mp h
    exact ⟨rfl, rfl, hvalid⟩

def validCA (lib : Stdlib) (s : Api.Secret) : Except String Unit :=
  if s.value caCertificateKey = [] then .error ("empty " ++ lib.quote caCertificateKey ++ " key")
  else .ok ()

/-- `LookupUpstreamValidation` for an object in namespace `attachedFor`. -/
def lookupUpstreamValidation (lib : Stdlib) (uv : Option UpstreamValidation)
    (caCertificate : NamespacedName) (attachedFor : String) :
    Except String (Option PeerValidationContext) :=
  match uv with
  | none => .ok none
  | some uv =>
    match kc.lookupSecret caCertificate (validCA lib) attachedFor with
    | .error err =>
      .error ("invalid CA Secret " ++ lib.quote caCertificate.string ++ ": " ++ err)
    | .ok cacert =>
      if uv.subjectName = "" then .error "missing subject alternative name"
      else .ok (some { caCertificate := some cacert, subjectName := uv.subjectName })

def delegationPermitted (secret : NamespacedName) (targetNamespace : String) : Bool :=
  secret.ns = targetNamespace ||
    (ord.values "DelegationPermitted" kc.tlscertificatedelegations).any fun d =>
      d.ns = secret.ns && d.delegations.any fun cd =>
        (cd.targetNamespaces = ["*"] || targetNamespace ∈ cd.targetNamespaces) &&
          secret.name = cd.secretName

/-- `IntOrString.IntValue`; a text that is not a number is 0. -/
def intValue : IntOrString → Int
  | .int val => val.toInt
  | .string val =>
    let parsed := Annotation.parseSigned val
    parsed.getD 0

/-- `IntOrString.String`. -/
def intOrStringText : IntOrString → String
  | .int val => toString val.toInt
  | .string val => val

def lookupService (lib : Stdlib) (name : NamespacedName) (port : IntOrString) :
    Except String (Api.Service × ServicePort) :=
  match kc.services.lookup name with
  | none => .error ("service " ++ lib.quote name.string ++ " not found")
  | some svc =>
    match svc.ports.find? fun p => p.port.toInt = intValue port ∨ intOrStringText port = p.name with
    | none =>
      .error ("port " ++ lib.quote (intOrStringText port) ++ " on service " ++
        lib.quote name.string ++ " not matched")
    | some p =>
      match p.protocol with
      | .unset | .tcp => .ok (svc, p)
      | protocol => .error ("unsupported service protocol " ++ lib.quote protocol.text)

end KubernetesCache

/-- `k8s.NamespacedNameFrom` with `DefaultNamespace(ns)`: a name without a
namespace is in `ns`. -/
def namespacedNameFrom (nameStr ns : String) : NamespacedName :=
  let chars := nameStr.toList
  let parsed : NamespacedName :=
    if '/' ∈ chars then
      { ns := String.ofList (chars.takeWhile (· ≠ '/')),
        name := String.ofList ((chars.dropWhile (· ≠ '/')).drop 1) }
    else { ns := "", name := nameStr }
  if parsed.ns = "" then { parsed with ns } else parsed

end Sesame.Dag
