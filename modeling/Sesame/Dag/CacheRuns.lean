/-
# Runs of the Kubernetes cache

The caches that `Insert` and `Remove` lead to from an empty one. Both work on one key, the
kind of the object and the name that it carries, so in such a cache the name under which an
object was found says where it lives and what it is called.
-/

import Sesame.Dag.KubernetesCache

namespace Sesame.Dag

open Lib Api

/-- Where the cache holds an object: by kind and name, or, for a Gateway and its class, in
the one place there is, whatever the name. The IngressClass is left out; the cache only
looks at its name. -/
inductive Key
  | secret (name : NamespacedName)
  | service (name : NamespacedName)
  | namespaceObj (name : String)
  | ingress (name : NamespacedName)
  | httpProxy (name : NamespacedName)
  | tlsCertificateDelegation (name : NamespacedName)
  | gatewayClass
  | gateway
  | httpRoute (name : NamespacedName)
  | tlsRoute (name : NamespacedName)
  | referencePolicy (name : NamespacedName)
  | extensionService (name : NamespacedName)
  deriving DecidableEq

namespace Object

def key : Object → Option Key
  | secret obj => some (.secret (namespacedNameOf obj.toObjectMeta))
  | service obj => some (.service (namespacedNameOf obj.toObjectMeta))
  | namespaceObj obj => some (.namespaceObj obj.name)
  | ingress obj => some (.ingress (namespacedNameOf obj.toObjectMeta))
  | httpProxy obj => some (.httpProxy (namespacedNameOf obj.toObjectMeta))
  | tlsCertificateDelegation obj =>
    some (.tlsCertificateDelegation (namespacedNameOf obj.toObjectMeta))
  | gatewayClass _ => some .gatewayClass
  | gateway _ => some .gateway
  | httpRoute obj => some (.httpRoute (namespacedNameOf obj.toObjectMeta))
  | tlsRoute obj => some (.tlsRoute (namespacedNameOf obj.toObjectMeta))
  | referencePolicy obj => some (.referencePolicy (namespacedNameOf obj.toObjectMeta))
  | extensionService obj => some (.extensionService (namespacedNameOf obj.toObjectMeta))
  | ingressClass _ | other => none

/-- `Insert` stores the object. -/
def accepted (lib : Stdlib) (ingressClassName : String) : Object → Bool
  | secret obj => isValidSecret lib obj
  | ingress obj => Annotation.matchesIngress obj ingressClassName
  | httpProxy obj => Annotation.matchesHTTPProxy obj ingressClassName
  | _ => true

end Object

namespace KubernetesCache

variable {kc kc' : KubernetesCache}

def find (kc : KubernetesCache) : Key → Option Object
  | .secret name => (kc.secrets.lookup name).map .secret
  | .service name => (kc.services.lookup name).map .service
  | .namespaceObj name => (kc.namespaces.lookup name).map .namespaceObj
  | .ingress name => (kc.ingresses.lookup name).map .ingress
  | .httpProxy name => (kc.httpproxies.lookup name).map .httpProxy
  | .tlsCertificateDelegation name =>
    (kc.tlscertificatedelegations.lookup name).map .tlsCertificateDelegation
  | .gatewayClass => kc.gatewayclass.map .gatewayClass
  | .gateway => kc.gateway.map .gateway
  | .httpRoute name => (kc.httproutes.lookup name).map .httpRoute
  | .tlsRoute name => (kc.tlsroutes.lookup name).map .tlsRoute
  | .referencePolicy name => (kc.referencepolicies.lookup name).map .referencePolicy
  | .extensionService name => (kc.extensions.lookup name).map .extensionService

variable {lib : Stdlib} {ord : MapOrder}

/-- `Insert` stores an accepted object under its key and leaves everything else. -/
theorem find_insert {answer : Bool} {obj : Object}
    (h : kc.insert ord lib obj = .ok (answer, kc')) :
    kc'.ingressClassName = kc.ingressClassName ∧ ∀ key, kc'.find key =
      if obj.key = some key ∧ obj.accepted lib kc.ingressClassName then some obj
      else kc.find key := by
  cases obj
  case' service => obtain ⟨answer', -, h⟩ := map_eq_ok.mp h
  case' secret | ingress | ingressClass | httpProxy =>
    rw [KubernetesCache.insert] at h
    split at h
  all_goals
    cases h
    refine ⟨rfl, fun key => ?_⟩
    cases key <;> simp [find, Object.key, Object.accepted, Map.map_lookup_insert, *]

/-- `Remove` clears the key of the object and leaves everything else. -/
theorem find_remove (kc : KubernetesCache) (obj : Object) :
    (kc.remove obj).2.ingressClassName = kc.ingressClassName ∧ ∀ key,
      (kc.remove obj).2.find key = if obj.key = some key then none else kc.find key := by
  cases obj with
  | ingressClass obj =>
    rw [remove]
    split <;> exact ⟨rfl, fun _ => rfl⟩
  | _ =>
    refine ⟨rfl, fun key => ?_⟩
    cases key <;> simp [remove, find, Object.key, Map.map_lookup_erase]

/-! ## Runs -/

variable (lib ord) in
/-- The caches that `Insert` and `Remove` lead to from an empty one; a call that panics
leads nowhere. -/
inductive Reachable : KubernetesCache → Prop
  | empty (rootNamespaces : List String) (ingressClassName : String)
      (configuredSecretRefs : List NamespacedName) :
      Reachable { rootNamespaces, ingressClassName, configuredSecretRefs }
  | insert {kc kc' : KubernetesCache} {obj : Object} {answer : Bool} (before : Reachable kc)
      (result : kc.insert ord lib obj = .ok (answer, kc')) : Reachable kc'
  | remove {kc : KubernetesCache} (before : Reachable kc) (obj : Object) :
      Reachable (kc.remove obj).2

/-- `Insert` and `Remove` keep every object under its own key. -/
theorem Reachable.keyed (h : Reachable lib ord kc) {key : Key} {obj : Object}
    (hfind : kc.find key = some obj) : obj.key = some key := by
  induction h with
  | empty => cases key <;> cases hfind
  | insert _ result ih =>
    rw [(find_insert result).2] at hfind
    split at hfind
    · next hkey =>
      cases hfind
      exact hkey.1
    · exact ih hfind
  | remove _ obj ih =>
    rw [(find_remove _ obj).2] at hfind
    split at hfind
    · cases hfind
    · exact ih hfind

/-- Secrets are stored under their own names. -/
def SecretsKeyed (kc : KubernetesCache) : Prop :=
  ∀ name sec, kc.secrets.lookup name = some sec → namespacedNameOf sec.toObjectMeta = name

/-- `Insert` and `Remove` keep secrets under their own names. -/
theorem Reachable.secretsKeyed (h : Reachable lib ord kc) : kc.SecretsKeyed := by
  intro name sec hsec
  have hfind : kc.find (.secret name) = some (.secret sec) := by rw [find, hsec]; rfl
  simpa [Object.key] using h.keyed hfind

/-- Services are stored under their own names. -/
def ServicesKeyed (kc : KubernetesCache) : Prop :=
  ∀ name svc, kc.services.lookup name = some svc → name = { ns := svc.ns, name := svc.name }

/-- A Service of Kubernetes has a namespace, and `Insert` stores it under its own name. -/
theorem Reachable.servicesKeyed (h : Reachable lib ord kc)
    (hns : ∀ name svc, kc.services.lookup name = some svc → svc.ns ≠ "") : kc.ServicesKeyed := by
  intro name svc hsvc
  have hfind : kc.find (.service name) = some (.service svc) := by rw [find, hsvc]; rfl
  have hname : namespacedNameOf svc.toObjectMeta = name := by
    simpa [Object.key] using h.keyed hfind
  rw [← hname, namespacedNameOf, if_neg (hns name svc hsvc)]

end KubernetesCache

end Sesame.Dag
