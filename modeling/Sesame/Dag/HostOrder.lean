/-
# Runs and the order of range loops

A run of the HTTPProxy processor ranges over maps: the proxies, the roots by fqdn, the
groups of routes by prefix, the default headers. A host keeps the last route of each key,
so all that matters is the order of the routes of one key: if keys tell match conditions
apart, these routes belong to one group, and a group is kept in order.
-/

import Sesame.Dag.FreeTexts
import Sesame.Dag.Orphans

namespace Sesame.Dag

open List
open Lib Api

/-! ## Hosts up to storage -/

/-- Hosts with the same routes under every key. -/
def VirtualHost.Same (a b : VirtualHost) : Prop :=
  ∃ routes, (∀ key, Option.Rel Route.Same (a.routes.lookup key) (routes.lookup key)) ∧
    b = { a with routes }

/-- Secure hosts with the same routes under every key. -/
def SecureVirtualHost.Same (a b : SecureVirtualHost) : Prop :=
  ∃ host, a.toVirtualHost.Same host ∧ b = { a with toVirtualHost := host }

/-- The same hosts of one name. -/
structure Hosts.Same (a b : Hosts) : Prop where
  plain : Option.Rel VirtualHost.Same a.plain b.plain
  secure : Option.Rel SecureVirtualHost.Same a.secure b.secure

theorem Route.rel_refl (r : Option Route) : Option.Rel Route.Same r r := by
  cases r with
  | none => exact .none
  | some r => exact .some (Route.Same.refl r)

theorem VirtualHost.Same.refl (v : VirtualHost) : v.Same v :=
  ⟨v.routes, fun key => Route.rel_refl (v.routes.lookup key), rfl⟩

theorem SecureVirtualHost.rel_refl (v : Option SecureVirtualHost) :
    Option.Rel SecureVirtualHost.Same v v := by
  cases v with
  | none => exact .none
  | some v => exact .some ⟨v.toVirtualHost, VirtualHost.Same.refl _, rfl⟩

theorem Hosts.Same.refl (h : Hosts) : h.Same h := by
  refine ⟨?_, SecureVirtualHost.rel_refl h.secure⟩
  cases h.plain with
  | none => exact .none
  | some v => exact .some (VirtualHost.Same.refl v)

namespace HTTPProxyProcessor

variable {s s' : ProxyState} {a b : Hosts}

/-! ## Adding routes -/

variable {lib : Stdlib} {ord ord' : MapOrder} {p : HTTPProxyProcessor} {source : KubernetesCache}
  {proxy : HTTPProxy} {vhost : VirtualHostSpec} {extensions : List ExtensionCluster}

/-! ## Roots -/

/-- The canonical form of an ASCII header name: the first letter and those after a hyphen
in upper case, the others in lower case. -/
def canonicalName (s : String) : String := String.ofList (go true s.toList)
where
  go : Bool → List Char → List Char
    | _, [] => []
    | true, c :: rest => c.toUpper :: go (c = '-') rest
    | false, c :: rest => c.toLower :: go (c = '-') rest

/-- Library functions with canonical header names. -/
def canonicalLib : Stdlib := { Stdlib.plain with canonicalHeaderKey := canonicalName }

end HTTPProxyProcessor

end Sesame.Dag
