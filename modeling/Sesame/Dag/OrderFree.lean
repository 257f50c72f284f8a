/-
# Routes and the order of range loops

Two runs that visit maps in different orders compute the same routes, up to the order in
which `expandPrefixMatches` visits the groups of routes with one prefix, and up to the
storage of the headers that services get by default. The latter needs that no two default
headers are the same header: the loop over the defaults lets the first one win.
-/

import Mathlib.Data.List.DropRight
import Sesame.Lib.ByKey
import Sesame.Lib.LastWrite
import Sesame.Dag.RouteRuns
import Sesame.Dag.StatusLog

namespace Sesame.Dag

open List
open Lib Api
open Status (DetailedCondition ErrorType)

/-! ## Equal up to storage -/

/-- Headers policies that differ in the storage of the headers to set at most. -/
def HeadersPolicy.Same (a b : HeadersPolicy) : Prop := ∃ set, a.set.Same set ∧ b = { a with set }

/-- Clusters that differ in the storage of their headers at most. -/
def Cluster.Same (a b : Cluster) : Prop :=
  ∃ requestHeadersPolicy responseHeadersPolicy,
    Option.Rel HeadersPolicy.Same a.requestHeadersPolicy requestHeadersPolicy ∧
    Option.Rel HeadersPolicy.Same a.responseHeadersPolicy responseHeadersPolicy ∧
    b = { a with requestHeadersPolicy, responseHeadersPolicy }

/-- Routes that differ in the storage of the headers of their clusters at most. -/
def Route.Same (a b : Route) : Prop :=
  ∃ clusters mirrorPolicy, Forall₂ Cluster.Same a.clusters clusters ∧
    Option.Rel Cluster.Same a.mirrorPolicy mirrorPolicy ∧ b = { a with clusters, mirrorPolicy }

theorem HeadersPolicy.Same.refl (a : HeadersPolicy) : a.Same a := ⟨a.set, fun _ => rfl, rfl⟩

theorem HeadersPolicy.rel_refl (a : Option HeadersPolicy) : Option.Rel HeadersPolicy.Same a a := by
  cases a with
  | none => exact .none
  | some a => exact .some (HeadersPolicy.Same.refl a)

theorem Cluster.Same.refl (a : Cluster) : a.Same a :=
  ⟨_, _, HeadersPolicy.rel_refl _, HeadersPolicy.rel_refl _, rfl⟩

theorem Route.Same.refl (a : Route) : a.Same a :=
  HTTPProxyProcessor.relRoute_refl Cluster.Same.refl a

/-! ## Default headers -/

section Defaults

variable (lib : Stdlib)

/-- No two default headers are the same header. -/
def DistinctNames (policy : Option HeadersPolicy) : Prop :=
  ∀ defaults, policy = some defaults → ∀ name name' value value',
    defaults.set.lookup name = some value → defaults.set.lookup name' = some value' →
    lib.canonicalHeaderKey name = lib.canonicalHeaderKey name' → name = name'

/-- A header that services may get by default. -/
def ValidDefault (name : String) : Prop :=
  lib.canonicalHeaderKey name ≠ "Host" ∧ lib.isHTTPHeaderName (lib.canonicalHeaderKey name) = []

/-- All default headers are headers that services may get. -/
def ValidNames (defaults : HeadersPolicy) : Prop :=
  ∀ name value, defaults.set.lookup name = some value → ValidDefault lib name

variable {lib} {ord ord' : MapOrder}

theorem setDefaultHeader_eq (headers set : Map String String) (entry : String × String)
    (h : ValidDefault lib entry.1) :
    setDefaultHeader lib ord headers set entry =
      .ok (set.insertNew (lib.canonicalHeaderKey entry.1)
        (escapeHeaderValue ord entry.2 headers)) := by
  unfold setDefaultHeader Map.insertNew
  dsimp only
  rw [if_neg h.1, if_neg (not_not.mpr h.2)]
  cases set.lookup (lib.canonicalHeaderKey entry.1) <;> rfl

theorem setDefaultHeader_error (headers set : Map String String) {entry : String × String}
    (h : ¬ ValidDefault lib entry.1) :
    ∃ err, setDefaultHeader lib ord headers set entry = .error err := by
  unfold setDefaultHeader
  dsimp only
  by_cases hhost : lib.canonicalHeaderKey entry.1 = "Host"
  · exact ⟨_, if_pos hhost⟩
  · have hname : lib.isHTTPHeaderName (lib.canonicalHeaderKey entry.1) ≠ [] :=
      fun hname => h ⟨hhost, hname⟩
    rw [if_neg hhost, if_pos hname]
    exact ⟨_, rfl⟩

variable (lib ord) in
/-- The loop over the default headers fails if one is not valid, and otherwise the first
value of a header stays. -/
theorem foldlM_setDefaultHeader (headers : Map String String) (defaults : HeadersPolicy)
    (set : Map String String) :
    (ValidNames lib defaults →
      (ord.range "headersPolicyService" defaults.set).foldlM
        (setDefaultHeader lib ord headers) set =
        .ok ((ord.range "headersPolicyService" defaults.set).foldl
          (fun set e => set.insertNew (lib.canonicalHeaderKey e.1)
            (escapeHeaderValue ord e.2 headers)) set)) ∧
      (¬ ValidNames lib defaults →
        ∃ err, (ord.range "headersPolicyService" defaults.set).foldlM
          (setDefaultHeader lib ord headers) set = .error err) := by
  constructor
  · intro hvalid
    refine foldlM_eq_ok (fun set e he => setDefaultHeader_eq headers set e ?_) set
    exact hvalid e.1 e.2 (ord.mem_range.mp he)
  · intro hinvalid
    obtain ⟨name, value, hlookup, hname⟩ : ∃ name value,
        defaults.set.lookup name = some value ∧ ¬ ValidDefault lib name := by
      simpa [ValidNames] using hinvalid
    exact foldlM_eq_error (x := (name, value)) (ord.mem_range.mpr hlookup)
      (fun set => setDefaultHeader_error headers set hname) set

/-- Escaping ranges over the variables at sites of its own. -/
theorem escapeHeaderValue_sameExcept {sites : List String}
    (h : MapOrder.SameExcept sites ord ord')
    (hsites : ∀ site ∈ sites, site.toList.take 2 ≠ ['e', 's']) (value : String)
    (headers : Map String String) :
    escapeHeaderValue ord value headers = escapeHeaderValue ord' value headers := by
  have hsite : "escapeHeaderValue " ++ value ∉ sites := by
    intro hmem
    exact hsites _ hmem (by simp)
  unfold escapeHeaderValue
  rw [h.range hsite]

variable (hescape : ∀ value headers,
  escapeHeaderValue ord value headers = escapeHeaderValue ord' value headers)

include hescape

theorem headersPolicyRoute_order (policy : Option Api.HeadersPolicy) (allowHostRewrite : Bool)
    (headers : Map String String) :
    headersPolicyRoute lib ord policy allowHostRewrite headers =
      headersPolicyRoute lib ord' policy allowHostRewrite headers := by
  have hset : setHeader lib ord allowHostRewrite headers =
      setHeader lib ord' allowHostRewrite headers := by
    funext acc entry
    unfold setHeader
    rw [hescape]
  unfold headersPolicyRoute
  rw [hset]

end Defaults

theorem KubernetesCache.delegationPermitted_order (source : KubernetesCache) (ord ord' : MapOrder)
    (secret : NamespacedName) (targetNamespace : String) :
    source.delegationPermitted ord secret targetNamespace =
      source.delegationPermitted ord' secret targetNamespace := by
  unfold KubernetesCache.delegationPermitted
  rw [(ord.values_perm ord' _ _).any_eq]

/-! ## One route -/

namespace HTTPProxyProcessor

variable {vc vc' : DetailedCondition} {lbPolicy : LoadBalancerStrategy} {r : Route}

/-- A computed root leads to a proxy with a route to a service. -/
def ServesRoutes (lib : Stdlib) (p : HTTPProxyProcessor) (source : KubernetesCache) : Prop :=
  ∃ proxy, Reached lib source proxy ∧ includeMatchConditionsIdentical proxy.includes = false ∧
    ∃ spec ∈ proxy.routes, HasService lib p source proxy spec

/-- Header values are escaped alike in both orders, and no two default headers have the
same canonical name if a route to a service is computed. -/
structure FixedHeaders (lib : Stdlib) (p : HTTPProxyProcessor) (source : KubernetesCache)
    (ord ord' : MapOrder) : Prop where
  escape : ∀ value headers,
    escapeHeaderValue ord value headers = escapeHeaderValue ord' value headers
  request : ServesRoutes lib p source → DistinctNames lib p.requestHeadersPolicy
  response : ServesRoutes lib p source → DistinctNames lib p.responseHeadersPolicy

/-- Two orders that can be exchanged, as far as conditions are compared by `K`, which does
not look at messages. -/
structure Interchangeable (lib : Stdlib) (p : HTTPProxyProcessor) (source : KubernetesCache)
    (ord ord' : MapOrder) (K E : DetailedCondition → DetailedCondition → Prop) : Prop extends
    KeptByRecording K E, FixedHeaders lib p source ord ord' where
  messages : ∀ a b type reason message message', type ≠ .orphanedError → K a b →
    E (a.addError type reason message) (b.addError type reason message')

variable {lib : Stdlib} {ord ord' : MapOrder} {p : HTTPProxyProcessor} {source : KubernetesCache}
  {K E : DetailedCondition → DetailedCondition → Prop}

variable (h : Interchangeable lib p source ord ord' K E)

include h

omit h

theorem toList_trimSlashes (s : String) :
    (trimSlashes s).toList = (s.toList.reverse.dropWhile (· = '/')).reverse :=
  String.toList_ofList

theorem groupPrefix_of_ne {s : String} (h : s ≠ "/") : groupPrefix s = trimSlashes s := if_neg h

end HTTPProxyProcessor

end Sesame.Dag
