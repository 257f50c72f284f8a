/-
# The routes that a listener takes

Whether a route is computed for a listener depends on the listener, which must be
valid and accept routes of that kind, on its allowed namespaces and on the parent
references of the route. Two of these checks do not do what they are for. A
namespace that is not in the cache counts as selected by every selector. And the
first reference to the Gateway decides alone: if it names another listener, a
later reference to this one is never read.
-/

import Sesame.Dag.RoutePasses

namespace Sesame.Dag.GatewayAPIProcessor

open Lib Api

/-! ## Namespaces and parents -/

variable {routeNamespace : String}

section

variable (lib : Stdlib) (source : KubernetesCache) (gateway : Gateway) (listener : GatewayListener)

/-- The selector of the listener selects a namespace by the labels of its object in the
cache. -/
def SelectorMatches (routeNamespace : String) : Prop :=
  ∃ selector ns l, listener.allowedNamespaces.bind (·.selector) = some selector ∧
    source.namespaces.lookup routeNamespace = some ns ∧
    lib.labelSelectorAsSelector selector = .ok l ∧ l ns.labels = true

/-- The allowed namespaces of the listener admit a namespace. Without a setting they admit
all. -/
def AdmitsNamespace (routeNamespace : String) : Prop :=
  match listener.allowedNamespaces.bind (·.fromNamespaces) with
  | none | some .all => True
  | some .same => routeNamespace = gateway.ns
  | some .selector => SelectorMatches lib source listener routeNamespace

/-- The listener allows namespaces by a selector. -/
def BySelector : Prop := listener.allowedNamespaces.bind (·.fromNamespaces) = some .selector

/-- The selector of the listener asks for some label. -/
def AsksForLabels : Prop := selectorEmpty (listener.allowedNamespaces.bind (·.selector)) = false

/-- The parent reference names no section, or the listener. -/
def NamesListener (ref : ParentRef) : Prop :=
  ref.sectionName = none ∨ ref.sectionName = some "" ∨ ref.sectionName = some listener.name
  deriving Decidable

/-- Some parent reference selects the listener. -/
def SelectsListener (parentRefs : List ParentRef) (routeNamespace : String) : Prop :=
  ∃ ref ∈ parentRefs, refersToGateway gateway routeNamespace ref = true ∧ NamesListener listener ref

/-- The first parent reference to the Gateway names another section. -/
def FirstNamesOther (parentRefs : List ParentRef) (routeNamespace : String) : Prop :=
  ∃ ref, parentRefs.find? (refersToGateway gateway routeNamespace) = some ref ∧
    ¬ NamesListener listener ref

variable {lib source gateway listener}

/-- `namespaceMatches` also lets unknown namespaces pass under a selector, and lets nothing
pass under a selector that asks for no label. -/
theorem namespaceMatches_iff :
    namespaceMatches lib source gateway listener.allowedNamespaces routeNamespace = true ↔
      (AdmitsNamespace lib source gateway listener routeNamespace ∧
        (BySelector listener → AsksForLabels listener)) ∨
      (BySelector listener ∧ AsksForLabels listener ∧
        source.namespaces.lookup routeNamespace = none) := by
  unfold namespaceMatches AdmitsNamespace BySelector AsksForLabels SelectorMatches
  cases listener.allowedNamespaces.bind (·.fromNamespaces) with
  | none => simp
  | some origin =>
    cases origin with
    | all => simp
    | same => simp [@eq_comm _ gateway.ns]
    | selector =>
      cases listener.allowedNamespaces.bind (·.selector) with
      | none => simp [selectorEmpty]
      | some selector =>
        cases hempty : selectorEmpty (some selector) with
        | true => simp [hempty]
        | false =>
          cases source.namespaces.lookup routeNamespace with
          | none => simp [hempty]
          | some ns =>
            cases hlabels : lib.labelSelectorAsSelector selector with
            | error err => simp [hempty, hlabels]
            | ok l => simp [hempty, hlabels]

/-- `routeSelectsGatewayListener` reads the first reference to the Gateway only. -/
theorem routeSelectsGatewayListener_iff {parentRefs : List ParentRef} :
    routeSelectsGatewayListener gateway listener parentRefs routeNamespace = true ↔
      SelectsListener gateway listener parentRefs routeNamespace ∧
        ¬ FirstNamesOther gateway listener parentRefs routeNamespace := by
  unfold routeSelectsGatewayListener SelectsListener FirstNamesOther
  cases hfirst : parentRefs.find? (refersToGateway gateway routeNamespace) with
  | none =>
    refine iff_of_false (by simp) ?_
    rintro ⟨⟨ref, hmem, hrefers, -⟩, -⟩
    exact List.find?_eq_none.mp hfirst ref hmem hrefers
  | some first =>
    have hnames : (decide (first.sectionName = none) || decide (first.sectionName = some "") ||
        decide (first.sectionName = some listener.name)) = true ↔ NamesListener listener first := by
      simp [NamesListener, or_assoc]
    rw [hnames]
    constructor
    · intro h
      refine ⟨⟨first, List.mem_of_find?_eq_some hfirst, List.find?_some hfirst, h⟩, ?_⟩
      rintro ⟨ref, href, hother⟩
      obtain rfl := Option.some.inj href
      exact hother h
    · rintro ⟨-, hfirst⟩
      by_contra hother
      exact hfirst ⟨first, rfl, hother⟩

end

/-! ## The listener misjudges a route -/

section

variable (lib : Stdlib) (source : KubernetesCache) (gateway : Gateway) (listener : GatewayListener)

/-- The ways in which a listener that takes routes of its kind misjudges a route. -/
inductive Misjudges (route : AnyRoute) : Prop
  /-- The namespace is not in the cache and passes a selector. -/
  | unknownNamespace (hselector : BySelector listener) (hlabels : AsksForLabels listener)
      (hunknown : source.namespaces.lookup route.ns = none)
      (hselects : SelectsListener gateway listener route.parentRefs route.ns)
      (hfirst : ¬ FirstNamesOther gateway listener route.parentRefs route.ns)
  /-- The selector asks for no label, so it matches, and the namespace does not pass. -/
  | emptySelector (hselector : BySelector listener) (hlabels : ¬ AsksForLabels listener)
      (hmatches : SelectorMatches lib source listener route.ns)
      (hselects : SelectsListener gateway listener route.parentRefs route.ns)
  /-- A reference to the listener stands behind one to another listener. -/
  | laterReference (hadmits : AdmitsNamespace lib source gateway listener route.ns)
      (hselects : SelectsListener gateway listener route.parentRefs route.ns)
      (hfirst : FirstNamesOther gateway listener route.parentRefs route.ns)

variable {lib source gateway listener}

theorem admitsNamespace_of_bySelector (h : BySelector listener) :
    AdmitsNamespace lib source gateway listener routeNamespace ↔
      SelectorMatches lib source listener routeNamespace := by
  rw [AdmitsNamespace, show listener.allowedNamespaces.bind (·.fromNamespaces) = _ from h]

/-- A route in the cache is computed for exactly those listeners whose namespaces admit it
and that it selects by some reference, unless a listener misjudges it or does not take
routes of its kind. -/
theorem computes_iff_admitted (lib : Stdlib) (ord : MapOrder) (source : KubernetesCache)
    (gateway : Gateway) (listener : GatewayListener)
    (route : { r : AnyRoute // r.InCache source }) :
    (Computes lib ord source gateway listener route ↔
      AdmitsNamespace lib source gateway listener route.1.ns ∧
        SelectsListener gateway listener route.1.parentRefs route.1.ns) ↔
    (TakesKind lib ord source gateway listener route.1.kind ∧
        ¬ Misjudges lib source gateway listener route) ∨
      (¬ TakesKind lib ord source gateway listener route.1.kind ∧
        ¬ (AdmitsNamespace lib source gateway listener route.1.ns ∧
          SelectsListener gateway listener route.1.parentRefs route.1.ns)) := by
  obtain ⟨route, hcache⟩ := route
  rw [computes_iff, Takes, takesRoute, Bool.and_eq_true, namespaceMatches_iff,
    routeSelectsGatewayListener_iff]
  by_cases htakes : TakesKind lib ord source gateway listener route.kind
  · simp only [hcache, htakes, true_and, not_true, false_and, or_false]
    constructor
    · intro h hmisjudges
      cases hmisjudges with
      | unknownNamespace hselector hlabels hunknown hselects hfirst =>
        have hadmits := (h.mp ⟨.inr ⟨hselector, hlabels, hunknown⟩, hselects, hfirst⟩).1
        obtain ⟨_, ns, _, -, hknown, -⟩ := (admitsNamespace_of_bySelector hselector).mp hadmits
        rw [hunknown] at hknown
        cases hknown
      | emptySelector hselector hlabels hmatches hselects =>
        have hadmits : AdmitsNamespace lib source gateway listener route.ns :=
          (admitsNamespace_of_bySelector hselector).mpr hmatches
        rcases (h.mpr ⟨hadmits, hselects⟩).1 with ⟨-, hasks⟩ | ⟨-, hasks, -⟩
        · exact hlabels (hasks hselector)
        · exact hlabels hasks
      | laterReference hadmits hselects hfirst => exact (h.mpr ⟨hadmits, hselects⟩).2.2 hfirst
    · intro h
      constructor
      · rintro ⟨⟨hadmits, -⟩ | ⟨hselector, hlabels, hunknown⟩, hselects, hfirst⟩
        · exact ⟨hadmits, hselects⟩
        · exact absurd (.unknownNamespace hselector hlabels hunknown hselects hfirst) h
      · rintro ⟨hadmits, hselects⟩
        refine ⟨.inl ⟨hadmits, fun hselector => ?_⟩, hselects, fun hfirst => ?_⟩
        · by_contra hlabels
          have hmatches := (admitsNamespace_of_bySelector hselector).mp hadmits
          exact h (.emptySelector hselector hlabels hmatches hselects)
        · exact h (.laterReference hadmits hselects hfirst)
  · simp [htakes]

def openListener (name : String) : GatewayListener where
  name
  protocol := .http

def labelledListener : GatewayListener where
  name := "prod"
  protocol := .http
  allowedNamespaces := some
    { fromNamespaces := some .selector,
      selector := some { matchLabels := (∅ : Map String String).insert "env" "prod" } }

/-- A Gateway with two listeners for all namespaces and one for labelled ones. -/
def labelledGateway : Gateway where
  name := "g"
  ns := "n"
  listeners := [openListener "a", openListener "b", labelledListener]

/-- A parent reference to a section of that Gateway. -/
def sectionRef (sectionName : Option String) : ParentRef where
  group := some gatewayGroupName
  kind := some "Gateway"
  ns := some "n"
  name := "g"
  sectionName

/-- A route for the listeners `a` and `b`. -/
def twoListenersRoute : HTTPRoute where
  name := "two"
  ns := "n"
  parentRefs := [sectionRef (some "a"), sectionRef (some "b")]

/-- A route in a namespace that the cache does not hold. -/
def foreignRoute : HTTPRoute where
  name := "foreign"
  ns := "unknown"
  parentRefs := [sectionRef none]

/-- A cache with the two routes and without namespaces. -/
def labelledCache : KubernetesCache where
  gateway := some labelledGateway
  httproutes := byName (·.toObjectMeta) [twoListenersRoute, foreignRoute]

/-- The first route is not computed for the listener `b` although it refers to it, and the
second one is computed for the listener with a selector although nothing is known of its
namespace. -/
theorem routes_misjudged :
    (¬ Computes .plain .storage labelledCache labelledGateway (openListener "b")
        (.http twoListenersRoute) ∧
      AdmitsNamespace .plain labelledCache labelledGateway (openListener "b") "n" ∧
      SelectsListener labelledGateway (openListener "b") twoListenersRoute.parentRefs "n") ∧
    Computes .plain .storage labelledCache labelledGateway labelledListener (.http foreignRoute) ∧
      ¬ AdmitsNamespace .plain labelledCache labelledGateway labelledListener "unknown" := by
  refine ⟨⟨?_, trivial, ?_⟩, ?_, ?_⟩
  · rw [computes_iff]
    rintro ⟨-, -, htakes⟩
    revert htakes
    decide
  · refine ⟨sectionRef (some "b"), ?_, ?_, .inr (.inr rfl)⟩
    · decide
    · decide
  · rw [computes_iff]
    refine ⟨⟨⟨"unknown", "foreign"⟩, by decide +kernel⟩, ⟨?_, ?_⟩, ?_⟩
    · decide
    · decide
    · decide +kernel
  · rintro ⟨_, ns, _, -, hknown, -⟩
    cases hknown

end

end Sesame.Dag.GatewayAPIProcessor
