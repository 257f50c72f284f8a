/-
# What is found wrong with a route

The checks of a route of the Gateway API record their findings on its status: that a
reference or a hostname is not valid, that a path is not valid, that all weights are zero, or
that something is not supported. What they find depends on the hostnames of the route and
the listener and on the rules. Findings of one type make one condition: its message joins
theirs.
-/

import Sesame.Dag.SharedRoutes

namespace Sesame.Dag.GatewayAPIProcessor

open List
open Lib Api
open Status (RouteConditionsUpdate)

/-- The faults of a route; each has a condition of its own, with status False. -/
inductive Fault
  | refs
  | paths
  | weights
  deriving DecidableEq

def Fault.type : Fault → String
  | .refs => "ResolvedRefs"
  | .paths => "ValidMatches"
  | .weights => "ValidBackendRefs"

def Fault.reason : Fault → String
  | .refs => "Degraded"
  | .paths => "InvalidPathMatch"
  | .weights => "AllBackendRefsHaveZeroWeights"

/-- What one check finds. -/
inductive Finding
  | fault (kind : Fault) (message : String)
  | unsupported (reason message : String)

/-- Record it on the status of the route. -/
def Finding.record (u : RouteConditionsUpdate) : Finding → RouteConditionsUpdate
  | .fault kind message => u.addCondition kind.type .false kind.reason message
  | .unsupported reason message => u.addCondition "NotImplemented" .true reason message

/-- Record several findings. -/
def record (u : RouteConditionsUpdate) (findings : List Finding) : RouteConditionsUpdate :=
  findings.foldl Finding.record u

/-! ## The checks of a rule -/

variable (lib : Stdlib) (ord : MapOrder) (p : GatewayAPIProcessor) (source : KubernetesCache)

def pathFindings (m : Option HTTPPathMatch) : List Finding :=
  match m with
  | none => []
  | some m =>
    match m.type.getD .pathPrefix with
    | .pathPrefix | .exact => (pathValueError (m.value.getD "/")).toList.map (.fault .paths)
    | .regularExpression =>
      [.unsupported "PathMatchType"
        ("HTTPRoute.Spec.Rules.PathMatch: Only Prefix match type and Exact match type are " ++
          "supported.")]

/-- The check of a match. The headers are looked at if the path is valid. -/
def matchFindings (m : HTTPRouteMatch) : List Finding :=
  if pathFindings m.path = [] ∧ gatewayHeaderMatchConditions m.headers = none then
    [.unsupported "HeaderMatchType"
      "HTTPRoute.Spec.Rules.HeaderMatch: Only Exact match type is supported."]
  else pathFindings m.path

def headerFindings (filter : HTTPRequestHeaderFilter) : List Finding :=
  match (headersPolicyGatewayAPI lib ord filter).2 with
  | [] => []
  | errs => [.fault .refs (aggregateError errs ++ " on request headers")]

/-- The checks of the filters of a rule; `seen` says whether there was a header modifier. -/
def filterFindings : Bool → List HTTPRouteFilter → List Finding
  | _, [] => []
  | seen, .requestHeaderModifier filter :: rest =>
    (if seen then [] else headerFindings lib ord filter) ++ filterFindings true rest
  | seen, .requestRedirect _ :: rest => filterFindings seen rest
  | seen, .other type :: rest =>
    .unsupported "HTTPRouteFilterType"
      ("HTTPRoute.Spec.Rules.Filters: invalid type " ++ lib.quote type ++
        ": only RequestHeaderModifier and RequestRedirect are supported.") ::
      filterFindings seen rest

def backendFilterFindings : HTTPRouteFilter → List Finding
  | .requestHeaderModifier filter => headerFindings lib ord filter
  | .requestRedirect _ | .other _ =>
    [.unsupported "HTTPRouteFilterType"
      "HTTPRoute.Spec.Rules.BackendRef.Filters: Only RequestHeaderModifier type is supported."]

/-- The check of a backend; those of its filters follow if it is valid. -/
def backendFindings (routeKind routeNamespace : String) (backendRef : BackendRef)
    (filters : List HTTPRouteFilter) : List Finding :=
  match validateBackendRef lib ord p source backendRef routeKind routeNamespace with
  | .error err => [.fault .refs err]
  | .ok _ => filters.flatMap (backendFilterFindings lib ord)

def noBackend : Finding := .fault .refs "At least one Spec.Rules.BackendRef must be specified."

/-- The checks of a rule of an HTTPRoute. Backends are looked at if there is no redirect. -/
def httpRuleFindings (routeNamespace : String) (rule : HTTPRouteRule) : List Finding :=
  rule.matchRules.flatMap matchFindings ++ filterFindings lib ord false rule.filters ++
    if (redirectFilter rule).isSome then []
    else if rule.backendRefs = [] then [noBackend]
    else
      rule.backendRefs.flatMap fun backendRef =>
        backendFindings lib ord p source "HTTPRoute" routeNamespace backendRef.toBackendRef
          backendRef.filters

/-- The backends of a rule of a TLSRoute that are valid. -/
def validBackends (routeNamespace : String) (rule : List BackendRef) : List BackendRef :=
  rule.filter fun backendRef =>
    (validateBackendRef lib ord p source backendRef "TLSRoute" routeNamespace).isOk

def tlsRuleFindings (routeNamespace : String) (rule : List BackendRef) : List Finding :=
  let valid := validBackends lib ord p source routeNamespace rule
  if rule = [] then [noBackend]
  else
    (rule.flatMap fun backendRef =>
      backendFindings lib ord p source "TLSRoute" routeNamespace backendRef []) ++
    if valid ≠ [] ∧ valid.foldl (fun total backendRef => total + backendWeight backendRef) 0 = 0
      then
      [.fault .weights "At least one Spec.Rules.BackendRef must have a non-zero weight."]
    else []

/-! ## The code records the findings -/

variable {lib ord p source} {u : RouteConditionsUpdate}

theorem record_append (u : RouteConditionsUpdate) (fs gs : List Finding) :
    record u (fs ++ gs) = record (record u fs) gs := foldl_append

theorem foldl_record {α : Type} (g : α → List Finding) (xs : List α) (u : RouteConditionsUpdate) :
    xs.foldl (fun u x => record u (g x)) u = record u (xs.flatMap g) := foldl_flatMap.symm

/-- A loop whose steps record findings on a part of the state. -/
theorem foldl_records {σ α : Type} (status : σ → RouteConditionsUpdate) {step : σ → α → σ}
    {g : α → List Finding} (hstep : ∀ s x, status (step s x) = record (status s) (g x))
    (xs : List α) (s : σ) : status (xs.foldl step s) = record (status s) (xs.flatMap g) := by
  rw [← foldl_record, foldl_hom status fun s x => (hstep s x).symm]

theorem gatewayPathMatchCondition_records (m : Option HTTPPathMatch) (u : RouteConditionsUpdate) :
    (gatewayPathMatchCondition m u).2 = record u (pathFindings m) ∧
      ((gatewayPathMatchCondition m u).1 = none ↔ pathFindings m ≠ []) := by
  cases m with
  | none => simp [gatewayPathMatchCondition, pathFindings, record]
  | some m =>
    rw [gatewayPathMatchCondition, pathFindings]
    cases m.type.getD .pathPrefix with
    | regularExpression => simp [record, Finding.record]
    | _ =>
      cases pathValueError (m.value.getD "/") with
      | none => simp [record]
      | some message => simp [record, Finding.record, rejectPath, Fault.type, Fault.reason]

theorem addMatch_records (acc : List MatchConditions × RouteConditionsUpdate) (m : HTTPRouteMatch) :
    (addMatch acc m).2 = record acc.2 (matchFindings m) := by
  obtain ⟨hrecords, hnone⟩ := gatewayPathMatchCondition_records m.path acc.2
  rw [addMatch, matchFindings]
  generalize gatewayPathMatchCondition m.path acc.2 = found at hrecords hnone ⊢
  rcases found with ⟨_ | path, u⟩
  · rw [if_neg fun h => hnone.mp rfl h.1]
    exact hrecords
  · have hvalid : pathFindings m.path = [] := by simpa using hnone
    rw [hvalid] at hrecords ⊢
    cases gatewayHeaderMatchConditions m.headers with
    | none =>
      rw [show u = acc.2 from hrecords]
      rfl
    | some headers => exact hrecords

theorem requestHeaders_records (filter : HTTPRequestHeaderFilter) (u : RouteConditionsUpdate) :
    (requestHeaders lib ord filter u).2 = record u (headerFindings lib ord filter) := by
  rw [requestHeaders, headerFindings]
  rcases headersPolicyGatewayAPI lib ord filter with ⟨policy, _ | ⟨err, errs⟩⟩ <;> rfl

variable (lib ord) in
theorem addRuleFilter_records (filters : List HTTPRouteFilter) (acc : RuleFilters) :
    (filters.foldl (addRuleFilter lib ord) acc).routeAccessor =
      record acc.routeAccessor (filterFindings lib ord acc.headerPolicy.isSome filters) := by
  induction filters generalizing acc with
  | nil => rfl
  | cons filter rest ih =>
    rw [foldl_cons, ih]
    cases filter with
    | requestHeaderModifier filter =>
      rw [addRuleFilter, filterFindings]
      by_cases hseen : acc.headerPolicy.isSome = true
      · rw [if_pos hseen, if_pos hseen, hseen]
        rfl
      · rw [if_neg hseen, if_neg hseen, record_append, ← requestHeaders_records]
        rfl
    | requestRedirect filter => rfl
    | other type => rfl

theorem addBackend_records (routeNamespace : String) (acc : Backends)
    (backendRef : HTTPBackendRef) :
    (addBackend lib ord p source routeNamespace acc backendRef).routeAccessor =
      record acc.routeAccessor (backendFindings lib ord p source "HTTPRoute" routeNamespace
        backendRef.toBackendRef backendRef.filters) := by
  rw [addBackend, backendFindings]
  cases validateBackendRef lib ord p source backendRef.toBackendRef "HTTPRoute" routeNamespace with
  | error err => rfl
  | ok service =>
    refine foldl_records Prod.snd (fun acc filter => ?_) _ _
    cases filter with
    | requestHeaderModifier filter => exact requestHeaders_records filter acc.2
    | _ => rfl

/-- A rule of an HTTPRoute records its findings. -/
theorem ruleRoutes_records (routeNamespace : String) (rule : HTTPRouteRule)
    (u : RouteConditionsUpdate) :
    (ruleRoutes lib ord p source routeNamespace rule u).2 =
      record u (httpRuleFindings lib ord p source routeNamespace rule) := by
  have hmatches : (matchConditions rule u).2 = record u (rule.matchRules.flatMap matchFindings) :=
    foldl_records Prod.snd addMatch_records rule.matchRules _
  have hfilters := addRuleFilter_records lib ord rule.filters
    { routeAccessor := (matchConditions rule u).2 }
  have hredirect := foldl_addRuleFilter_redirect lib ord rule.filters
    { routeAccessor := (matchConditions rule u).2 }
  rw [Option.none_or] at hredirect
  change _ = redirectFilter rule at hredirect
  rw [ruleRoutes, httpRuleFindings, record_append, record_append, ← hmatches]
  dsimp only at hfilters ⊢
  rw [Option.isSome_none] at hfilters
  rw [← hfilters, ← hredirect]
  split
  · next hsome =>
    rw [hsome]
    rfl
  · next hnone =>
    rw [hnone, clusterRoutes]
    by_cases hbackends : rule.backendRefs = []
    · rw [if_pos hbackends, if_neg (by decide), if_pos hbackends]
      rfl
    · rw [if_neg hbackends, if_neg (by decide), if_neg hbackends]
      exact foldl_records Backends.routeAccessor (addBackend_records routeNamespace) _ _

variable (lib ord p source) in
/-- The backends of a rule of a TLSRoute record their findings, and the clusters are those of
the valid ones. -/
theorem addTLSBackend_records (routeNamespace : String) (rule : List BackendRef) (acc : Backends) :
    let done := rule.foldl (addTLSBackend lib ord p source routeNamespace) acc
    let valid := validBackends lib ord p source routeNamespace rule
    done.routeAccessor = record acc.routeAccessor (rule.flatMap fun backendRef =>
        backendFindings lib ord p source "TLSRoute" routeNamespace backendRef []) ∧
      (done.clusters = [] ↔ acc.clusters = [] ∧ valid = []) ∧
      done.totalWeight =
        valid.foldl (fun total backendRef => total + backendWeight backendRef) acc.totalWeight := by
  induction rule generalizing acc with
  | nil => simp [validBackends, record]
  | cons backendRef rest ih =>
    obtain ⟨hrecords, hclusters, hweight⟩ :=
      ih (addTLSBackend lib ord p source routeNamespace acc backendRef)
    simp only [validBackends] at hclusters hweight ⊢
    rw [foldl_cons, hrecords, hclusters, hweight, flatMap_cons, record_append, filter_cons,
      addTLSBackend, backendFindings]
    cases validateBackendRef lib ord p source backendRef "TLSRoute" routeNamespace with
    | error err => exact ⟨rfl, Iff.rfl, rfl⟩
    | ok service => simp [Except.isOk, Except.toBool, record]

/-! ## Conditions -/

/-- The message of a finding, if it is of the fault. -/
def Finding.messageOf (fault : Fault) : Finding → Option String
  | .fault kind message => if kind = fault then some message else none
  | .unsupported _ _ => none

def messages (fault : Fault) (findings : List Finding) : List String :=
  findings.filterMap (Finding.messageOf fault)

/-- A further message is joined by a comma. -/
def addText (text : Option String) (message : String) : Option String :=
  some (text.elim message (· ++ ", " ++ message))

/-- The text of a condition with some messages, if there are any. -/
def joined (messages : List String) : Option String := messages.foldl addText none

def Fault.condition (fault : Fault) (generation : Int64) (message : String) : Condition :=
  { type := fault.type, status := .false, reason := fault.reason, message,
    observedGeneration := generation }

theorem record_eq (u : RouteConditionsUpdate) (fs : List Finding) :
    record u fs = { u with conditions := (record u fs).conditions } := by
  refine foldlRecOn _ _ (motive := fun v : RouteConditionsUpdate =>
    v = { u with conditions := v.conditions }) rfl fun v hv f _ => ?_
  rw [hv]
  cases f <;> rfl

theorem Finding.lookup_record (f : Finding) {fault : Fault} {text : Option String}
    (h : u.conditions.lookup fault.type = text.map (fault.condition u.generation)) :
    (f.record u).conditions.lookup fault.type =
      ((f.messageOf fault).elim text (addText text)).map (fault.condition u.generation) := by
  have hother : ∀ type status reason message, fault.type ≠ type →
      (u.addCondition type status reason message).conditions.lookup fault.type =
        text.map (fault.condition u.generation) := by
    intro type status reason message hne
    rw [RouteConditionsUpdate.addCondition, Map.lookup_insert_eq, if_neg hne, h]
  cases f with
  | unsupported reason message => exact hother _ _ _ _ (by cases fault <;> decide)
  | fault kind message =>
    by_cases hsame : kind = fault
    · subst hsame
      simp only [record, RouteConditionsUpdate.addCondition, Map.lookup_insert_eq, if_true, h,
        messageOf]
      cases text <;> rfl
    · rw [messageOf, if_neg hsame]
      refine hother _ _ _ _ ?_
      revert hsame
      cases kind <;> cases fault <;> decide

theorem lookup_record {fault : Fault} (fs : List Finding) {text : Option String}
    (h : u.conditions.lookup fault.type = text.map (fault.condition u.generation)) :
    (record u fs).conditions.lookup fault.type =
      ((messages fault fs).foldl addText text).map (fault.condition u.generation) := by
  induction fs generalizing u text with
  | nil => exact h
  | cons f rest ih =>
    have hgeneration : (f.record u).generation = u.generation := by cases f <;> rfl
    have hstep := f.lookup_record h
    rw [← hgeneration] at hstep
    have hrest := ih hstep
    rw [hgeneration] at hrest
    rw [messages, filterMap_cons]
    cases hmessage : f.messageOf fault with
    | none =>
      rw [hmessage] at hrest
      exact hrest
    | some message =>
      rw [hmessage] at hrest
      exact hrest

end Sesame.Dag.GatewayAPIProcessor
