/-
# Two computations of routes side by side

`computeRoutes` records errors and warnings in conditions that it is handed, and
commits them to the status cache. Two runs whose steps agree give up at the same
places, and routes and conditions that were related in a way that this keeps stay
related. One case is that of two runs that differ in what the conditions and the
cache hold: they compute the same routes.
-/

import Sesame.Dag.Traversal

namespace Sesame.Dag.HTTPProxyProcessor

open List
open Lib Api
open Status (DetailedCondition ErrorType)

variable {lib : Stdlib} {ord : MapOrder} {p : HTTPProxyProcessor} {source : KubernetesCache}

variable {type : ErrorType} {vc vc' : DetailedCondition} {root : Root} {enforceTLS : Bool}
  {pos : Position} {st st' : LoopState} {lbPolicy : LoadBalancerStrategy}

/-! ## Conditions -/

/-- Recording the same error or warning in both keeps conditions related by `K`, and `E`
relates them after an error. No route is orphaned, so that error is left out. -/
structure KeptByRecording (K E : DetailedCondition → DetailedCondition → Prop) : Prop where
  rejected : ∀ a b type reason message, type ≠ .orphanedError → K a b →
    E (a.addError type reason message) (b.addError type reason message)
  recorded : ∀ a b, E a b → K a b
  warned : ∀ a b type reason message, K a b →
    K (a.addWarning type reason message) (b.addWarning type reason message)

theorem keptByRecording_any : KeptByRecording (fun _ _ => True) (fun _ _ => True) :=
  ⟨fun _ _ _ _ _ _ _ => trivial, fun _ _ _ => trivial, fun _ _ _ _ _ _ => trivial⟩

theorem keptByRecording_eq : KeptByRecording Eq Eq where
  rejected _ _ type reason message _ h := congrArg (·.addError type reason message) h
  recorded _ _ h := h
  warned _ _ type reason message h := congrArg (·.addWarning type reason message) h

variable {K E : DetailedCondition → DetailedCondition → Prop} (hkept : KeptByRecording K E)
  {C : Cluster → Cluster → Prop}

include hkept

theorem KeptByRecording.addError {a b : DetailedCondition} (h : K a b)
    (htype : type ≠ .orphanedError) (reason message : String) :
    K (a.addError type reason message) (b.addError type reason message) :=
  hkept.recorded _ _ (hkept.rejected a b type reason message htype h)

/-! ## One route -/

theorem reject_agree {α β : Type} {R : α → β → Prop} (h : K vc vc') (htype : type ≠ .orphanedError)
    (reason message : String) :
    Agree E R (reject vc type reason message) (reject vc' type reason message) :=
  hkept.rejected vc vc' type reason message htype h

theorem require_agree {α : Type} (check : Except String α) (h : K vc vc')
    (htype : type ≠ .orphanedError) (reason : String) (message : String → String) :
    Agree E Eq (require check vc type reason message) (require check vc' type reason message) := by
  cases check with
  | error err => exact reject_agree hkept h htype reason (message err)
  | ok a => exact rfl

omit hkept in
/-- Loops over hash policies that have kept the same, with related conditions. -/
def SameHashPolicies (K : DetailedCondition → DetailedCondition → Prop) (a b : HashPolicies) :
    Prop :=
  a.kept = b.kept ∧ a.hashSourceIPSet = b.hashSourceIPSet ∧ a.headers = b.headers ∧
    K a.validCond b.validCond

theorem addHashPolicy_same {a b : HashPolicies} (h : SameHashPolicies K a b)
    (hashPolicy : Api.RequestHashPolicy) :
    SameHashPolicies K (addHashPolicy lib a hashPolicy) (addHashPolicy lib b hashPolicy) := by
  obtain ⟨kept, sourceIP, headers, vc⟩ := a
  obtain ⟨kept', sourceIP', headers', vc'⟩ := b
  obtain ⟨rfl, rfl, rfl, hvc⟩ := h
  unfold addHashPolicy
  split
  · exact ⟨rfl, rfl, rfl, hkept.warned _ _ _ _ _ hvc⟩
  · exact ⟨rfl, rfl, rfl, hkept.warned _ _ _ _ _ hvc⟩
  · split
    · exact ⟨rfl, rfl, rfl, hkept.warned _ _ _ _ _ hvc⟩
    · exact ⟨rfl, rfl, rfl, hvc⟩
  · dsimp only
    split
    · exact ⟨rfl, rfl, rfl, hkept.warned _ _ _ _ _ hvc⟩
    · split
      · exact ⟨rfl, rfl, rfl, hkept.warned _ _ _ _ _ hvc⟩
      · exact ⟨rfl, rfl, rfl, hvc⟩

theorem foldl_addHashPolicy_same (policies : List Api.RequestHashPolicy) {a b : HashPolicies}
    (h : SameHashPolicies K a b) :
    SameHashPolicies K (policies.foldl (addHashPolicy lib) a)
      (policies.foldl (addHashPolicy lib) b) := by
  induction policies generalizing a b with
  | nil => exact h
  | cons hashPolicy rest ih => exact ih (addHashPolicy_same hkept h hashPolicy)

theorem loadBalancerRequestHashPolicies_same (lbp : Option LoadBalancerPolicy) (h : K vc vc') :
    (loadBalancerRequestHashPolicies lib lbp vc).1 =
        (loadBalancerRequestHashPolicies lib lbp vc').1 ∧
      (loadBalancerRequestHashPolicies lib lbp vc).2.1 =
        (loadBalancerRequestHashPolicies lib lbp vc').2.1 ∧
      K (loadBalancerRequestHashPolicies lib lbp vc).2.2
        (loadBalancerRequestHashPolicies lib lbp vc').2.2 := by
  unfold loadBalancerRequestHashPolicies
  split
  · exact ⟨rfl, rfl, h⟩
  rename_i lbp
  split
  · exact ⟨rfl, rfl, h⟩
  · have hsame : SameHashPolicies K
        (lbp.requestHashPolicies.foldl (addHashPolicy lib) { validCond := vc })
        (lbp.requestHashPolicies.foldl (addHashPolicy lib) { validCond := vc' }) :=
      foldl_addHashPolicy_same hkept lbp.requestHashPolicies ⟨rfl, rfl, rfl, h⟩
    dsimp only
    rw [hsame.1]
    split
    · exact ⟨rfl, rfl, hkept.warned _ _ _ _ _ hsame.2.2.2⟩
    · exact ⟨rfl, rfl, hsame.2.2.2⟩
  · exact ⟨rfl, rfl, h⟩

theorem replacePrefix_agree (h : K vc vc') (spec : RouteSpec) (r : Route) :
    Agree E Eq (replacePrefix vc spec r) (replacePrefix vc' spec r) := by
  unfold replacePrefix
  dsimp only
  split
  · exact rfl
  · split
    · split
      · exact reject_agree hkept h (by decide) ..
      · exact rfl
    · exact reject_agree hkept h (by decide) ..

theorem baseRoute_agree (h : st.dynamicHeaders = st'.dynamicHeaders)
    (hvc : K st.validCond st'.validCond) (spec : RouteSpec) :
    Agree E (fun a b => a.1 = b.1 ∧ a.2.1 = b.2.1 ∧ K a.2.2 b.2.2)
      (baseRoute lib ord p root enforceTLS pos st spec)
      (baseRoute lib ord p root enforceTLS pos st' spec) := by
  unfold baseRoute
  rw [h]
  apply (require_agree hkept _ hvc (by decide) ..).bind
  rintro _ _ rfl
  apply (require_agree hkept _ hvc (by decide) ..).bind
  rintro _ _ rfl
  apply (require_agree hkept _ hvc (by decide) ..).bind
  rintro reqHP _ rfl
  apply (require_agree hkept _ hvc (by decide) ..).bind
  rintro respHP _ rfl
  apply (require_agree hkept _ hvc (by decide) ..).bind
  rintro cookieRP _ rfl
  dsimp only
  split
  · exact reject_agree hkept hvc (by decide) ..
  apply (require_agree hkept _ hvc (by decide) ..).bind
  rintro tp _ rfl
  apply (require_agree hkept _ hvc (by decide) ..).bind
  rintro rlp _ rfl
  obtain ⟨hkeep, hstrategy, hwarned⟩ :=
    loadBalancerRequestHashPolicies_same hkept spec.loadBalancerPolicy hvc
  rw [hkeep, hstrategy]
  apply (replacePrefix_agree hkept hwarned ..).bind
  rintro r _ rfl
  exact ⟨rfl, rfl, hwarned⟩

theorem upstreamValidation_agree (h : K vc vc') (proxy : HTTPProxy) (service : ServiceRef)
    (protocol : UpstreamProtocol) :
    Agree E Eq (upstreamValidation lib ord source vc proxy service protocol)
      (upstreamValidation lib ord source vc' proxy service protocol) := by
  unfold upstreamValidation
  split
  · exact rfl
  split
  · dsimp only
    split
    · exact require_agree hkept _ h (by decide) ..
    · exact reject_agree hkept h (by decide) ..
  · exact rfl

theorem clientCertificateSecret_agree (h : K vc vc') :
    Agree E Eq (clientCertificateSecret lib p source vc)
      (clientCertificateSecret lib p source vc') := by
  unfold clientCertificateSecret
  split
  · exact rfl
  · exact require_agree hkept _ h (by decide) ..

omit hkept

/-- Routes that differ in their clusters at most; those are related by `C`. -/
def RelRoute (C : Cluster → Cluster → Prop) (a b : Route) : Prop :=
  ∃ clusters mirrorPolicy, Forall₂ C a.clusters clusters ∧
    Option.Rel C a.mirrorPolicy mirrorPolicy ∧ b = { a with clusters, mirrorPolicy }

theorem relRoute_refl (hC : ∀ c, C c c) (r : Route) : RelRoute C r r := by
  refine ⟨_, _, forall₂_same.mpr fun c _ => hC c, ?_, rfl⟩
  cases r.mirrorPolicy with
  | none => exact .none
  | some c => exact .some (hC c)

theorem eq_of_relRoute {a b : Route} (h : RelRoute Eq a b) : a = b := by
  obtain ⟨clusters, mirrorPolicy, hclusters, hmirror, rfl⟩ := h
  rw [forall₂_eq_eq_eq] at hclusters
  have hsame : a.mirrorPolicy = mirrorPolicy := by
    generalize a.mirrorPolicy = m at hmirror
    cases hmirror with
    | none => rfl
    | some h => exact congrArg some h
  rw [← hclusters, ← hsame]

theorem finishRoute_rel {r r' : Route} (h : RelRoute C r r') (fqdn : String) (spec : RouteSpec) :
    RelRoute C (finishRoute fqdn spec r) (finishRoute fqdn spec r') := by
  obtain ⟨clusters, mirrorPolicy, hclusters, hmirror, rfl⟩ := h
  have hempty : r.clusters = [] ↔ clusters = [] := by
    generalize r.clusters = cs at hclusters
    cases hclusters <;> simp
  refine ⟨clusters, mirrorPolicy, hclusters, hmirror, ?_⟩
  simp only [finishRoute, hempty]

/-- Routes under construction that differ in their clusters and in the condition at most. -/
structure SameRoute (K : DetailedCondition → DetailedCondition → Prop)
    (C : Cluster → Cluster → Prop) (s t : RouteState) : Prop where
  headers : s.dynamicHeaders = t.dynamicHeaders
  route : RelRoute C s.route t.route
  condition : K s.validCond t.validCond

variable (lib p source) in
/-- A route has a service that is found: it gets a cluster for it. -/
def HasService (proxy : HTTPProxy) (spec : RouteSpec) : Prop :=
  ∃ service ∈ spec.services, ∃ s,
    ensureService lib source { ns := proxy.ns, name := service.name }
      (.int (Int32.ofInt service.port)) p.enableExternalNameService = .ok s

/-- Two orders of range loops in which the steps of a route agree. Those of a cluster agree
if `M` holds. -/
structure StepsAgree (lib : Stdlib) (ord ord' : MapOrder) (p : HTTPProxyProcessor)
    (source : KubernetesCache) (M : Prop) (K E : DetailedCondition → DetailedCondition → Prop)
    (C : Cluster → Cluster → Prop) : Prop extends KeptByRecording K E where
  base : ∀ root enforceTLS pos st spec, baseRoute lib ord p root enforceTLS pos st spec =
    baseRoute lib ord' p root enforceTLS pos st spec
  cluster : M → ∀ proxy spec lbPolicy st st' service s, SameRoute K C st st' →
    Agree E C (routeCluster lib ord p source proxy spec lbPolicy st service s)
      (routeCluster lib ord' p source proxy spec lbPolicy st' service s)

/-- Loops over the routes of a proxy with routes related by `T` and related conditions. -/
structure SameLoop (K : DetailedCondition → DetailedCondition → Prop)
    (T : List Route → List Route → Prop) (s t : LoopState) : Prop where
  headers : s.dynamicHeaders = t.dynamicHeaders
  routes : T s.routes t.routes
  condition : K s.validCond t.validCond

section

variable {ord' : MapOrder} {C : Cluster → Cluster → Prop} {T : List Route → List Route → Prop}
  {M : Prop} (h : StepsAgree lib ord ord' p source M K E C)

include h

theorem addService_agree {proxy : HTTPProxy} {spec : RouteSpec} {st st' : RouteState}
    (hmet : HasService lib p source proxy spec → M) (hst : SameRoute K C st st')
    {service : ServiceRef} (hservice : service ∈ spec.services) :
    Agree E (SameRoute K C) (addService lib ord p source proxy spec lbPolicy st service)
      (addService lib ord' p source proxy spec lbPolicy st' service) := by
  have hkept := h.toKeptByRecording
  unfold addService
  split
  · exact reject_agree hkept hst.condition (by decide) ..
  split
  · exact ⟨hst.headers, hst.route, hkept.addError hst.condition (by decide) _ _⟩
  rename_i s hs
  apply (h.cluster (hmet ⟨service, hservice, s, hs⟩) _ _ _ _ _ service s hst).bind
  intro c c' hc
  obtain ⟨headers, ⟨clusters, mirrorPolicy, hclusters, hmirror, hroute⟩, hvc⟩ := hst
  have hnominated : st.route.mirrorPolicy.isSome = mirrorPolicy.isSome := by
    generalize st.route.mirrorPolicy = m at hmirror
    cases hmirror <;> rfl
  dsimp only
  rw [headers, hroute, hnominated]
  split
  · split
    · exact reject_agree hkept hvc (by decide) ..
    · exact ⟨rfl, ⟨clusters, some c', hclusters, .some hc, rfl⟩, hvc⟩
  · exact ⟨rfl, ⟨_, _, rel_append hclusters (.cons hc .nil), hmirror, rfl⟩, hvc⟩

variable (hC : ∀ c, C c c) (hlast : ∀ a b r r', T a b → RelRoute C r r' → T (a ++ [r]) (b ++ [r']))

include hC hlast

theorem computeRoute_agree (hst : SameLoop K T st st') {spec : RouteSpec}
    (hmet : HasService lib p source pos.proxy spec → M) :
    Agree E (SameLoop K T) (computeRoute lib ord p source root enforceTLS pos st spec)
      (computeRoute lib ord' p source root enforceTLS pos st' spec) := by
  unfold computeRoute
  rw [h.base]
  apply (baseRoute_agree h.toKeptByRecording hst.headers hst.condition spec).bind
  rintro ⟨r, lbPolicy, vc⟩ ⟨_, _, vc'⟩ ⟨rfl, rfl, hwarned⟩
  apply Agree.bind (R := SameRoute K C)
  · apply Agree.foldlM
    · intro s t hst service hservice
      exact addService_agree h hmet hst hservice
    · exact ⟨hst.headers, relRoute_refl hC r, hwarned⟩
  · intro done done' hdone
    exact ⟨hdone.headers, hlast _ _ _ _ hst.routes (finishRoute_rel hdone.route _ _),
      hdone.condition⟩

variable (root enforceTLS pos) in
theorem computeRouteLoop_agree (hst : SameLoop K T st st')
    (hmet : ∀ spec ∈ pos.proxy.routes, HasService lib p source pos.proxy spec → M) :
    Agree E (SameLoop K T)
      (pos.proxy.routes.foldlM (computeRoute lib ord p source root enforceTLS pos) st)
      (pos.proxy.routes.foldlM (computeRoute lib ord' p source root enforceTLS pos) st') := by
  apply Agree.foldlM
  · intro s t hst spec hspec
    exact computeRoute_agree h hC hlast hst (hmet spec hspec)
  · exact hst

end

/-! ## All levels -/

/-- Visits with related routes and conditions. -/
structure SameVisit (K : DetailedCondition → DetailedCondition → Prop)
    (S : List Route → List Route → Prop) (v v' : Visit) : Prop where
  routes : S v.routes v'.routes
  condition : K v.validCond v'.validCond

/-- Calls for proxies of `Q` in two orders keep routes related by `S` and conditions related
by `K`, if the loops over the routes of one proxy do. -/
structure KeptByCalls (lib : Stdlib) (ord ord' : MapOrder) (p : HTTPProxyProcessor)
    (source : KubernetesCache) (root : Root) (enforceTLS : Bool) (Q : HTTPProxy → Prop)
    (K E : DetailedCondition → DetailedCondition → Prop) (S : List Route → List Route → Prop) :
    Prop extends KeptByRecording K E where
  follows : ∀ a b, Q a → IncludeLink lib source a b → Q b
  nil : S [] []
  append : ∀ a b c d, S a b → S c d → S (a ++ c) (b ++ d)
  missing : ∀ pos inc, S [missingIncludeRoute root pos inc] [missingIncludeRoute root pos inc]
  loop : ∀ site (pos : Position) st st', Q pos.proxy →
    includeMatchConditionsIdentical pos.proxy.includes = false → SameLoop K S st st' →
    Agree E (fun s t : LoopState => S (expandPrefixMatches ord site s.routes)
        (expandPrefixMatches ord' site t.routes) ∧ K s.validCond t.validCond)
      (pos.proxy.routes.foldlM (computeRoute lib ord p source root enforceTLS pos) st)
      (pos.proxy.routes.foldlM (computeRoute lib ord' p source root enforceTLS pos) st')

section

variable {ord' : MapOrder} {Q : HTTPProxy → Prop} {S : List Route → List Route → Prop}

theorem computeInclude_sameVisit (h : KeptByCalls lib ord ord' p source root enforceTLS Q K E S)
    {recurse recurse' : State → DetailedCondition → Position → Visit} {inc : Include}
    (hrecurse : ∀ included, followed lib source pos.proxy inc = some included →
      ∀ st st' vc, S (recurse st vc ⟨included, pos.chain ++ [inc.conditions]⟩).routes
        (recurse' st' vc ⟨included, pos.chain ++ [inc.conditions]⟩).routes)
    {v v' : Visit} (hv : SameVisit K S v v') :
    SameVisit K S (computeInclude lib source recurse root pos v inc)
      (computeInclude lib source recurse' root pos v' inc) := by
  rcases computeInclude_eq lib source root pos inc with
    ⟨included, hfollowed, heq⟩ | ⟨-, type, reason, message, htype, heq⟩
  · rw [heq, heq]
    exact ⟨h.append _ _ _ _ hv.routes (hrecurse included hfollowed _ _ _), hv.condition⟩
  · rw [heq, heq]
    refine ⟨h.append _ _ _ _ hv.routes ?_,
      h.toKeptByRecording.addError hv.condition htype reason message⟩
    split
    · exact h.missing pos inc
    · exact h.nil

theorem computeRoutes_step (h : KeptByCalls lib ord ord' p source root enforceTLS Q K E S)
    {fuel : Nat} (hbelow : ∀ visited st st' vc (pos : Position), Q pos.proxy →
      S (computeRoutes lib ord p source root enforceTLS fuel visited st vc pos).routes
        (computeRoutes lib ord' p source root enforceTLS fuel visited st' vc pos).routes)
    (visited : List HTTPProxy) (st st' : State) (hvc : K vc vc') (hpos : Q pos.proxy) :
    SameVisit K S (computeRoutes lib ord p source root enforceTLS (fuel + 1) visited st vc pos)
      (computeRoutes lib ord' p source root enforceTLS (fuel + 1) visited st' vc' pos) := by
  have hkept := h.toKeptByRecording
  rcases call_cases ⟨visited, pos⟩ with honPath | ⟨hfresh, hidentical⟩ | hexpands
  · rw [computeRoutes_of_onPath honPath, computeRoutes_of_onPath honPath]
    exact ⟨h.nil, hkept.addError hvc (by decide) _ _⟩
  · rw [computeRoutes_of_identical hfresh hidentical, computeRoutes_of_identical hfresh hidentical]
    exact ⟨h.nil, hkept.addError hvc (by decide) _ _⟩
  · have hincludes : SameVisit K S
        (afterIncludes lib ord p source root enforceTLS fuel visited st vc pos)
        (afterIncludes lib ord' p source root enforceTLS fuel visited st' vc' pos) := by
      have hloop : ∀ incs ⊆ pos.proxy.includes, ∀ v v' : Visit, SameVisit K S v v' →
          SameVisit K S
            (incs.foldl (computeInclude lib source (computeRoutes lib ord p source root enforceTLS
              fuel (visited ++ [pos.proxy])) root pos) v)
            (incs.foldl (computeInclude lib source (computeRoutes lib ord' p source root enforceTLS
              fuel (visited ++ [pos.proxy])) root pos) v') := by
        intro incs
        induction incs with
        | nil => exact fun _ _ _ hv => hv
        | cons inc rest ih =>
          intro hincs v v' hv
          obtain ⟨hinc, hrest⟩ := cons_subset.mp hincs
          refine ih hrest _ _ (computeInclude_sameVisit h
            (fun included hfollowed st st' vc => ?_) hv)
          exact hbelow _ st st' vc _ (h.follows _ _ hpos ⟨hexpands.distinct, inc, hinc, hfollowed⟩)
      exact hloop _ (Subset.refl _) _ _ ⟨h.nil, hvc⟩
    have hstart : SameLoop K S
        ⟨(afterIncludes lib ord p source root enforceTLS fuel visited st vc pos).validCond,
          proxyHeaders pos.proxy, _⟩
        ⟨(afterIncludes lib ord' p source root enforceTLS fuel visited st' vc' pos).validCond,
          proxyHeaders pos.proxy, _⟩ := ⟨rfl, hincludes.routes, hincludes.condition⟩
    rw [computeRoutes_of_expands hexpands, computeRoutes_of_expands hexpands, takeRoutes,
      takeRoutes, routeLoop, routeLoop]
    rcases (h.loop _ pos _ _ hpos hexpands.distinct hstart).dest with
      ⟨e, e', hx, hy, he⟩ | ⟨s, t, hx, hy, hst⟩
    · rw [hx, hy]
      exact ⟨h.nil, hkept.recorded _ _ he⟩
    · rw [hx, hy]
      exact ⟨hst.1, hst.2⟩

/-- Calls find related routes, whatever the states and the conditions hold. -/
theorem computeRoutes_sameRoutes
    (h : KeptByCalls lib ord ord' p source root enforceTLS Q (fun _ _ => True) (fun _ _ => True) S)
    (fuel : Nat) (visited : List HTTPProxy) (st st' : State) (vc vc' : DetailedCondition)
    (hpos : Q pos.proxy) :
    S (computeRoutes lib ord p source root enforceTLS fuel visited st vc pos).routes
      (computeRoutes lib ord' p source root enforceTLS fuel visited st' vc' pos).routes := by
  induction fuel generalizing visited st st' vc vc' pos with
  | zero => exact h.nil
  | succ fuel ih =>
    refine (computeRoutes_step h (fun visited st st' vc pos hpos => ?_) visited st st' trivial
      hpos).routes
    exact ih visited st st' vc vc hpos

theorem computeRoutes_sameVisit (h : KeptByCalls lib ord ord' p source root enforceTLS Q K E S)
    (hany : KeptByCalls lib ord ord' p source root enforceTLS Q (fun _ _ => True)
      (fun _ _ => True) S)
    (fuel : Nat) (visited : List HTTPProxy) (st st' : State) (hvc : K vc vc')
    (hpos : Q pos.proxy) :
    SameVisit K S (computeRoutes lib ord p source root enforceTLS fuel visited st vc pos)
      (computeRoutes lib ord' p source root enforceTLS fuel visited st' vc' pos) := by
  cases fuel with
  | zero => exact ⟨h.nil, hvc⟩
  | succ fuel =>
    apply computeRoutes_step h _ visited st st' hvc hpos
    intro visited st st' vc pos hpos
    exact computeRoutes_sameRoutes hany fuel visited st st' vc vc hpos

end

/-! ## The same routes -/

theorem routeCluster_agree (hkept : KeptByRecording K E) {proxy : HTTPProxy} {spec : RouteSpec}
    {st st' : RouteState} (h : SameRoute K Eq st st') (service : ServiceRef) (s : Service) :
    Agree E Eq (routeCluster lib ord p source proxy spec lbPolicy st service s)
      (routeCluster lib ord p source proxy spec lbPolicy st' service s) := by
  have hvc := h.condition
  unfold routeCluster
  rw [h.headers, eq_of_relRoute h.route]
  apply (require_agree hkept _ hvc (by decide) ..).bind
  rintro protocol _ rfl
  apply (upstreamValidation_agree hkept hvc ..).bind
  rintro uv _ rfl
  apply (require_agree hkept _ hvc (by decide) ..).bind
  rintro reqHP _ rfl
  apply (require_agree hkept _ hvc (by decide) ..).bind
  rintro respHP _ rfl
  apply (require_agree hkept _ hvc (by decide) ..).bind
  rintro cookieRP _ rfl
  apply (clientCertificateSecret_agree hkept hvc).bind
  rintro cert _ rfl
  exact rfl

variable (lib ord p source) in
theorem stepsAgree_eq (hkept : KeptByRecording K E) : StepsAgree lib ord ord p source True K E Eq :=
  { hkept with
    base := fun _ _ _ _ _ => rfl
    cluster := fun _ _ _ _ _ _ service s h => routeCluster_agree hkept h service s }

theorem keptByCalls_eq (hkept : KeptByRecording K E) :
    KeptByCalls lib ord ord p source root enforceTLS (fun _ => True) K E Eq where
  toKeptByRecording := hkept
  follows _ _ _ _ := trivial
  nil := rfl
  append _ _ _ _ := congrArg₂ (· ++ ·)
  missing _ _ := rfl
  loop site pos st st' _ _ hst := by
    have hloop := computeRouteLoop_agree root enforceTLS pos (stepsAgree_eq lib ord p source hkept)
      (fun _ => rfl)
      (fun _ _ _ _ hroutes hr => by rw [hroutes, eq_of_relRoute hr]) hst fun _ _ _ => trivial
    exact hloop.mono (fun _ _ he => he) fun s t h => ⟨congrArg _ h.routes, h.condition⟩

/-- The routes do not depend on the state and the condition. -/
theorem computeRoutes_routes_eq (fuel : Nat) (visited : List HTTPProxy) (st st' : State)
    (vc vc' : DetailedCondition) (pos : Position) :
    (computeRoutes lib ord p source root enforceTLS fuel visited st vc pos).routes =
      (computeRoutes lib ord p source root enforceTLS fuel visited st' vc' pos).routes :=
  computeRoutes_sameRoutes (keptByCalls_eq keptByRecording_any) fuel visited st st' vc vc' trivial

variable (lib ord p source root enforceTLS) in
/-- A call keeps conditions related, whatever the states hold. -/
theorem computeRoutes_kept (hkept : KeptByRecording K E) (fuel : Nat) (visited : List HTTPProxy)
    (st st' : State) (h : K vc vc') (pos : Position) :
    K (computeRoutes lib ord p source root enforceTLS fuel visited st vc pos).validCond
      (computeRoutes lib ord p source root enforceTLS fuel visited st' vc' pos).validCond :=
  (computeRoutes_sameVisit (keptByCalls_eq hkept) (keptByCalls_eq keptByRecording_any) fuel
    visited st st' h trivial).condition

end Sesame.Dag.HTTPProxyProcessor
