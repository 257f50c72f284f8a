/-
# The service variables of a proxy

The loop over the routes of a proxy and the loops over their services share one map of
variables. It starts with the namespace; each service that resolves puts its own name and
port in, and nothing takes them out again. A service is always asked with its own name and
port, so its header policies depend on nothing else. A route is asked with what the last
service before it has left behind, so its policies depend on the routes before it if one of
their values names a service.
-/

import Sesame.Dag.HeaderPolicies
import Sesame.Dag.HeaderValues

namespace Sesame.Dag

open List
open Lib Api
open Status (DetailedCondition)

/-! ## Values with other names in them -/

section

variable {a b : Char} {l l' : List Char} {n : Nat}

theorem forall_isReqChar_of_differ (hb : isReqChar b = true) (h : Differ a b n l l')
    (hl : ∀ c ∈ l, isReqChar c = true) : ∀ c ∈ l', isReqChar c = true := by
  induction h with
  | nil => exact hl
  | same c _ ih =>
    obtain ⟨hc, hl⟩ := forall_mem_cons.mp hl
    exact forall_mem_cons.mpr ⟨hc, ih hl⟩
  | differ _ ih => exact forall_mem_cons.mpr ⟨hb, ih (forall_mem_cons.mp hl).2⟩

/-- An expression at the start of one text is one at the start of the other. -/
theorem reqText_of_differ (ha : a ∉ ['%', 'R', 'E', 'Q', '(', ')']) (hb : isReqChar b = true)
    {name rest : List Char} (hname : IsReqName name)
    (h : Differ a b n (['%', '%'] ++ reqText name ++ ['%', '%'] ++ rest) l') :
    ∃ i j name' rest', l' = ['%', '%'] ++ reqText name' ++ ['%', '%'] ++ rest' ∧ n = i + j ∧
      IsReqName name' ∧ Differ a b i name name' ∧ Differ a b j rest rest' := by
  have hnotMem : ∀ {w : List Char}, w ⊆ ['%', 'R', 'E', 'Q', '(', ')'] → a ∉ w :=
    fun hw hmem => ha (hw hmem)
  rw [quoted_reqText_append] at h
  obtain ⟨l₁, rfl, hafter⟩ := h.of_append (hnotMem (by decide))
  obtain ⟨i, j, name', l₂, rfl, rfl, hnames, hend⟩ := hafter.append_inv
  obtain ⟨rest', rfl, hrest⟩ := hend.of_append (hnotMem (by decide))
  refine ⟨i, j, name', rest', (quoted_reqText_append name' rest').symm, rfl, ⟨?_, ?_⟩, hnames,
    hrest⟩
  · rintro rfl
    cases hnames
    exact hname.1 rfl
  · exact forall_isReqChar_of_differ hb hnames hname.2

/-- The last pass finds the same expressions in texts that differ in characters of names. -/
theorem differ_replaceReq (ha : a ∉ ['%', 'R', 'E', 'Q', '(', ')'])
    (hb : b ∉ ['%', 'R', 'E', 'Q', '(', ')']) (ha' : isReqChar a = true) (hb' : isReqChar b = true)
    (h : Differ a b n l l') : Differ a b n (replaceReq 0 l) (replaceReq 0 l') := by
  induction hlength : l.length using Nat.strong_induction_on generalizing l l' n with
  | _ length ih =>
    cases hmatch : matchReq l with
    | some found =>
      obtain ⟨name, rest, hname, rfl⟩ := of_matchReq hmatch
      obtain ⟨i, j, name', rest', rfl, rfl, hname', hnames, hrest⟩ :=
        reqText_of_differ ha hb' hname h
      rw [replaceReq_reqText hname, replaceReq_reqText hname']
      have hshorter : rest.length < length := by
        rw [← hlength]
        simp [reqText]
        omega
      have htext : Differ a b i (['%'] ++ reqText name ++ ['%'])
          (['%'] ++ reqText name' ++ ['%']) :=
        (hnames.surround ['R', 'E', 'Q', '('] [')']).surround ['%'] ['%']
      exact htext.append (ih rest.length hshorter hrest rfl)
    | none =>
      have hmatch' : matchReq l' = none := by
        cases hmatch' : matchReq l' with
        | none => rfl
        | some found =>
          obtain ⟨name, rest, hname, rfl⟩ := of_matchReq hmatch'
          obtain ⟨_, _, name', rest', rfl, -, hname', -, -⟩ := reqText_of_differ hb ha' hname h.symm
          rw [matchReq_reqText hname'] at hmatch
          cases hmatch
      cases h with
      | nil =>
        rw [replaceReq]
        exact .nil
      | same c hrest =>
        rw [replaceReq_cons hmatch, replaceReq_cons hmatch']
        exact .same c (ih _ (by rw [← hlength, length_cons]; omega) hrest rfl)
      | differ hrest =>
        rw [replaceReq_cons hmatch, replaceReq_cons hmatch']
        exact .differ (ih _ (by rw [← hlength, length_cons]; omega) hrest rfl)

end

/-- The passes over operators and request headers, after those over the variables. -/
def finishValue (escaped : List Char) : List Char :=
  replaceReq 0 (envoyVariables.foldl operatorPass escaped)

variable {l : List Char}

/-- Texts that differ in an eight and a nine still do after the last passes. -/
theorem differ_finishValue {l' : List Char} {n : Nat} (h : Differ '8' '9' n l l') :
    Differ '8' '9' n (finishValue l) (finishValue l') := by
  have hpasses : ∀ names : List String, (∀ v ∈ names, v ∈ envoyVariables) → ∀ l l' : List Char,
      Differ '8' '9' n l l' →
      Differ '8' '9' n (names.foldl operatorPass l) (names.foldl operatorPass l') := by
    intro names hnames
    induction names with
    | nil => exact fun l l' h => h
    | cons v names ih =>
      intro l l' h
      obtain ⟨hv, hnames⟩ := forall_mem_cons.mp hnames
      apply ih hnames
      have hnotMem : ∀ c, isOperatorChar c = false → c ∉ ['%'] → c ∉ quotedVariable v := by
        intro c hc hpercent
        simp only [quotedVariable, mem_append, mem_cons, not_mem_nil, or_false,
          not_or] at hpercent ⊢
        exact ⟨⟨⟨hpercent, hpercent⟩, notMem_envoyVariable hv hc⟩, hpercent, hpercent⟩
      exact h.replaceAll (cons_ne_nil _ _) (hnotMem '8' rfl (by decide))
        (hnotMem '9' rfl (by decide))
  exact differ_replaceReq (by decide) (by decide) rfl rfl (hpasses _ (fun v hv => hv) l l' h)

theorem ofList_finishValue_ne {l' : List Char} {n : Nat} (h : Differ '8' '9' n l l') (hn : 0 < n) :
    String.ofList (finishValue l) ≠ String.ofList (finishValue l') := by
  intro heq
  have hlists : finishValue l = finishValue l' := by
    have := congrArg String.toList heq
    rwa [String.toList_ofList, String.toList_ofList] at this
  have hdiffer := differ_finishValue h
  rw [hlists] at hdiffer
  exact hn.ne' (hdiffer.eq_zero (by decide))

/-! ## The variables of a service -/

def variablePass (escaped : List Char) (e : String × String) : List Char :=
  replaceAll (quotedVariable e.1) e.2.toList 0 escaped

/-- A value with doubled percent signs. -/
def doubled (value : String) : List Char := replaceAll ['%'] ['%', '%'] 0 value.toList

variable {dynamicHeaders : Map String String} {value : String}

theorem escapeHeaderValue_eq_finishValue {ord : MapOrder} (h : '%' ∈ value.toList) :
    escapeHeaderValue ord value dynamicHeaders =
      String.ofList (finishValue ((ord.range ("escapeHeaderValue " ++ value) dynamicHeaders).foldl
        variablePass (doubled value))) := by
  rw [escapeHeaderValue_eq h, doubled, Piece.replaceAll_percent]
  rfl

def namespaceHeaders (ns : String) : Map String String :=
  (∅ : Map String String).insert "Sesame_NAMESPACE" ns

open HTTPProxyProcessor (serviceHeaders)

/-- A service replaces the variables of the service before it. -/
theorem serviceHeaders_serviceHeaders (ns : String) (service service' : ServiceRef) :
    serviceHeaders (serviceHeaders (namespaceHeaders ns) service) service' =
      serviceHeaders (namespaceHeaders ns) service' := rfl

/-- A text with the quoted name of a service variable in it. -/
def NamesService (l : List Char) : Prop :=
  quotedVariable "Sesame_SERVICE_NAME" <:+: l ∨ quotedVariable "Sesame_SERVICE_PORT" <:+: l

/-- A value that names no service, also once the namespace is put in. -/
def FreeOfServices (ns value : String) : Prop :=
  ¬ NamesService (doubled value) ∧
    ¬ NamesService (variablePass (doubled value) ("Sesame_NAMESPACE", ns))

theorem foldl_variablePass_eq_self {vars : List (String × String)}
    (h : ∀ e ∈ vars, ¬ quotedVariable e.1 <:+: l) : vars.foldl variablePass l = l := by
  induction vars with
  | nil => rfl
  | cons e vars ih =>
    obtain ⟨he, hvars⟩ := forall_mem_cons.mp h
    rw [foldl_cons, variablePass, replaceAll_eq_self he, ih hvars]

/-- The variables of a service do nothing to a value that names none. -/
theorem FreeOfServices.escapeHeaderValue_eq {ns : String} (h : FreeOfServices ns value)
    (ord ord' : MapOrder) (service : ServiceRef) :
    escapeHeaderValue ord value (serviceHeaders (namespaceHeaders ns) service) =
      escapeHeaderValue ord' value (namespaceHeaders ns) := by
  by_cases hpercent : '%' ∈ value.toList
  · rw [escapeHeaderValue_eq_finishValue hpercent, escapeHeaderValue_eq_finishValue hpercent]
    congr 2
    let site := "escapeHeaderValue " ++ value
    have hperm : (ord.range site (serviceHeaders (namespaceHeaders ns) service)).Perm
        [("Sesame_SERVICE_PORT", toString service.port), ("Sesame_SERVICE_NAME", service.name),
          ("Sesame_NAMESPACE", ns)] := ord.perm site _
    have halone : ord'.range site (namespaceHeaders ns) = [("Sesame_NAMESPACE", ns)] :=
      perm_singleton.mp (ord'.perm site _)
    have hmem : ("Sesame_NAMESPACE", ns) ∈
        ord.range site (serviceHeaders (namespaceHeaders ns) service) :=
      hperm.mem_iff.mpr (by simp)
    have hkeys := ord.nodup_range_keys site (serviceHeaders (namespaceHeaders ns) service)
    obtain ⟨before, after, hsplit⟩ := append_of_mem hmem
    rw [hsplit] at hperm hkeys
    -- Around the namespace there are only the two variables of the service.
    have hothers : ∀ e, e ∈ before ∨ e ∈ after →
        e.1 = "Sesame_SERVICE_NAME" ∨ e.1 = "Sesame_SERVICE_PORT" := by
      intro e he
      have hall : e ∈ before ++ ("Sesame_NAMESPACE", ns) :: after :=
        mem_append.mpr (he.imp_right (mem_cons_of_mem _))
      rw [map_append, map_cons, nodup_middle, nodup_cons, ← map_append] at hkeys
      have hne : e.1 ≠ "Sesame_NAMESPACE" := fun hname =>
        hkeys.1 (mem_map.mpr ⟨e, mem_append.mpr he, hname⟩)
      have hthree := hperm.mem_iff.mp hall
      simp only [mem_cons, not_mem_nil, or_false] at hthree
      rcases hthree with rfl | rfl | rfl
      · exact .inr rfl
      · exact .inl rfl
      · exact absurd rfl hne
    have hfree : ∀ {l : List Char}, ¬ NamesService l → ∀ e, e ∈ before ∨ e ∈ after →
        ¬ quotedVariable e.1 <:+: l := by
      intro l hl e he hoccurs
      rcases hothers e he with hname | hname
      · exact hl (.inl (hname ▸ hoccurs))
      · exact hl (.inr (hname ▸ hoccurs))
    show (ord.range site _).foldl variablePass (doubled value) =
      (ord'.range site _).foldl variablePass (doubled value)
    rw [hsplit, halone, foldl_append, foldl_cons,
      foldl_variablePass_eq_self fun e he => hfree h.1 e (.inl he),
      foldl_variablePass_eq_self fun e he => hfree h.2 e (.inr he)]
    rfl
  · rw [escapeHeaderValue_of_notMem hpercent, escapeHeaderValue_of_notMem hpercent]

/-- The names of the variables have no digits. -/
theorem digit_notMem {name : String}
    (hname : name ∈ ["Sesame_NAMESPACE", "Sesame_SERVICE_NAME", "Sesame_SERVICE_PORT"]) :
    '8' ∉ quotedVariable name ∧ '9' ∉ quotedVariable name := by
  simp only [mem_cons, not_mem_nil, or_false] at hname
  rcases hname with rfl | rfl | rfl <;> decide

theorem differ_variablePass {name : String}
    (hname : name ∈ ["Sesame_NAMESPACE", "Sesame_SERVICE_NAME", "Sesame_SERVICE_PORT"])
    {l' : List Char} {n : Nat} (h : Differ '8' '9' n l l') :
    Differ '8' '9' n (variablePass l (name, value)) (variablePass l' (name, value)) :=
  h.replaceAll (cons_ne_nil _ _) (digit_notMem hname).1 (digit_notMem hname).2

/-- Two values for a variable show wherever its name occurs. -/
theorem exists_differ_variablePass {name : String} (h : quotedVariable name <:+: l) :
    ∃ n, Differ '8' '9' n (variablePass l (name, "8")) (variablePass l (name, "9")) ∧ 0 < n := by
  have height : "8".toList = ['8'] := by decide
  have hnine : "9".toList = ['9'] := by decide
  have hne : quotedVariable name ≠ [] := cons_ne_nil _ _
  obtain ⟨n, hdiffer, hpos⟩ := Differ.replaceAll_singleton hne '8' '9' l
  rw [variablePass, variablePass, height, hnine]
  exact ⟨n, hdiffer, hpos h⟩

theorem percent_mem_of_not_freeOfServices {ns : String} (h : ¬ FreeOfServices ns value) :
    '%' ∈ value.toList := by
  by_contra hnone
  apply h
  have hdoubled : doubled value = value.toList := replaceAll_eq_self fun hoccurs =>
    hnone (hoccurs.subset mem_cons_self)
  have hquoted : ∀ name, ¬ quotedVariable name <:+: value.toList := fun name hoccurs =>
    hnone (hoccurs.subset mem_cons_self)
  have hself : variablePass value.toList ("Sesame_NAMESPACE", ns) = value.toList :=
    replaceAll_eq_self (hquoted _)
  rw [FreeOfServices, hdoubled, hself]
  have hfree : ¬ NamesService value.toList := fun hnames => hnames.elim (hquoted _) (hquoted _)
  exact ⟨hfree, hfree⟩

/-- Two services that a value which names services tells apart. -/
theorem exists_escapeHeaderValue_ne {ns : String} (h : ¬ FreeOfServices ns value) :
    ∃ (ord : MapOrder) (service service' : ServiceRef),
      (1 ≤ service.port ∧ service.port ≤ 65535) ∧ (1 ≤ service'.port ∧ service'.port ≤ 65535) ∧
      escapeHeaderValue ord value (serviceHeaders (namespaceHeaders ns) service) ≠
        escapeHeaderValue ord value (serviceHeaders (namespaceHeaders ns) service') := by
  have hpercent := percent_mem_of_not_freeOfServices h
  let site := "escapeHeaderValue " ++ value
  have hstorage : ∀ service, MapOrder.storage.range site
      (serviceHeaders (namespaceHeaders ns) service) =
        [("Sesame_SERVICE_PORT", toString service.port), ("Sesame_SERVICE_NAME", service.name),
          ("Sesame_NAMESPACE", ns)] := fun service => rfl
  have hreversed : ∀ service, (MapOrder.reversedAt site).range site
      (serviceHeaders (namespaceHeaders ns) service) =
        [("Sesame_NAMESPACE", ns), ("Sesame_SERVICE_NAME", service.name),
          ("Sesame_SERVICE_PORT", toString service.port)] := fun service => if_pos rfl
  have hescape : ∀ (ord : MapOrder) (service : ServiceRef),
      escapeHeaderValue ord value (serviceHeaders (namespaceHeaders ns) service) =
        String.ofList (finishValue ((ord.range site
          (serviceHeaders (namespaceHeaders ns) service)).foldl variablePass (doubled value))) :=
    fun ord service => escapeHeaderValue_eq_finishValue hpercent
  by_cases hstart : NamesService (doubled value)
  · -- In storage order the port comes first, then the name.
    refine ⟨.storage, ?_⟩
    simp only [hescape, hstorage, foldl_cons, foldl_nil]
    by_cases hport : quotedVariable "Sesame_SERVICE_PORT" <:+: doubled value
    · obtain ⟨n, hdiffer, hpos⟩ := exists_differ_variablePass hport
      refine ⟨{ name := "", port := 8 }, { name := "", port := 9 }, by decide, by decide,
        ofList_finishValue_ne ?_ hpos⟩
      exact differ_variablePass (by simp) (differ_variablePass (by simp) hdiffer)
    obtain ⟨n, hdiffer, hpos⟩ := exists_differ_variablePass (hstart.resolve_right hport)
    refine ⟨{ name := "8", port := 1 }, { name := "9", port := 1 }, by decide, by decide,
      ofList_finishValue_ne ?_ hpos⟩
    have hkept : ∀ text, variablePass (doubled value) ("Sesame_SERVICE_PORT", text) =
      doubled value := fun text => replaceAll_eq_self hport
    rw [hkept]
    exact differ_variablePass (by simp) hdiffer
  · have hafter : NamesService (variablePass (doubled value) ("Sesame_NAMESPACE", ns)) := by
      by_contra hafter
      exact h ⟨hstart, hafter⟩
    refine ⟨MapOrder.reversedAt site, ?_⟩
    simp only [hescape, hreversed, foldl_cons, foldl_nil]
    by_cases hname : quotedVariable "Sesame_SERVICE_NAME" <:+:
        variablePass (doubled value) ("Sesame_NAMESPACE", ns)
    · obtain ⟨n, hdiffer, hpos⟩ := exists_differ_variablePass hname
      refine ⟨{ name := "8", port := 1 }, { name := "9", port := 1 }, by decide, by decide,
        ofList_finishValue_ne ?_ hpos⟩
      exact differ_variablePass (by simp) hdiffer
    · obtain ⟨n, hdiffer, hpos⟩ := exists_differ_variablePass (hafter.resolve_left hname)
      refine ⟨{ name := "", port := 8 }, { name := "", port := 9 }, by decide, by decide,
        ofList_finishValue_ne ?_ hpos⟩
      have hkept : ∀ text, variablePass (variablePass (doubled value) ("Sesame_NAMESPACE", ns))
          ("Sesame_SERVICE_NAME", text) =
        variablePass (doubled value) ("Sesame_NAMESPACE", ns) := fun text =>
          replaceAll_eq_self hname
      rw [hkept]
      exact hdiffer

/-! ## The loops over routes and services -/

namespace HTTPProxyProcessor

section Loops

variable (lib : Stdlib) (ord : MapOrder) (p : HTTPProxyProcessor) (ns : String)

def routePolicies (spec : RouteSpec) (dynamicHeaders : Map String String) :
    Except String (Option HeadersPolicy × Option HeadersPolicy) := do
  let reqHP ← headersPolicyRoute lib ord spec.requestHeadersPolicy true dynamicHeaders
  let respHP ← headersPolicyRoute lib ord spec.responseHeadersPolicy false dynamicHeaders
  pure (reqHP, respHP)

def servicePolicies (service : ServiceRef) (dynamicHeaders : Map String String) :
    Except String (Option HeadersPolicy × Option HeadersPolicy) := do
  let reqHP ← headersPolicyService lib ord p.requestHeadersPolicy service.requestHeadersPolicy
    dynamicHeaders
  let respHP ← headersPolicyService lib ord p.responseHeadersPolicy
    service.responseHeadersPolicy dynamicHeaders
  pure (reqHP, respHP)

/-- The loop over the routes of a proxy in a namespace, when it gets to a route. -/
structure BeforeRoute (spec : RouteSpec) where
  source : KubernetesCache
  root : Root
  enforceTLS : Bool
  pos : Position
  ns_eq : pos.proxy.ns = ns
  validCond : DetailedCondition
  routes : List Route
  before : List RouteSpec
  after : List RouteSpec
  split : pos.proxy.routes = before ++ spec :: after
  st : LoopState
  reached : before.foldlM (computeRoute lib ord p source root enforceTLS pos)
    { validCond, dynamicHeaders := proxyHeaders pos.proxy, routes } = .ok st

/-- The loop over the services of a route, when it gets to a service. -/
structure BeforeService (service : ServiceRef) where
  spec : RouteSpec
  visit : BeforeRoute lib ord p ns spec
  route : Route
  lbPolicy : LoadBalancerStrategy
  validCond : DetailedCondition
  base : baseRoute lib ord p visit.root visit.enforceTLS visit.pos visit.st spec =
    .ok (route, lbPolicy, validCond)
  before : List ServiceRef
  after : List ServiceRef
  split : spec.services = before ++ service :: after
  st : RouteState
  reached : before.foldlM (addService lib ord p visit.source visit.pos.proxy spec lbPolicy)
    { validCond, dynamicHeaders := visit.st.dynamicHeaders, route } = .ok st

/-- The policies of a route, and those of any service, are the same whatever other routes
and services have been processed before. -/
def PoliciesLocal (spec : RouteSpec) : Prop :=
  ∀ ord p,
    (∀ a b : BeforeRoute lib ord p ns spec,
      routePolicies lib ord spec a.st.dynamicHeaders =
        routePolicies lib ord spec b.st.dynamicHeaders) ∧
    ∀ service, ∀ a b : BeforeService lib ord p ns service,
      servicePolicies lib ord p service (serviceHeaders a.st.dynamicHeaders service) =
        servicePolicies lib ord p service (serviceHeaders b.st.dynamicHeaders service)

/-- If the policies of the route are accepted, no value in them names a service. -/
def SeesNoService (spec : RouteSpec) : Prop :=
  (∃ policies, routePolicies lib .storage spec ∅ = .ok policies) →
    ∀ e ∈ setEntries spec.requestHeadersPolicy ++ setEntries spec.responseHeadersPolicy,
      lib.canonicalHeaderKey e.name ≠ "Host" → FreeOfServices ns e.value

end Loops

variable {lib : Stdlib} {ord : MapOrder} {p : HTTPProxyProcessor} {ns : String} {spec : RouteSpec}
  {lbPolicy : LoadBalancerStrategy} {source : KubernetesCache} {proxy : HTTPProxy}
  {dynamicHeaders' : Map String String}

theorem routePolicies_eq_ok {reqHP respHP : Option HeadersPolicy} :
    routePolicies lib ord spec dynamicHeaders = .ok (reqHP, respHP) ↔
      headersPolicyRoute lib ord spec.requestHeadersPolicy true dynamicHeaders = .ok reqHP ∧
      headersPolicyRoute lib ord spec.responseHeadersPolicy false dynamicHeaders = .ok respHP := by
  rw [routePolicies]
  constructor
  · intro h
    obtain ⟨req, hreq, h⟩ := bind_eq_ok.mp h
    obtain ⟨resp, hresp, h⟩ := bind_eq_ok.mp h
    cases h
    exact ⟨hreq, hresp⟩
  · rintro ⟨hreq, hresp⟩
    rw [hreq, hresp]
    rfl

/-- The route has the policies that its loop iteration asks for. -/
theorem baseRoute_policies {root : Root} {enforceTLS : Bool} {pos : Position} {st : LoopState}
    {r : Route} {validCond : DetailedCondition}
    (h : baseRoute lib ord p root enforceTLS pos st spec = .ok (r, lbPolicy, validCond)) :
    routePolicies lib ord spec st.dynamicHeaders =
      .ok (r.requestHeadersPolicy, r.responseHeadersPolicy) := by
  have hspec := baseRoute_spec h
  exact routePolicies_eq_ok.mpr ⟨hspec.request, hspec.response⟩

/-- The cluster has the policies that its loop iteration asks for. -/
theorem routeCluster_policies {st : RouteState} {service : ServiceRef} {s : Service} {c : Cluster}
    (h : routeCluster lib ord p source proxy spec lbPolicy st service s = .ok c) :
    servicePolicies lib ord p service (serviceHeaders st.dynamicHeaders service) =
      .ok (c.requestHeadersPolicy, c.responseHeadersPolicy) := by
  have hspec := routeCluster_spec h
  rw [servicePolicies, hspec.request, hspec.response]
  rfl

/-- The variables that services of a proxy may have left behind. -/
def LeftBehind (ns : String) (dynamicHeaders : Map String String) : Prop :=
  dynamicHeaders = namespaceHeaders ns ∨
    ∃ service, dynamicHeaders = serviceHeaders (namespaceHeaders ns) service

theorem LeftBehind.serviceHeaders_eq (h : LeftBehind ns dynamicHeaders) (service : ServiceRef) :
    serviceHeaders dynamicHeaders service = serviceHeaders (namespaceHeaders ns) service := by
  rcases h with rfl | ⟨other, rfl⟩
  · rfl
  · exact serviceHeaders_serviceHeaders ns other service

theorem addService_leftBehind {st st' : RouteState} {service : ServiceRef}
    (h : addService lib ord p source proxy spec lbPolicy st service = .ok st')
    (hleft : LeftBehind ns st.dynamicHeaders) : LeftBehind ns st'.dynamicHeaders := by
  have hown : LeftBehind ns (serviceHeaders st.dynamicHeaders service) :=
    .inr ⟨service, hleft.serviceHeaders_eq service⟩
  rw [addService] at h
  split at h
  · cases h
  split at h
  · cases h
    exact hleft
  obtain ⟨c, -, h⟩ := bind_eq_ok.mp h
  dsimp only at h
  split_ifs at h
  · cases h
  · cases h
    exact hown
  · cases h
    exact hown

theorem computeRoute_leftBehind {root : Root} {enforceTLS : Bool} {pos : Position}
    {st st' : LoopState} (h : computeRoute lib ord p source root enforceTLS pos st spec = .ok st')
    (hleft : LeftBehind ns st.dynamicHeaders) : LeftBehind ns st'.dynamicHeaders := by
  rw [computeRoute] at h
  obtain ⟨⟨r, lbPolicy, validCond⟩, -, h⟩ := bind_eq_ok.mp h
  obtain ⟨done, hservices, h⟩ := bind_eq_ok.mp h
  cases h
  exact foldlM_inv (fun st : RouteState => LeftBehind ns st.dynamicHeaders)
    (fun st hleft service _ st' h => addService_leftBehind h hleft) hleft hservices

theorem BeforeRoute.leftBehind (a : BeforeRoute lib ord p ns spec) :
    LeftBehind ns a.st.dynamicHeaders := by
  apply foldlM_inv (fun st : LoopState => LeftBehind ns st.dynamicHeaders) ?_ ?_ a.reached
  · intro st hleft spec _ st' h
    exact computeRoute_leftBehind h hleft
  · exact .inl (congrArg namespaceHeaders a.ns_eq)

theorem BeforeService.leftBehind {service : ServiceRef} (a : BeforeService lib ord p ns service) :
    LeftBehind ns a.st.dynamicHeaders :=
  foldlM_inv (fun st : RouteState => LeftBehind ns st.dynamicHeaders)
    (fun _ hleft _ _ _ h => addService_leftBehind h hleft) a.visit.leftBehind a.reached

def singleService (ns : String) (service : ServiceRef) : KubernetesCache where
  services := (∅ : Map NamespacedName Api.Service).insert { ns, name := service.name }
    { name := service.name, ns, ports := [{ port := Int32.ofInt service.port }] }

/-- A reference to a service with nothing but its name and port. -/
def plainRef (service : ServiceRef) : ServiceRef := { name := service.name, port := service.port }

/-- A proxy with a route to a service before a route. -/
def afterService (ns : String) (service : ServiceRef) (spec : RouteSpec) : HTTPProxy where
  name := ""
  ns := ns
  routes := [{ services := [plainRef service] }, spec]

theorem lookupService_singleService (service : ServiceRef) :
    (singleService ns service).lookupService lib { ns, name := service.name }
      (.int (Int32.ofInt service.port)) =
      .ok ({ name := service.name, ns, ports := [{ port := Int32.ofInt service.port }] },
        { port := Int32.ofInt service.port }) := by
  have hport : [({ port := Int32.ofInt service.port } : ServicePort)].find? (fun p =>
      p.port.toInt = KubernetesCache.intValue (.int (Int32.ofInt service.port)) ∨
        KubernetesCache.intOrStringText (.int (Int32.ofInt service.port)) = p.name) =
      some { port := Int32.ofInt service.port } := by
    rw [find?_cons_of_pos]
    exact decide_eq_true (.inl rfl)
  rw [KubernetesCache.lookupService, singleService, Map.lookup_insert_eq, if_pos rfl]
  dsimp only
  rw [hport]

theorem ensureService_singleService (service : ServiceRef) :
    ∃ s, ensureService lib (singleService ns service) { ns, name := service.name }
      (.int (Int32.ofInt service.port)) false = .ok s := by
  rw [ensureService, lookupService_singleService]
  exact ⟨_, rfl⟩

theorem addService_plainRef {service : ServiceRef}
    (hport : 1 ≤ service.port ∧ service.port ≤ 65535) (hns : proxy.ns = ns) (spec : RouteSpec)
    (lbPolicy : LoadBalancerStrategy) (st : RouteState) :
    ∃ st', addService lib ord {} (singleService ns service) proxy spec lbPolicy st
        (plainRef service) = .ok st' ∧
      st'.dynamicHeaders = serviceHeaders st.dynamicHeaders service := by
  obtain ⟨s, hs⟩ := @ensureService_singleService lib ns service
  have hcluster : ∃ c, routeCluster lib ord {} (singleService ns service) proxy spec lbPolicy st
      (plainRef service) s = .ok c := ⟨_, rfl⟩
  obtain ⟨c, hc⟩ := hcluster
  have hrange : ¬ ((plainRef service).port < 1 ∨ 65535 < (plainRef service).port) := by
    dsimp only [plainRef]
    omega
  have hensure : ensureService lib (singleService ns service)
      { ns := proxy.ns, name := (plainRef service).name }
      (.int (Int32.ofInt (plainRef service).port))
      ({} : HTTPProxyProcessor).enableExternalNameService = .ok s := by
    rw [hns]
    exact hs
  rw [addService, if_neg hrange, hensure]
  dsimp only
  rw [hc]
  exact ⟨_, rfl, rfl⟩

variable (lib ord ns spec) in
/-- The loop gets to a route with the variables of any service that the route before it
has. -/
theorem exists_beforeRoute {service : ServiceRef}
    (hport : 1 ≤ service.port ∧ service.port ≤ 65535) :
    ∃ a : BeforeRoute lib ord {} ns spec,
      a.st.dynamicHeaders = serviceHeaders (namespaceHeaders ns) service := by
  let pos : Position := { proxy := afterService ns service spec, chain := [] }
  let root : Root := { proxy := pos.proxy, virtualHost := { fqdn := "" } }
  let start : LoopState := { validCond := {}, dynamicHeaders := namespaceHeaders ns, routes := [] }
  have hbase : ∃ r lbPolicy validCond, baseRoute lib ord {} root false pos start
      { services := [plainRef service] } = .ok (r, lbPolicy, validCond) := ⟨_, _, _, rfl⟩
  obtain ⟨r, lbPolicy, validCond, hbase⟩ := hbase
  have hadd := @addService_plainRef lib ord ns pos.proxy service hport rfl
    { services := [plainRef service] } lbPolicy
    { validCond, dynamicHeaders := start.dynamicHeaders, route := r }
  obtain ⟨done, hdone, hheaders⟩ := hadd
  have hroute : ∃ st, computeRoute lib ord {} (singleService ns service) root false pos start
      { services := [plainRef service] } = .ok st ∧ st.dynamicHeaders = done.dynamicHeaders := by
    rw [computeRoute, hbase, ok_bind]
    dsimp only
    rw [foldlM_cons, hdone]
    exact ⟨_, rfl, rfl⟩
  obtain ⟨st, hst, heq⟩ := hroute
  have hreached : [({ services := [plainRef service] } : RouteSpec)].foldlM
      (computeRoute lib ord {} (singleService ns service) root false pos) start = .ok st := by
    rw [foldlM_cons, hst]
    rfl
  exact ⟨⟨_, root, false, pos, rfl, _, _, _, [], rfl, st, hreached⟩, heq.trans hheaders⟩

/-! ## Locality -/

theorem routePolicies_agree {ord' : MapOrder} :
    Agree Eq (fun _ _ => True) (routePolicies lib ord spec dynamicHeaders)
      (routePolicies lib ord' spec dynamicHeaders') := by
  rw [routePolicies, routePolicies]
  apply Agree.bind headersPolicyRoute_agree
  intro reqHP reqHP' _
  apply Agree.bind headersPolicyRoute_agree
  intro respHP respHP' _
  exact trivial

theorem routePolicies_eq_iff {ord' : MapOrder} :
    routePolicies lib ord spec dynamicHeaders = routePolicies lib ord' spec dynamicHeaders' ↔
      ((∃ policies, routePolicies lib .storage spec ∅ = .ok policies) →
        ∀ e ∈ setEntries spec.requestHeadersPolicy ++ setEntries spec.responseHeadersPolicy,
          lib.canonicalHeaderKey e.name ≠ "Host" →
            escapeHeaderValue ord e.value dynamicHeaders =
              escapeHeaderValue ord' e.value dynamicHeaders') := by
  constructor
  · intro heq haccepted e he hhost
    obtain ⟨⟨reqHP, respHP⟩, hpolicies⟩ := routePolicies_agree.exists_ok_iff.mp haccepted
    have hpolicies' := heq.symm.trans hpolicies
    obtain ⟨hreq, hresp⟩ := routePolicies_eq_ok.mp hpolicies
    obtain ⟨hreq', hresp'⟩ := routePolicies_eq_ok.mp hpolicies'
    rcases mem_append.mp he with he | he
    · exact escapeHeaderValue_eq_of_headersPolicyRoute hreq hreq' he hhost
    · exact escapeHeaderValue_eq_of_headersPolicyRoute hresp hresp' he hhost
  · intro hvalues
    by_cases haccepted : ∃ policies, routePolicies lib ord spec dynamicHeaders = .ok policies
    · obtain ⟨hrequest, hresponse⟩ := forall_mem_append.mp
        (hvalues (routePolicies_agree.exists_ok_iff.mp haccepted))
      rw [routePolicies, headersPolicyRoute_congr hrequest, headersPolicyRoute_congr hresponse]
      rfl
    · exact routePolicies_agree.eq_of_not_ok haccepted

/-- The policies of the routes of a proxy depend on nothing but the route and the namespace
iff no value of an accepted policy names a service; those of services never do. -/
theorem policiesLocal_iff (lib : Stdlib) (ns : String) (spec : RouteSpec) :
    PoliciesLocal lib ns spec ↔ SeesNoService lib ns spec := by
  constructor
  · intro hlocal haccepted e he hhost
    by_contra hfree
    obtain ⟨ord, service, service', hport, hport', hne⟩ := exists_escapeHeaderValue_ne hfree
    obtain ⟨a, ha⟩ := exists_beforeRoute lib ord ns spec hport
    obtain ⟨b, hb⟩ := exists_beforeRoute lib ord ns spec hport'
    have heq := (hlocal ord {}).1 a b
    rw [ha, hb] at heq
    exact hne (routePolicies_eq_iff.mp heq haccepted e he hhost)
  · intro hfree ord p
    refine ⟨fun a b => ?_, fun service a b => ?_⟩
    · rw [routePolicies_eq_iff]
      intro haccepted e he hhost
      have hescape : ∀ dynamicHeaders, LeftBehind ns dynamicHeaders →
          escapeHeaderValue ord e.value dynamicHeaders =
            escapeHeaderValue ord e.value (namespaceHeaders ns) := by
        rintro _ (rfl | ⟨service, rfl⟩)
        · rfl
        · exact (hfree haccepted e he hhost).escapeHeaderValue_eq ord ord service
      rw [hescape _ a.leftBehind, hescape _ b.leftBehind]
    · rw [a.leftBehind.serviceHeaders_eq, b.leftBehind.serviceHeaders_eq]

/-- A route with a header that holds the name of the service. -/
def namesService : RouteSpec where
  services := [{ name := "s", port := 80 }]
  requestHeadersPolicy := some { set := [{ name := "x", value := "%Sesame_SERVICE_NAME%" }] }

/-- The header of the first route of a proxy holds the escaped name of the variable, that of
the second one the name of a service of the first route. -/
theorem service_name_left_behind :
    routePolicies .plain .storage namesService (namespaceHeaders "n") =
        .ok (some { set := (∅ : Map String String).insert "x" "%%Sesame_SERVICE_NAME%%" }, none) ∧
      routePolicies .plain .storage namesService
          (serviceHeaders (namespaceHeaders "n") { name := "first", port := 80 }) =
        .ok (some { set := (∅ : Map String String).insert "x" "first" }, none) ∧
      ¬ PoliciesLocal .plain "n" namesService := by
  have hvalue : ∀ name, name ∈ ["first", "other"] →
      routePolicies .plain .storage namesService
          (serviceHeaders (namespaceHeaders "n") { name, port := 80 }) =
        .ok (some { set := (∅ : Map String String).insert "x" name }, none) := by
    simp only [forall_mem_cons, not_mem_nil]
    exact ⟨by decide +kernel, by decide +kernel, nofun⟩
  refine ⟨by decide +kernel, hvalue _ mem_cons_self, ?_⟩
  intro hlocal
  obtain ⟨a, ha⟩ := exists_beforeRoute .plain .storage "n" namesService
    (show (1 : Int) ≤ ({ name := "first", port := 80 } : ServiceRef).port ∧ _ by decide)
  obtain ⟨b, hb⟩ := exists_beforeRoute .plain .storage "n" namesService
    (show (1 : Int) ≤ ({ name := "other", port := 80 } : ServiceRef).port ∧ _ by decide)
  have heq := (hlocal .storage {}).1 a b
  rw [ha, hb, hvalue _ (by decide), hvalue _ (by decide)] at heq
  revert heq
  decide

end HTTPProxyProcessor

end Sesame.Dag
