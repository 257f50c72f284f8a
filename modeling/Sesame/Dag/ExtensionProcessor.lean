/-
# The ExtensionService processor

Each valid ExtensionService becomes an extension cluster. Errors are collected on
its status; with any error nothing is added to the DAG.
-/

import Sesame.Dag.Policy
import Sesame.Dag.Service

namespace Sesame.Dag

open List
open Lib Api
open Status (DetailedCondition)

/-- The configuration of `ExtensionServiceProcessor`. -/
structure ExtensionServiceProcessor where
  clientCertificate : Option NamespacedName := none

namespace ExtensionServiceProcessor

/-- An extension cluster under construction and the condition of its service. -/
structure BuildState where
  extension : ExtensionCluster
  validCondition : DetailedCondition

variable (lib : Stdlib) (ord : MapOrder) (p : ExtensionServiceProcessor) (cache : KubernetesCache)

def extensionTimeouts (ext : ExtensionService) (validCondition : DetailedCondition) :
    TimeoutPolicy × DetailedCondition :=
  match timeoutPolicy lib ext.timeoutPolicy with
  | .ok tp => (tp, validCondition)
  | .error err =>
    ({}, validCondition.addError .specError "TimeoutPolicyNotValid"
      ("spec.timeoutPolicy failed to parse: " ++ err))

/-- The client certificate for upstreams, attached for its own namespace. -/
def clientCertificateSecret (validCondition : DetailedCondition) :
    Option Secret × DetailedCondition :=
  match p.clientCertificate with
  | none => (none, validCondition)
  | some name =>
    match cache.lookupSecret name (validSecret lib) name.ns with
    | .ok secret => (some secret, validCondition)
    | .error err =>
      (none, validCondition.addError .tlsError "SecretNotValid"
        ("tls.envoy-client-certificate Secret " ++ lib.quote name.string ++ " is invalid: " ++ err))

/-- The load balancer policy of an extension service. -/
def extensionLoadBalancer (ext : ExtensionService) (validCondition : DetailedCondition) :
    LoadBalancerStrategy × DetailedCondition :=
  match loadBalancerPolicy ext.loadBalancerPolicy with
  | .cookie => ignored .cookie
  | .requestHash => ignored .requestHash
  | lbPolicy => (lbPolicy, validCondition)
where
  ignored (lbPolicy : LoadBalancerStrategy) : LoadBalancerStrategy × DetailedCondition :=
    (.unset, validCondition.addWarning .specError "IgnoredField"
      ("ignoring field " ++ lib.quote ".Spec.LoadBalancerPolicy" ++ "; " ++ lbPolicy.text ++
        " load balancer policy is not supported for ExtensionClusters"))

/-- The protocol of an extension service, `h2` unless the API object says `h2c`. -/
def extensionProtocol (ext : ExtensionService) : UpstreamProtocol :=
  if ext.protocol = some "h2c" then .h2c else .h2

/-- The text of an extension protocol. -/
def protocolText : UpstreamProtocol → String
  | .http1 => ""
  | .h2 => "h2"
  | .h2c => "h2c"
  | .tls => "tls"

/-- The validation of the upstream certificate; `none` is an early return. -/
def attachValidation (ext : ExtensionService) (st : BuildState) :
    Option BuildState × DetailedCondition :=
  match ext.upstreamValidation with
  | none => (some st, st.validCondition)
  | some v =>
    let caCertificate := namespacedNameFrom v.caCertificate ext.ns
    if cache.delegationPermitted ord caCertificate ext.ns then
      let st :=
        match cache.lookupUpstreamValidation lib (some v) caCertificate ext.ns with
        | .error err =>
          { st with
            validCondition := st.validCondition.addError .specError "TLSUpstreamValidation"
              ("TLS upstream validation policy error: " ++ err) }
        | .ok uv =>
          { st with
            extension := { st.extension with
              upstreamValidation := uv, sni := getSubjectName uv } }
      let st :=
        if st.extension.protocol = .h2 then st
        else
          { st with
            validCondition := st.validCondition.addError .specError "InconsistentProtocol"
              ("upstream TLS validation not supported for " ++
                lib.quote (protocolText st.extension.protocol) ++ " protocol") }
      (some st, st.validCondition)
    else
      (none, st.validCondition.addError .tlsError "CACertificateNotDelegated"
        ("service.UpstreamValidation.CACertificate Secret " ++
          lib.quote caCertificate.string ++ " is not configured for certificate delegation"))

/-- The loop over the services of an extension service. -/
def addTarget (ext : ExtensionService) (st : BuildState) (target : ExtensionServiceTarget) :
    BuildState :=
  let svcName : NamespacedName := { ns := ext.ns, name := target.name }
  match cache.lookupService lib svcName (.int (Int32.ofInt target.port)) with
  | .error err =>
    { st with
      validCondition := st.validCondition.addError .serviceError "ServiceUnresolvedReference"
        ("unresolved service " ++ lib.quote svcName.string ++ ": " ++ err) }
  | .ok (svc, port) =>
    if svc.externalName ≠ "" then
      { st with
        validCondition := st.validCondition.addError .serviceError "UnsupportedServiceType"
          ("Service " ++ lib.quote svcName.string ++ " is of unsupported type " ++
            lib.quote "ExternalName" ++ ".") }
    else
      { st with
        extension := { st.extension with
          upstream := st.extension.upstream.addWeightedService target.weight svcName port } }

/-- The extension cluster before its validation and services. -/
def baseExtension (ext : ExtensionService) (validCondition : DetailedCondition) : BuildState :=
  let (tp, validCondition) := extensionTimeouts lib ext validCondition
  let (clientCertSecret, validCondition) := clientCertificateSecret lib p cache validCondition
  let (lbPolicy, validCondition) := extensionLoadBalancer lib ext validCondition
  let name := namespacedNameOf ext.toObjectMeta
  let validCondition :=
    if ext.timeoutPolicy.any (·.idle ≠ "") then
      validCondition.addWarning .specError "IgnoredField"
        ("ignoring field " ++ lib.quote ".Spec.TimeoutPolicy.Idle" ++
          "; idle timeouts are not supported for ExtensionClusters")
    else validCondition
  { validCondition
    extension :=
      { name := extensionClusterName name
        upstream := { clusterName := pathJoin "extension" (clusterLoadAssignmentName name "") }
        protocol := extensionProtocol ext
        loadBalancerPolicy := lbPolicy
        timeoutPolicy := tp
        clientCertificate := clientCertSecret } }

def buildExtensionService (ext : ExtensionService) (validCondition : DetailedCondition) :
    Option ExtensionCluster × DetailedCondition :=
  match attachValidation lib ord cache ext (baseExtension lib p cache ext validCondition) with
  | (none, validCondition) => (none, validCondition)
  | (some st, _) =>
    let st := ext.services.foldl (addTarget lib cache ext) st
    (some st.extension, st.validCondition)

/-- The loop of `Run`. -/
def addExtension (dag : DAG) (e : ExtensionService) : DAG :=
  let entry := dag.statusCache.extensionAccessor e
  let (ext, validCondition) := buildExtensionService lib ord p cache e entry.conditionFor
  let validCondition :=
    if validCondition.errors = [] then
      { validCondition with
        status := .true, reason := "Valid", message := "Valid ExtensionService" }
    else validCondition
  { dag with
    extensionClusters :=
      if validCondition.errors = [] then dag.extensionClusters ++ ext.toList
      else dag.extensionClusters
    statusCache := dag.statusCache.commitExtension { entry with valid := some validCondition } }

def run (dag : DAG) : DAG :=
  (ord.values "ExtensionServiceProcessor" cache.extensions).foldl (addExtension lib ord p cache) dag

/-! ## What a run writes -/

variable {lib ord p cache}

/-- A run keeps what the clusters it adds keep. -/
theorem run_inv {I : DAG → Prop}
    (h : ∀ name e, cache.extensions.lookup name = some e → ∀ dag, I dag →
      I (addExtension lib ord p cache dag e)) {dag : DAG} (hdag : I dag) :
    I (run lib ord p cache dag) := by
  refine foldlRecOn _ _ hdag fun dag hdag e he => ?_
  obtain ⟨name, hname⟩ := ord.mem_values.mp he
  exact h name e hname dag hdag

/-- A run writes no host. -/
theorem run_hosts (dag : DAG) :
    (run lib ord p cache dag).listeners = dag.listeners ∧
      (run lib ord p cache dag).virtualHosts = dag.virtualHosts ∧
      (run lib ord p cache dag).secureVirtualHosts = dag.secureVirtualHosts :=
  run_inv (I := fun d => d.listeners = dag.listeners ∧ d.virtualHosts = dag.virtualHosts ∧
    d.secureVirtualHosts = dag.secureVirtualHosts) (fun _ _ _ _ hdag => hdag) ⟨rfl, rfl, rfl⟩

variable {ext : ExtensionService}

/-- What the validation of upstreams changes in the cluster. -/
theorem attachValidation_extension {st st' : BuildState}
    (h : (attachValidation lib ord cache ext st).1 = some st') :
    st'.extension = st.extension ∨ ∃ v uv,
      cache.delegationPermitted ord (namespacedNameFrom v.caCertificate ext.ns) ext.ns = true ∧
      cache.lookupUpstreamValidation lib (some v) (namespacedNameFrom v.caCertificate ext.ns)
        ext.ns = .ok uv ∧
      st'.extension = { st.extension with upstreamValidation := uv, sni := getSubjectName uv } := by
  unfold attachValidation at h
  split at h
  · cases h
    exact .inl rfl
  rename_i v _
  dsimp only at h
  split at h
  · next hpermitted =>
    cases h
    -- A protocol that does not fit only adds an error.
    split
    · exact .inl (by split <;> rfl)
    · next uv huv => exact .inr ⟨v, uv, hpermitted, huv, by split <;> rfl⟩
  · cases h

variable (lib cache) in
/-- A service of an ExtensionService is added to the cluster, or an error is recorded. -/
theorem addTarget_cases (ext : ExtensionService) (target : ExtensionServiceTarget) :
    (∃ record : DetailedCondition → DetailedCondition, (∀ c, (record c).errors ≠ []) ∧
      ∀ st, addTarget lib cache ext st target =
        { st with validCondition := record st.validCondition }) ∨
    ∃ svc port, cache.lookupService lib { ns := ext.ns, name := target.name }
        (.int (Int32.ofInt target.port)) = .ok (svc, port) ∧ svc.externalName = "" ∧
      ∀ st, addTarget lib cache ext st target =
        { st with
          extension := { st.extension with
            upstream := st.extension.upstream.addWeightedService target.weight
              { ns := ext.ns, name := target.name } port } } := by
  have herrors : ∀ (c : DetailedCondition) type reason message,
      (c.addError type reason message).errors ≠ [] := fun _ _ _ _ =>
    append_ne_nil_of_right_ne_nil _ (cons_ne_nil _ _)
  unfold addTarget
  dsimp only
  split
  · exact .inl ⟨_, fun c => herrors c _ _ _, fun _ => rfl⟩
  · next svc port hfound =>
    split
    · exact .inl ⟨_, fun c => herrors c _ _ _, fun _ => rfl⟩
    · next hinternal => exact .inr ⟨svc, port, hfound, not_not.mp hinternal, fun _ => rfl⟩

/-- How an extension cluster is built. -/
theorem buildExtensionService_eq_some {validCondition : DetailedCondition} {e : ExtensionCluster}
    (h : (buildExtensionService lib ord p cache ext validCondition).1 = some e) :
    ∃ st, (attachValidation lib ord cache ext
        (baseExtension lib p cache ext validCondition)).1 = some st ∧
      e = (ext.services.foldl (addTarget lib cache ext) st).extension ∧
      (buildExtensionService lib ord p cache ext validCondition).2 =
        (ext.services.foldl (addTarget lib cache ext) st).validCondition := by
  unfold buildExtensionService at h ⊢
  split at h
  · cases h
  · next st _ hst =>
    cases h
    rw [hst]
    exact ⟨st, rfl, rfl, rfl⟩

variable (lib ord p cache) in
/-- An extension cluster that a run adds for an ExtensionService: it is built without an
error. -/
def Adds (ext : ExtensionService) (e : ExtensionCluster) : Prop :=
  ∃ validCondition, (buildExtensionService lib ord p cache ext validCondition).1 = some e ∧
    (buildExtensionService lib ord p cache ext validCondition).2.errors = []

/-- A run on a DAG without extension clusters leaves those of the ExtensionServices. -/
theorem run_extensionClusters {dag : DAG} (hdag : dag.extensionClusters = []) :
    ∀ e ∈ (run lib ord p cache dag).extensionClusters, ∃ name ext,
      cache.extensions.lookup name = some ext ∧ Adds lib ord p cache ext e := by
  refine run_inv (I := fun d : DAG => ∀ e ∈ d.extensionClusters, ∃ name ext,
    cache.extensions.lookup name = some ext ∧ Adds lib ord p cache ext e) ?_ (by simp [hdag])
  intro name ext hname d hd e he
  unfold addExtension at he
  dsimp only at he
  split at he
  · next herrors =>
    rcases mem_append.mp he with hold | hnew
    · exact hd e hold
    · exact ⟨name, ext, hname, _, Option.mem_toList.mp hnew, herrors⟩
  · exact hd e he

end ExtensionServiceProcessor

end Sesame.Dag
