/-
# Where the clusters of a DAG forward to

Every cluster that a processor attaches to a host was made for a Service in the
cache, and the extension service that authorizes the requests of a host is one of
the extension clusters of the DAG. An extension cluster is added only if all of its
services were found, so it has a valid list of services if the API object names one.
-/

import Sesame.Dag.Isolation

namespace Sesame.Dag

open List
open Lib Api
open Status (DetailedCondition)

variable {lib : Stdlib} {ord : MapOrder} {dbc : DagBuilderConfig} {source : KubernetesCache}

/-- Services are stored under their own names, which are not empty. -/
def KubernetesCache.ServicesNamed (kc : KubernetesCache) : Prop :=
  ∀ name svc, kc.services.lookup name = some svc →
    name = { ns := svc.ns, name := svc.name } ∧ svc.ns ≠ "" ∧ svc.name ≠ ""

/-- Every ExtensionService names a service, as its schema requires. -/
def KubernetesCache.ExtensionsServed (kc : KubernetesCache) : Prop :=
  ∀ name e, kc.extensions.lookup name = some e → e.services ≠ []

namespace ServiceCluster

theorem validateServices_ok {services : List WeightedService} (i : Nat)
    (h : ∀ w ∈ services, w.serviceName ≠ "" ∧ w.serviceNamespace ≠ "") :
    validateServices i services = .ok () := by
  induction services generalizing i with
  | nil => rfl
  | cons w rest ih =>
    obtain ⟨hname, hns⟩ := h w mem_cons_self
    rw [validateServices, if_neg hname, if_neg hns]
    exact ih (i + 1) fun w hw => h w (mem_cons_of_mem _ hw)

/-- A cluster with a name and services, which all have names, is valid. -/
theorem validate_ok {s : ServiceCluster} (hname : s.clusterName ≠ "") (hservices : s.services ≠ [])
    (h : ∀ w ∈ s.services, w.serviceName ≠ "" ∧ w.serviceNamespace ≠ "") : s.validate = .ok () := by
  rw [validate, if_neg hname, if_neg hservices]
  exact validateServices_ok 0 h

end ServiceCluster

namespace ExtensionServiceProcessor

variable {p : ExtensionServiceProcessor}

variable {st : BuildState} {ext : ExtensionService}

/-- What the loop over the services of an extension service keeps: the cluster has a
name, its services have names, and every service so far was added or recorded as an
error. -/
structure TargetsAdded (targets : List ExtensionServiceTarget) (st : BuildState) : Prop where
  named : st.extension.upstream.clusterName ≠ ""
  services : ∀ w ∈ st.extension.upstream.services, w.serviceName ≠ "" ∧ w.serviceNamespace ≠ ""
  added : targets ≠ [] → st.validCondition.errors = [] → st.extension.upstream.services ≠ []

variable (lib) in
theorem addTarget_added (hnamed : source.ServicesNamed) (ext : ExtensionService)
    {targets : List ExtensionServiceTarget} (h : TargetsAdded targets st)
    (target : ExtensionServiceTarget) :
    TargetsAdded (targets ++ [target]) (addTarget lib source ext st target) := by
  rcases addTarget_cases lib source ext target with ⟨_, herrors, heq⟩ | ⟨svc, port, hfound, -, heq⟩
  · rw [heq]
    exact ⟨h.named, h.services, fun _ hnone => absurd hnone (herrors _)⟩
  · obtain ⟨hkey, hns, hname⟩ := hnamed _ svc (lookupService_eq_ok hfound)
    obtain ⟨hkeyns, hkeyname⟩ := NamespacedName.mk.inj hkey
    rw [← hkeyns] at hns
    rw [← hkeyname] at hname
    rw [heq]
    refine ⟨h.named, ?_, ?_⟩
    · exact forall_mem_append.mpr ⟨h.services, forall_mem_singleton.mpr ⟨hname, hns⟩⟩
    · intro _ _
      exact append_ne_nil_of_right_ne_nil _ (cons_ne_nil _ _)

variable (lib) in
theorem addTargets_added (hnamed : source.ServicesNamed) (ext : ExtensionService)
    (targets : List ExtensionServiceTarget) {done : List ExtensionServiceTarget}
    (h : TargetsAdded done st) :
    TargetsAdded (done ++ targets) (targets.foldl (addTarget lib source ext) st) := by
  induction targets generalizing done st with
  | nil =>
    rw [append_nil]
    exact h
  | cons target rest ih =>
    have hrest := ih (addTarget_added lib hnamed ext h target)
    rwa [append_assoc] at hrest

/-- The targets of an extension service leave a valid cluster, or an error. -/
theorem buildExtensionService_valid (hnamed : source.ServicesNamed) (hservices : ext.services ≠ [])
    {validCondition : DetailedCondition} {e : ExtensionCluster}
    (h : (buildExtensionService lib ord p source ext validCondition).1 = some e)
    (herrors : (buildExtensionService lib ord p source ext validCondition).2.errors = []) :
    e.upstream.validate = .ok () := by
  obtain ⟨st, hst, rfl, hcondition⟩ := buildExtensionService_eq_some h
  rw [hcondition] at herrors
  have hupstream := (attachValidation_kept hst).2
  have hstart : TargetsAdded [] st := by
    refine ⟨?_, ?_, fun h => absurd rfl h⟩
    · rw [hupstream]
      exact pathJoin_ne_empty _ _
    · rw [hupstream]
      intro w hw
      cases hw
  have hadded := addTargets_added lib hnamed ext ext.services hstart
  exact ServiceCluster.validate_ok hadded.named (hadded.added hservices herrors) hadded.services

end ExtensionServiceProcessor

/-- In a built DAG all extension clusters are valid. -/
theorem Builder.build_extensions_valid {root : DAG} (hnamed : source.ServicesNamed)
    (hserved : source.ExtensionsServed) (hbuild : Builder.build lib ord dbc source = .ok root) :
    ∀ e ∈ root.extensionClusters, e.upstream.validate = .ok () := by
  intro e he
  obtain ⟨name, ext, hname, validCondition, hbuilt, herrors⟩ := Builder.build_extensions hbuild e he
  exact ExtensionServiceProcessor.buildExtensionService_valid hnamed (hserved name ext hname) hbuilt
    herrors

/-- In a built DAG authorization services are extension clusters. -/
theorem Builder.build_authorization {root : DAG}
    (hbuild : Builder.build lib ord dbc source = .ok root)
    {host : String} {s : SecureVirtualHost} (hs : root.secureVirtualHosts.lookup host = some s)
    {e : ExtensionCluster} (he : s.authorizationService = some e) : e ∈ root.extensionClusters := by
  have hwithin : root.Within { authorization := (· ∈ root.extensionClusters) } := by
    apply build_within hbuild
    · exact ⟨fun _ => trivial, fun _ _ _ _ _ _ _ => trivial, fun _ _ _ _ _ => trivial⟩
    · exact ⟨fun _ => trivial, fun _ _ _ _ => trivial, fun _ _ _ _ _ => trivial,
        fun _ _ => trivial, fun _ he => he, fun _ _ _ _ _ _ _ => trivial, fun _ _ _ => trivial⟩
    · exact ⟨fun _ => trivial, fun _ => trivial, fun _ _ _ _ _ _ _ _ => trivial,
        fun _ _ _ => trivial⟩
  exact (hwithin.secureHosts host s hs).authorization e he

end Sesame.Dag
