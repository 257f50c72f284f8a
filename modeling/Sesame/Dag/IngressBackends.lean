/-
# Backends of Ingresses that name a resource

A backend of an Ingress names a Service or another resource of its namespace. Neither the
cache nor the Ingress processor looks which one it is: both dereference the Service. An
Ingress with a resource in the cache makes `serviceTriggersRebuild` panic for some Service,
so the Ingresses are handled as they should be only if there is none.
-/

import Mathlib.Data.Fintype.EquivFin
import Sesame.Dag.IngressProcessor

namespace Sesame.Dag

open List
open Lib Api

/-! ## Ingresses without resources -/

/-- A rule without its paths that name a resource. -/
def IngressRule.withoutResources (rule : IngressRule) : IngressRule :=
  { rule with http := rule.http.map (·.filter (·.backend.service.isSome)) }

/-- The Ingress without its backends that name a resource. -/
def Ingress.withoutResources (ing : Ingress) : Ingress :=
  { ing with
    defaultBackend := ing.defaultBackend.filter (·.service.isSome)
    rules := ing.rules.map IngressRule.withoutResources }

/-- All backends of the Ingress name a Service. -/
def Ingress.NamesServices (ing : Ingress) : Prop :=
  ∀ backend ∈ KubernetesCache.ingressBackends ing, backend.service.isSome = true

variable {rule : IngressRule}

namespace Ingress.NamesServices

variable {ing : Ingress} (h : Ingress.NamesServices ing)

include h

theorem default {backend : IngressBackend} (hbackend : ing.defaultBackend = some backend) :
    backend.service.isSome = true :=
  h backend (mem_append_left _ (Option.mem_toList.mpr hbackend))

theorem path (hrule : rule ∈ ing.rules) {httppath : HTTPIngressPath}
    (hpath : httppath ∈ rule.http.getD []) : httppath.backend.service.isSome = true :=
  h _ (mem_append_right _ (mem_flatMap.mpr ⟨rule, hrule, mem_map_of_mem hpath⟩))

theorem withoutResources_eq : Ingress.withoutResources ing = ing := by
  have hdefault : ing.defaultBackend.filter (·.service.isSome) = ing.defaultBackend := by
    cases hbackend : ing.defaultBackend with
    | none => rfl
    | some backend => rw [Option.filter_some, if_pos (h.default hbackend)]
  have hrules : ing.rules.map IngressRule.withoutResources = ing.rules := by
    refine (map_congr_left fun rule hrule => ?_).trans (map_id _)
    unfold IngressRule.withoutResources
    cases hpaths : rule.http with
    | none => cases rule; cases hpaths; rfl
    | some paths =>
      have hkept : paths.filter (·.backend.service.isSome) = paths := by
        refine filter_eq_self.mpr fun httppath hpath => h.path hrule ?_
        rw [hpaths]
        exact hpath
      rw [Option.map_some, hkept, ← hpaths]
      rfl
  rw [Ingress.withoutResources, hdefault, hrules]

end Ingress.NamesServices

namespace KubernetesCache

/-- The cache without the backends of Ingresses that name a resource. -/
def withoutResources (kc : KubernetesCache) : KubernetesCache :=
  { kc with ingresses := kc.ingresses.mapValues Ingress.withoutResources }

/-- All backends of Ingresses in the cache name Services. -/
def NamesServices (kc : KubernetesCache) : Prop :=
  ∀ name ing, kc.ingresses.lookup name = some ing → Ingress.NamesServices ing

theorem NamesServices.withoutResources_eq {kc : KubernetesCache} (h : kc.NamesServices) :
    kc.withoutResources = kc := by
  have hingresses : kc.ingresses.mapValues Ingress.withoutResources = kc.ingresses :=
    Map.mapValues_eq_self fun name ing hing => (h name ing hing).withoutResources_eq
  rw [KubernetesCache.withoutResources, hingresses]

/-! ## `serviceTriggersRebuild` -/

variable {ord : MapOrder} {kc : KubernetesCache}

theorem NamesServices.serviceTriggersRebuild (h : kc.NamesServices) (service : Api.Service) :
    ∃ answer, kc.serviceTriggersRebuild ord service = .ok answer := by
  have hingresses : ∃ answer, ((ord.values "serviceTriggersRebuild ingresses"
      kc.ingresses).anyM fun ing =>
        if ing.ns ≠ service.ns then pure false
        else (ingressBackends ing).anyM (backendNames service.name)) = .ok answer := by
    refine anyM_total fun ing hing => ?_
    obtain ⟨name, hname⟩ := ord.mem_values.mp hing
    split
    · exact ⟨false, rfl⟩
    · refine anyM_total fun backend hbackend => ?_
      obtain ⟨s, hs⟩ := Option.isSome_iff_exists.mp (h name ing hname backend hbackend)
      rw [backendNames, hs]
      exact ⟨_, rfl⟩
  obtain ⟨answer, hanswer⟩ := hingresses
  rw [KubernetesCache.serviceTriggersRebuild, hanswer, ok_bind]
  exact ⟨_, rfl⟩

/-- There is a name that no backend of an Ingress in the cache has. -/
theorem exists_unused_name (kc : KubernetesCache) :
    ∃ name : String, ∀ key ing, kc.ingresses.lookup key = some ing →
      ∀ backend ∈ ingressBackends ing, ∀ s, backend.service = some s → s.name ≠ name := by
  have hinfinite : Infinite String :=
    Infinite.of_injective String.ofList fun _ _ h => String.ofList_injective h
  let names : List String := kc.ingresses.toList.flatMap fun e =>
    (ingressBackends e.2).flatMap fun backend => (backend.service.map (·.name)).toList
  obtain ⟨name, hname⟩ := Infinite.exists_notMem_finset names.toFinset
  refine ⟨name, fun key ing hing backend hbackend s hs hsame => hname ?_⟩
  rw [mem_toFinset]
  refine mem_flatMap.mpr ⟨(key, ing), Map.mem_toList.mpr hing, ?_⟩
  refine mem_flatMap.mpr ⟨backend, hbackend, ?_⟩
  rw [hs, Option.map_some, hsame]
  exact mem_cons_self

/-- A backend that names a resource is dereferenced for a Service of its namespace that no
backend names. -/
theorem namesServices_of_serviceTriggersRebuild
    (h : ∀ service, ∃ answer, kc.serviceTriggersRebuild ord service = .ok answer) :
    kc.NamesServices := by
  intro key ing hing backend hbackend
  by_contra hresource
  have hnone : backend.service = none := by simpa using hresource
  obtain ⟨name, hname⟩ := exists_unused_name kc
  have hbackends : ∀ key' ing', kc.ingresses.lookup key' = some ing' →
      ∀ b ∈ ingressBackends ing', backendNames name b ≠ .ok true := by
    intro key' ing' hing' b hb
    rw [backendNames]
    split
    · exact fun h => by cases h
    · next s hs =>
      intro h
      exact hname key' ing' hing' b hb s hs (of_decide_eq_true (Except.ok.inj h))
  obtain ⟨answer, hanswer⟩ := h { name, ns := ing.ns }
  obtain ⟨byIngress, hingresses, -⟩ := bind_eq_ok.mp hanswer
  obtain ⟨e, he⟩ : ∃ e, (ingressBackends ing).anyM (backendNames name) = .error e :=
    anyM_eq_error (hbackends key ing hing) hbackend
      (show backendNames name backend = .error .nilDereference by rw [backendNames, hnone])
  have hfails : ∃ e, ((ord.values "serviceTriggersRebuild ingresses"
      kc.ingresses).anyM fun ing' =>
        if ing'.ns ≠ ing.ns then pure false
        else (ingressBackends ing').anyM (backendNames name)) = .error e := by
    refine anyM_eq_error ?_ (ord.mem_values.mpr ⟨key, hing⟩) (e := e) ?_
    · intro ing' hing'
      obtain ⟨key', hkey'⟩ := ord.mem_values.mp hing'
      split
      · exact fun h => by cases h
      · exact anyM_ne_true (hbackends key' ing' hkey')
    · rw [if_neg (not_not.mpr rfl)]
      exact he
  obtain ⟨e', he'⟩ := hfails
  rw [he'] at hingresses
  cases hingresses

end KubernetesCache

/-! ## Runs of the Ingress processor -/

namespace IngressProcessor

/-- A run over Ingresses whose backends name Services comes to its end. -/
theorem run_total {lib : Stdlib} {ord : MapOrder} {p : IngressProcessor} {source : KubernetesCache}
    (h : source.NamesServices) (dag : DAG) : ∃ dag', run lib ord p source dag = .ok dag' := by
  refine ⟨_, run_eq_ok.mpr ⟨fun name ing hing => ⟨?_, ?_⟩, rfl⟩⟩
  · exact fun be hbe => (h name ing hing).default hbe
  · exact fun rule hrule httppath hmet => (h name ing hing).path hrule (mem_of_mem_metPaths hmet)

end IngressProcessor

/-! ## All together -/

/-- The cache and the Ingress processor pass over backends that name a resource: nothing
panics, and the outcome is that of the Ingresses without these backends. -/
structure PassesOverResources (lib : Stdlib) (ord : MapOrder) (p : IngressProcessor)
    (kc : KubernetesCache) : Prop where
  insertIngress : ∀ ing, ∃ result, kc.insert ord lib (.ingress ing) = .ok result
  insertService : ∀ service, ∃ result, kc.insert ord lib (.service service) = .ok result
  triggers : ∀ service, ∃ answer, kc.serviceTriggersRebuild ord service = .ok answer
  run : ∀ dag, ∃ dag', IngressProcessor.run lib ord p kc dag = .ok dag'
  triggersAlike : ∀ service, kc.serviceTriggersRebuild ord service =
    kc.withoutResources.serviceTriggersRebuild ord service
  runAlike : ∀ dag, IngressProcessor.run lib ord p kc dag =
    IngressProcessor.run lib ord p kc.withoutResources dag

/-- Backends that name a resource are passed over if and only if there are none. -/
theorem passesOverResources_iff (lib : Stdlib) (ord : MapOrder) (p : IngressProcessor)
    (kc : KubernetesCache) : PassesOverResources lib ord p kc ↔ kc.NamesServices := by
  constructor
  · exact fun h => KubernetesCache.namesServices_of_serviceTriggersRebuild h.triggers
  · intro h
    refine ⟨?_, ?_, fun service => h.serviceTriggersRebuild service,
      fun dag => IngressProcessor.run_total h dag, ?_, ?_⟩
    · intro ing
      rw [KubernetesCache.insert]
      split
      · exact ⟨_, rfl⟩
      · exact ⟨_, rfl⟩
    · intro service
      have hafter : KubernetesCache.NamesServices { kc with
          services := kc.services.insert (namespacedNameOf service.toObjectMeta) service } := h
      obtain ⟨answer, hanswer⟩ : ∃ answer, KubernetesCache.serviceTriggersRebuild ord { kc with
          services := kc.services.insert (namespacedNameOf service.toObjectMeta) service } service =
          .ok answer := hafter.serviceTriggersRebuild service
      rw [KubernetesCache.insert, hanswer]
      exact ⟨_, rfl⟩
    · intro service
      rw [h.withoutResources_eq]
    · intro dag
      rw [h.withoutResources_eq]

/-- A Service `n/s`, an Ingress with a path to it, and one whose default backend is a
resource. -/
def resourceCache : KubernetesCache where
  services := byName (·.toObjectMeta) [webService "n" "s"]
  ingresses := (byName (·.toObjectMeta)
    [{ name := "served", ns := "n",
       rules :=
         [{ http := some [{ backend := webBackend "s" }] }] }]
    ).insert ⟨"n", "resource"⟩
    { name := "resource", ns := "n", defaultBackend := some { service := none } }

/-- The resource makes a run panic, and the insertion of a Service. Without it the other
Ingress is served. -/
theorem resource_backend_panics :
    IngressProcessor.run .plain .storage {} resourceCache {} =
      .error .nilDereference ∧
    resourceCache.insert .storage .plain (.service { name := "t", ns := "n" }) =
      .error .nilDereference ∧
    ∃ dag ∈ (IngressProcessor.run .plain .storage {} resourceCache.withoutResources
      {}).toOption, (dag.virtualHosts.lookup "*").isSome = true :=
  ⟨rfl, rfl, by decide +kernel⟩

end Sesame.Dag
