/-
# Names of load assignments

The clusters of a graph ask for their endpoints by the name of a load assignment. For a
port of a Service it joins the namespace, the name and the port, for an ExtensionService
the word `extension`, its namespace and its name. The names identify what they stand for
as long as both schemes stay apart, which they do not for a Service in a namespace that is
itself called `extension`.
-/

import Sesame.Lib.Text
import Sesame.Dag.Isolation

namespace Sesame.Dag

open List
open Lib Api

variable {e : ExtensionCluster}

/-! ## Joined names -/

/-- The name of an object in Kubernetes, which can be a segment of a path. -/
@[mk_iff]
structure IsSegment (s : String) : Prop where
  nonempty : s ≠ ""
  noSlash : '/' ∉ s.toList
  notDot : s ≠ "."
  notDots : s ≠ ".."

instance (s : String) : Decidable (IsSegment s) := decidable_of_iff' _ (isSegment_iff s)

theorem toList_clusterLoadAssignmentName (service : NamespacedName) (portName : String) :
    (clusterLoadAssignmentName service portName).toList =
      service.ns.toList ++ '/' ::
        (service.name.toList ++ if portName = "" then [] else '/' :: portName.toList) := by
  unfold clusterLoadAssignmentName
  split
  · simp [String.intercalate_cons_cons]
  · simp [String.intercalate_cons_cons]

/-- The name of a load assignment tells the Service and the port. -/
theorem clusterLoadAssignmentName_inj {a b : NamespacedName} {p q : String}
    (hans : '/' ∉ a.ns.toList) (haname : '/' ∉ a.name.toList) (hbns : '/' ∉ b.ns.toList)
    (hbname : '/' ∉ b.name.toList)
    (h : clusterLoadAssignmentName a p = clusterLoadAssignmentName b q) : a = b ∧ p = q := by
  have hlist := congrArg String.toList h
  rw [toList_clusterLoadAssignmentName, toList_clusterLoadAssignmentName] at hlist
  obtain ⟨hns, hrest⟩ := append_cons_inj hans hbns hlist
  have hname : a.name.toList = b.name.toList ∧ p = q := by
    by_cases hp : p = "" <;> by_cases hq : q = ""
    · rw [if_pos hp, if_pos hq, append_nil, append_nil] at hrest
      exact ⟨hrest, hp.trans hq.symm⟩
    · rw [if_pos hp, if_neg hq, append_nil] at hrest
      exact absurd (hrest ▸ mem_append_right _ mem_cons_self) haname
    · rw [if_neg hp, if_pos hq, append_nil] at hrest
      exact absurd (hrest ▸ mem_append_right _ mem_cons_self) hbname
    · rw [if_neg hp, if_neg hq] at hrest
      obtain ⟨hname, hport⟩ := append_cons_inj haname hbname hrest
      exact ⟨hname, String.ext hport⟩
  refine ⟨?_, hname.2⟩
  cases a
  cases b
  congr 1
  · exact String.ext hns
  · exact String.ext hname.1

theorem cleanSegment_of_isSegment {s : String} (hs : IsSegment s) (kept : List (List Char)) :
    cleanSegment kept s.toList = s.toList :: kept := by
  have hempty : ¬ (s.toList = [] ∨ s.toList = ['.']) := by
    rintro (h | h)
    · exact hs.nonempty (String.ext h)
    · exact hs.notDot (String.ext h)
  have hdots : s.toList ≠ ['.', '.'] := fun h => hs.notDots (String.ext h)
  unfold cleanSegment
  rw [if_neg hempty, if_neg hdots]

/-- `path.Join` leaves the name of an ExtensionService as it is. -/
theorem pathJoin_extension {name : NamespacedName} (hns : IsSegment name.ns)
    (hname : IsSegment name.name) :
    pathJoin "extension" (clusterLoadAssignmentName name "") = extensionClusterName name := by
  have hsegments : ("extension".toList ++ '/' ::
      (clusterLoadAssignmentName name "").toList).splitOn '/' =
      ["extension".toList, name.ns.toList, name.name.toList] := by
    rw [toList_clusterLoadAssignmentName, if_pos rfl, append_nil,
      splitOn_append_cons_self_of_not_mem (by decide),
      splitOn_append_cons_self_of_not_mem hns.noSlash, splitOn_eq_singleton hname.noSlash]
  have hkept : (("extension".toList ++ '/' ::
      (clusterLoadAssignmentName name "").toList).splitOn '/').foldl cleanSegment [] =
      [name.name.toList, name.ns.toList, "extension".toList] := by
    have hext : IsSegment "extension" := by decide
    rw [hsegments, foldl_cons, foldl_cons, foldl_cons, foldl_nil,
      cleanSegment_of_isSegment hext, cleanSegment_of_isSegment hns,
      cleanSegment_of_isSegment hname]
  rw [pathJoin, hkept, extensionClusterName]
  simp

/-- The name of an extension cluster tells the ExtensionService. -/
theorem extensionClusterName_inj {a b : NamespacedName} (ha : '/' ∉ a.ns.toList)
    (hb : '/' ∉ b.ns.toList) (h : extensionClusterName a = extensionClusterName b) : a = b := by
  have htext : ∀ name : NamespacedName, (extensionClusterName name).toList =
      "extension".toList ++ '/' :: (name.ns.toList ++ '/' :: name.name.toList) := by
    intro name
    simp [extensionClusterName, String.intercalate_cons_cons]
  have hlist := congrArg String.toList h
  rw [htext, htext, append_cancel_left_eq, cons_inj_right] at hlist
  obtain ⟨hns, hname⟩ := append_cons_inj ha hb hlist
  cases a
  cases b
  congr 1
  · exact String.ext hns
  · exact String.ext hname

/-- The name of an extension cluster is that of a port of a Service in the namespace
`extension`. -/
theorem extensionClusterName_eq {name : NamespacedName} (hname : name.name ≠ "") :
    extensionClusterName name =
      clusterLoadAssignmentName { ns := "extension", name := name.ns } name.name := by
  rw [extensionClusterName, clusterLoadAssignmentName, if_neg hname]

/-! ## Upstreams of extension clusters -/

namespace ExtensionServiceProcessor

variable {lib : Stdlib} {ord : MapOrder} {source : KubernetesCache} {p : ExtensionServiceProcessor}
  {ext : ExtensionService} {st st' : BuildState}

/-- What the services of an ExtensionService make of the upstream of its cluster. -/
theorem foldl_addTarget_upstream (targets : List ExtensionServiceTarget)
    (h : st.extension.upstream = st'.extension.upstream) :
    (targets.foldl (addTarget lib source ext) st).extension.upstream =
      (targets.foldl (addTarget lib source ext) st').extension.upstream := by
  induction targets generalizing st st' with
  | nil => exact h
  | cons target targets ih =>
    apply ih
    rcases addTarget_cases lib source ext target with ⟨_, -, heq⟩ | ⟨_, _, -, -, heq⟩
    · rw [heq, heq]
      exact h
    · rw [heq, heq, h]

/-- The names of an extension cluster. -/
theorem IsBuiltFor.names (h : IsBuiltFor lib ord p source ext e) :
    e.name = extensionClusterName (namespacedNameOf ext.toObjectMeta) ∧
      e.upstream.clusterName =
        pathJoin "extension"
          (clusterLoadAssignmentName (namespacedNameOf ext.toObjectMeta) "") := by
  obtain ⟨validCondition, h⟩ := h
  obtain ⟨st, hst, rfl, -⟩ := buildExtensionService_eq_some h
  obtain ⟨hname, hupstream⟩ := attachValidation_kept hst
  refine foldlRecOn _ _ (motive := fun st : BuildState => st.extension.name = _ ∧
    st.extension.upstream.clusterName = _) ⟨hname, congrArg _ hupstream⟩ ?_
  intro st hst target _
  rcases addTarget_cases lib source ext target with ⟨_, -, heq⟩ | ⟨_, _, -, -, heq⟩ <;>
  · rw [heq]
    exact hst

/-- The upstream of an extension cluster depends on the ExtensionService and the Services
only. -/
theorem IsBuiltFor.upstream_eq {e' : ExtensionCluster} (h : IsBuiltFor lib ord p source ext e)
    (h' : IsBuiltFor lib ord p source ext e') : e.upstream = e'.upstream := by
  obtain ⟨_, h⟩ := h
  obtain ⟨_, h'⟩ := h'
  obtain ⟨st, hst, rfl, -⟩ := buildExtensionService_eq_some h
  obtain ⟨st', hst', rfl, -⟩ := buildExtensionService_eq_some h'
  apply foldl_addTarget_upstream
  exact (attachValidation_kept hst).2.trans (attachValidation_kept hst').2.symm

end ExtensionServiceProcessor

/-! ## Service clusters -/

/-- The Service and the port that an upstream stands for. -/
def WeightedService.target (w : WeightedService) : NamespacedName × ServicePort :=
  ({ ns := w.serviceNamespace, name := w.serviceName }, w.servicePort)

def ServiceCluster.targets (s : ServiceCluster) : List (NamespacedName × ServicePort) :=
  s.services.map WeightedService.target

/-- The names of service clusters tell their targets. -/
def NamesIdentify (clusters : List ServiceCluster) : Prop :=
  ∀ a ∈ clusters, ∀ b ∈ clusters, a.clusterName = b.clusterName → a.targets = b.targets

/-- Services and ExtensionServices are stored under their names, which are those of
Kubernetes objects. -/
structure KubernetesCache.NamesValid (kc : KubernetesCache) : Prop where
  services : ∀ name svc, kc.services.lookup name = some svc →
    name = { ns := svc.ns, name := svc.name } ∧ IsSegment svc.ns ∧ IsSegment svc.name
  extensions : ∀ name ext, kc.extensions.lookup name = some ext →
    name = { ns := ext.ns, name := ext.name } ∧ IsSegment ext.ns ∧ IsSegment ext.name

/-- No two clusters of a graph ask for different endpoints under one name: clusters for
ports of a Service that have the same name are for the same port, and an extension cluster
that is called after a Service in the namespace `extension` and a port of it has that port
as its only target. -/
structure DAG.NamesApart (ord : MapOrder) (root : DAG) : Prop where
  ports : ∀ c ∈ root.getClusters ord, ∀ c' ∈ root.getClusters ord,
    c.upstream.weighted.target.1 = c'.upstream.weighted.target.1 →
    c.upstream.weighted.servicePort.name = c'.upstream.weighted.servicePort.name →
    c.upstream.weighted.servicePort = c'.upstream.weighted.servicePort
  extensions : ∀ c ∈ root.getClusters ord, ∀ e ∈ root.extensionClusters,
    c.upstream.weighted.serviceNamespace = "extension" →
    e.name = extensionClusterName
      { ns := c.upstream.weighted.serviceName, name := c.upstream.weighted.servicePort.name } →
    e.upstream.targets = [c.upstream.weighted.target]

variable {lib : Stdlib} {ord : MapOrder} {dbc : DagBuilderConfig} {source : KubernetesCache}
  {root : DAG}

theorem KubernetesCache.NamesValid.servicesKeyed (h : source.NamesValid) : source.ServicesKeyed :=
  fun name svc hsvc => (h.services name svc hsvc).1

/-- The Service that a cluster of a built graph forwards to has the name of an object. -/
theorem isSegment_of_mem_getClusters (hnames : source.NamesValid)
    (hbuild : Builder.build lib ord dbc source = .ok root) {clusterOrd : MapOrder} {c : Cluster}
    (hc : c ∈ root.getClusters clusterOrd) :
    IsSegment c.upstream.weighted.serviceNamespace ∧ IsSegment c.upstream.weighted.serviceName := by
  obtain ⟨referrer, -, hmakes⟩ := Builder.made_of_hasCluster hbuild
    (Builder.hasCluster_of_mem_getClusters hbuild hc)
  obtain ⟨svc, hsvc, -⟩ := hmakes.mayUse hnames.servicesKeyed
  obtain ⟨hname, hns, hsvcname⟩ := hnames.services _ svc hsvc
  obtain ⟨hns', hname'⟩ := NamespacedName.mk.inj hname
  rw [hns', hname']
  exact ⟨hns, hsvcname⟩

/-- What an extension cluster of a built graph was made for. -/
theorem exists_extension_of_mem (hnames : source.NamesValid)
    (hbuild : Builder.build lib ord dbc source = .ok root) (he : e ∈ root.extensionClusters) :
    ∃ name ext, source.extensions.lookup name = some ext ∧ IsSegment name.ns ∧
      IsSegment name.name ∧ e.name = extensionClusterName name ∧
      ExtensionServiceProcessor.IsBuiltFor lib ord dbc.extensionServiceProcessor source ext e ∧
      e.upstream.clusterName = e.name := by
  obtain ⟨name, ext, hlookup, hadds⟩ := Builder.build_extensions hbuild e he
  obtain ⟨hname, hns, hextname⟩ := hnames.extensions name ext hlookup
  obtain ⟨hename, hupstream⟩ := hadds.isBuiltFor.names
  have hnsname : namespacedNameOf ext.toObjectMeta = name := by
    rw [hname, namespacedNameOf, if_neg hns.nonempty]
  rw [hnsname] at hename
  subst hname
  refine ⟨_, ext, hlookup, hns, hextname, hename, hadds.isBuiltFor, ?_⟩
  rw [hupstream, hnsname, hename, pathJoin_extension hns hextname]

/-- A port of a Service and an ExtensionService have the same name in one case only. -/
theorem mixed_names_iff (hnames : source.NamesValid)
    (hbuild : Builder.build lib ord dbc source = .ok root) {clusterOrd : MapOrder} {c : Cluster}
    (hc : c ∈ root.getClusters clusterOrd) (he : e ∈ root.extensionClusters) :
    (DAG.serviceClusterOf c).clusterName = e.upstream.clusterName ↔
      c.upstream.weighted.serviceNamespace = "extension" ∧
      e.name = extensionClusterName
        { ns := c.upstream.weighted.serviceName
          name := c.upstream.weighted.servicePort.name } := by
  obtain ⟨hcns, hcname⟩ := isSegment_of_mem_getClusters hnames hbuild hc
  obtain ⟨name, ext, -, hens, hename, heq, -, hupstream⟩ := exists_extension_of_mem hnames hbuild he
  have hext : '/' ∉ "extension".toList := by decide
  rw [hupstream, heq]
  constructor
  · intro hsame
    rw [extensionClusterName_eq hename.nonempty] at hsame
    obtain ⟨hservice, hport⟩ := clusterLoadAssignmentName_inj hcns.noSlash hcname.noSlash hext
      hens.noSlash hsame
    obtain ⟨hns, hsvc⟩ := NamespacedName.mk.inj hservice
    refine ⟨hns, ?_⟩
    rw [hsvc, hport]
  · intro ⟨hns, hsame⟩
    obtain rfl := extensionClusterName_inj hens.noSlash hcname.noSlash hsame
    rw [extensionClusterName_eq hename.nonempty, DAG.serviceClusterOf, hns]

/-- The names of the load assignments of a built graph identify their targets if and only if
no Service in a namespace `extension` is taken for an ExtensionService, and no two ports of
a Service have the same name. -/
theorem namesIdentify_iff (hnames : source.NamesValid)
    (hbuild : Builder.build lib ord dbc source = .ok root) (clusterOrd : MapOrder) :
    NamesIdentify (root.getServiceClusters clusterOrd) ↔ root.NamesApart clusterOrd := by
  have hclusters : ∀ s, s ∈ root.getServiceClusters clusterOrd ↔
      (∃ c ∈ root.getClusters clusterOrd, DAG.serviceClusterOf c = s) ∨
        ∃ e ∈ root.extensionClusters, e.upstream = s := by
    intro s
    rw [DAG.getServiceClusters, mem_append, mem_map, mem_map]
  constructor
  · intro h
    constructor
    · intro c hc c' hc' hservice hport
      have htargets := h _ ((hclusters _).mpr (.inl ⟨c, hc, rfl⟩)) _
        ((hclusters _).mpr (.inl ⟨c', hc', rfl⟩)) (by
          show clusterLoadAssignmentName c.upstream.weighted.target.1 _ =
            clusterLoadAssignmentName c'.upstream.weighted.target.1 _
          rw [hservice, hport])
      exact congrArg Prod.snd (cons.inj htargets).1
    · intro c hc e he hns hname
      exact (h _ ((hclusters _).mpr (.inl ⟨c, hc, rfl⟩)) _ ((hclusters _).mpr (.inr ⟨e, he, rfl⟩))
        ((mixed_names_iff hnames hbuild hc he).mpr ⟨hns, hname⟩)).symm
  · intro h
    have hextension : ∀ c ∈ root.getClusters clusterOrd, ∀ e ∈ root.extensionClusters,
        (DAG.serviceClusterOf c).clusterName = e.upstream.clusterName →
        (DAG.serviceClusterOf c).targets = e.upstream.targets := by
      intro c hc e he hsame
      obtain ⟨hns, hname⟩ := (mixed_names_iff hnames hbuild hc he).mp hsame
      exact (h.extensions c hc e he hns hname).symm
    intro a ha b hb hsame
    rcases (hclusters a).mp ha with ⟨c, hc, rfl⟩ | ⟨e, he, rfl⟩
    · rcases (hclusters b).mp hb with ⟨c', hc', rfl⟩ | ⟨e, he, rfl⟩
      · obtain ⟨hns, hname⟩ := isSegment_of_mem_getClusters hnames hbuild hc
        obtain ⟨hns', hname'⟩ := isSegment_of_mem_getClusters hnames hbuild hc'
        obtain ⟨hservice, hport⟩ := clusterLoadAssignmentName_inj hns.noSlash hname.noSlash
          hns'.noSlash hname'.noSlash hsame
        have htarget : c.upstream.weighted.target = c'.upstream.weighted.target :=
          Prod.ext hservice (h.ports c hc c' hc' hservice hport)
        exact congrArg (fun t => [t]) htarget
      · exact hextension c hc e he hsame
    · rcases (hclusters b).mp hb with ⟨c, hc, rfl⟩ | ⟨e', he', rfl⟩
      · exact (hextension c hc e he hsame.symm).symm
      · -- Two extension clusters of one name were made for one ExtensionService.
        obtain ⟨name, ext, hlookup, hns, -, hename, hbuilt, heq⟩ :=
          exists_extension_of_mem hnames hbuild he
        obtain ⟨name', ext', hlookup', hns', -, hename', hbuilt', heq'⟩ :=
          exists_extension_of_mem hnames hbuild he'
        rw [heq, heq', hename, hename'] at hsame
        obtain rfl := extensionClusterName_inj hns.noSlash hns'.noSlash hsame
        obtain rfl := Option.some.inj (hlookup.symm.trans hlookup')
        rw [hbuilt.upstream_eq hbuilt']

/-- A root proxy in the namespace `extension` that forwards to the port `x` of a Service, and
the ExtensionService `n/x` for another Service. The Service of the proxy is called `n` or
not. -/
def extensionNamespaceCache (serviceName : String) : KubernetesCache where
  services := byName (·.toObjectMeta)
    [{ name := serviceName, ns := "extension", ports := [{ name := "x", port := 80 }] },
     webService "n" "a"]
  extensions := byName (·.toObjectMeta)
    [{ name := "x", ns := "n", services := [{ name := "a", port := 80 }] }]
  httpproxies := byName (·.toObjectMeta)
    [{ name := "p", ns := "extension", virtualHost := some { fqdn := "h" },
       routes := [{ services := [{ name := serviceName, port := 80 }] }] }]

def extensionNamespaceDAG (serviceName : String) : DAG :=
  match Builder.build .plain .storage {} (extensionNamespaceCache serviceName) with
  | .ok root => root
  | .error _ => {}

/-- The Service `extension/n` and the ExtensionService `n/x` ask for different endpoints
under the same name. -/
theorem extension_namespace_collides :
    Builder.build .plain .storage {} (extensionNamespaceCache "n") =
      .ok (extensionNamespaceDAG "n") ∧
    ¬ NamesIdentify ((extensionNamespaceDAG "n").getServiceClusters .storage) := by
  refine ⟨rfl, fun h => ?_⟩
  have hcollide : ∃ a ∈ (extensionNamespaceDAG "n").getServiceClusters .storage,
      ∃ b ∈ (extensionNamespaceDAG "n").getServiceClusters .storage,
        a.clusterName = "extension/n/x" ∧ b.clusterName = "extension/n/x" ∧
        a.targets = [(⟨"extension", "n"⟩, { name := "x", port := 80 })] ∧
        b.targets = [(⟨"n", "a"⟩, { port := 80 })] := by
    decide +kernel
  obtain ⟨a, ha, b, hb, haname, hbname, hatargets, hbtargets⟩ := hcollide
  have hsame := h a ha b hb (haname.trans hbname.symm)
  rw [hatargets, hbtargets] at hsame
  revert hsame
  decide

theorem extensionNamespaceCache_namesValid : (extensionNamespaceCache "m").NamesValid where
  services := by
    have hall : ∀ e ∈ (extensionNamespaceCache "m").services.toList,
        e.1 = { ns := e.2.ns, name := e.2.name } ∧ IsSegment e.2.ns ∧ IsSegment e.2.name := by
      decide +kernel
    exact fun name svc hsvc => hall (name, svc) (Map.mem_toList.mpr hsvc)
  extensions := by
    have hall : ∀ e ∈ (extensionNamespaceCache "m").extensions.toList,
        e.1 = { ns := e.2.ns, name := e.2.name } ∧ IsSegment e.2.ns ∧ IsSegment e.2.name := by
      decide +kernel
    exact fun name ext hext => hall (name, ext) (Map.mem_toList.mpr hext)

/-- With another name of the Service the names stay apart. -/
theorem extension_namespace_identified :
    NamesIdentify ((extensionNamespaceDAG "m").getServiceClusters .storage) := by
  have hbuild : Builder.build .plain .storage {} (extensionNamespaceCache "m") =
      .ok (extensionNamespaceDAG "m") := rfl
  refine (namesIdentify_iff extensionNamespaceCache_namesValid hbuild .storage).mpr ⟨?_, ?_⟩
  · decide +kernel
  · decide +kernel

end Sesame.Dag
