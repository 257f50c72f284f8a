/-
# The cluster cache

`ClusterCache.OnChange` publishes one message per cluster name. A route refers to
its clusters by name, so a cluster of the DAG reaches its upstream under its own
settings only if the message kept under its name is its own.

`Clustername` hashes the load balancer policy, the HTTP health check without its
host, and the names of the CA secret and the subject. The protocol, the server
name, the client certificate, the CA's namespace and contents, the TCP health
check, the health check's host and the DNS family stay outside.
-/

import Sesame.Envoy.Cluster
import Sesame.Dag.Builder

namespace Sesame.XdsCache

open Lib Dag Envoy
open Api (NamespacedName)

namespace ClusterCache

variable (lib : Stdlib) (ord : MapOrder)

/-- The messages of the clusters that routes and TCP proxies refer to. -/
def routeClusters (root : DAG) : Map String EnvoyCluster :=
  (root.getClusters ord).foldl
    (fun clusters c => clusters.insertNew (clustername lib c) (cluster lib c)) ∅

/-- The messages that `OnChange` hands to `Update`. -/
def onChange (root : DAG) : Map String EnvoyCluster :=
  (ord.range "ClusterCache.OnChange" root.getExtensionClusters).foldl
    (fun clusters ec => clusters.insertNew ec.1 (extensionCluster lib ec.2))
    (routeClusters lib ord root)

/-- Under a name the first cluster of that name in `GetClusters` is published, or
else the extension cluster of that name. -/
theorem lookup_onChange (root : DAG) (name : String) :
    (onChange lib ord root).lookup name =
      (((root.getClusters ord).find? fun c => clustername lib c = name).map (cluster lib)).or
        ((root.getExtensionClusters.lookup name).map (extensionCluster lib)) := by
  rw [onChange, Map.lookup_foldl_insertNew, routeClusters, Map.lookup_foldl_insertNew,
    ord.find?_range, Option.map_map]
  simp [Function.comp_def]

/-- The first cluster of a name in `GetClusters` is the one that is published. -/
theorem lookup_onChange_of_mem {root : DAG} {c : Cluster} (hc : c ∈ root.getClusters ord) :
    ∃ first ∈ root.getClusters ord, clustername lib first = clustername lib c ∧
      (onChange lib ord root).lookup (clustername lib c) = some (cluster lib first) := by
  have hfound : ((root.getClusters ord).find?
      fun b => clustername lib b = clustername lib c).isSome := by
    rw [List.find?_isSome]
    exact ⟨c, hc, by simp⟩
  obtain ⟨first, hfirst⟩ := Option.isSome_iff_exists.mp hfound
  refine ⟨first, List.mem_of_find?_eq_some hfirst, by simpa using List.find?_some hfirst, ?_⟩
  rw [lookup_onChange, hfirst]
  rfl

end ClusterCache

end Sesame.XdsCache
