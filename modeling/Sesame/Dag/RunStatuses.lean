/-
# Statuses after a run

Every update that a run of the HTTPProxy processor commits says valid or not valid, so
the status of a proxy after the run is false iff one of the updates for it failed. The
updates are those of the calls that the roots make.
-/

import Sesame.Dag.RootLog

namespace Sesame.Dag

open List
open Lib Api
open Status (DetailedCondition ProxyUpdate settled_conditionFor)

namespace HTTPProxyProcessor

/-! ## The commits of a log -/

def commits (log : List Event) : List ProxyUpdate :=
  log.filterMap fun
    | .commit update => some update
    | _ => none

theorem mem_commits {log : List Event} {update : ProxyUpdate} :
    update ∈ commits log ↔ .commit update ∈ log := by
  rw [commits, mem_filterMap]
  constructor
  · rintro ⟨e, he, hupdate⟩
    cases e with
    | commit u =>
      cases hupdate
      exact he
    | orphan name => cases hupdate
    | adopt name => cases hupdate
  · intro h
    exact ⟨_, h, rfl⟩

theorem commits_append (log log' : List Event) :
    commits (log ++ log') = commits log ++ commits log' :=
  filterMap_append

theorem Record.statusCache_applyAll (r : Record) (log : List Event) :
    (r.applyAll log).statusCache = (commits log).foldl Status.Cache.commitProxy r.statusCache := by
  induction log generalizing r with
  | nil => rfl
  | cons e rest ih =>
    cases e with
    | commit update => exact ih (r.apply (.commit update))
    | orphan name => exact ih (r.apply (.orphan name))
    | adopt name => exact ih (r.apply (.adopt name))

/-! ## What all conditions have in common -/

variable {lib : Stdlib} {ord : MapOrder} {p : HTTPProxyProcessor} {source : KubernetesCache}
  {K E : DetailedCondition → DetailedCondition → Prop}

/-- An update whose condition is related to itself. -/
def Kept (K : DetailedCondition → DetailedCondition → Prop) (pu : ProxyUpdate) : Prop :=
  ∃ vc, pu.valid = some vc ∧ K vc vc

theorem callUpdate_kept (hkept : KeptByRecording K E) {c : Call}
    (hstart : K (startCondition c.pos.proxy) (startCondition c.pos.proxy)) (root : Root)
    (enforceTLS : Bool) (fuel : Nat) :
    Kept K (callUpdate lib ord p source root enforceTLS fuel c) := by
  apply Exists.intro _
  apply And.intro rfl
  exact computeRoutes_kept lib ord p source root enforceTLS hkept fuel
    c.visited { dag := {} } { dag := {} } hstart c.pos

theorem tcpUpdate_kept (hkept : KeptByRecording K E) {c : TCPCall}
    (hstart : K (startCondition c.httpproxy) (startCondition c.httpproxy)) (host : String)
    (fuel : Nat) : Kept K (tcpUpdate lib p source host fuel c) := by
  let s : ProxyState := startOf { dag := {} } c.httpproxy
  have hs : K s.validCond s.validCond := hstart
  apply Exists.intro _
  apply And.intro rfl
  exact (processHTTPProxyTCPProxy_kept lib p source host hkept fuel c.visited hs c.httpproxy).2

/-! ## The log of a run -/

section

variable {extensions : List ExtensionCluster} {proxy : HTTPProxy} {vhost : VirtualHostSpec}

variable {pu : ProxyUpdate} {e : Event}

/-- The events of a part that does not return early. -/
theorem mem_after {x : ProxyStep} {log : List Event} :
    e ∈ x.after log ↔ (∃ s, x = .ok s) ∧ e ∈ log := by
  cases x with
  | error s => simp [ProxyStep.after]
  | ok s => simp [ProxyStep.after]

variable (lib source proxy) in
/-- The calls that follow the includes of a root. -/
def MakesCall (c : Call) : Prop := Relation.TransGen (Call.Step lib source) (Call.start proxy) c

/-- The calls that follow the include of the TCP proxy of a root. -/
def MakesTCPCall (source : KubernetesCache) (proxy : HTTPProxy) (c : TCPCall) : Prop :=
  Relation.TransGen (TCPCall.Step source) (TCPCall.start proxy) c

theorem isPath_start (hcached : Cached source proxy) : IsPath source (TCPCall.start proxy).path :=
  (isPath_nil source).concat hcached not_mem_nil

theorem mem_tcpRootLog (hcached : Cached source proxy) :
    e ∈ tcpRootLog lib p source proxy vhost ↔ vhost.tls.isSome = true ∧
      ((∃ c dest, Relation.ReflTransGen (TCPCall.Step source) (TCPCall.start proxy) c ∧
          tcpFollowed source c.httpproxy = some dest ∧
          e = .adopt (namespacedNameOf dest.toObjectMeta)) ∨
        ∃ c, MakesTCPCall source proxy c ∧
          e = .commit (tcpUpdate lib p source vhost.fqdn (includeFuel source) c)) := by
  unfold tcpRootLog MakesTCPCall
  rw [← mem_tcpLog (enough_includeFuel source _) (isPath_start hcached)]
  split
  · next htls => rw [and_iff_right htls]
  · next htls => simp [htls]

/-- What a root does is done by the calls it makes. -/
theorem mem_rootLog (hcached : Cached source proxy) :
    e ∈ rootLog lib ord p source extensions proxy vhost ↔
      (∃ s, beforeTCPProxy lib ord p source extensions proxy vhost = .ok s) ∧
        e ∈ tcpRootLog lib p source proxy vhost ∨
      (∃ s, beforeRoutes lib ord p source extensions proxy vhost = .ok s) ∧
        ∃ c, MakesCall lib source proxy c ∧
          (e = .commit (callUpdate lib ord p source { proxy, virtualHost := vhost }
              vhost.tls.isSome (includeFuel source) c) ∨
            e = .adopt (nameOf c.pos.proxy)) := by
  rw [rootLog, mem_append, mem_after, mem_after,
    mem_callLog (enough_includeFuel source _) (isPath_nil source) hcached]
  rfl

/-- The commits of a root are those of the calls it makes. -/
theorem commit_mem_rootLog (hcached : Cached source proxy) :
    .commit pu ∈ rootLog lib ord p source extensions proxy vhost ↔
      ((∃ s, beforeTCPProxy lib ord p source extensions proxy vhost = .ok s) ∧
        vhost.tls.isSome = true ∧ ∃ c, MakesTCPCall source proxy c ∧
          pu = tcpUpdate lib p source vhost.fqdn (includeFuel source) c) ∨
      (∃ s, beforeRoutes lib ord p source extensions proxy vhost = .ok s) ∧
        ∃ c, MakesCall lib source proxy c ∧
          pu = callUpdate lib ord p source { proxy, virtualHost := vhost } vhost.tls.isSome
            (includeFuel source) c := by
  rw [mem_rootLog hcached, mem_tcpRootLog hcached]
  simp

theorem proxyLog_kept (hkept : KeptByRecording K E)
    (hstart : ∀ proxy, K (startCondition proxy) (startCondition proxy))
    (hcached : Cached source proxy) (h : .commit pu ∈ proxyLog lib ord p source extensions proxy) :
    Kept K pu := by
  unfold proxyLog at h
  dsimp only at h
  split at h
  · obtain rfl : pu = _ := by simpa using h
    exact ⟨_, rfl, hstart proxy⟩
  split at h
  · obtain rfl : pu = _ := by simpa using h
    exact ⟨_, rfl, hkept.addError (hstart proxy) (by decide) _ _⟩
  rcases mem_append.mp h with hroot | hself
  · rcases (commit_mem_rootLog hcached).mp hroot with
      ⟨-, -, c, -, rfl⟩ | ⟨-, c, -, rfl⟩
    · exact tcpUpdate_kept hkept (hstart c.httpproxy) _ _
    · exact callUpdate_kept hkept (hstart c.pos.proxy) _ _ _
  · obtain rfl : pu = _ := by simpa using hself
    exact ⟨_, rfl, rootCondition_kept lib ord p source hkept (hstart proxy)⟩

theorem duplicateLog_kept (hkept : KeptByRecording K E)
    (hstart : ∀ proxy, K (startCondition proxy) (startCondition proxy))
    {group : String × List HTTPProxy} (h : .commit pu ∈ duplicateLog lib group) : Kept K pu := by
  unfold duplicateLog at h
  split at h
  · cases h
  · obtain ⟨proxy, -, heq⟩ := mem_map.mp h
    cases heq
    exact ⟨_, rfl, hkept.addError (hstart proxy) (by decide) _ _⟩

/-- What recording keeps holds for every update of a run, but those of orphaned proxies. -/
theorem runLog_kept (hkept : KeptByRecording K E)
    (hstart : ∀ proxy, K (startCondition proxy) (startCondition proxy))
    (h : .commit pu ∈ runLog lib ord p source extensions) : Kept K pu := by
  rcases mem_append.mp h with hduplicate | hproxy
  · obtain ⟨group, -, hgroup⟩ := mem_flatMap.mp hduplicate
    exact duplicateLog_kept hkept hstart hgroup
  · obtain ⟨proxy, hmem, hlog⟩ := mem_flatMap.mp hproxy
    exact proxyLog_kept hkept hstart (cached_of_mem_computedProxies hmem) hlog

/-- The second condition is settled. -/
def SecondSettled (_ vc : DetailedCondition) : Prop := vc.Settled

theorem keptByRecording_settled : KeptByRecording SecondSettled SecondSettled where
  rejected _ _ type reason message _ h := h.addError type reason message
  recorded _ _ h := h
  warned _ _ type reason message h := h.addWarning type reason message

theorem runLog_settled (h : .commit pu ∈ runLog lib ord p source extensions) : pu.Settled :=
  runLog_kept keptByRecording_settled settled_conditionFor h

theorem mem_orphanedLog {orphaned : List NamespacedName} :
    e ∈ orphanedLog ord source orphaned ↔
      ∃ name ∈ orphaned, ∃ proxy, source.httpproxies.lookup name = some proxy ∧
        e = .commit (orphanedUpdate proxy) := by
  simp [orphanedLog, (ord.perm "orphaned" orphaned).mem_iff, eq_comm]

end

variable (lib ord p source) in
def runUpdates (dag : DAG) : List ProxyUpdate :=
  commits (runLog lib ord p source dag.extensionClusters ++
    orphanedLog ord source (runRecord lib ord p source dag).orphaned)

theorem runUpdates_settled {dag : DAG} {pu : ProxyUpdate}
    (h : pu ∈ runUpdates lib ord p source dag) : pu.Settled := by
  rw [runUpdates, mem_commits, mem_append, mem_orphanedLog] at h
  rcases h with hrun | ⟨name, -, proxy, -, heq⟩
  · exact runLog_settled hrun
  · cases heq
    exact ⟨_, rfl, (settled_conditionFor proxy).addError _ _ _⟩

theorem run_statusCache_eq (dag : DAG) :
    (run lib ord p source dag).statusCache =
      (runUpdates lib ord p source dag).foldl Status.Cache.commitProxy dag.statusCache := by
  rw [run_statusCache, Record.statusCache_applyAll, runRecord, Record.statusCache_applyAll,
    ← foldl_append, runUpdates, commits_append]
  rfl

/-- The status of a proxy after a run is false iff it was before or an update for it
failed. -/
theorem run_validStatus_false_iff (dag : DAG) (name : NamespacedName) :
    (run lib ord p source dag).statusCache.validStatus name = some .false ↔
      dag.statusCache.Failed (runUpdates lib ord p source dag) name := by
  rw [run_statusCache_eq]
  exact (Status.Cache.validStatus_commits _ (fun _ => runUpdates_settled) name).1

/-- A failing update of a proxy that is computed makes its status false. -/
theorem run_validStatus_of_commit {dag : DAG} {proxy : HTTPProxy} {pu : ProxyUpdate}
    (hproxy : proxy ∈ computedProxies ord source)
    (hcommit : .commit pu ∈ proxyLog lib ord p source dag.extensionClusters proxy)
    (hfails : pu.Fails) :
    (run lib ord p source dag).statusCache.validStatus pu.fullname = some .false := by
  rw [run_validStatus_false_iff]
  refine .inr ⟨pu, mem_commits.mpr ?_, rfl, hfails⟩
  apply mem_append_left
  apply mem_append_right
  exact mem_flatMap.mpr ⟨proxy, hproxy, hcommit⟩

end HTTPProxyProcessor

/-- The statuses of the HTTPProxies are those after the HTTPProxy processor. -/
theorem Builder.build_proxyUpdates {lib : Stdlib} {ord : MapOrder} {dbc : DagBuilderConfig}
    {source : KubernetesCache} {root : DAG} (h : Builder.build lib ord dbc source = .ok root) :
    ∃ dag : DAG, dag.extensionClusters = root.extensionClusters ∧
      root.statusCache.proxyUpdates =
        (HTTPProxyProcessor.run lib ord dbc.httpProxyProcessor source
          dag).statusCache.proxyUpdates := by
  obtain ⟨dag, hhosts, -, rfl⟩ := Builder.build_eq h
  obtain ⟨d, hbefore, rfl⟩ := map_eq_ok.mp hhosts
  obtain ⟨d₀, -, rfl⟩ := Builder.beforeGateway_eq hbefore
  rw [ListenerProcessor.run_eq]
  refine ⟨ExtensionServiceProcessor.run lib ord dbc.extensionServiceProcessor source d₀, ?_⟩
  split
  · rw [(GatewayAPIProcessor.run_frame _).extensionClusters,
      HTTPProxyProcessor.run_extensionClusters, GatewayAPIProcessor.run_proxyUpdates]
    exact ⟨rfl, rfl⟩
  · rw [HTTPProxyProcessor.run_extensionClusters]
    exact ⟨rfl, rfl⟩

end Sesame.Dag
