/-
# Orphaned proxies

A proxy that is not a root is orphaned unless some root reaches it. The run does not
search a graph: each root follows its includes with a path of its own, returns at a proxy
that is on the path already, and takes every proxy it comes to out of the orphaned ones.
Nothing is lost by returning there: the proxy was expanded where it entered the path. So
the proxies taken out are those that links lead to, and the others end with the Orphaned
error.
-/

import Sesame.Dag.RunOrder

namespace Sesame

open List
open Lib Api

/-! ## The error -/

namespace Status

/-- The condition holds an Orphaned error. -/
def DetailedCondition.IsOrphaned (vc : DetailedCondition) : Prop :=
  ∃ e ∈ vc.errors, e.type = .orphanedError

/-- The condition of the update holds an Orphaned error. -/
def ProxyUpdate.IsOrphaned (pu : ProxyUpdate) : Prop := ∃ vc, pu.valid = some vc ∧ vc.IsOrphaned

/-- The status that is recorded for the proxy holds an Orphaned error. -/
def Cache.IsOrphaned (c : Cache) (name : NamespacedName) : Prop :=
  ∃ pu, c.proxyUpdates.lookup name = some pu ∧ pu.IsOrphaned

end Status

namespace Dag.HTTPProxyProcessor

open Status (DetailedCondition ProxyUpdate settled_conditionFor)

variable {lib : Stdlib} {ord : MapOrder} {p : HTTPProxyProcessor} {source : KubernetesCache}

variable {proxy root : HTTPProxy}

/-! ## Links -/

/-- The include of a TCP proxy leads from a proxy to another one. -/
def TCPLink (source : KubernetesCache) (a b : HTTPProxy) : Prop := tcpFollowed source a = some b

/-- Every proxy is cached under its namespace and name. -/
def Keyed (source : KubernetesCache) : Prop :=
  ∀ entry ∈ source.httpproxies.toList,
    entry.1 = nameOf entry.2 ∧ entry.1 = namespacedNameOf entry.2.toObjectMeta
  deriving Decidable

theorem Keyed.lookup (h : Keyed source) (hcached : Cached source proxy) :
    source.httpproxies.lookup (nameOf proxy) = some proxy ∧
      namespacedNameOf proxy.toObjectMeta = nameOf proxy := by
  obtain ⟨key, hkey⟩ := hcached
  obtain ⟨hname, hfull⟩ := h (key, proxy) (Map.mem_toList.mpr hkey)
  constructor
  · rw [← hname]
    exact hkey
  · exact hfull.symm.trans hname

/-- Cached proxies of one name are the same. -/
theorem Keyed.eq_of_nameOf (h : Keyed source) {a b : HTTPProxy} (ha : Cached source a)
    (hb : Cached source b) (hname : nameOf a = nameOf b) : a = b := by
  have hlookup := (h.lookup ha).1
  rw [hname, (h.lookup hb).1] at hlookup
  exact (Option.some.inj hlookup).symm

/-! ## Calls come to what links lead to -/

/-- Every proxy on the path of a call was expanded by an earlier one. -/
theorem expanded_of_visited {c : Call}
    (h : Relation.ReflTransGen (Call.Step lib source) (Call.start root) c) {v : HTTPProxy}
    (hv : v ∈ c.visited) :
    ∃ c₀, Relation.ReflTransGen (Call.Step lib source) (Call.start root) c₀ ∧ c₀.pos.proxy = v ∧
      c₀.Expands := by
  induction h with
  | refl => cases hv
  | @tail c' _ hbefore hstep ih =>
    cases hstep with
    | follow expands _ _ =>
      rcases mem_append.mp hv with hold | hlast
      · exact ih hold
      · exact ⟨c', hbefore, (mem_singleton.mp hlast).symm, expands⟩

/-- A call that returns at once has nothing to add. -/
theorem exists_call_of_link (hkeyed : Keyed source) (hroot : Cached source root) {c : Call}
    (h : Relation.ReflTransGen (Call.Step lib source) (Call.start root) c) {b : HTTPProxy}
    (hlink : IncludeLink lib source c.pos.proxy b) :
    ∃ c', MakesCall lib source root c' ∧ c'.pos.proxy = b := by
  obtain ⟨inc, hinc, hfollowed⟩ := hlink.follows
  -- Some call for the proxy went on to its includes.
  have hexpanded : ∃ c₀, Relation.ReflTransGen (Call.Step lib source) (Call.start root) c₀ ∧
      c₀.pos.proxy = c.pos.proxy ∧ c₀.Expands := by
    by_cases hfresh : OnPath c.visited c.pos.proxy
    · obtain ⟨v, hv, hname⟩ := mem_map.mp hfresh
      obtain ⟨hpath, hcached⟩ := Call.Step.isPath h (isPath_nil source) hroot
      obtain rfl : v = c.pos.proxy := hkeyed.eq_of_nameOf (hpath.cached v hv) hcached hname
      exact expanded_of_visited h hv
    · exact ⟨c, h, rfl, hfresh, hlink.distinct⟩
  obtain ⟨c₀, hc₀, hproxy, hexpands⟩ := hexpanded
  rw [← hproxy] at hinc hfollowed
  exact ⟨c₀.child inc b, .tail' hc₀ (.follow hexpands hinc hfollowed), rfl⟩

/-- The proxies that a root comes to along its includes. -/
theorem exists_call_iff (hkeyed : Keyed source) (hroot : Cached source root) :
    (∃ c, MakesCall lib source root c ∧ c.pos.proxy = proxy) ↔
      Relation.TransGen (IncludeLink lib source) root proxy := by
  constructor
  · rintro ⟨c, hc, rfl⟩
    refine hc.lift (fun c : Call => c.pos.proxy) ?_
    intro a b hstep
    cases hstep with
    | follow expands inc_mem follows => exact ⟨expands.distinct, _, inc_mem, follows⟩
  · intro h
    induction h with
    | single hlink => exact exists_call_of_link hkeyed hroot (c := Call.start root) .refl hlink
    | tail _ hlink ih =>
      obtain ⟨c, hc, rfl⟩ := ih
      exact exists_call_of_link hkeyed hroot hc.to_reflTransGen hlink

/-- Every proxy on the path of a call had a call of its own. -/
theorem exists_tcpCall_of_path {c : TCPCall}
    (h : Relation.ReflTransGen (TCPCall.Step source) (TCPCall.start root) c) {v : HTTPProxy}
    (hv : v ∈ c.path) :
    ∃ c₀, Relation.ReflTransGen (TCPCall.Step source) (TCPCall.start root) c₀ ∧
      c₀.httpproxy = v := by
  have hself : ∀ {c : TCPCall}, v ∈ [c.httpproxy] →
      Relation.ReflTransGen (TCPCall.Step source) (TCPCall.start root) c →
      ∃ c₀, Relation.ReflTransGen (TCPCall.Step source) (TCPCall.start root) c₀ ∧
        c₀.httpproxy = v :=
    fun hmem hc => ⟨_, hc, (mem_singleton.mp hmem).symm⟩
  induction h with
  | refl => exact hself hv .refl
  | tail hbefore hstep ih =>
    cases hstep with
    | follow follows fresh =>
      rcases mem_append.mp hv with hold | hlast
      · exact ih hold
      · exact hself hlast (hbefore.tail (.follow follows fresh))

/-- The proxies that a root comes to along the includes of TCP proxies, the one that
closes a cycle with them. -/
theorem exists_tcpFollowed_iff (hkeyed : Keyed source) (hroot : Cached source root) :
    (∃ c, Relation.ReflTransGen (TCPCall.Step source) (TCPCall.start root) c ∧
        tcpFollowed source c.httpproxy = some proxy) ↔
      Relation.TransGen (TCPLink source) root proxy := by
  constructor
  · rintro ⟨c, hc, hfollowed⟩
    refine Relation.TransGen.tail' ?_ hfollowed
    refine hc.lift (fun c : TCPCall => c.httpproxy) ?_
    intro a b hstep
    cases hstep with
    | follow follows _ => exact follows
  · intro h
    induction h with
    | single hlink => exact ⟨TCPCall.start root, .refl, hlink⟩
    | @tail b _ _ hlink ih =>
      obtain ⟨c, hc, hfollowed⟩ := ih
      by_cases hcycle : OnPath c.path b
      · obtain ⟨v, hv, hname⟩ := mem_map.mp hcycle
        have hpath := TCPCall.Step.isPath hc (isPath_start hroot)
        obtain rfl : v = b :=
          hkeyed.eq_of_nameOf (hpath.cached v hv) (cached_of_tcpFollowed hfollowed) hname
        obtain ⟨c₀, hc₀, rfl⟩ := exists_tcpCall_of_path hc hv
        exact ⟨c₀, hc₀, hlink⟩
      · exact ⟨_, hc.tail (.follow hfollowed hcycle), hlink⟩

/-! ## Reached proxies are adopted -/

variable (lib ord p source) in
/-- A root reaches a proxy: it is computed as far as its includes and they lead there, or
it is computed as far as its TCP proxy and the include of that leads there. -/
inductive RootReaches (extensions : List ExtensionCluster) (proxy : HTTPProxy) : Prop
  | includes {root : HTTPProxy} {vhost : VirtualHostSpec}
      (computed : IsComputedRoot source root vhost)
      (processed : ∃ s, beforeRoutes lib ord p source extensions root vhost = .ok s)
      (links : Relation.TransGen (IncludeLink lib source) root proxy)
  | tcpProxy {root : HTTPProxy} {vhost : VirtualHostSpec}
      (computed : IsComputedRoot source root vhost) (tls : vhost.tls.isSome = true)
      (processed : ∃ s, beforeTCPProxy lib ord p source extensions root vhost = .ok s)
      (links : Relation.TransGen (TCPLink source) root proxy)

section

variable {extensions : List ExtensionCluster}

variable {vhost : VirtualHostSpec}

/-- The roots of a run that take a proxy out of the orphaned ones. -/
theorem adopt_mem_runLog {name : NamespacedName} :
    .adopt name ∈ runLog lib ord p source extensions ↔
      ∃ root vhost, IsComputedRoot source root vhost ∧
        .adopt name ∈ rootLog lib ord p source extensions root vhost := by
  constructor
  · intro h
    rcases mem_append.mp h with hduplicate | hproxy
    · obtain ⟨_, _, -, -, -, heq⟩ := mem_duplicates.mp hduplicate
      cases heq
    · obtain ⟨root, hroot, hlog⟩ := mem_flatMap.mp hproxy
      obtain ⟨hcached, hsole⟩ := mem_computedProxies.mp hroot
      unfold proxyLog at hlog
      dsimp only at hlog
      split at hlog
      · simp at hlog
      rename_i vhost hvhost
      split at hlog
      · simp at hlog
      rename_i hnamed
      have hadopt : .adopt name ∈ rootLog lib ord p source extensions root vhost := by
        simpa using hlog
      refine ⟨root, vhost, ⟨hcached, hvhost, Bool.eq_false_iff.mpr hnamed,
        hsole vhost hvhost, ?_⟩, hadopt⟩
      apply accepted_of_beforeTCPProxy
      rcases (adopt_mem_rootLog hcached).mp hadopt with ⟨hok, -⟩ | ⟨hok, -⟩
      · exact hok
      · exact beforeTCPProxy_of_beforeRoutes hok
  · rintro ⟨root, vhost, hcomputed, hadopt⟩
    apply mem_append_right
    refine mem_flatMap.mpr ⟨root, hcomputed.mem_computedProxies ord, ?_⟩
    rw [proxyLog, hcomputed.root]
    simp [hcomputed.named, hadopt]

/-- A proxy that is not a root is taken out of the orphaned ones iff a root reaches it. -/
theorem adopt_mem_runLog_iff_rootReaches (hkeyed : Keyed source) (hcached : Cached source proxy) :
    .adopt (nameOf proxy) ∈ runLog lib ord p source extensions ↔
      RootReaches lib ord p source extensions proxy := by
  have hsame : ∀ {q : HTTPProxy}, Cached source q → (nameOf proxy = nameOf q ↔ q = proxy) := by
    intro q hq
    constructor
    · exact fun hname => hkeyed.eq_of_nameOf hq hcached hname.symm
    · rintro rfl
      rfl
  rw [adopt_mem_runLog]
  constructor
  · rintro ⟨root, vhost, hcomputed, hadopt⟩
    rcases (adopt_mem_rootLog hcomputed.cached).mp hadopt with
      ⟨hok, htls, c, dest, hc, hfollowed, hname⟩ | ⟨hok, c, hc, hname⟩
    · have hdest := cached_of_tcpFollowed hfollowed
      rw [(hkeyed.lookup hdest).2, hsame hdest] at hname
      subst hname
      exact .tcpProxy hcomputed htls hok
        ((exists_tcpFollowed_iff hkeyed hcomputed.cached).mp ⟨c, hc, hfollowed⟩)
    · have hpos := (Call.Step.isPath hc.to_reflTransGen (isPath_nil source) hcomputed.cached).2
      exact .includes hcomputed hok
        ((exists_call_iff hkeyed hcomputed.cached).mp ⟨c, hc, (hsame hpos).mp hname⟩)
  · intro h
    cases h with
    | @includes root vhost computed processed links =>
      obtain ⟨c, hc, rfl⟩ := (exists_call_iff hkeyed computed.cached).mpr links
      exact ⟨root, vhost, computed,
        (adopt_mem_rootLog computed.cached).mpr (.inr ⟨processed, c, hc, rfl⟩)⟩
    | @tcpProxy root vhost computed tls processed links =>
      obtain ⟨c, hc, hfollowed⟩ := (exists_tcpFollowed_iff hkeyed computed.cached).mpr links
      refine ⟨root, vhost, computed, (adopt_mem_rootLog computed.cached).mpr (.inl
        ⟨processed, tls, c, proxy, hc, hfollowed, ?_⟩)⟩
      exact (hkeyed.lookup hcached).2.symm

end

/-! ## The error of orphaned proxies -/

/-- The second condition holds no Orphaned error. -/
def SecondNotOrphaned (_ vc : DetailedCondition) : Prop := ¬ vc.IsOrphaned

theorem keptByRecording_notOrphaned : KeptByRecording SecondNotOrphaned SecondNotOrphaned where
  rejected a b type reason message htype h := by
    rintro ⟨e, he, hetype⟩
    rcases mem_append.mp he with hold | hnew
    · exact h ⟨e, hold, hetype⟩
    · rw [mem_singleton.mp hnew] at hetype
      exact htype hetype
  recorded _ _ h := h
  warned _ _ _ _ _ h := h

theorem secondNotOrphaned_start (proxy : HTTPProxy) :
    SecondNotOrphaned (startCondition proxy) (startCondition proxy) := by
  rintro ⟨e, he, -⟩
  cases he

theorem runLog_not_orphaned {extensions : List ExtensionCluster} {pu : ProxyUpdate}
    (h : .commit pu ∈ runLog lib ord p source extensions) : ¬ pu.IsOrphaned := by
  obtain ⟨vc, hvc, hnot⟩ := runLog_kept keptByRecording_notOrphaned secondNotOrphaned_start h
  rintro ⟨vc', hvc', horphaned⟩
  rw [hvc] at hvc'
  cases hvc'
  exact hnot horphaned

theorem orphanedUpdate_fails (proxy : HTTPProxy) : (orphanedUpdate proxy).Fails :=
  ⟨_, rfl, (settled_conditionFor proxy).addError_status _ _ _⟩

theorem orphanedUpdate_isOrphaned (proxy : HTTPProxy) : (orphanedUpdate proxy).IsOrphaned :=
  ⟨_, rfl, _, mem_append_right _ mem_cons_self, rfl⟩

/-- The proxies that are left are those that get the Orphaned error. -/
theorem run_isOrphaned_iff (hkeyed : Keyed source) {dag : DAG} {name : NamespacedName}
    (hbefore : ¬ dag.statusCache.IsOrphaned name) :
    (run lib ord p source dag).statusCache.IsOrphaned name ↔
      name ∈ (runRecord lib ord p source dag).orphaned := by
  -- An orphaned proxy is cached under the name of its update.
  have hfullname : ∀ {key proxy}, source.httpproxies.lookup key = some proxy →
      (orphanedUpdate proxy).fullname = key :=
    fun {key proxy} hlookup => (hkeyed (key, proxy) (Map.mem_toList.mpr hlookup)).2.symm
  constructor
  · rintro ⟨pu, hpu, horphaned⟩
    rw [run_statusCache_eq] at hpu
    rcases Status.Cache.lookup_commits hpu with hold | ⟨hmem, rfl⟩
    · exact absurd ⟨pu, hold, horphaned⟩ hbefore
    · rw [runUpdates, mem_commits, mem_append] at hmem
      rcases hmem with hrun | hlast
      · exact absurd horphaned (runLog_not_orphaned hrun)
      · obtain ⟨key, hkey, proxy, hproxy, heq⟩ := mem_orphanedLog.mp hlast
        cases heq
        rw [hfullname hproxy]
        exact hkey
  · intro hname
    obtain ⟨⟨proxy, hcached, -, rfl⟩, -⟩ := mem_runRecord_orphaned.mp hname
    rw [(hkeyed.lookup hcached).2] at hname ⊢
    rw [Status.Cache.IsOrphaned, run_statusCache_eq, runUpdates, commits_append, foldl_append]
    apply Status.Cache.exists_lookup_commits
    · intro pu hpu hfull
      obtain ⟨key, -, other, -, heq⟩ := mem_orphanedLog.mp (mem_commits.mp hpu)
      cases heq
      exact ⟨orphanedUpdate_fails other, orphanedUpdate_isOrphaned other⟩
    · refine ⟨orphanedUpdate proxy, mem_commits.mpr (mem_orphanedLog.mpr
        ⟨nameOf proxy, hname, proxy, (hkeyed.lookup hcached).1, rfl⟩), ?_⟩
      exact hfullname (hkeyed.lookup hcached).1

/-- A proxy that is not a root gets the Orphaned error iff no root reaches it. -/
theorem run_isOrphaned_iff_not_rootReaches (hkeyed : Keyed source) (hcached : Cached source proxy)
    (hincluded : proxy.virtualHost = none) {dag : DAG}
    (hbefore : ¬ dag.statusCache.IsOrphaned (nameOf proxy)) :
    (run lib ord p source dag).statusCache.IsOrphaned (nameOf proxy) ↔
      ¬ RootReaches lib ord p source dag.extensionClusters proxy := by
  rw [run_isOrphaned_iff hkeyed hbefore, mem_runRecord_orphaned,
    adopt_mem_runLog_iff_rootReaches hkeyed hcached]
  exact and_iff_right ⟨proxy, hcached, hincluded, (hkeyed.lookup hcached).2.symm⟩

/-! ## Every proxy is reported -/

/-- A run commits an update for every cached proxy. -/
theorem exists_commit (extensions : List ExtensionCluster) (hcached : Cached source proxy) :
    ∃ pu, .commit pu ∈ runLog lib ord p source extensions ∧
      pu.fullname = namespacedNameOf proxy.toObjectMeta := by
  by_cases hcomputed : proxy ∈ computedProxies ord source
  · have hlog : ∃ pu, .commit pu ∈ proxyLog lib ord p source extensions proxy ∧
        pu.fullname = namespacedNameOf proxy.toObjectMeta := by
      unfold proxyLog
      dsimp only
      split
      · exact ⟨_, mem_cons_of_mem _ mem_cons_self, rfl⟩
      split
      · exact ⟨_, mem_cons_self, rfl⟩
      · exact ⟨_, mem_append_right _ mem_cons_self, rfl⟩
    obtain ⟨pu, hpu, hname⟩ := hlog
    exact ⟨pu, mem_append_right _ (mem_flatMap.mpr ⟨proxy, hcomputed, hpu⟩), hname⟩
  · -- A root that is not computed shares its fqdn.
    rw [mem_computedProxies, and_iff_right hcached] at hcomputed
    push Not at hcomputed
    obtain ⟨vhost, hvhost, hshared⟩ := hcomputed
    exact ⟨_, mem_append_left _ (mem_duplicates.mpr
      ⟨_, proxy, hcached, ⟨vhost, hvhost, rfl⟩, hshared, rfl⟩), rfl⟩

/-- After a run every cached proxy has a status. One that is not a root has the Orphaned error
iff no root reaches it, and is then not valid. -/
theorem every_proxy_reported (lib : Stdlib) (ord : MapOrder) (p : HTTPProxyProcessor) (dag : DAG)
    (hkeyed : Keyed source) (hcached : Cached source proxy)
    (hbefore : ¬ dag.statusCache.IsOrphaned (nameOf proxy)) :
    let after := (run lib ord p source dag).statusCache
    (after.validStatus (nameOf proxy) = some .true ∨
        after.validStatus (nameOf proxy) = some .false) ∧
      (proxy.virtualHost = none → (after.IsOrphaned (nameOf proxy) ↔
        ¬ RootReaches lib ord p source dag.extensionClusters proxy)) ∧
      (after.IsOrphaned (nameOf proxy) → after.validStatus (nameOf proxy) = some .false) := by
  obtain ⟨hlookup, hfullname⟩ := hkeyed.lookup hcached
  refine ⟨?_, fun hincluded => run_isOrphaned_iff_not_rootReaches hkeyed hcached hincluded hbefore,
    fun horphaned => ?_⟩
  · obtain ⟨pu, hpu, hname⟩ := exists_commit dag.extensionClusters hcached
    have hsettled : ∀ pu ∈ runUpdates lib ord p source dag, pu.Settled :=
      fun _ => runUpdates_settled
    have hcommits := Status.Cache.validStatus_commits dag.statusCache hsettled (nameOf proxy)
    rw [run_statusCache_eq, hcommits.1, hcommits.2]
    by_cases hfailed : dag.statusCache.Failed (runUpdates lib ord p source dag) (nameOf proxy)
    · exact .inr hfailed
    · exact .inl ⟨hfailed, .inr ⟨pu, mem_commits.mpr (mem_append_left _ hpu),
        hname.trans hfullname⟩⟩
  · rw [run_isOrphaned_iff hkeyed hbefore] at horphaned
    refine (run_validStatus_false_iff dag _).mpr (.inr ⟨orphanedUpdate proxy, mem_commits.mpr ?_,
      hfullname, orphanedUpdate_fails proxy⟩)
    exact mem_append_right _ (mem_orphanedLog.mpr ⟨_, horphaned, proxy, hlookup, rfl⟩)

/-- A proxy that only itself includes. -/
def islandCache : KubernetesCache where
  httpproxies := byName (·.toObjectMeta) [{ name := "a", ns := "n", includes := [{ name := "a" }] }]

theorem island_not_reached : ∃ proxy, Cached islandCache proxy ∧
    ¬ RootReaches .plain .storage {} islandCache [] proxy := by
  have hkeyed : Keyed islandCache := by decide
  have hbefore : ∀ name, ¬ Status.Cache.IsOrphaned {} name := by
    rintro name ⟨pu, hpu, -⟩
    cases hpu
  have hcached : Cached islandCache { name := "a", ns := "n", includes := [{ name := "a" }] } :=
    ⟨⟨"n", "a"⟩, rfl⟩
  have hreported := every_proxy_reported .plain .storage {} {} hkeyed hcached (hbefore _)
  exact ⟨_, hcached, (hreported.2.1 rfl).mp ⟨_, rfl, orphanedUpdate_isOrphaned _⟩⟩

end Dag.HTTPProxyProcessor

end Sesame
