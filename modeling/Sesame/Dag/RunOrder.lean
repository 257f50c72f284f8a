/-
# The log of a run and the order of range loops

A run takes the proxies in the order of a range loop, so the order in which it commits
updates is not fixed. What is fixed is which updates there are, up to messages that name
one of several wrong headers, and which proxies are taken out of the orphaned ones: those
that a root reaches along includes, or along the includes of TCP proxies.
-/

import Sesame.Dag.OrderFree
import Sesame.Dag.RunStatuses

namespace Sesame.Dag.HTTPProxyProcessor

open List
open Lib Api
open Status (DetailedCondition ProxyUpdate settled_conditionFor)

variable {lib : Stdlib} {ord ord' : MapOrder} {p : HTTPProxyProcessor} {source : KubernetesCache}

variable {log : List Event} {proxy : HTTPProxy} {name : NamespacedName} {dag : DAG}
  {extensions : List ExtensionCluster}

/-! ## Conditions -/

/-- Two conditions that are both true or both false. -/
structure SameStatus (a b : DetailedCondition) : Prop where
  left : a.Settled
  right : b.Settled
  status : a.status = b.status

theorem SameStatus.addError {a b : DetailedCondition} (h : SameStatus a b)
    {type : Status.ErrorType} {reason message message' : String} :
    SameStatus (a.addError type reason message) (b.addError type reason message') :=
  ⟨h.left.addError .., h.right.addError ..,
    (h.left.addError_status ..).trans (h.right.addError_status ..).symm⟩

namespace FixedHeaders

theorem symm (h : FixedHeaders lib p source ord ord') : FixedHeaders lib p source ord' ord where
  escape value headers := (h.escape value headers).symm
  request := h.request
  response := h.response

end FixedHeaders

/-! ## Roots -/

theorem accepted_of_beforeTCPProxy {vhost : VirtualHostSpec}
    (h : ∃ s, beforeTCPProxy lib ord p source extensions proxy vhost = .ok s) :
    Accepted source proxy := by
  by_contra hnot
  obtain ⟨s, hs⟩ := h
  unfold beforeTCPProxy checkRoot at hs
  split at hs
  · cases hs
  · next hallowed =>
    split at hs
    · cases hs
    · next hdefined => exact hnot ⟨not_not.mp hallowed, hdefined⟩

theorem beforeTCPProxy_of_beforeRoutes {vhost : VirtualHostSpec}
    (h : ∃ s, beforeRoutes lib ord p source extensions proxy vhost = .ok s) :
    ∃ s, beforeTCPProxy lib ord p source extensions proxy vhost = .ok s := by
  obtain ⟨s, hs⟩ := h
  obtain ⟨s₁, hbefore, -⟩ := bind_eq_ok.mp hs
  exact ⟨s₁, hbefore⟩

/-- Two events that do the same, as far as the statuses of conditions go. -/
inductive Event.Alike : Event → Event → Prop
  | commit (update : ProxyUpdate) {vc vc' : DetailedCondition} (h : SameStatus vc vc') :
      Alike (.commit { update with valid := some vc }) (.commit { update with valid := some vc' })
  | orphan (name : NamespacedName) : Alike (.orphan name) (.orphan name)
  | adopt (name : NamespacedName) : Alike (.adopt name) (.adopt name)

theorem sortStrings_eq_of_perm {l l' : List String} (h : l.Perm l') :
    sortStrings l = sortStrings l' := by
  have hweak : StrictWeakOn (fun a b : String => decide (a < b)) (· ∈ l') := by
    refine .of_le (R := fun a b => a ≤ b) (fun _ _ _ _ _ _ => String.le_trans)
      (fun x y _ _ => String.le_total x y) fun x y _ _ => ?_
    rw [decide_eq_true_iff, String.not_le]
  refine sortStable_eq_of_perm hweak ?_ h
  intro x _ y _ hxy hyx
  rw [decide_eq_false_iff_not, String.not_lt] at hxy hyx
  exact String.le_antisymm hyx hxy

/-- The update of a proxy that shares its fqdn does not see the order of the others. -/
theorem duplicateUpdate_perm (fqdn : String) {proxies proxies' : List HTTPProxy}
    (h : proxies.Perm proxies') (proxy : HTTPProxy) :
    duplicateUpdate lib fqdn proxies proxy = duplicateUpdate lib fqdn proxies' proxy := by
  unfold duplicateUpdate
  rw [sortStrings_eq_of_perm (h.map proxyPath)]

def rootsFor (source : KubernetesCache) (fqdn : String) : List HTTPProxy :=
  (source.httpproxies.toList.map Prod.snd).filter (IsRootFor fqdn)

theorem mem_rootsFor {fqdn : String} :
    proxy ∈ rootsFor source fqdn ↔ Cached source proxy ∧ IsRootFor fqdn proxy := by
  simp [rootsFor, Cached, Map.mem_toList]

/-- The proxies that share an fqdn are rejected, in whatever order they are met. -/
theorem mem_duplicates {e : Event} :
    e ∈ (rootGroups ord source).flatMap (duplicateLog lib) ↔
      ∃ fqdn proxy, Cached source proxy ∧ IsRootFor fqdn proxy ∧ ¬ SoleRoot source fqdn ∧
        e = .commit (duplicateUpdate lib fqdn (rootsFor source fqdn) proxy) := by
  have hperm : ∀ fqdn, ((ord.values "validHTTPProxies" source.httpproxies).filter
      (IsRootFor fqdn)).Perm (rootsFor source fqdn) :=
    fun fqdn => ((ord.perm _ _).map Prod.snd).filter _
  have hgroups : ∀ fqdn group, (fqdn, group) ∈ rootGroups ord source ↔ group ≠ [] ∧
      group = (ord.values "validHTTPProxies" source.httpproxies).filter (IsRootFor fqdn) := by
    intro fqdn group
    obtain ⟨hgroup, hnonempty⟩ :=
      lookup_proxiesByFqdn (ord.values "validHTTPProxies" source.httpproxies) fqdn
    rw [rootGroups, ord.mem_range, ← hgroup]
    cases hlookup : (proxiesByFqdn (ord.values "validHTTPProxies" source.httpproxies)).lookup
        fqdn with
    | none => simp
    | some found =>
      have hfound := hnonempty found hlookup
      simp only [Option.some.injEq, Option.getD_some]
      exact ⟨fun h => ⟨h ▸ hfound, h.symm⟩, fun h => h.2.symm⟩
  rw [mem_flatMap]
  constructor
  · rintro ⟨⟨fqdn, group⟩, hgroup, he⟩
    obtain ⟨-, rfl⟩ := (hgroups fqdn group).mp hgroup
    unfold duplicateLog at he
    split at he
    · cases he
    rename_i hshared
    obtain ⟨proxy, hproxy, rfl⟩ := mem_map.mp he
    obtain ⟨hcached, hroot⟩ := mem_rootsFor.mp ((hperm fqdn).mem_iff.mp hproxy)
    refine ⟨fqdn, proxy, hcached, hroot, ?_, ?_⟩
    · intro hsole
      obtain ⟨name, hname⟩ := hcached
      exact hshared proxy ((filter_isRootFor_eq hname hroot _).mpr hsole)
    · rw [duplicateUpdate_perm fqdn (hperm fqdn)]
  · rintro ⟨fqdn, proxy, hcached, hroot, hshared, rfl⟩
    have hproxy := (hperm fqdn).mem_iff.mpr (mem_rootsFor.mpr ⟨hcached, hroot⟩)
    refine ⟨(fqdn, _), (hgroups fqdn _).mpr ⟨ne_nil_of_mem hproxy, rfl⟩, ?_⟩
    unfold duplicateLog
    split
    · next other hsingle =>
      obtain ⟨name, hname⟩ := hcached
      have hother : (ord.values "validHTTPProxies" source.httpproxies).filter
          (IsRootFor fqdn) = [other] := hsingle
      rw [hother, mem_singleton] at hproxy
      rw [← hproxy] at hother
      exact absurd ((filter_isRootFor_eq hname hroot _).mp hother) hshared
    · rw [← duplicateUpdate_perm fqdn (hperm fqdn)]
      exact mem_map_of_mem hproxy

/-- The proxies that a run computes. -/
theorem mem_computedProxies :
    proxy ∈ computedProxies ord source ↔ Cached source proxy ∧
      ∀ vhost, proxy.virtualHost = some vhost → SoleRoot source (lowerName vhost.fqdn) := by
  constructor
  · intro h
    exact ⟨cached_of_mem_computedProxies h, fun vhost => sole_of_mem_computedProxies h⟩
  · rintro ⟨⟨name, hname⟩, hsole⟩
    cases hvhost : proxy.virtualHost with
    | none =>
      apply mem_append_left
      rw [mem_filter, ord.mem_values]
      exact ⟨⟨name, hname⟩, by rw [hvhost]; rfl⟩
    | some vhost =>
      obtain ⟨before, after, -, ⟨hshared, -⟩ | ⟨-, hlist⟩⟩ :=
        computedProxies_split ord hname ⟨vhost, hvhost, rfl⟩
      · exact absurd (hsole vhost hvhost) hshared
      · rw [hlist]
        exact mem_append_right _ mem_cons_self

/-! ## Runs -/

theorem mem_orphaned_of_no_adopt (h : ∀ name, .adopt name ∉ log) (r : Record)
    (name : NamespacedName) :
    name ∈ (r.applyAll log).orphaned ↔ name ∈ r.orphaned ∨ .orphan name ∈ log := by
  induction log generalizing r with
  | nil => simp
  | cons e rest ih =>
    have hrest := ih (fun name' hmem => h name' (mem_cons_of_mem e hmem)) (r.apply e)
    rw [Record.applyAll, foldl_cons, ← Record.applyAll, hrest]
    cases e with
    | commit update => simp [Record.apply]
    | adopt name' => exact absurd mem_cons_self (h name')
    | orphan name' =>
      simp only [Record.apply, mem_cons, Event.orphan.injEq]
      split <;> grind

theorem mem_orphaned_of_no_orphan (h : ∀ name, .orphan name ∉ log) (r : Record)
    (name : NamespacedName) :
    name ∈ (r.applyAll log).orphaned ↔ name ∈ r.orphaned ∧ .adopt name ∉ log := by
  induction log generalizing r with
  | nil => simp
  | cons e rest ih =>
    have hrest := ih (fun name' hmem => h name' (mem_cons_of_mem e hmem)) (r.apply e)
    rw [Record.applyAll, foldl_cons, ← Record.applyAll, hrest]
    cases e with
    | commit update => simp [Record.apply]
    | orphan name' => exact absurd mem_cons_self (h name')
    | adopt name' => simp [Record.apply, and_assoc]

/-- A root takes proxies out of the orphaned ones: those it reaches. -/
theorem adopt_mem_rootLog {vhost : VirtualHostSpec} (hcached : Cached source proxy) :
    .adopt name ∈ rootLog lib ord p source extensions proxy vhost ↔
      ((∃ s, beforeTCPProxy lib ord p source extensions proxy vhost = .ok s) ∧
        vhost.tls.isSome = true ∧ ∃ c dest,
          Relation.ReflTransGen (TCPCall.Step source) (TCPCall.start proxy) c ∧
          tcpFollowed source c.httpproxy = some dest ∧
          name = namespacedNameOf dest.toObjectMeta) ∨
      (∃ s, beforeRoutes lib ord p source extensions proxy vhost = .ok s) ∧
        ∃ c, MakesCall lib source proxy c ∧ name = nameOf c.pos.proxy := by
  rw [mem_rootLog hcached, mem_tcpRootLog hcached]
  simp

theorem orphan_not_mem_proxyLog (hcached : Cached source proxy) (hroot : proxy.virtualHost ≠ none)
    (name : NamespacedName) : .orphan name ∉ proxyLog lib ord p source extensions proxy := by
  unfold proxyLog
  dsimp only
  split
  · next hnone => exact absurd hnone hroot
  · next vhost _ =>
    split
    · simp
    · rw [mem_append, mem_rootLog hcached, mem_tcpRootLog hcached]
      simp

section

variable (lib ord p source) (extensions : List ExtensionCluster)

/-- The first part of the log of a run: the proxies that share an fqdn, and the included
ones. -/
def includedLog : List Event :=
  (rootGroups ord source).flatMap (duplicateLog lib) ++
    ((ord.values "validHTTPProxies" source.httpproxies).filter fun proxy =>
      proxy.virtualHost.isNone).flatMap (proxyLog lib ord p source extensions)

def rootsLog : List Event :=
  ((rootGroups ord source).flatMap computedOf).flatMap (proxyLog lib ord p source extensions)

theorem runLog_eq :
    runLog lib ord p source extensions =
      includedLog lib ord p source extensions ++ rootsLog lib ord p source extensions := by
  rw [runLog, computedProxies, flatMap_append, ← append_assoc]
  rfl

end

section

variable {extensions : List ExtensionCluster}

/-- The included proxies are entered among the orphaned ones. -/
theorem mem_includedLog {e : Event} (h : e ∈ includedLog lib ord p source extensions) :
    (∃ pu, e = .commit pu) ∨ ∃ proxy, Cached source proxy ∧ proxy.virtualHost = none ∧
      e = .orphan (namespacedNameOf proxy.toObjectMeta) := by
  rcases mem_append.mp h with hduplicate | hincluded
  · obtain ⟨_, _, -, -, -, rfl⟩ := mem_duplicates.mp hduplicate
    exact .inl ⟨_, rfl⟩
  · obtain ⟨proxy, hproxy, he⟩ := mem_flatMap.mp hincluded
    obtain ⟨hcached, hnone⟩ := mem_filter.mp hproxy
    rw [Option.isNone_iff_eq_none] at hnone
    simp only [proxyLog, hnone, mem_cons, not_mem_nil, or_false] at he
    rcases he with rfl | rfl
    · exact .inr ⟨proxy, ord.mem_values.mp hcached, hnone, rfl⟩
    · exact .inl ⟨_, rfl⟩

theorem orphan_mem_includedLog :
    .orphan name ∈ includedLog lib ord p source extensions ↔
      ∃ proxy, Cached source proxy ∧ proxy.virtualHost = none ∧
        name = namespacedNameOf proxy.toObjectMeta := by
  constructor
  · intro h
    rcases mem_includedLog h with ⟨pu, heq⟩ | ⟨proxy, hcached, hnone, heq⟩
    · cases heq
    · cases heq
      exact ⟨proxy, hcached, hnone, rfl⟩
  · rintro ⟨proxy, hcached, hnone, rfl⟩
    apply mem_append_right
    refine mem_flatMap.mpr ⟨proxy, mem_filter.mpr ⟨ord.mem_values.mpr hcached, ?_⟩, ?_⟩
    · rw [hnone]
      rfl
    · rw [proxyLog, hnone]
      exact mem_cons_self

theorem adopt_not_mem_includedLog (name : NamespacedName) :
    .adopt name ∉ includedLog lib ord p source extensions := by
  intro h
  rcases mem_includedLog h with ⟨pu, heq⟩ | ⟨proxy, -, -, heq⟩ <;> cases heq

theorem orphan_not_mem_rootsLog (name : NamespacedName) :
    .orphan name ∉ rootsLog lib ord p source extensions := by
  intro he
  obtain ⟨proxy, hproxy, he⟩ := mem_flatMap.mp he
  have hcached : Cached source proxy := cached_of_mem_computedProxies (mem_append_right _ hproxy)
  refine orphan_not_mem_proxyLog hcached ?_ name he
  intro hnone
  obtain ⟨group, hgroup, hproxy⟩ := mem_flatMap.mp hproxy
  rw [mem_computedOf] at hproxy
  have hlookup := ord.mem_range.mp hgroup
  rw [hproxy] at hlookup
  obtain ⟨vhost, hvhost, -⟩ := (isRootFor_of_singleton hlookup).2
  rw [hnone] at hvhost
  cases hvhost

end

/-- The proxies that are still orphaned after all roots: those that no root took out. -/
theorem mem_runRecord_orphaned :
    name ∈ (runRecord lib ord p source dag).orphaned ↔
      (∃ proxy, Cached source proxy ∧ proxy.virtualHost = none ∧
        name = namespacedNameOf proxy.toObjectMeta) ∧
      .adopt name ∉ runLog lib ord p source dag.extensionClusters := by
  rw [runRecord, runLog_eq, Record.applyAll_append,
    mem_orphaned_of_no_orphan orphan_not_mem_rootsLog,
    mem_orphaned_of_no_adopt adopt_not_mem_includedLog, orphan_mem_includedLog, mem_append]
  simp [adopt_not_mem_includedLog]

end Sesame.Dag.HTTPProxyProcessor
