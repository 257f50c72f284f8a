/-
# Metrics of a rebuild

`internal/metrics` and `internal/sesame/metrics.go`: the proxies of a rebuild are
counted by namespace and virtual host, and the counts are published as gauges. A gauge
that the last rebuild published and this one does not is deleted.
-/

import Mathlib.Data.List.Induction
import Sesame.Status.Cache

namespace Sesame.Metrics

open List
open Lib Status

/-! ## Counts -/

@[ext]
structure Meta where
  vhost : String := ""
  ns : String
  deriving DecidableEq

/-- The fields of `RouteMetric`, each with a gauge of its own. -/
inductive Kind
  | total
  | valid
  | invalid
  | orphaned
  | root
  deriving DecidableEq

abbrev RouteMetric := Kind → Map Meta Nat

/-- `m[k]++`. -/
def increment (m : Map Meta Nat) (k : Meta) : Map Meta Nat := m.insert k ((m.lookup k).getD 0 + 1)

/-- `m[k]++` for the map of one kind. -/
def RouteMetric.increment (m : RouteMetric) (kind : Kind) (k : Meta) : RouteMetric :=
  Function.update m kind (Metrics.increment (m kind) k)

/-- The update has an error of type `ConditionTypeOrphanedError`. -/
def isOrphaned (u : ProxyUpdate) : Bool := u.conditionFor.errors.any (·.type = .orphanedError)

def calcMetrics (u : ProxyUpdate) (m : RouteMetric) : RouteMetric :=
  let m :=
    match u.conditionFor.status with
    | .true => m.increment .valid { vhost := u.vhost, ns := u.fullname.ns }
    | .false =>
      if isOrphaned u then m.increment .orphaned { ns := u.fullname.ns }
      else m.increment .invalid { vhost := u.vhost, ns := u.fullname.ns }
    | _ => m
  m.increment .total { ns := u.fullname.ns }

/-- The loop of `calculateRouteMetric`. -/
def countUpdate (m : RouteMetric) (u : ProxyUpdate) : RouteMetric :=
  let m := calcMetrics u m
  if u.vhost ≠ "" then m.increment .root { vhost := u.vhost, ns := u.fullname.ns } else m

def calculateRouteMetric (updates : List ProxyUpdate) : RouteMetric :=
  updates.foldl countUpdate fun _ => ∅

/-! ## Gauges -/

def labels : Kind → Meta → List String
  | .total, k | .orphaned, k | .root, k => [k.ns]
  | .valid, k | .invalid, k => [k.ns, k.vhost]

/-- The gauges of the proxies by their label values, and the metrics published last. -/
structure Published where
  gauges : Kind → Map (List String) Nat := fun _ => ∅
  proxyMetricCache : RouteMetric := fun _ => ∅

/-- The loops of `SetHTTPProxyMetric` for one kind: its gauges are set, and those are deleted
that only the cache has. -/
def publish {L : Type} [DecidableEq L] (ord : MapOrder) (label : Meta → L) (gauge : Map L Nat)
    (cache metrics : Map Meta Nat) : Map L Nat :=
  let entries := ord.range "SetHTTPProxyMetric" metrics
  let gauge := entries.foldl (fun (g : Map L Nat) e => g.insert (label e.1) e.2) gauge
  let cache := entries.foldl (fun (c : Map Meta Nat) e => c.erase e.1) cache
  (ord.range "proxyMetricCache" cache).foldl (fun (g : Map L Nat) e => g.erase (label e.1)) gauge

def setHTTPProxyMetric (ord : MapOrder) (m : Published) (metrics : RouteMetric) : Published where
  gauges kind := publish ord (labels kind) (m.gauges kind) (m.proxyMetricCache kind) (metrics kind)
  proxyMetricCache := metrics

/-- A rebuild, with the iteration orders of its loops and its updates. -/
def rebuild (m : Published) (r : MapOrder × List ProxyUpdate) : Published :=
  setHTTPProxyMetric r.1 m (calculateRouteMetric r.2)

/-! ## What is exported -/

/-- What an update counts for, if it does. -/
def counted (kind : Kind) (u : ProxyUpdate) : Option Meta :=
  match kind with
  | .total => some { ns := u.fullname.ns }
  | .valid =>
    if u.conditionFor.status = .true then some { vhost := u.vhost, ns := u.fullname.ns } else none
  | .invalid =>
    if u.conditionFor.status = .false ∧ ¬ isOrphaned u then
      some { vhost := u.vhost, ns := u.fullname.ns }
    else none
  | .orphaned =>
    if u.conditionFor.status = .false ∧ isOrphaned u then some { ns := u.fullname.ns } else none
  | .root => if u.vhost ≠ "" then some { vhost := u.vhost, ns := u.fullname.ns } else none

/-- What is counted of the updates, once for each of them. -/
def counts (kind : Kind) (updates : List ProxyUpdate) : List Meta :=
  updates.filterMap (counted kind)

/-- The map has the elements of the list, and how often each is in it. -/
def Tallies {L : Type} [DecidableEq L] (l : List L) (m : Map L Nat) : Prop :=
  ∀ k n, m.lookup k = some n ↔ k ∈ l ∧ l.count k = n

/-- The gauges are the counts of the updates. -/
def Exported (updates : List ProxyUpdate) (m : Published) : Prop :=
  ∀ kind, Tallies ((counts kind updates).map (labels kind)) (m.gauges kind)

theorem countUpdate_eq (m : RouteMetric) (u : ProxyUpdate) (kind : Kind) :
    countUpdate m u kind = (counted kind u).elim (m kind) (increment (m kind)) := by
  unfold countUpdate calcMetrics counted
  cases kind <;> cases u.conditionFor.status <;> by_cases hvhost : u.vhost = "" <;>
    cases isOrphaned u <;> simp [RouteMetric.increment, hvhost]

theorem Tallies.increment {l : List Meta} {m : Map Meta Nat} (h : Tallies l m) (k : Meta) :
    Tallies (l ++ [k]) (increment m k) := by
  intro k' n
  rw [Metrics.increment, Map.lookup_insert_eq, count_append, count_singleton,
    mem_append, mem_singleton]
  by_cases hk : k' = k
  · have hcount : (m.lookup k).getD 0 = l.count k := by
      cases hlookup : m.lookup k with
      | none =>
        refine (count_eq_zero.mpr fun hmem => ?_).symm
        cases hlookup.symm.trans ((h k _).mpr ⟨hmem, rfl⟩)
      | some n => exact ((h k n).mp hlookup).2.symm
    simp [hk, hcount]
  · simp [hk, Ne.symm hk, h k' n]

theorem tallies_calculateRouteMetric (kind : Kind) (updates : List ProxyUpdate) :
    Tallies (counts kind updates) (calculateRouteMetric updates kind) := by
  induction updates using reverseRecOn with
  | nil => exact fun _ _ => ⟨nofun, fun h => nomatch h.1⟩
  | append_singleton updates u ih =>
    rw [calculateRouteMetric, foldl_concat, countUpdate_eq, counts, filterMap_append]
    cases hu : counted kind u with
    | none =>
      rw [filterMap_cons_none hu, filterMap_nil, append_nil]
      exact ih
    | some k =>
      rw [filterMap_cons_some hu, filterMap_nil]
      exact ih.increment k

section

variable {L : Type} [DecidableEq L] {label : Meta → L} {old now : List Meta} {gauge : Map L Nat}
  {cache metrics : Map Meta Nat}

theorem lookup_foldl_erase {β : Type} (key : β → L) (l : List β) (m : Map L Nat) (k : L) :
    (l.foldl (fun (acc : Map L Nat) b => acc.erase (key b)) m).lookup k =
      if k ∈ l.map key then none else m.lookup k := by
  induction l generalizing m with
  | nil => simp
  | cons b rest ih =>
    rw [foldl_cons, ih, Map.lookup_erase_eq]
    by_cases hk : k = key b <;> simp [hk]

variable (ord : MapOrder) (hcache : Tallies old cache) (hmetrics : Tallies now metrics)

include hcache hmetrics

/-- A gauge that only the cache has is deleted, and the last count with its labels stays. -/
theorem lookup_publish (l : L) : (publish ord label gauge cache metrics).lookup l =
    if ∃ k ∈ old, k ∉ now ∧ label k = l then none
    else (((ord.range "SetHTTPProxyMetric" metrics).filter fun e => label e.1 = l).getLast?.map
      Prod.snd).or (gauge.lookup l) := by
  have hkeys : ∀ k, k ∈ (ord.range "SetHTTPProxyMetric" metrics).map Prod.fst ↔ k ∈ now := by
    simp [ord.mem_range, hmetrics _ _]
  have hstale : l ∈ (ord.range "proxyMetricCache" ((ord.range "SetHTTPProxyMetric" metrics).foldl
      (fun (c : Map Meta Nat) e => c.erase e.1) cache)).map (fun e => label e.1) ↔
      ∃ k ∈ old, k ∉ now ∧ label k = l := by
    simp only [mem_map (f := fun e : Meta × Nat => label e.1), ord.mem_range,
      lookup_foldl_erase Prod.fst, hkeys]
    constructor
    · rintro ⟨⟨k, n⟩, hk, hl⟩
      split at hk
      · cases hk
      · next hnew => exact ⟨k, ((hcache k n).mp hk).1, hnew, hl⟩
    · rintro ⟨k, hk, hnew, hl⟩
      exact ⟨(k, old.count k), (if_neg hnew).trans ((hcache k _).mpr ⟨hk, rfl⟩), hl⟩
  rw [publish, lookup_foldl_erase (fun e : Meta × Nat => label e.1), Map.lookup_foldl_insert_last]
  simp only [hstale]

omit hcache in
theorem getLast?_ne_none {l : L} {k : Meta} (hk : k ∈ now) (hl : label k = l) :
    ((ord.range "SetHTTPProxyMetric" metrics).filter fun e => label e.1 = l).getLast? ≠ none := by
  rw [ne_eq, getLast?_eq_none_iff]
  apply ne_nil_of_mem (a := (k, now.count k))
  exact mem_filter.mpr ⟨ord.mem_range.mpr ((hmetrics k _).mpr ⟨hk, rfl⟩), decide_eq_true hl⟩

variable (hgauge : ∀ l n, gauge.lookup l = some n → l ∈ old.map label)

include hgauge

/-- A gauge that is left counts an element of now, and no other had its labels before. -/
theorem publish_eq_some {l : L} {n : Nat}
    (h : (publish ord label gauge cache metrics).lookup l = some n) :
    (∀ k ∈ old, label k = l → k ∈ now) ∧ ∃ k ∈ now, label k = l ∧ now.count k = n := by
  rw [lookup_publish ord hcache hmetrics] at h
  split at h
  · cases h
  rename_i hstale
  push Not at hstale
  have hnow : ∀ k ∈ old, label k = l → k ∈ now := fun k hk hl =>
    by_contra fun hnew => hstale k hk hnew hl
  refine ⟨hnow, ?_⟩
  cases hlast : ((ord.range "SetHTTPProxyMetric" metrics).filter fun e =>
      label e.1 = l).getLast? with
  | some e =>
    rw [hlast] at h
    cases h
    obtain ⟨he, hl⟩ := mem_filter.mp (mem_of_getLast? hlast)
    obtain ⟨hmem, hcount⟩ := (hmetrics _ _).mp (ord.mem_range.mp he)
    exact ⟨e.1, hmem, of_decide_eq_true hl, hcount⟩
  | none =>
    rw [hlast] at h
    obtain ⟨k, hk, hl⟩ := mem_map.mp (hgauge l n h)
    exact absurd hlast (getLast?_ne_none ord hmetrics (hnow k hk hl) hl)

/-- The gauges are the counts just if no two elements share the labels of one that is
counted now. -/
theorem publish_tallies_iff : Tallies (now.map label) (publish ord label gauge cache metrics) ↔
    ∀ k ∈ now, ∀ k' ∈ now ++ old, label k' = label k → k' = k := by
  have hcount : ∀ k, (now.map label).count (label k) = now.countP fun k' => label k' = label k := by
    intro k
    rw [count, countP_map]
    rfl
  constructor
  · intro h k hk k' hk' hl
    obtain ⟨hnow, e, he, hel, heq⟩ := publish_eq_some ord hcache hmetrics hgauge
      ((h (label k) _).mpr ⟨mem_map_of_mem hk, rfl⟩)
    -- all elements with the labels are the one whose count stayed
    have hsame : ∀ x ∈ now, label x = label k → x = e := by
      have hfilter : (now.filter fun x => label x = label k).count e = now.count e :=
        count_filter (decide_eq_true hel)
      rw [hcount, countP_eq_length_filter, ← hfilter, count_eq_length] at heq
      exact fun x hx hxl => (heq x (mem_filter.mpr ⟨hx, decide_eq_true hxl⟩)).symm
    have hk'now : k' ∈ now := (mem_append.mp hk').elim id fun h => hnow k' h hl
    rw [hsame k hk rfl, hsame k' hk'now hl]
  · intro h
    have hvalue : ∀ {l n}, (publish ord label gauge cache metrics).lookup l = some n →
        l ∈ now.map label ∧ (now.map label).count l = n := by
      intro l n hlookup
      obtain ⟨-, k, hk, rfl, rfl⟩ := publish_eq_some ord hcache hmetrics hgauge hlookup
      refine ⟨mem_map_of_mem hk, (hcount k).trans (countP_congr fun x hx => ?_)⟩
      rw [decide_eq_true_iff, beq_iff_eq]
      exact ⟨h k hk x (mem_append_left _ hx), congrArg label⟩
    refine fun l n => ⟨hvalue, ?_⟩
    rintro ⟨hl, rfl⟩
    obtain ⟨k, hk, rfl⟩ := mem_map.mp hl
    cases hlookup : (publish ord label gauge cache metrics).lookup (label k) with
    | some n => rw [(hvalue hlookup).2]
    | none =>
      have hold : ¬ ∃ k' ∈ old, k' ∉ now ∧ label k' = label k := by
        rintro ⟨k', hk', hnew, hl⟩
        exact hnew (h k hk k' (mem_append_right _ hk') hl ▸ hk)
      rw [lookup_publish ord hcache hmetrics, if_neg hold, Option.or_eq_none_iff,
        Option.map_eq_none_iff] at hlookup
      exact absurd hlookup.1 (getLast?_ne_none ord hmetrics hk rfl)

end

/-- The updates that the last rebuild published. -/
def lastUpdates (rebuilds : List (MapOrder × List ProxyUpdate)) : List ProxyUpdate :=
  (rebuilds.getLast?.map Prod.snd).getD []

/-- What holds after every run: the cache has the counts of the last rebuild, and the
gauges have its labels. -/
theorem runs_published (rebuilds : List (MapOrder × List ProxyUpdate)) (kind : Kind) :
    let m := rebuilds.foldl rebuild {}
    Tallies (counts kind (lastUpdates rebuilds)) (m.proxyMetricCache kind) ∧
      ∀ l n, (m.gauges kind).lookup l = some n →
        l ∈ (counts kind (lastUpdates rebuilds)).map (labels kind) := by
  induction rebuilds using reverseRecOn with
  | nil => exact ⟨fun _ _ => ⟨nofun, fun h => nomatch h.1⟩, nofun⟩
  | append_singleton rebuilds r ih =>
    have hlast : lastUpdates (rebuilds ++ [r]) = r.2 := by simp [lastUpdates]
    rw [foldl_concat, hlast]
    have hnow := tallies_calculateRouteMetric kind r.2
    refine ⟨hnow, fun l n hl => ?_⟩
    obtain ⟨-, k, hk, rfl, -⟩ := publish_eq_some r.1 ih.1 hnow ih.2 hl
    exact mem_map_of_mem hk

/-- After every rebuild the gauges are the counts of its updates just if the roots of a
namespace, those of the rebuild before included, have one virtual host. -/
theorem exported_iff (rebuilds : List (MapOrder × List ProxyUpdate)) (ord : MapOrder)
    (updates : List ProxyUpdate) :
    Exported updates ((rebuilds ++ [(ord, updates)]).foldl rebuild {}) ↔
      ∀ k ∈ counts .root updates, ∀ k' ∈ counts .root (updates ++ lastUpdates rebuilds),
        k'.ns = k.ns → k'.vhost = k.vhost := by
  have hiff : ∀ kind, Tallies ((counts kind updates).map (labels kind))
      (((rebuilds ++ [(ord, updates)]).foldl rebuild {}).gauges kind) ↔
      ∀ k ∈ counts kind updates, ∀ k' ∈ counts kind (updates ++ lastUpdates rebuilds),
        labels kind k' = labels kind k → k' = k := by
    intro kind
    obtain ⟨hcache, hgauge⟩ := runs_published rebuilds kind
    rw [foldl_concat, counts, counts, filterMap_append]
    exact publish_tallies_iff ord hcache (tallies_calculateRouteMetric kind updates) hgauge
  constructor
  · intro h k hk k' hk' hns
    rw [(hiff .root).mp (h .root) k hk k' hk' (congrArg (fun ns => [ns]) hns)]
  · intro h kind
    rw [hiff]
    intro k hk k' hk' hl
    have hns : k'.ns = k.ns := by cases kind <;> simp_all [labels]
    have hvhost : k'.vhost = k.vhost := by
      cases kind with
      | root => exact h k hk k' hk' hns
      | valid | invalid => simp_all [labels]
      | total | orphaned =>
        -- these are counted without a virtual host
        obtain ⟨u, -, hu⟩ := mem_filterMap.mp hk
        obtain ⟨u', -, hu'⟩ := mem_filterMap.mp hk'
        simp only [counted, Option.ite_none_right_eq_some, Option.some.injEq] at hu hu'
        simp [← hu, ← hu']
    exact Meta.ext hvhost hns

def twoRoots : List ProxyUpdate :=
  [{ fullname := { ns := "default", name := "a" }, generation := 1, vhost := "a.example.com" },
    { fullname := { ns := "default", name := "b" }, generation := 1, vhost := "b.example.com" }]

theorem two_roots_counted_once :
    ((([(.storage, twoRoots)].foldl rebuild {}).gauges .root).lookup ["default"] = some 1) ∧
      ((counts .root twoRoots).map (labels .root)).count ["default"] = 2 :=
  ⟨by rfl, by decide⟩

end Sesame.Metrics
