/-
# Finite maps and range loops

Maps with unspecified iteration order. A map is an association list without
duplicate keys; what a program can observe of it is `lookup`, and a loop that
ranges over it sees some permutation of its entries. `MapOrder` fixes one such
permutation for every loop, so that a program is a function and a statement for
every `MapOrder` is a statement for every iteration order.
-/

import Mathlib.Data.List.AList
import Mathlib.Data.List.Perm.Basic

namespace Sesame.Lib

open List

universe u v w

/-- A finite map from `κ` to `α`. -/
abbrev Map (κ : Type u) (α : Type v) : Type (max u v) := AList (fun _ : κ => α)

namespace Map

variable {κ : Type u} {α : Type v}

variable {β : Type w}

/-- The entries of a map, in storage order. -/
def toList (m : Map κ α) : List (κ × α) := m.entries.map fun e => (e.1, e.2)

instance [DecidableEq κ] [DecidableEq α] : DecidableEq (Map κ α) := fun a b =>
  decidable_of_iff (a.entries = b.entries) AList.ext_iff.symm

variable [DecidableEq κ]

/-- The map a composite literal denotes; a later entry replaces an earlier one. -/
def ofList (l : List (κ × α)) : Map κ α := l.foldl (fun m e => m.insert e.1 e.2) ∅

/-- Two maps with the same contents. -/
def Same (a b : Map κ α) : Prop := ∀ k, a.lookup k = b.lookup k

/-- `for k, v := range batch { m[k] = v }`. -/
def merge (m batch : Map κ α) : Map κ α := batch.entries.foldl (fun acc e => acc.insert e.1 e.2) m

theorem lookup_insert_eq (m : Map κ α) (k k' : κ) (v : α) :
    (m.insert k v).lookup k' = if k' = k then some v else m.lookup k' := by
  by_cases h : k' = k
  · subst h
    simp [AList.lookup_insert]
  · simp [h, AList.lookup_insert_ne h]

theorem mem_toList {m : Map κ α} {e : κ × α} : e ∈ m.toList ↔ m.lookup e.1 = some e.2 := by
  obtain ⟨k, v⟩ := e
  rw [toList, mem_map]
  constructor
  · rintro ⟨⟨k', v'⟩, hmem, heq⟩
    cases heq
    exact AList.mem_lookup_iff.mpr hmem
  · intro hlookup
    exact ⟨⟨k, v⟩, AList.mem_lookup_iff.mp hlookup, rfl⟩

/-- Apply a function to every value. -/
def mapValues {β : Type w} (f : α → β) (m : Map κ α) : Map κ β where
  entries := m.entries.map fun e => ⟨e.1, f e.2⟩
  nodupKeys := by
    have hkeys : (m.entries.map fun e => (⟨e.1, f e.2⟩ : Sigma fun _ : κ => β)).keys =
        m.entries.keys := by
      simp [keys, Function.comp_def]
    rw [NodupKeys, hkeys]
    exact m.nodupKeys

@[simp]
theorem lookup_mapValues (f : α → β) (m : Map κ α) (k : κ) :
    (m.mapValues f).lookup k = (m.lookup k).map f := by
  have hentries : ∀ l : List (Sigma fun _ : κ => α),
      (l.map fun e => (⟨e.1, f e.2⟩ : Sigma fun _ : κ => β)).dlookup k = (l.dlookup k).map f := by
    intro l
    induction l with
    | nil => rfl
    | cons e rest ih =>
      obtain ⟨key, value⟩ := e
      by_cases h : k = key
      · subst h
        simp
      · rw [map_cons, dlookup_cons_ne (β := fun _ : κ => β) _ ⟨key, f value⟩ h,
          dlookup_cons_ne (β := fun _ : κ => α) _ ⟨key, value⟩ h, ih]
  exact hentries m.entries

theorem mapValues_eq_self {f : α → α} {m : Map κ α} (h : ∀ k v, m.lookup k = some v → f v = v) :
    m.mapValues f = m := by
  refine AList.ext ?_
  have hentries : ∀ e ∈ m.entries, (⟨e.1, f e.2⟩ : Sigma fun _ : κ => α) = e := by
    intro e he
    rw [h e.1 e.2 (AList.mem_lookup_iff.mpr he)]
  exact (map_congr_left hentries).trans (map_id _)

theorem lookup_erase_eq (m : Map κ α) (k k' : κ) :
    (m.erase k).lookup k' = if k' = k then none else m.lookup k' := by
  by_cases h : k' = k
  · subst h
    simp [AList.lookup_erase]
  · simp [h, AList.lookup_erase_ne h]

private theorem lookup_foldl_insert (l : List (Sigma fun _ : κ => α)) (hl : l.NodupKeys)
    (m : Map κ α) (k : κ) :
    (l.foldl (fun (acc : Map κ α) e => acc.insert e.1 e.2) m).lookup k =
      (l.dlookup k).or (m.lookup k) := by
  induction l generalizing m with
  | nil => simp
  | cons e rest ih =>
    obtain ⟨key, value⟩ := e
    obtain ⟨hnotin, hrest⟩ := nodupKeys_cons.mp hl
    rw [foldl_cons, ih hrest, lookup_insert_eq]
    by_cases h : k = key
    · subst h
      simp [dlookup_eq_none.mpr hnotin]
    · rw [if_neg h, dlookup_cons_ne (β := fun _ : κ => α) _ ⟨key, value⟩ h]

/-- Merging a batch overlays its entries. -/
@[simp]
theorem lookup_merge (m batch : Map κ α) (k : κ) :
    (m.merge batch).lookup k = (batch.lookup k).or (m.lookup k) :=
  lookup_foldl_insert batch.entries batch.nodupKeys m k

/-- `if _, ok := m[k]; !ok { m[k] = v }`. -/
def insertNew (m : Map κ α) (k : κ) (v : α) : Map κ α :=
  match m.lookup k with
  | some _ => m
  | none => m.insert k v

theorem lookup_insertNew (m : Map κ α) (k k' : κ) (v : α) :
    (m.insertNew k v).lookup k' = (m.lookup k').or (if k' = k then some v else none) := by
  rw [insertNew]
  by_cases h : k' = k
  · subst h
    cases hm : m.lookup k' with
    | none => simp
    | some old => simp [hm]
  · cases hm : m.lookup k with
    | none => simp [h]
    | some old => simp [h]

theorem map_lookup_insert {β : Type*} (m : Map κ α) (k k' : κ) (v : α) (f : α → β) :
    ((m.insert k v).lookup k').map f = if k = k' then some (f v) else (m.lookup k').map f := by
  grind [lookup_insert_eq]

theorem map_lookup_erase {β : Type*} (m : Map κ α) (k k' : κ) (f : α → β) :
    ((m.erase k).lookup k').map f = if k = k' then none else (m.lookup k').map f := by
  grind [lookup_erase_eq]

/-- What holds of a new entry and of the old ones holds of all. -/
theorem forall_lookup_insert {P : κ → α → Prop} {m : Map κ α} {k : κ} {v : α} (hnew : P k v)
    (hold : ∀ k' v', m.lookup k' = some v' → P k' v') :
    ∀ k' v', (m.insert k v).lookup k' = some v' → P k' v' := by
  intro k' v' h
  rw [lookup_insert_eq] at h
  split at h
  · next hkey =>
    cases h
    exact hkey ▸ hnew
  · exact hold k' v' h

/-- Of the elements of a list that are stored under one key, the first one stays. -/
theorem lookup_foldl_insertNew (key : β → κ) (value : β → α) (l : List β) (m : Map κ α) (k : κ) :
    (l.foldl (fun acc b => insertNew acc (key b) (value b)) m).lookup k =
      (m.lookup k).or ((l.find? fun b => key b = k).map value) := by
  induction l generalizing m with
  | nil => simp
  | cons b rest ih =>
    rw [foldl_cons, ih, lookup_insertNew, Option.or_assoc]
    by_cases h : key b = k
    · simp [h]
    · simp [h, Ne.symm h]

/-- Of the elements of a list that are stored under one key, the last one stays. -/
theorem lookup_foldl_insert_last (key : β → κ) (value : β → α) (l : List β) (m : Map κ α) (k : κ) :
    (l.foldl (fun (acc : Map κ α) b => acc.insert (key b) (value b)) m).lookup k =
      ((l.filter fun b => key b = k).getLast?.map value).or (m.lookup k) := by
  induction l generalizing m with
  | nil => simp
  | cons b rest ih =>
    rw [foldl_cons, ih, lookup_insert_eq]
    by_cases h : key b = k
    · cases hrest : (rest.filter fun b => key b = k).getLast? with
      | none => simp [h, getLast?_eq_none_iff.mp hrest]
      | some last => simp [h, getLast?_cons, hrest]
    · simp [h, Ne.symm h]

/-- A map whose entries all occur in a map with no more entries is that map. -/
theorem same_of_subset {a b : Map κ α} (hlength : b.keys.length ≤ a.keys.length)
    (hsub : ∀ k v, a.lookup k = some v → b.lookup k = some v) : Same a b := by
  have hkeys : a.keys ⊆ b.keys := by
    intro k hk
    obtain ⟨v, hv⟩ := Option.isSome_iff_exists.mp (AList.lookup_isSome.mpr hk)
    exact AList.lookup_isSome.mp (by rw [hsub k v hv]; rfl)
  have hperm : a.keys.Perm b.keys :=
    (subperm_of_subset a.keys_nodup hkeys).perm_of_length_le hlength
  intro k
  cases hk : a.lookup k with
  | some v => exact (hsub k v hk).symm
  | none =>
    have hnotin : k ∉ b := fun hmem => AList.lookup_eq_none.mp hk (hperm.mem_iff.mpr hmem)
    exact (AList.lookup_eq_none.mpr hnotin).symm

end Map

/-- One iteration order for every range loop over a map. A loop is named by its
`site`, so two loops over the same map may use different orders. -/
structure MapOrder where
  order : String → ∀ {α : Type}, List α → List α
  perm : ∀ (site : String) {α : Type} (l : List α), (order site l).Perm l

namespace MapOrder

/-- The iteration order that visits entries in storage order. -/
def storage : MapOrder where
  order _ _ l := l
  perm _ _ l := Perm.refl l

/-- The iteration order that visits the entries at one site in reverse. -/
def reversedAt (site : String) : MapOrder where
  order s _ l := if s = site then l.reverse else l
  perm s _ l := by
    split
    · exact reverse_perm l
    · exact Perm.refl l

variable {κ α : Type}

/-- The entries a range loop at `site` visits, in its order. -/
def range (ord : MapOrder) (site : String) (m : Map κ α) : List (κ × α) := ord.order site m.toList

/-- The values a range loop at `site` visits, in its order. -/
def values (ord : MapOrder) (site : String) (m : Map κ α) : List α :=
  (ord.range site m).map Prod.snd

theorem range_keys_perm (ord : MapOrder) (site : String) (m : Map κ α) :
    ((ord.range site m).map Prod.fst).Perm m.keys := by
  have hkeys : m.toList.map Prod.fst = m.keys := by
    simp [Map.toList, AList.keys, keys, Function.comp_def]
  rw [← hkeys]
  exact (ord.perm site m.toList).map Prod.fst

theorem nodup_range_keys (ord : MapOrder) (site : String) (m : Map κ α) :
    ((ord.range site m).map Prod.fst).Nodup :=
  (ord.range_keys_perm site m).nodup_iff.mpr m.keys_nodup

variable [DecidableEq κ]

theorem mem_range (ord : MapOrder) {site : String} {m : Map κ α} {e : κ × α} :
    e ∈ ord.range site m ↔ m.lookup e.1 = some e.2 := by
  rw [range, (ord.perm site _).mem_iff, Map.mem_toList]

/-- A range loop meets a key iff the map has it. -/
theorem find?_range (ord : MapOrder) (site : String) (m : Map κ α) (k : κ) :
    (ord.range site m).find? (fun e => e.1 = k) = (m.lookup k).map (k, ·) := by
  cases hlookup : m.lookup k with
  | none =>
    rw [Option.map_none, find?_eq_none]
    rintro ⟨k', v⟩ he hk
    rw [mem_range, of_decide_eq_true hk, hlookup] at he
    cases he
  | some v =>
    have hmem : (k, v) ∈ ord.range site m := ord.mem_range.mpr hlookup
    cases hfind : (ord.range site m).find? fun e => e.1 = k with
    | none =>
      rw [find?_eq_none] at hfind
      exact absurd (decide_eq_true rfl) (hfind _ hmem)
    | some e =>
      have he := ord.mem_range.mp (mem_of_find?_eq_some hfind)
      have hk : e.1 = k := by simpa using find?_some hfind
      rw [hk, hlookup] at he
      cases he
      rw [← hk]
      rfl

theorem mem_values (ord : MapOrder) {site : String} {m : Map κ α} {v : α} :
    v ∈ ord.values site m ↔ ∃ k, m.lookup k = some v := by
  simp [values, mem_range]

omit [DecidableEq κ] in
theorem values_perm (ord ord' : MapOrder) (site : String) (m : Map κ α) :
    (ord.values site m).Perm (ord'.values site m) :=
  ((ord.perm site _).trans (ord'.perm site _).symm).map Prod.snd

end MapOrder

end Sesame.Lib
