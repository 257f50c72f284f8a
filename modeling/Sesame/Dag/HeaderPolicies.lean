/-
# Header policies

What the loops of `headersPolicyRoute` and `headersPolicyService` leave in a policy. Over
canonical names the headers of a user policy have one value each, since a name that comes
twice is refused. The loops over the defaults of a service refuse nothing: of two default
headers with one canonical name the first one that the map is asked for stays, and a
default removal is compared with the user's removals only, so that a name which the
defaults list twice is listed twice.
-/

import Sesame.Dag.HostOrder

namespace Sesame.Dag

open List
open Lib Api HTTPProxyProcessor

variable {lib : Stdlib} {ord : MapOrder} {allowHostRewrite : Bool}
  {dynamicHeaders : Map String String}

variable {acc res : String × Map String String} {entries : List HeaderValue}
  {hp : Option HeadersPolicy} {acc' : String × Map String String}

/-! ## The headers of a user policy -/

/-- An entry that is accepted sets a new header or rewrites the host. -/
theorem setHeader_lookup {entry : HeaderValue}
    (h : setHeader lib ord allowHostRewrite dynamicHeaders acc entry = .ok acc')
    (key value : String) :
    acc'.2.lookup key = some value ↔ acc.2.lookup key = some value ∨
      lib.canonicalHeaderKey entry.name = key ∧ key ≠ "Host" ∧
        value = escapeHeaderValue ord entry.value dynamicHeaders := by
  rw [setHeader] at h
  split_ifs at h with hpresent hhost hallow hname
  · cases h
    constructor
    · intro hold
      exact .inl hold
    · rintro (hold | ⟨hkey, hne, -⟩)
      · exact hold
      · exact absurd (hkey.symm.trans hhost) hne
  · cases h
    rw [Map.lookup_insert_eq]
    have hnew : acc.2.lookup (lib.canonicalHeaderKey entry.name) = none :=
      Option.not_isSome_iff_eq_none.mp hpresent
    by_cases hkey : key = lib.canonicalHeaderKey entry.name
    · rw [if_pos hkey, hkey, hnew]
      constructor
      · intro hvalue
        exact .inr ⟨rfl, hhost, (Option.some.inj hvalue).symm⟩
      · rintro (hold | ⟨-, -, hvalue⟩)
        · cases hold
        · rw [hvalue]
    · rw [if_neg hkey]
      constructor
      · intro hold
        exact .inl hold
      · rintro (hold | ⟨hkey', -, -⟩)
        · exact hold
        · exact absurd hkey'.symm hkey

/-- The headers that the loop has set. -/
theorem foldlM_setHeader_lookup
    (h : entries.foldlM (setHeader lib ord allowHostRewrite dynamicHeaders) acc = .ok res)
    (key value : String) :
    res.2.lookup key = some value ↔ acc.2.lookup key = some value ∨
      ∃ e ∈ entries, lib.canonicalHeaderKey e.name = key ∧ key ≠ "Host" ∧
        value = escapeHeaderValue ord e.value dynamicHeaders := by
  induction entries generalizing acc with
  | nil =>
    cases h
    simp
  | cons e entries ih =>
    rw [foldlM_cons] at h
    obtain ⟨acc', hstep, h⟩ := bind_eq_ok.mp h
    rw [ih h, setHeader_lookup hstep, or_assoc, exists_mem_cons_iff]

/-- The headers that the loop has listed for removal. -/
theorem foldlM_removeHeader {entries acc res : List String}
    (h : entries.foldlM (removeHeader lib) acc = .ok res) (hacc : acc.Nodup) :
    res = acc ++ entries.map lib.canonicalHeaderKey ∧ res.Nodup := by
  induction entries generalizing acc with
  | nil =>
    cases h
    exact ⟨(append_nil _).symm, hacc⟩
  | cons e entries ih =>
    rw [foldlM_cons] at h
    obtain ⟨acc', hstep, h⟩ := bind_eq_ok.mp h
    rw [removeHeader] at hstep
    split_ifs at hstep with hmem hname
    cases hstep
    have hconcat : (acc ++ [lib.canonicalHeaderKey e]).Nodup := by
      rw [← concat_eq_append, nodup_concat]
      exact ⟨hmem, hacc⟩
    obtain ⟨hres, hnodup⟩ := ih h hconcat
    rw [append_assoc, singleton_append] at hres
    exact ⟨hres, hnodup⟩

def setEntries (policy : Option Api.HeadersPolicy) : List HeaderValue := policy.elim [] (·.set)

def removeEntries (policy : Option Api.HeadersPolicy) : List String := policy.elim [] (·.remove)

/-- What an accepted user policy sets and removes. -/
structure UserPolicy (lib : Stdlib) (ord : MapOrder) (dynamicHeaders : Map String String)
    (policy : Option Api.HeadersPolicy) (hp : HeadersPolicy) : Prop where
  set : ∀ key value, hp.set.lookup key = some value ↔
    ∃ e ∈ setEntries policy, lib.canonicalHeaderKey e.name = key ∧ key ≠ "Host" ∧
      value = escapeHeaderValue ord e.value dynamicHeaders
  nodup : hp.remove.Nodup
  remove : ∀ key, key ∈ hp.remove ↔ ∃ e ∈ removeEntries policy, lib.canonicalHeaderKey e = key

theorem headersPolicyRoute_userPolicy {policy : Option Api.HeadersPolicy}
    (h : headersPolicyRoute lib ord policy allowHostRewrite dynamicHeaders = .ok hp) :
    UserPolicy lib ord dynamicHeaders policy (hp.getD {}) := by
  cases policy with
  | none =>
    cases h
    exact ⟨fun key value => by simp [setEntries], nodup_nil, fun key => by simp [removeEntries]⟩
  | some policy =>
    rw [headersPolicyRoute] at h
    obtain ⟨⟨hostRewrite, set⟩, hset, h⟩ := bind_eq_ok.mp h
    obtain ⟨remove, hremove, h⟩ := bind_eq_ok.mp h
    cases h
    obtain ⟨hremove, hnodup⟩ := foldlM_removeHeader hremove nodup_nil
    rw [nil_append] at hremove
    refine ⟨fun key value => ?_, ?_, fun key => ?_⟩
    · rw [Option.getD_some, foldlM_setHeader_lookup hset]
      simp [setEntries]
    · exact (sortStable_perm _ _).nodup_iff.mpr hnodup
    · rw [Option.getD_some, sortStrings, mem_sortStable, hremove]
      exact mem_map

/-- Without host rewrites, an accepted policy does not set `Host`. -/
theorem foldlM_setHeader_ne_host
    (h : entries.foldlM (setHeader lib ord false dynamicHeaders) acc = .ok res) :
    ∀ e ∈ entries, lib.canonicalHeaderKey e.name ≠ "Host" := by
  induction entries generalizing acc with
  | nil => exact forall_mem_nil _
  | cons e entries ih =>
    rw [foldlM_cons] at h
    obtain ⟨acc', hstep, h⟩ := bind_eq_ok.mp h
    rw [setHeader] at hstep
    split_ifs at hstep with hpresent hhost
    · contradiction
    · exact forall_mem_cons.mpr ⟨hhost, ih h⟩

theorem headersPolicyRoute_ne_host {policy : Option Api.HeadersPolicy}
    (h : headersPolicyRoute lib ord policy false dynamicHeaders = .ok hp) :
    ∀ e ∈ setEntries policy, lib.canonicalHeaderKey e.name ≠ "Host" := by
  cases policy with
  | none => exact forall_mem_nil _
  | some policy =>
    rw [headersPolicyRoute] at h
    obtain ⟨res, hset, -⟩ := bind_eq_ok.mp h
    exact foldlM_setHeader_ne_host hset

/-! ## Names and values of a user policy -/

section Names

variable {ord' : MapOrder} {dynamicHeaders' : Map String String} {policy : Option Api.HeadersPolicy}

/-- Two states of the loop with the same host rewrite and headers of the same names. -/
def SameNames (acc acc' : String × Map String String) : Prop :=
  acc.1 = acc'.1 ∧ ∀ key, (acc.2.lookup key).isSome = (acc'.2.lookup key).isSome

/-- Whether an entry is accepted does not depend on values. -/
theorem setHeader_agree (h : SameNames acc acc') (entry : HeaderValue) :
    Agree Eq SameNames (setHeader lib ord allowHostRewrite dynamicHeaders acc entry)
      (setHeader lib ord' allowHostRewrite dynamicHeaders' acc' entry) := by
  rw [setHeader, setHeader, h.2]
  split_ifs
  · exact rfl
  · exact ⟨rfl, h.2⟩
  · exact rfl
  · exact rfl
  · refine ⟨h.1, fun key => ?_⟩
    rw [Map.lookup_insert_eq, Map.lookup_insert_eq]
    by_cases hkey : key = lib.canonicalHeaderKey entry.name
    · rw [if_pos hkey, if_pos hkey, Option.isSome_some, Option.isSome_some]
    · rw [if_neg hkey, if_neg hkey]
      exact h.2 key

/-- Whether a policy is accepted, and the error if not, does not depend on values. -/
theorem headersPolicyRoute_agree :
    Agree Eq (fun _ _ => True)
      (headersPolicyRoute lib ord policy allowHostRewrite dynamicHeaders)
      (headersPolicyRoute lib ord' policy allowHostRewrite dynamicHeaders') := by
  cases policy with
  | none => exact trivial
  | some policy =>
    rw [headersPolicyRoute, headersPolicyRoute]
    have hstart : SameNames ("", ∅) ("", ∅) := ⟨rfl, fun _ => rfl⟩
    apply Agree.bind (Agree.foldlM (fun acc acc' h e _ => setHeader_agree h e) hstart)
    intro acc acc' _
    cases policy.remove.foldlM (removeHeader lib) [] with
    | error err => exact rfl
    | ok remove => exact trivial

theorem headersPolicyRoute_congr
    (h : ∀ e ∈ setEntries policy, lib.canonicalHeaderKey e.name ≠ "Host" →
      escapeHeaderValue ord e.value dynamicHeaders =
        escapeHeaderValue ord' e.value dynamicHeaders') :
    headersPolicyRoute lib ord policy allowHostRewrite dynamicHeaders =
      headersPolicyRoute lib ord' policy allowHostRewrite dynamicHeaders' := by
  cases policy with
  | none => rfl
  | some policy =>
    have hset : policy.set.foldlM (setHeader lib ord allowHostRewrite dynamicHeaders) ("", ∅) =
        policy.set.foldlM (setHeader lib ord' allowHostRewrite dynamicHeaders') ("", ∅) := by
      apply foldlM_congr
      intro acc e he
      rw [setHeader, setHeader]
      by_cases hhost : lib.canonicalHeaderKey e.name = "Host"
      · simp only [hhost, if_pos]
      · rw [h e he hhost]
    rw [headersPolicyRoute, headersPolicyRoute, hset]

/-- Two calls on one policy give the same result iff they refuse it or put the same values
into its headers. -/
theorem escapeHeaderValue_eq_of_headersPolicyRoute {hp : Option HeadersPolicy}
    (hok : headersPolicyRoute lib ord policy allowHostRewrite dynamicHeaders = .ok hp)
    (hok' : headersPolicyRoute lib ord' policy allowHostRewrite dynamicHeaders' = .ok hp)
    {e : HeaderValue} (he : e ∈ setEntries policy)
    (hhost : lib.canonicalHeaderKey e.name ≠ "Host") :
    escapeHeaderValue ord e.value dynamicHeaders =
      escapeHeaderValue ord' e.value dynamicHeaders' := by
  have hset := (headersPolicyRoute_userPolicy hok).set (lib.canonicalHeaderKey e.name)
  have hset' := (headersPolicyRoute_userPolicy hok').set (lib.canonicalHeaderKey e.name)
  have hlookup := (hset _).mpr ⟨e, he, rfl, hhost, rfl⟩
  have hlookup' := (hset' _).mpr ⟨e, he, rfl, hhost, rfl⟩
  exact Option.some.inj (hlookup.symm.trans hlookup')

end Names

/-! ## The headers of a service -/

/-- A header that services may lose by default. -/
def ValidRemoval (lib : Stdlib) (name : String) : Prop :=
  lib.isHTTPHeaderName (lib.canonicalHeaderKey name) = []

/-- The loop over the default removals fails if one is not valid, and otherwise lists those
that the user did not list. -/
theorem foldlM_removeDefaultHeader (lib : Stdlib) (removed entries acc : List String) :
    ((∀ e ∈ entries, ValidRemoval lib e) →
      entries.foldlM (removeDefaultHeader lib removed) acc =
        .ok (acc ++ (entries.map lib.canonicalHeaderKey).filter (· ∉ removed))) ∧
      ((¬ ∀ e ∈ entries, ValidRemoval lib e) →
        ∃ err, entries.foldlM (removeDefaultHeader lib removed) acc = .error err) := by
  constructor
  · intro hvalid
    have hstep : ∀ acc, ∀ e ∈ entries, removeDefaultHeader lib removed acc e =
        .ok (acc ++ [lib.canonicalHeaderKey e].filter (· ∉ removed)) := by
      intro acc e he
      have hname : lib.isHTTPHeaderName (lib.canonicalHeaderKey e) = [] := hvalid e he
      by_cases hmem : lib.canonicalHeaderKey e ∈ removed <;>
        simp [removeDefaultHeader, hname, hmem]
    rw [foldlM_eq_ok hstep, foldl_append_eq_append, ← flatMap_def, ← filter_flatMap,
      ← map_eq_flatMap]
  · intro hinvalid
    obtain ⟨e, he, hname⟩ : ∃ e ∈ entries, ¬ ValidRemoval lib e := by simpa using hinvalid
    exact foldlM_eq_error he (fun acc => ⟨_, if_pos hname⟩) acc

section Merge

variable (lib ord dynamicHeaders) (defaults : Option HeadersPolicy)
  (policy : Option Api.HeadersPolicy)

/-- The user policy sets a header. -/
def UserSets (key value : String) : Prop :=
  ∃ e ∈ setEntries policy, lib.canonicalHeaderKey e.name = key ∧
    value = escapeHeaderValue ord e.value dynamicHeaders

/-- The defaults set a header. -/
def DefaultSets (key value : String) : Prop :=
  ∃ name raw, (defaults.getD {}).set.lookup name = some raw ∧
    lib.canonicalHeaderKey name = key ∧ value = escapeHeaderValue ord raw dynamicHeaders

/-- Over canonical names, the user's headers extended by the defaults, and the removals of
both without repetition. -/
structure Merges (hp : HeadersPolicy) : Prop where
  set : ∀ key value, hp.set.lookup key = some value ↔
    UserSets lib ord dynamicHeaders policy key value ∨
      (∀ own, ¬ UserSets lib ord dynamicHeaders policy key own) ∧
        DefaultSets lib ord dynamicHeaders defaults key value
  nodup : hp.remove.Nodup
  remove : ∀ key, key ∈ hp.remove ↔
    (∃ e ∈ removeEntries policy, lib.canonicalHeaderKey e = key) ∨
      ∃ e ∈ (defaults.getD {}).remove, lib.canonicalHeaderKey e = key

/-- Whatever order the defaults are taken in, the call fails or merges the two policies. -/
def MergedInAnyOrder : Prop :=
  ∀ ord', MapOrder.SameExcept ["headersPolicyService"] ord ord' →
    ∀ hp, headersPolicyService lib ord' defaults policy dynamicHeaders = .ok hp →
      Merges lib ord dynamicHeaders defaults policy (hp.getD {})

/-- The defaults that do not make the call fail. -/
structure ValidDefaults : Prop where
  set : ∀ name raw, (defaults.getD {}).set.lookup name = some raw → ValidDefault lib name
  remove : ∀ e ∈ (defaults.getD {}).remove, ValidRemoval lib e

/-- The defaults do not contradict or repeat themselves where the user policy leaves them
to apply. -/
structure PlainDefaults : Prop where
  set : ∀ name name' raw raw', (defaults.getD {}).set.lookup name = some raw →
    (defaults.getD {}).set.lookup name' = some raw' →
    lib.canonicalHeaderKey name = lib.canonicalHeaderKey name' →
    (∀ e ∈ setEntries policy, lib.canonicalHeaderKey e.name ≠ lib.canonicalHeaderKey name) →
    escapeHeaderValue ord raw dynamicHeaders = escapeHeaderValue ord raw' dynamicHeaders
  remove : (((defaults.getD {}).remove.map lib.canonicalHeaderKey).filter
    (· ∉ (removeEntries policy).map lib.canonicalHeaderKey)).Nodup

end Merge

variable {defaults : Option HeadersPolicy} {policy : Option Api.HeadersPolicy}
  {user : Option HeadersPolicy}

/-- The policy of a service whose defaults are `defaults`. -/
def mergedPolicy (lib : Stdlib) (ord : MapOrder) (dynamicHeaders : Map String String)
    (defaults user : HeadersPolicy) : HeadersPolicy :=
  { user with
    set := (ord.range "headersPolicyService" defaults.set).foldl
      (fun set e => set.insertNew (lib.canonicalHeaderKey e.1)
        (escapeHeaderValue ord e.2 dynamicHeaders)) user.set
    remove := user.remove ++ (defaults.remove.map lib.canonicalHeaderKey).filter (· ∉ user.remove) }

variable (huser : headersPolicyRoute lib ord policy false dynamicHeaders = .ok user)

include huser

/-- The call succeeds iff the defaults are valid. -/
theorem headersPolicyService_some (defaults : HeadersPolicy) (hp : Option HeadersPolicy) :
    headersPolicyService lib ord (some defaults) policy dynamicHeaders = .ok hp ↔
      ValidDefaults lib (some defaults) ∧
        hp = some (mergedPolicy lib ord dynamicHeaders defaults (user.getD {})) := by
  have hset := foldlM_setDefaultHeader lib ord dynamicHeaders defaults (user.getD {}).set
  have hremove := foldlM_removeDefaultHeader lib (user.getD {}).remove defaults.remove
    (user.getD {}).remove
  rw [headersPolicyService, huser, ok_bind]
  dsimp only
  by_cases hnames : ValidNames lib defaults
  · rw [hset.1 hnames, ok_bind]
    by_cases hremovals : ∀ e ∈ defaults.remove, ValidRemoval lib e
    · rw [hremove.1 hremovals]
      exact ⟨fun h => ⟨⟨hnames, hremovals⟩, (Except.ok.inj h).symm⟩, fun h => by
        rw [h.2]; rfl⟩
    · obtain ⟨err, herr⟩ := hremove.2 hremovals
      rw [herr]
      exact iff_of_false nofun fun h => hremovals h.1.remove
  · obtain ⟨err, herr⟩ := hset.2 hnames
    rw [herr]
    exact iff_of_false nofun fun h => hnames h.1.set

omit huser in
/-- The headers of a merged policy: the user's, and of the defaults of one name the first. -/
theorem mergedPolicy_lookup (defaults user : HeadersPolicy) (key : String) :
    (mergedPolicy lib ord dynamicHeaders defaults user).set.lookup key =
      (user.set.lookup key).or
        (((ord.range "headersPolicyService" defaults.set).find?
          fun e => lib.canonicalHeaderKey e.1 = key).map
            fun e => escapeHeaderValue ord e.2 dynamicHeaders) :=
  Map.lookup_foldl_insertNew _ _ _ _ _

theorem userSets_iff (key value : String) :
    (user.getD {}).set.lookup key = some value ↔
      UserSets lib ord dynamicHeaders policy key value := by
  rw [(headersPolicyRoute_userPolicy huser).set]
  constructor
  · rintro ⟨e, he, hkey, -, hvalue⟩
    exact ⟨e, he, hkey, hvalue⟩
  · rintro ⟨e, he, hkey, hvalue⟩
    exact ⟨e, he, hkey, hkey ▸ headersPolicyRoute_ne_host huser e he, hvalue⟩

omit huser in
theorem not_userSets_iff {key : String} :
    (∀ own, ¬ UserSets lib ord dynamicHeaders policy key own) ↔
      ∀ e ∈ setEntries policy, lib.canonicalHeaderKey e.name ≠ key := by
  constructor
  · intro h e he hkey
    exact h _ ⟨e, he, hkey, rfl⟩
  · rintro h own ⟨e, he, hkey, -⟩
    exact h e he hkey

/-- The default removals that the user policy does not list. -/
theorem filter_removals (names : List String) :
    names.filter (· ∉ (user.getD {}).remove) =
      names.filter (· ∉ (removeEntries policy).map lib.canonicalHeaderKey) := by
  apply filter_congr
  intro key _
  have hmem := (headersPolicyRoute_userPolicy huser).remove key
  rw [← mem_map] at hmem
  rw [decide_eq_decide, hmem]

/-- With valid and plain defaults, the policy of a service merges the two policies. -/
theorem mergedPolicy_merges {defaults : HeadersPolicy}
    (hplain : PlainDefaults lib ord dynamicHeaders (some defaults) policy) :
    Merges lib ord dynamicHeaders (some defaults) policy
      (mergedPolicy lib ord dynamicHeaders defaults (user.getD {})) where
  set key value := by
    rw [mergedPolicy_lookup, Option.or_eq_some_iff, userSets_iff huser]
    have hnone : (user.getD {}).set.lookup key = none ↔
        ∀ own, ¬ UserSets lib ord dynamicHeaders policy key own := by
      rw [Option.eq_none_iff_forall_ne_some]
      exact forall_congr' fun own => not_congr (userSets_iff huser key own)
    rw [hnone]
    apply or_congr_right
    apply and_congr_right
    intro hunset
    rw [Option.map_eq_some_iff]
    constructor
    · rintro ⟨e, he, hvalue⟩
      have hmem := ord.mem_range.mp (mem_of_find?_eq_some he)
      have hkey : lib.canonicalHeaderKey e.1 = key := by simpa using find?_some he
      exact ⟨e.1, e.2, hmem, hkey, hvalue.symm⟩
    · rintro ⟨name, raw, hlookup, hkey, hvalue⟩
      -- some default has this name, and the first one that has it escapes to the same value
      obtain ⟨e, he⟩ : ∃ e, (ord.range "headersPolicyService" defaults.set).find?
          (fun e => decide (lib.canonicalHeaderKey e.1 = key)) = some e := by
        rw [← Option.isSome_iff_exists, find?_isSome]
        exact ⟨(name, raw), ord.mem_range.mpr hlookup, decide_eq_true hkey⟩
      have hmem := ord.mem_range.mp (mem_of_find?_eq_some he)
      have hkey' : lib.canonicalHeaderKey e.1 = key := by simpa using find?_some he
      refine ⟨e, he, ?_⟩
      rw [hvalue]
      apply hplain.set e.1 name e.2 raw hmem hlookup (hkey'.trans hkey.symm)
      rw [hkey']
      exact not_userSets_iff.mp hunset
  nodup := by
    have hfilter := hplain.remove
    rw [← filter_removals huser] at hfilter
    refine Nodup.append (headersPolicyRoute_userPolicy huser).nodup hfilter ?_
    intro key hown hdefault
    exact of_decide_eq_true (mem_filter.mp hdefault).2 hown
  remove key := by
    rw [mergedPolicy, mem_append, mem_filter, decide_eq_true_iff,
      (headersPolicyRoute_userPolicy huser).remove, mem_map, or_and_left]
    exact and_iff_left (Classical.em _)

/-- A merge shows that the defaults are plain. -/
theorem plainDefaults_of_merges {defaults : HeadersPolicy}
    (hmerges : Merges lib ord dynamicHeaders (some defaults) policy
      (mergedPolicy lib ord dynamicHeaders defaults (user.getD {}))) :
    PlainDefaults lib ord dynamicHeaders (some defaults) policy where
  set name name' raw raw' hlookup hlookup' hkey hunset := by
    have hfirst := (hmerges.set _ _).mpr
      (.inr ⟨not_userSets_iff.mpr hunset, name, raw, hlookup, rfl, rfl⟩)
    have hsecond := (hmerges.set _ _).mpr
      (.inr ⟨not_userSets_iff.mpr hunset, name', raw', hlookup', hkey.symm, rfl⟩)
    exact Option.some.inj (hfirst.symm.trans hsecond)
  remove := by
    rw [← filter_removals huser]
    exact (nodup_append.mp hmerges.nodup).2.1

theorem plainDefaults_of_mergedInAnyOrder
    (hmerged : MergedInAnyOrder lib ord dynamicHeaders defaults policy)
    (hvalid : ValidDefaults lib defaults) :
    PlainDefaults lib ord dynamicHeaders defaults policy := by
  cases defaults with
  | none =>
    refine ⟨fun name name' raw raw' hlookup => ?_, nodup_nil⟩
    cases hlookup
  | some defaults =>
    have hok := (headersPolicyService_some huser defaults _).mpr ⟨hvalid, rfl⟩
    exact plainDefaults_of_merges huser (hmerged ord (fun _ _ _ _ => rfl) _ hok)

omit huser

/-- For an accepted user policy the headers of a service are the user's headers extended by
the defaults, in every order of the defaults, iff the defaults make the call fail or are
plain: two defaults of one canonical name that the user does not set have one value, and no
removal that the user does not list is there twice. -/
theorem headersPolicyService_merges_iff
    (huser : headersPolicyRoute lib ord policy false dynamicHeaders = .ok user) :
    MergedInAnyOrder lib ord dynamicHeaders defaults policy ↔
      (ValidDefaults lib defaults → PlainDefaults lib ord dynamicHeaders defaults policy) := by
  constructor
  · exact plainDefaults_of_mergedInAnyOrder huser
  · intro hplain ord' hord hp hok
    have hescape := escapeHeaderValue_sameExcept hord
      (forall_mem_singleton.mpr (by decide : "headersPolicyService".toList.take 2 ≠ ['e', 's']))
    have huser' : headersPolicyRoute lib ord' policy false dynamicHeaders = .ok user :=
      (headersPolicyRoute_order hescape policy false dynamicHeaders).symm.trans huser
    -- the policies say the same in both orders, since values are escaped alike
    have huserSets : UserSets lib ord' dynamicHeaders policy =
        UserSets lib ord dynamicHeaders policy := by
      funext key value
      simp only [UserSets, hescape]
    have hmerges : ∀ hp, Merges lib ord' dynamicHeaders defaults policy hp →
        Merges lib ord dynamicHeaders defaults policy hp := by
      intro hp h
      refine ⟨fun key value => ?_, h.nodup, h.remove⟩
      rw [h.set key value, huserSets]
      simp only [DefaultSets, hescape]
    apply hmerges
    cases defaults with
    | none =>
      have huserPolicy := headersPolicyRoute_userPolicy hok
      refine ⟨fun key value => ?_, huserPolicy.nodup, fun key => ?_⟩
      · rw [userSets_iff hok]
        simp [DefaultSets]
      · rw [huserPolicy.remove]
        simp
    | some defaults =>
      obtain ⟨hvalid, rfl⟩ := (headersPolicyService_some huser' defaults hp).mp hok
      apply mergedPolicy_merges huser'
      obtain ⟨hset, hremove⟩ := hplain hvalid
      refine ⟨fun name name' raw raw' h h' hkey hunset => ?_, hremove⟩
      rw [← hescape, ← hescape]
      exact hset name name' raw raw' h h' hkey hunset

/-- A user header beside a default header of the same name and a default removal. -/
def userHeader : Option Api.HeadersPolicy := some { set := [{ name := "x-a", value := "1" }] }

def plainDefault : HeadersPolicy :=
  { set := (∅ : Map String String).insert "X-A" "2", remove := ["x-b"] }

theorem userHeader_merges :
    (∃ user, headersPolicyRoute canonicalLib .storage userHeader false ∅ = .ok user) ∧
      MergedInAnyOrder canonicalLib .storage ∅ (some plainDefault) userHeader := by
  have huser : headersPolicyRoute canonicalLib .storage userHeader false ∅ =
      .ok (some { set := (∅ : Map String String).insert "X-A" "1" }) := by
    rfl
  refine ⟨⟨_, huser⟩, (headersPolicyService_merges_iff huser).mpr fun _ => ⟨?_, by decide⟩⟩
  intro name name' raw raw' hlookup _ _ hunset
  have hname : name = "X-A" := by
    by_contra hne
    rw [plainDefault, Option.getD_some, Map.lookup_insert_eq, if_neg hne] at hlookup
    cases hlookup
  rw [hname] at hunset
  exact absurd rfl (hunset _ mem_cons_self)

/-- Default headers and removals of which two have one canonical name. -/
def clashingHeaders : HeadersPolicy :=
  { set := ((∅ : Map String String).insert "x-a" "1").insert "X-A" "2" }

def repeatedRemovals : HeadersPolicy := { remove := ["x-a", "X-A"] }

/-- Two default headers of one name have no common value, and a default removal that is
listed under two spellings of its name is listed twice. -/
theorem defaults_clash :
    ¬ MergedInAnyOrder canonicalLib .storage ∅ (some clashingHeaders) none ∧
      ¬ MergedInAnyOrder canonicalLib .storage ∅ (some repeatedRemovals) none := by
  constructor
  · intro hmerged
    have hvalid : ValidDefaults canonicalLib (some clashingHeaders) :=
      ⟨Map.forall_lookup_insert ⟨by decide, rfl⟩ (Map.forall_lookup_insert ⟨by decide, rfl⟩ nofun),
        forall_mem_nil _⟩
    have hplain := plainDefaults_of_mergedInAnyOrder rfl hmerged hvalid
    have hvalue := hplain.set "x-a" "X-A" "1" "2" rfl rfl (by decide) (forall_mem_nil _)
    revert hvalue
    decide
  · intro hmerged
    have hvalid : ValidDefaults canonicalLib (some repeatedRemovals) := by
      refine ⟨fun name raw hlookup => ?_, fun e _ => rfl⟩
      cases hlookup
    have hplain := plainDefaults_of_mergedInAnyOrder rfl hmerged hvalid
    exact absurd hplain.remove (by decide)

end Sesame.Dag
