/-
# The hosts of a route on a listener

`computeHosts` intersects the hostnames of a route with the hostname of a listener, which
may be a wildcard for one label. The names that it returns are well formed and admitted by
the listener, and every other hostname gives an error.
-/

import Mathlib.Data.List.TakeWhile
import Sesame.Dag.GatewayRoutes

namespace Sesame.Dag.GatewayAPIProcessor

open List
open Lib Api

section

variable (lib : Stdlib)

/-- What matters of the name checks: a wildcard name starts with `*.` and no other name
starts with a dot. -/
structure ChecksNames : Prop where
  wildcard : ∀ s, lib.isWildcardDNS1123Subdomain s = [] → ∃ t, s = "*" ++ "." ++ t
  subdomain : ∀ s, lib.isDNS1123Subdomain s = [] → s.toList.head? ≠ some '.'

/-- A DNS name or wildcard name that is no IP address. -/
def IsHostName (host : String) : Prop :=
  lib.isIP host = false ∧
    (if '*' ∈ host.toList then lib.isWildcardDNS1123Subdomain host
      else lib.isDNS1123Subdomain host) = []

/-- The hostname of a listener admits a host: it is absent, `*` or the host itself, or it is
`*.s` and the host is one label in front of `.s`. -/
def Admits : Option String → String → Prop
  | none, _ => True
  | some lhn, host => lhn = "*" ∨ lhn = host ∨
    ∃ label s, label ≠ "" ∧ '.' ∉ label.toList ∧ lhn = "*" ++ "." ++ s ∧ host = label ++ "." ++ s

/-- The host is a name that the listener admits. -/
def IsHostFor (listenerHostname : Option String) (host : String) : Prop :=
  IsHostName lib host ∧ Admits listenerHostname host

open scoped Classical in
/-- What `computeHosts` is for. -/
structure HostsComputed (hostnames : List String) (listenerHostname : Option String)
    (result : Map String Unit × List String) : Prop where
  sound : ∀ host ∈ result.1,
    (host = "*" ∧ hostnames = [] ∧ (listenerHostname = none ∨ listenerHostname = some "*")) ∨
      IsHostFor lib listenerHostname host
  complete : (∀ lhn, listenerHostname = some lhn → lhn = "*" ∨ IsHostName lib lhn) →
    (∀ host ∈ hostnames, IsHostFor lib listenerHostname host → host ∈ result.1) ∧
      result.2.length = hostnames.countP fun host => ¬ IsHostFor lib listenerHostname host
  nonempty : result.1 = ∅ → result.2 ≠ []

variable {lib} {listenerHostname : Option String} {host : String}

theorem validHostName_isOk : (validHostName lib host).isOk = true ↔ IsHostName lib host := by
  unfold validHostName IsHostName
  cases lib.isIP host with
  | true => exact ⟨nofun, fun h => nomatch h.1⟩
  | false =>
    generalize (if '*' ∈ host.toList then _ else _) = errs
    by_cases herrs : errs = []
    · simp [herrs, Except.isOk, Except.toBool]
    · simp [herrs, Except.isOk, Except.toBool]

def accepts (lib : Stdlib) (listenerHostname : Option String) (host : String) : Bool :=
  (validHostName lib host).isOk && hostnameMatches listenerHostname host

theorem addHostname_eq (acc : Map String Unit × List String) (host : String) :
    ∃ err, addHostname lib listenerHostname acc host =
      if accepts lib listenerHostname host then (acc.1.insert host (), acc.2)
      else (acc.1, acc.2 ++ [err]) := by
  unfold addHostname accepts
  cases validHostName lib host with
  | error err => exact ⟨err, rfl⟩
  | ok _ => exact ⟨_, rfl⟩

/-- The loop over the hostnames: every one gets into the set or gives an error. -/
theorem foldl_addHostname (hostnames : List String) (acc : Map String Unit × List String) :
    (∀ host, host ∈ (hostnames.foldl (addHostname lib listenerHostname) acc).1 ↔
      host ∈ acc.1 ∨ host ∈ hostnames ∧ accepts lib listenerHostname host = true) ∧
    (hostnames.foldl (addHostname lib listenerHostname) acc).2.length =
      acc.2.length + hostnames.countP fun host => !accepts lib listenerHostname host := by
  induction hostnames generalizing acc with
  | nil => simp
  | cons hostname rest ih =>
    obtain ⟨hhosts, herrors⟩ := ih (addHostname lib listenerHostname acc hostname)
    obtain ⟨err, heq⟩ := addHostname_eq acc hostname
    rw [foldl_cons, countP_cons, herrors]
    by_cases haccepts : accepts lib listenerHostname hostname = true
    · rw [if_pos haccepts] at heq
      refine ⟨fun host => ?_, by rw [heq]; simp [haccepts]⟩
      rw [hhosts, heq, AList.mem_insert, mem_cons]
      constructor
      · rintro ((rfl | h) | h)
        · exact .inr ⟨.inl rfl, haccepts⟩
        · exact .inl h
        · exact .inr ⟨.inr h.1, h.2⟩
      · tauto
    · rw [if_neg haccepts] at heq
      refine ⟨fun host => ?_, by rw [heq]; simp [haccepts]; omega⟩
      rw [hhosts, heq, mem_cons, or_and_right]
      refine or_congr_right ⟨.inr, ?_⟩
      rintro (⟨rfl, h⟩ | h)
      · exact absurd h haccepts
      · exact h

theorem removeFirstDNSLabel_append {label s : String} (hlabel : '.' ∉ label.toList) :
    removeFirstDNSLabel (label ++ "." ++ s) = '.' :: s.toList := by
  have hnot : ∀ c ∈ label.toList, decide (c ≠ '.') = true := fun c hc =>
    decide_eq_true fun h => hlabel (h ▸ hc)
  have hlist : (label ++ "." ++ s).toList = label.toList ++ '.' :: s.toList := by simp
  rw [removeFirstDNSLabel, if_pos (by simp [hlist]), hlist, dropWhile_append_of_pos hnot]
  rfl

/-- A name without its first label is the rest of the listener's name just if it is one
label in front of it. -/
theorem removeFirstDNSLabel_eq_iff (hlib : ChecksNames lib) {s : String}
    (hhost : IsHostName lib host) : removeFirstDNSLabel host = '.' :: s.toList ↔
      ∃ label, label ≠ "" ∧ '.' ∉ label.toList ∧ host = label ++ "." ++ s := by
  constructor
  · intro h
    have hdot : '.' ∈ host.toList := by
      by_contra hdot
      rw [removeFirstDNSLabel, if_neg hdot] at h
      exact hdot (h ▸ mem_cons_self)
    rw [removeFirstDNSLabel, if_pos hdot] at h
    have hsplit : host.toList = host.toList.takeWhile (· ≠ '.') ++ '.' :: s.toList := by
      rw [← h, takeWhile_append_dropWhile]
    refine ⟨String.ofList (host.toList.takeWhile (· ≠ '.')), ?_, ?_, ?_⟩
    · intro hempty
      rw [String.ofList_eq_empty_iff] at hempty
      rw [hempty, nil_append] at hsplit
      have hvalid := hhost.2
      split at hvalid
      · obtain ⟨t, rfl⟩ := hlib.wildcard host hvalid
        simp at hsplit
      · exact hlib.subdomain host hvalid (by rw [hsplit]; rfl)
    · rw [String.toList_ofList]
      intro hmem
      simpa using mem_takeWhile_imp hmem
    · apply String.toList_inj.mp
      simpa using hsplit
  · rintro ⟨label, -, hlabel, rfl⟩
    exact removeFirstDNSLabel_append hlabel

theorem hostnameMatches_iff (hlib : ChecksNames lib) (hhost : IsHostName lib host)
    (hlistener : ∀ lhn, listenerHostname = some lhn → lhn = "*" ∨ IsHostName lib lhn) :
    hostnameMatches listenerHostname host = true ↔ Admits listenerHostname host := by
  cases listenerHostname with
  | none => exact iff_of_true rfl trivial
  | some lhn =>
    simp only [hostnameMatches, Admits, Bool.or_eq_true, Bool.and_eq_true, decide_eq_true_eq,
      or_assoc]
    by_cases hany : lhn = "*"
    · exact iff_of_true (.inl hany) (.inl hany)
    have hvalid := ((hlistener lhn rfl).resolve_left hany).2
    refine or_congr_right (or_congr_right ⟨?_, ?_⟩)
    · rintro ⟨hstar, heq⟩
      rw [if_pos hstar] at hvalid
      obtain ⟨s, rfl⟩ := hlib.wildcard lhn hvalid
      rw [removeFirstDNSLabel_append (by decide), eq_comm,
        removeFirstDNSLabel_eq_iff hlib hhost] at heq
      obtain ⟨label, hlabel, hdot, heq⟩ := heq
      exact ⟨label, s, hlabel, hdot, rfl, heq⟩
    · rintro ⟨label, s, -, hdot, rfl, rfl⟩
      refine ⟨by simp, ?_⟩
      rw [removeFirstDNSLabel_append (by decide), removeFirstDNSLabel_append hdot]

/-- A route with hostnames. -/
theorem hostsComputed_foldl (hlib : ChecksNames lib)
    (hlistener : ∀ lhn, listenerHostname = some lhn → lhn = "*" ∨ IsHostName lib lhn)
    {hostnames : List String} (hsome : hostnames ≠ []) :
    HostsComputed lib hostnames listenerHostname
      (hostnames.foldl (addHostname lib listenerHostname) (∅, [])) := by
  obtain ⟨hhosts, herrors⟩ := foldl_addHostname hostnames (∅, [])
  have haccepts : ∀ host, accepts lib listenerHostname host = true ↔
      IsHostFor lib listenerHostname host := by
    intro host
    rw [accepts, Bool.and_eq_true, validHostName_isOk]
    exact and_congr_right fun hhost => hostnameMatches_iff hlib hhost hlistener
  refine ⟨fun host hhost => .inr ?_, fun _ => ⟨fun host hhost hfor => ?_, ?_⟩, fun hempty => ?_⟩
  · obtain h | h := (hhosts host).mp hhost
    · exact absurd h (AList.notMem_empty host)
    · exact (haccepts host).mp h.2
  · exact (hhosts host).mpr (.inr ⟨hhost, (haccepts host).mpr hfor⟩)
  · rw [herrors, length_nil, Nat.zero_add]
    exact countP_congr fun host _ => by simp [← haccepts]
  · obtain ⟨host, hhost⟩ := exists_mem_of_ne_nil _ hsome
    have hnot : ¬ accepts lib listenerHostname host = true := fun h =>
      AList.notMem_empty host (hempty ▸ (hhosts host).mpr (.inr ⟨hhost, h⟩))
    intro hnone
    rw [hnone, length_nil, Nat.zero_add] at herrors
    exact hnot (by simpa using countP_eq_zero.mp herrors.symm host hhost)

/-- A route without hostnames has the one host that stands for its listener. -/
theorem hostsComputed_single
    (hhost : (host = "*" ∧ listenerHostname = none) ∨ IsHostFor lib listenerHostname host) :
    HostsComputed lib [] listenerHostname ((∅ : Map String Unit).insert host (), []) := by
  refine ⟨fun other hother => ?_, fun _ => ⟨nofun, rfl⟩, fun hempty => ?_⟩
  · obtain rfl | h := (AList.mem_insert _).mp hother
    · exact hhost.imp (fun h => ⟨h.1, rfl, .inl h.2⟩) id
    · exact absurd h (AList.notMem_empty other)
  · have hmem : host ∈ (∅ : Map String Unit).insert host () := (AList.mem_insert _).mpr (.inl rfl)
    rw [show (∅ : Map String Unit).insert host () = ∅ from hempty] at hmem
    exact absurd hmem (AList.notMem_empty host)

/-- `computeHosts` finds no host for a route without hostnames on a listener that admits
all, and reports no error either. -/
theorem hostsComputed_iff (hlib : ChecksNames lib) (hostnames : List String) :
    HostsComputed lib hostnames listenerHostname (computeHosts lib hostnames listenerHostname) ↔
      ¬ (hostnames = [] ∧ listenerHostname = some "*") := by
  constructor
  · rintro ⟨-, -, hnonempty⟩ ⟨rfl, rfl⟩
    exact hnonempty rfl rfl
  intro hcond
  unfold computeHosts
  cases listenerHostname with
  | none =>
    dsimp only
    split
    · next hnil =>
      subst hnil
      exact hostsComputed_single (.inl ⟨rfl, rfl⟩)
    · next hsome => exact hostsComputed_foldl hlib (by simp) hsome
  | some lhn =>
    dsimp only
    split
    · next hany =>
      refine hostsComputed_foldl hlib (fun _ h => .inl (Option.some.inj h ▸ hany)) fun hnil => ?_
      exact hcond ⟨hnil, congrArg some hany⟩
    rename_i hany
    have hname : (validHostName lib lhn).isOk = true ↔ _ := validHostName_isOk
    split
    · next err herr =>
      rw [herr] at hname
      have hinvalid : ¬ IsHostName lib lhn := fun h => nomatch hname.mpr h
      exact ⟨fun host hhost => absurd hhost (AList.notMem_empty host),
        fun h => absurd (h lhn rfl) (not_or.mpr ⟨hany, hinvalid⟩), fun _ => nofun⟩
    · next hok =>
      rw [hok] at hname
      split
      · next hnil =>
        subst hnil
        exact hostsComputed_single (.inr ⟨hname.mp rfl, Or.inr (.inl rfl)⟩)
      · next hsome =>
        exact hostsComputed_foldl hlib (fun _ h => .inr (Option.some.inj h ▸ hname.mp rfl)) hsome

def firstCharacters : Stdlib :=
  { Stdlib.plain with
    isWildcardDNS1123Subdomain := fun s => if s.toList.take 2 = ['*', '.'] then [] else ["wildcard"]
    isDNS1123Subdomain := fun s => if s.toList.head? = some '.' then ["subdomain"] else [] }

theorem checksNames_firstCharacters : ChecksNames firstCharacters where
  wildcard s h := by
    have htake : s.toList.take 2 = ['*', '.'] := by
      by_contra hne
      exact absurd ((if_neg hne).symm.trans h) (by decide)
    refine ⟨String.ofList (s.toList.drop 2), String.toList_inj.mp ?_⟩
    conv_lhs => rw [← take_append_drop 2 s.toList, htake]
    simp
  subdomain s h hdot := absurd ((if_pos hdot).symm.trans h) (by decide)

theorem wildcard_listener_no_hosts : ChecksNames firstCharacters ∧
    ¬ HostsComputed firstCharacters [] (some "*") (computeHosts firstCharacters [] (some "*")) :=
  ⟨checksNames_firstCharacters, fun h => h.nonempty rfl rfl⟩

theorem listener_host_computed : ChecksNames firstCharacters ∧
    HostsComputed firstCharacters ["www.example.com"] (some "*.example.com")
      (computeHosts firstCharacters ["www.example.com"] (some "*.example.com")) :=
  ⟨checksNames_firstCharacters, (hostsComputed_iff checksNames_firstCharacters _).mpr (by simp)⟩

end

end Sesame.Dag.GatewayAPIProcessor
