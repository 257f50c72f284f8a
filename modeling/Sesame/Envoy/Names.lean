/-
# Names of Envoy resources

`internal/envoy`: how clusters and secrets are named. A name is counted and cut in bytes.
It is put into a message as a text.
-/

import Sesame.Dag.Types
import Sesame.Lib.Except

namespace Sesame.Envoy

open List
open Lib Dag
open Api (Bytes tlsCertKey)

def truncate (l : Nat) (s suffix : Bytes) : Bytes :=
  if s.length ≤ l then s
  else if l ≤ suffix.length then suffix.take l
  else s.take (l - suffix.length - 1) ++ textBytes "-" ++ suffix

/-- `strings.Join` with a slash. -/
def slashed (s : List Bytes) : Bytes := (textBytes "/").intercalate s

/-- The loop of `Hashname`: elements from index `n - 1` down to 0 are truncated
until the joined text is shorter than `l`. -/
def hashnameLoop (l count : Nat) (shorthash : Bytes) : Nat → List Bytes → Option Bytes
  | 0, _ => none
  | n + 1, s =>
    let s' := s.modify n fun element => truncate (l / count) element shorthash
    let r := slashed s'
    if r.length < l then some r else hashnameLoop l count shorthash n s'

def hashname (lib : Stdlib) (l : Nat) (s : List Bytes) : Bytes :=
  let r := slashed s
  if r.length < l then r
  else
    let hash := textBytes (lib.sha256 r)
    (hashnameLoop l s.length (hash.take 6) s.length s).getD (hash.take l)

/-- The text with these bytes; bytes that are no UTF-8 stand for themselves. -/
def bytesText (b : Bytes) : String :=
  (String.fromUTF8? b.toByteArray).getD (String.ofList (b.map fun x => Char.ofNat x.toNat))

/-- The name of a resource: `Hashname` with the limit that all of them have. -/
def resourceName (lib : Stdlib) (s : List String) : String :=
  bytesText (hashname lib 60 (s.map textBytes))

/-- The hexadecimal digits of the first five bytes of a hash. -/
def firstFiveBytes (hash : String) : String := String.ofList (hash.toList.take 10)

/-- The part of the text hashed into a cluster's name that comes from its health
check. -/
def healthCheckText (lib : Stdlib) (hc : Dag.HTTPHealthCheckPolicy) : String :=
  (if 0 < hc.timeout then lib.durationString hc.timeout else "") ++
  (if 0 < hc.interval then lib.durationString hc.interval else "") ++
  (if 0 < hc.unhealthyThreshold then toString hc.unhealthyThreshold.toNat else "") ++
  (if 0 < hc.healthyThreshold then toString hc.healthyThreshold.toNat else "") ++
  hc.path

/-- The part that comes from the upstream validation, which always has a CA
certificate. -/
def upstreamValidationText (uv : PeerValidationContext) : String :=
  (uv.caCertificate.elim "" fun ca => ca.object.name) ++ uv.subjectName

/-- The text hashed into a cluster's name, `buf` in the source. -/
def clusterNameText (lib : Stdlib) (cluster : Cluster) : String :=
  cluster.loadBalancerPolicy.text ++
  cluster.httpHealthCheckPolicy.elim "" (healthCheckText lib) ++
  cluster.upstreamValidation.elim "" upstreamValidationText

def clusterNameHash (lib : Stdlib) (cluster : Cluster) : String :=
  firstFiveBytes (lib.sha1 (textBytes (clusterNameText lib cluster)))

def clustername (lib : Stdlib) (cluster : Cluster) : String :=
  let service := cluster.upstream.weighted
  resourceName lib
    [service.serviceNamespace, service.serviceName, toString service.servicePort.port,
      clusterNameHash lib cluster]

def altStatName (service : Service) : String :=
  "_".intercalate [service.weighted.serviceNamespace, service.weighted.serviceName,
    toString service.weighted.servicePort.port]

def secretname (lib : Stdlib) (s : Secret) : String :=
  resourceName lib
    [s.object.ns, s.object.name, firstFiveBytes (lib.sha1 (s.object.value tlsCertKey))]

/-! ## The length of names -/

/-- The slice `s[:n]`. -/
def sliceTo (s : Bytes) (n : Int) : Except Panic Bytes :=
  if 0 ≤ n ∧ n ≤ s.length then .ok (s.take n.toNat) else .error .indexOutOfRange

/-- `truncate` with its slices checked. -/
def truncateChecked (l : Nat) (s suffix : Bytes) : Except Panic Bytes :=
  if s.length ≤ l then .ok s
  else if l ≤ suffix.length then sliceTo suffix (min l suffix.length)
  else (sliceTo s (l - suffix.length - 1)).map fun start => start ++ textBytes "-" ++ suffix

/-- The loop of `Hashname` with its quotient, its slices and its index checked. -/
def hashnameCheckedLoop (l : Nat) (hash : Bytes) : Nat → List Bytes → Except Panic (Option Bytes)
  | 0, _ => .ok none
  | n + 1, s => do
    if s.length = 0 then throw (.explicit "integer divide by zero")
    let shorthash ← sliceTo hash 6
    let some element := s[n]? | throw .indexOutOfRange
    let element ← truncateChecked (l / s.length) element shorthash
    let s := s.set n element
    let r := slashed s
    if r.length < l then return some r else hashnameCheckedLoop l hash n s

/-- `Hashname` with everything checked that can panic. -/
def hashnameChecked (lib : Stdlib) (l : Nat) (s : List Bytes) : Except Panic Bytes := do
  let r := slashed s
  if r.length < l then return r
  let hash := textBytes (lib.sha256 r)
  match ← hashnameCheckedLoop l hash s.length s with
  | some r => return r
  | none => sliceTo hash (min hash.length l)

/-- What `Hashname` makes of an element: one of more than `limit` bytes is replaced by
`limit` bytes that end in the short hash or are its start. -/
def Shortened (limit : Nat) (shorthash element element' : Bytes) : Prop :=
  if element.length ≤ limit then element' = element
  else element'.length = limit ∧ (shorthash <:+ element' ∨ element' <+: shorthash)

theorem truncate_shortened (l : Nat) (s suffix : Bytes) :
    Shortened l suffix s (truncate l s suffix) := by
  unfold Shortened truncate
  split
  · rfl
  rename_i hlong
  split
  · next hshort =>
    refine ⟨?_, .inr <| take_prefix l _⟩
    rw [length_take, Nat.min_eq_left hshort]
  · next hroom =>
    refine ⟨?_, .inl (suffix_append _ _)⟩
    have hdash : (textBytes "-").length = 1 := by decide +kernel
    rw [length_append, length_append, length_take, hdash]
    omega

theorem truncateChecked_eq (l : Nat) (s suffix : Bytes) :
    truncateChecked l s suffix = .ok (truncate l s suffix) := by
  unfold truncateChecked truncate
  split
  · rfl
  rename_i hlong
  split
  · next hshort =>
    have hmin : min (l : Int) suffix.length = l := by omega
    rw [sliceTo, hmin, if_pos (by omega), Int.toNat_natCast]
  · next hroom =>
    have hn : (l - suffix.length - 1 : Int).toNat = l - suffix.length - 1 := by omega
    rw [sliceTo, if_pos (by omega), hn, Except.map]

theorem sliceTo_min (s : Bytes) (n : Nat) : sliceTo s (min s.length n) = .ok (s.take n) := by
  have hn : (min s.length n : Int).toNat = min n s.length := by omega
  rw [sliceTo, if_pos (by omega), hn, ← take_eq_take_min]

variable {l : Nat} {hash : Bytes}

theorem hashnameCheckedLoop_eq (hhash : 6 ≤ hash.length) : ∀ {n : Nat} {s : List Bytes},
    n ≤ s.length → hashnameCheckedLoop l hash n s = .ok (hashnameLoop l s.length (hash.take 6) n s)
  | 0, _, _ => rfl
  | n + 1, s, hn => by
    have hslice : sliceTo hash 6 = .ok (hash.take 6) := if_pos ⟨by decide, by omega⟩
    rw [hashnameCheckedLoop, hashnameLoop, if_neg (by omega), hslice,
      getElem?_eq_getElem hn, modify_eq_set_get _ hn]
    simp only [ok_bind, truncateChecked_eq, get_eq_getElem]
    split
    · rfl
    · rw [hashnameCheckedLoop_eq hhash (by simpa using Nat.le_of_succ_le hn), length_set]

/-- The loop in front of the index `n`: the elements behind it are truncated. -/
theorem hashnameLoop_eq_some {count : Nat} {shorthash r : Bytes} {s : List Bytes} :
    ∀ {n : Nat}, n ≤ s.length →
      hashnameLoop l count shorthash n
        (s.take n ++ (s.drop n).map (truncate (l / count) · shorthash)) = some r →
      r.length < l ∧ ∃ k,
        r = slashed (s.take k ++ (s.drop k).map (truncate (l / count) · shorthash))
  | n + 1, hn, h => by
    have hstep : (s.take (n + 1) ++ (s.drop (n + 1)).map (truncate (l / count) · shorthash)).modify
        n (truncate (l / count) · shorthash) =
        s.take n ++ (s.drop n).map (truncate (l / count) · shorthash) := by
      rw [take_succ_eq_append_getElem hn, append_assoc, modify_eq_take_drop]
      simp [Nat.min_eq_left (Nat.le_of_succ_le hn), drop_eq_getElem_cons hn, -map_drop,
        -getElem_cons_drop]
    rw [hashnameLoop, hstep] at h
    split at h
    · next hlt =>
      cases h
      exact ⟨hlt, n, rfl⟩
    · exact hashnameLoop_eq_some (Nat.le_of_succ_le hn) h

/-- `Hashname` never panics, and its result is the joined text if that is shorter than
`l`, the start of the hash, or a joined text with shortened elements at its end. -/
theorem hashname_within_limit (lib : Stdlib)
    (hhash : ∀ data, (textBytes (lib.sha256 data)).length = 64) (l : Nat) (s : List Bytes) :
    ∃ r, hashnameChecked lib l s = .ok r ∧ r = hashname lib l s ∧ r.length ≤ l ∧
      ((slashed s).length < l → r = slashed s) ∧
      (l ≤ (slashed s).length →
        let hash := textBytes (lib.sha256 (slashed s))
        r = hash.take l ∨
        r.length < l ∧ ∃ leading later later', s = leading ++ later ∧
          Forall₂ (Shortened (l / s.length) (hash.take 6)) later later' ∧
          r = slashed (leading ++ later')) := by
  by_cases hlt : (slashed s).length < l
  · exact ⟨_, if_pos hlt, (if_pos hlt).symm, Nat.le_of_lt hlt, fun _ => rfl,
      fun hle => absurd hlt (Nat.not_lt.mpr hle)⟩
  have hchecked : hashnameChecked lib l s = _ := if_neg hlt
  have hname : hashname lib l s = _ := if_neg hlt
  rw [hchecked, hashnameCheckedLoop_eq (by rw [hhash]; decide) le_rfl, ok_bind, hname]
  cases hloop : hashnameLoop l s.length ((textBytes (lib.sha256 (slashed s))).take 6) s.length
      s with
  | none =>
    refine ⟨_, sliceTo_min _ l, rfl, length_take_le _ _, fun h => absurd h hlt, fun _ => .inl rfl⟩
  | some r =>
    obtain ⟨hr, k, heq⟩ := hashnameLoop_eq_some (s := s) le_rfl
      (by rwa [take_length, drop_length, map_nil, append_nil])
    refine ⟨r, rfl, rfl, Nat.le_of_lt hr, fun h => absurd h hlt, fun _ => .inr ⟨hr, s.take k,
      s.drop k, _, (take_append_drop k s).symm, ?_, heq⟩⟩
    exact forall₂_map_right_iff.mpr (forall₂_same.mpr fun element _ => truncate_shortened _ _ _)

def constantHash : Stdlib :=
  { Stdlib.plain with sha256 := fun _ => String.ofList (replicate 64 '0') }

theorem hashname_within_limit_twelve :
    (∀ data, (textBytes (constantHash.sha256 data)).length = 64) ∧
    ∃ r, hashnameChecked constantHash 12 (["café-system", "dns"].map textBytes) = .ok r ∧
      r.length ≤ 12 := by
  have hzeros : (textBytes (String.ofList (replicate 64 '0'))).length = 64 := by
    decide +kernel
  have hhash : ∀ data, (textBytes (constantHash.sha256 data)).length = 64 := fun _ => hzeros
  obtain ⟨r, hr, -, hlength, -⟩ :=
    hashname_within_limit constantHash hhash 12 (["café-system", "dns"].map textBytes)
  exact ⟨hhash, r, hr, hlength⟩

end Sesame.Envoy
