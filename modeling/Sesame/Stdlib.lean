/-
# Standard library functions

Functions of the Go standard library and of the Kubernetes libraries whose own
behaviour no result depends on. They are the fields of one structure, and every
theorem holds for every value of it.
-/

import Sesame.Api.Core

namespace Sesame

open List
open Lib Api

/-- How a run of the source can panic. -/
inductive Panic
  | nilDereference
  | indexOutOfRange
  | explicit (message : String)

/-- One block that `pem.Decode` finds. -/
structure PemBlock where
  type : String
  bytes : Bytes

/-- The fields of an `x509.Certificate` that are read. -/
structure Certificate where
  commonName : String
  dnsNames : List String
  ipAddresses : List String

/-- The library functions the translation calls. A `List String` result lists
the messages of a failed validation. -/
structure Stdlib where
  /-- `strconv.Quote`, the `%q` verb. -/
  quote : String → String
  /-- `strings.ToLower`. -/
  toLower : String → String
  /-- `time.ParseDuration`, in nanoseconds, or the text of its error. -/
  parseDuration : String → Except String Int64
  /-- `time.Duration.String`. -/
  durationString : Int64 → String
  /-- `http.CanonicalHeaderKey`. -/
  canonicalHeaderKey : String → String
  /-- `validation.IsHTTPHeaderName`. -/
  isHTTPHeaderName : String → List String
  /-- `validation.IsDNS1123Subdomain`. -/
  isDNS1123Subdomain : String → List String
  /-- `validation.IsWildcardDNS1123Subdomain`. -/
  isWildcardDNS1123Subdomain : String → List String
  /-- `net.ParseIP(s) != nil`. -/
  isIP : String → Bool
  /-- The error text of `regexp.Compile`, if it fails. -/
  regexpError : String → Option String
  /-- `metav1.LabelSelectorAsSelector` and the match of its result on labels. -/
  labelSelectorAsSelector : LabelSelector → Except String (Map String String → Bool)
  /-- The hexadecimal text of `sha1.Sum`. -/
  sha1 : Bytes → String
  /-- The hexadecimal text of `sha256.Sum256`. -/
  sha256 : Bytes → String
  /-- `pem.Decode`: the first block and what follows it. -/
  pemDecode : Bytes → Option (PemBlock × Bytes)
  /-- A decoded block takes up part of the input. -/
  pemDecode_shorter : ∀ data block rest, pemDecode data = some (block, rest) →
    rest.length < data.length
  /-- The error text of `x509.ParsePKCS8PrivateKey`, if it fails. -/
  pkcs8Error : Bytes → Option String
  /-- The error text of `x509.ParsePKCS1PrivateKey`, if it fails. -/
  pkcs1Error : Bytes → Option String
  /-- The error text of `x509.ParseECPrivateKey`, if it fails. -/
  ecKeyError : Bytes → Option String
  /-- `x509.ParseCertificate`. -/
  parseCertificate : Bytes → Except String Certificate

/-- A text with its ASCII letters in lower case. -/
def lowerName (s : String) : String := String.ofList (s.toList.map Char.toLower)

/-- Library functions for concrete runs: every name is valid and canonical, no
text is a duration, a hash is the input itself and no data is PEM. -/
def Stdlib.plain : Stdlib where
  quote s := "\"" ++ s ++ "\""
  toLower := lowerName
  parseDuration _ := .error "invalid duration"
  durationString d := toString d.toInt ++ "ns"
  canonicalHeaderKey s := s
  isHTTPHeaderName _ := []
  isDNS1123Subdomain _ := []
  isWildcardDNS1123Subdomain _ := []
  isIP _ := false
  regexpError _ := none
  labelSelectorAsSelector _ := .ok fun _ => true
  sha1 data := String.ofList (data.map fun b => Char.ofNat b.toNat)
  sha256 data := String.ofList (data.map fun b => Char.ofNat b.toNat)
  pemDecode _ := none
  pemDecode_shorter := by simp
  pkcs8Error _ := none
  pkcs1Error _ := none
  ecKeyError _ := none
  parseCertificate _ := .error "malformed certificate"

/-- The UTF-8 bytes of a text. -/
def textBytes (s : String) : Bytes := s.toUTF8.toList

/-- One step of `path.Clean` on the segments kept so far, last one first. -/
def cleanSegment (kept : List (List Char)) (segment : List Char) : List (List Char) :=
  if segment = [] ∨ segment = ['.'] then kept
  else if segment = ['.', '.'] then
    match kept with
    | top :: rest => if top = ['.', '.'] then segment :: kept else rest
    | [] => [segment]
  else segment :: kept

/-- `path.Join` of a relative directory and a name; an empty path is the current
directory. -/
def pathJoin (dir name : String) : String :=
  let segments := (dir.toList ++ '/' :: name.toList).splitOn '/'
  match (segments.foldl cleanSegment []).reverse.map String.ofList with
  | [] => "."
  | kept => "/".intercalate kept

theorem cleanSegment_ne_nil {kept : List (List Char)} (hkept : ∀ s ∈ kept, s ≠ [])
    (segment : List Char) : ∀ s ∈ cleanSegment kept segment, s ≠ [] := by
  unfold cleanSegment
  split
  · exact hkept
  rename_i hsegment
  have hnew : ∀ s ∈ segment :: kept, s ≠ [] :=
    forall_mem_cons.mpr ⟨fun h => hsegment (.inl h), hkept⟩
  split
  · split
    · split
      · exact hnew
      · exact fun s hs => hkept s (mem_cons_of_mem _ hs)
    · exact hnew
  · exact hnew

/-- `path.Join` never gives the empty text. -/
theorem pathJoin_ne_empty (dir name : String) : pathJoin dir name ≠ "" := by
  have hsegments : ∀ s ∈ ((dir.toList ++ '/' :: name.toList).splitOn '/').foldl cleanSegment [],
      s ≠ [] :=
    foldlRecOn _ _ (motive := fun kept => ∀ s ∈ kept, s ≠ []) (by simp)
      fun kept hkept segment _ => cleanSegment_ne_nil hkept segment
  unfold pathJoin
  dsimp only
  cases hkept : (((dir.toList ++ '/' :: name.toList).splitOn '/').foldl cleanSegment
      []).reverse.map String.ofList with
  | nil => decide
  | cons first rest =>
    have hfirst : first ≠ "" := by
      obtain ⟨s, hs, rfl⟩ := mem_map.mp (hkept ▸ mem_cons_self : first ∈ _)
      have hne := hsegments s (mem_reverse.mp hs)
      simpa [String.ext_iff] using hne
    intro hempty
    have hlist := congrArg String.toList hempty
    cases rest with
    | nil => simp_all
    | cons second rest => simp [String.intercalate_cons_cons] at hlist

end Sesame
