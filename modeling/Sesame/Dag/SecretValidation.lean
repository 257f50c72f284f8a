/-
# Secret validation

`internal/dag/secret.go`: which secrets the cache accepts. A bundle is read block
by block as long as something that looks like a PEM header is left; decoding a
block leaves strictly less data, so the length of the data is enough fuel.
-/

import Mathlib.Tactic.IntervalCases
import Sesame.Annotation
import Sesame.Lib.Except

namespace Sesame.Dag

open List
open Lib Api

/-- `bytes.Index`. -/
def bytesIndex (pattern : Bytes) : Bytes → Option Nat
  | [] => if pattern = [] then some 0 else none
  | b :: rest =>
    if pattern <+: b :: rest then some 0 else (bytesIndex pattern rest).map (· + 1)

/-- The bytes of `-----BEGIN`. -/
def pemBegin : Bytes := [45, 45, 45, 45, 45, 66, 69, 71, 73, 78]

/-- The bytes of `-----`. -/
def pemDashes : Bytes := [45, 45, 45, 45, 45]

/-- `containsPEMHeader`. The line check covers `data[start:start+end]`, although
`end` counts from behind the begin token. -/
def containsPEMHeader (data : Bytes) : Bool :=
  match bytesIndex pemBegin data with
  | none => false
  | some start =>
    match bytesIndex pemDashes (data.drop (start + 10)) with
    | none => false
    | some end_ => 10 ∉ (data.drop start).take end_

variable (lib : Stdlib)

def hasCommonName (c : Certificate) : Bool := Annotation.trimSpace c.commonName.toList ≠ []

def hasSubjectAltNames (c : Certificate) : Bool := c.dnsNames ≠ [] ∨ c.ipAddresses ≠ []

def unexpectedBlockType (block : PemBlock) : String :=
  "unexpected block type '" ++ block.type ++ "'"

/-- The loop of `validateServingBundle`, after `i` certificates. -/
def validateServingLoop : Nat → Nat → Bytes → Except String Unit
  | 0, _, _ => .error "failed to parse PEM block"
  | fuel + 1, i, data =>
    if containsPEMHeader data then
      match lib.pemDecode data with
      | none => .error "failed to parse PEM block"
      | some (block, rest) =>
        if block.type ≠ "CERTIFICATE" then .error (unexpectedBlockType block)
        else
          match lib.parseCertificate block.bytes with
          | .error err => .error err
          | .ok cert =>
            if i = 0 ∧ ¬ hasCommonName cert ∧ ¬ hasSubjectAltNames cert then
              .error "certificate has no common name or subject alt name"
            else validateServingLoop fuel (i + 1) rest
    else if i = 0 then .error "failed to locate certificate"
    else .ok ()

def validateServingBundle (data : Bytes) : Except String Unit :=
  validateServingLoop lib (data.length + 1) 0 data

/-- The loop of `validateCABundle`. -/
def validateCALoop : Nat → Bool → Bytes → Except String Unit
  | 0, _, _ => .error "failed to parse PEM block"
  | fuel + 1, exists_, data =>
    if containsPEMHeader data then
      match lib.pemDecode data with
      | none => .error "failed to parse PEM block"
      | some (block, rest) =>
        if block.type ≠ "CERTIFICATE" then .error (unexpectedBlockType block)
        else validateCALoop fuel true rest
    else if exists_ then .ok ()
    else .error "failed to locate certificate"

def validateCABundle (data : Bytes) : Except String Unit :=
  validateCALoop lib (data.length + 1) false data

/-- The loop of `validatePrivateKey`, after `keys` keys. For the first two types the
loop returns nil as soon as the key parses. -/
def validatePrivateKeyLoop : Nat → Nat → Bytes → Except String Unit
  | 0, _, _ => .error "failed to parse PEM block"
  | fuel + 1, keys, data =>
    if containsPEMHeader data then
      match lib.pemDecode data with
      | none => .error "failed to parse PEM block"
      | some (block, rest) =>
        if block.type = "PRIVATE KEY" then
          if lib.pkcs8Error block.bytes = none then .ok ()
          else validatePrivateKeyLoop fuel (keys + 1) rest
        else if block.type = "RSA PRIVATE KEY" then
          if lib.pkcs1Error block.bytes = none then .ok ()
          else validatePrivateKeyLoop fuel (keys + 1) rest
        else if block.type = "EC PRIVATE KEY" then
          match lib.ecKeyError block.bytes with
          | some err => .error err
          | none => validatePrivateKeyLoop fuel (keys + 1) rest
        else if block.type = "EC PARAMETERS" then validatePrivateKeyLoop fuel keys rest
        else .error (unexpectedBlockType block)
    else if keys = 0 then .error "failed to locate private key"
    else if keys = 1 then .ok ()
    else .error "multiple private keys"

def validatePrivateKey (data : Bytes) : Except String Unit :=
  validatePrivateKeyLoop lib (data.length + 1) 0 data

/-- The check of a CA bundle that ends `isValidSecret`. -/
def validCABundle (secret : Api.Secret) : Bool :=
  secret.value caCertificateKey = [] || (validateCABundle lib (secret.value caCertificateKey)).isOk

/-- The first result of `isValidSecret`; its error is only logged. -/
def isValidSecret (secret : Api.Secret) : Bool :=
  match secret.type with
  | .tls =>
    match secret.data.lookup tlsCertKey, secret.data.lookup tlsPrivateKeyKey with
    | some cert, some key =>
      (validateServingBundle lib cert).isOk && (validatePrivateKey lib key).isOk &&
        validCABundle lib secret
    | _, _ => false
  | .generic =>
    (secret.data.lookup tlsCertKey).isNone && (secret.data.lookup tlsPrivateKeyKey).isNone &&
      secret.value caCertificateKey ≠ [] && validCABundle lib secret
  | .other => false

/-! ## What looks like a PEM header -/

variable {data : Bytes}

section Headers

/-- Somewhere in the data the begin token is followed, on the same line, by dashes. -/
def HasPEMHeader (data : Bytes) : Prop :=
  ∃ line, 10 ∉ line ∧ pemBegin ++ line ++ pemDashes <:+: data

/-- The first position at which the pattern stands. -/
theorem bytesIndex_eq_some {pattern : Bytes} {i : Nat} (h : bytesIndex pattern data = some i) :
    pattern <+: data.drop i ∧ ∀ j, pattern <+: data.drop j → i ≤ j := by
  induction data generalizing i with
  | nil =>
    rw [bytesIndex] at h
    split at h
    · next hempty =>
      cases h
      exact ⟨hempty ▸ nil_prefix, fun _ _ => Nat.zero_le _⟩
    · cases h
  | cons b rest ih =>
    rw [bytesIndex] at h
    split at h
    · next hhere =>
      cases h
      exact ⟨hhere, fun _ _ => Nat.zero_le _⟩
    · next hnot =>
      obtain ⟨k, hk, rfl⟩ := Option.map_eq_some_iff.mp h
      refine ⟨(ih hk).1, fun j hj => ?_⟩
      cases j with
      | zero => exact absurd hj hnot
      | succ j => exact Nat.succ_le_succ ((ih hk).2 j hj)

theorem bytesIndex_eq_none {pattern : Bytes} (h : bytesIndex pattern data = none) :
    ¬ pattern <:+: data := by
  induction data with
  | nil =>
    rw [bytesIndex] at h
    split at h
    · cases h
    · next hne => exact fun hin => hne (infix_nil.mp hin)
  | cons b rest ih =>
    rw [bytesIndex] at h
    split at h
    · cases h
    · next hnot =>
      rw [infix_cons_iff]
      exact not_or.mpr ⟨hnot, ih (Option.map_eq_none_iff.mp h)⟩

theorem HasPEMHeader.tokens (h : HasPEMHeader data) : pemBegin <:+: data ∧ pemDashes <:+: data := by
  obtain ⟨line, -, hin⟩ := h
  exact ⟨.trans ⟨[], line ++ pemDashes, (append_assoc ..).symm⟩ hin,
    .trans ⟨pemBegin ++ line, [], append_nil _⟩ hin⟩

theorem drop_of_begin {rest : Bytes} {start : Nat} (h : pemBegin ++ rest = data.drop start) :
    data.drop (start + 10) = rest := by
  rw [← drop_drop, ← h]
  rfl

/-- Begin tokens do not overlap. -/
theorem pemBegin_apart {i j : Nat} (hi : pemBegin <+: data.drop i) (hj : pemBegin <+: data.drop j)
    (hlt : i < j) : i + 10 ≤ j := by
  obtain ⟨k, rfl⟩ := Nat.exists_eq_add_of_lt hlt
  obtain ⟨rest, hrest⟩ := hi
  by_contra hnear
  have hk : k < 9 := by omega
  rw [Nat.add_assoc, ← drop_drop, ← hrest] at hj
  interval_cases k <;> simp [pemBegin] at hj

/-- The first begin token starts a header, or a header stands behind it. -/
theorem hasPEMHeader_iff {start : Nat} (h : bytesIndex pemBegin data = some start) :
    HasPEMHeader data ↔
      (∃ end_, bytesIndex pemDashes (data.drop (start + 10)) = some end_ ∧
        10 ∉ (data.drop (start + 10)).take end_) ∨ HasPEMHeader (data.drop (start + 10)) := by
  obtain ⟨hbegin, hfirst⟩ := bytesIndex_eq_some h
  constructor
  · rintro ⟨line, hline, front, rest, rfl⟩
    have hat : pemBegin <+:
        (front ++ (pemBegin ++ line ++ pemDashes) ++ rest).drop front.length := by
      simp [append_assoc]
    obtain hlater | hhere := Nat.lt_or_eq_of_le (hfirst _ hat)
    · right
      refine ⟨line, hline, front.drop (start + 10), rest, ?_⟩
      rw [append_assoc, append_assoc front,
        drop_append_of_le_length (pemBegin_apart hbegin hat hlater)]
    · left
      have hrest : (front ++ (pemBegin ++ line ++ pemDashes) ++ rest).drop (start + 10) =
          line ++ (pemDashes ++ rest) := by
        rw [hhere, ← drop_drop]
        simp [pemBegin]
      rw [hrest]
      cases hend : bytesIndex pemDashes (line ++ (pemDashes ++ rest)) with
      | none => exact absurd ⟨line, rest, append_assoc ..⟩ (bytesIndex_eq_none hend)
      | some end_ =>
        have hle : end_ ≤ line.length := by
          apply (bytesIndex_eq_some hend).2
          rw [drop_left]
          exact prefix_append _ _
        refine ⟨end_, rfl, fun hnewline => hline ?_⟩
        rw [take_append_of_le_length hle] at hnewline
        exact mem_of_mem_take hnewline
  · rintro (⟨end_, hend, hline⟩ | ⟨line, hline, hin⟩)
    · obtain ⟨rest, hrest⟩ := hbegin
      obtain ⟨back, hback⟩ := (bytesIndex_eq_some hend).1
      refine ⟨_, hline, data.take start, back, ?_⟩
      rw [append_assoc, append_assoc, append_assoc, hback, take_append_drop,
        drop_of_begin hrest, hrest, take_append_drop]
    · exact ⟨line, hline, hin.trans (drop_suffix _ _).isInfix⟩

/-- If a newline stands between the first begin token and the dashes behind it, one stands more
than ten bytes before the dashes just if no header follows the token. -/
def HeadersTold (data : Bytes) : Prop :=
  ∀ start, bytesIndex pemBegin data = some start →
    ∀ end_, bytesIndex pemDashes (data.drop (start + 10)) = some end_ →
    10 ∈ (data.drop (start + 10)).take end_ →
    (10 ∈ (data.drop (start + 10)).take (end_ - 10) ↔ ¬ HasPEMHeader (data.drop (start + 10)))

/-- The test looks for newlines up to ten bytes before the dashes. -/
theorem containsPEMHeader_iff {start : Nat} (h : bytesIndex pemBegin data = some start) :
    containsPEMHeader data = true ↔
      ∃ end_, bytesIndex pemDashes (data.drop (start + 10)) = some end_ ∧
        10 ∉ (data.drop (start + 10)).take (end_ - 10) := by
  obtain ⟨rest, hrest⟩ := (bytesIndex_eq_some h).1
  have hline : ∀ end_, 10 ∈ (data.drop start).take end_ ↔ 10 ∈ rest.take (end_ - 10) := by
    intro end_
    have hbegin : 10 ∉ pemBegin.take end_ := fun h => absurd (mem_of_mem_take h) (by decide)
    rw [← hrest, take_append, mem_append, or_iff_right hbegin]
    rfl
  rw [containsPEMHeader, h]
  dsimp only
  rw [drop_of_begin hrest]
  cases bytesIndex pemDashes rest with
  | none => simp
  | some end_ => simp [hline]

/-- What the test takes for a header: dashes behind the first begin token, and no newline
between the two but in the last ten bytes. -/
def Recognised (data : Bytes) : Prop :=
  ∃ start end_, bytesIndex pemBegin data = some start ∧
    bytesIndex pemDashes (data.drop (start + 10)) = some end_ ∧
    10 ∉ (data.drop (start + 10)).take (end_ - 10)

theorem containsPEMHeader_iff_recognised : containsPEMHeader data = true ↔ Recognised data := by
  cases hbegin : bytesIndex pemBegin data with
  | none => simp [containsPEMHeader, Recognised, hbegin]
  | some start => simp [containsPEMHeader_iff hbegin, Recognised, hbegin]

instance (data : Bytes) : Decidable (Recognised data) :=
  decidable_of_iff _ containsPEMHeader_iff_recognised

theorem headersTold_iff (data : Bytes) :
    (containsPEMHeader data = true ↔ HasPEMHeader data) ↔ HeadersTold data := by
  cases hbegin : bytesIndex pemBegin data with
  | none =>
    have hnone : ¬ HasPEMHeader data := fun h => bytesIndex_eq_none hbegin h.tokens.1
    simp [containsPEMHeader, HeadersTold, hbegin, hnone]
  | some start =>
    simp only [containsPEMHeader_iff hbegin, hasPEMHeader_iff hbegin, HeadersTold, hbegin,
      Option.some.injEq, forall_eq']
    cases hend : bytesIndex pemDashes (data.drop (start + 10)) with
    | none =>
      have hnone : ¬ HasPEMHeader (data.drop (start + 10)) :=
        fun h => bytesIndex_eq_none hend h.tokens.2
      simp [hnone]
    | some end_ =>
      by_cases hnewline : 10 ∈ (data.drop (start + 10)).take end_
      · simp only [Option.some.injEq, exists_eq_left', forall_eq', hnewline, not_true_eq_false,
          false_or, true_imp_iff]
        exact not_iff_comm.trans iff_comm
      · have hfirst : 10 ∉ (data.drop (start + 10)).take (end_ - 10) :=
          fun h => hnewline ((take_prefix_take_left (Nat.sub_le _ _)).subset h)
        simp [hnewline, hfirst]

/-- A bundle validator that reads blocks while `more` holds of the data left, and checks each of
them by its number. -/
def readBundle (lib : Stdlib) (more : Bytes → Bool)
    (check : Nat → PemBlock → Except String Unit) : Nat → Nat → Bytes → Except String Unit
  | 0, _, _ => .error "failed to parse PEM block"
  | fuel + 1, i, data =>
    if more data then
      match lib.pemDecode data with
      | none => .error "failed to parse PEM block"
      | some (block, rest) => do
        check i block
        readBundle lib more check fuel (i + 1) rest
    else if i = 0 then .error "failed to locate certificate"
    else .ok ()

/-- What the validators ask of every block. -/
def caCheck (block : PemBlock) : Except String Unit :=
  if block.type ≠ "CERTIFICATE" then .error (unexpectedBlockType block) else .ok ()

variable (lib : Stdlib)

/-- What `validateServingBundle` asks of a block. -/
def servingCheck (i : Nat) (block : PemBlock) : Except String Unit := do
  caCheck block
  let cert ← lib.parseCertificate block.bytes
  if i = 0 ∧ ¬ hasCommonName cert ∧ ¬ hasSubjectAltNames cert then
    .error "certificate has no common name or subject alt name"
  else .ok ()

/-- The data left behind a block. -/
def Behind (more : Bytes → Bool) (data rest : Bytes) : Prop :=
  more data = true ∧ ∃ block, lib.pemDecode data = some (block, rest)

variable {lib} {more : Bytes → Bool}

theorem validateLoops_eq (h : ∀ rest, Relation.ReflTransGen (Behind lib more) data rest →
      containsPEMHeader rest = more rest) (fuel i : Nat) :
    validateServingLoop lib fuel i data = readBundle lib more (servingCheck lib) fuel i data ∧
    validateCALoop lib fuel (i ≠ 0) data = readBundle lib more (fun _ => caCheck) fuel i data := by
  induction fuel generalizing i data with
  | zero => exact ⟨rfl, rfl⟩
  | succ fuel ih =>
    rw [validateServingLoop, validateCALoop, readBundle, readBundle, h data .refl]
    by_cases hmore : more data = true
    · rw [if_pos hmore, if_pos hmore, if_pos hmore, if_pos hmore]
      cases hdecode : lib.pemDecode data with
      | none => exact ⟨rfl, rfl⟩
      | some found =>
        obtain ⟨block, rest⟩ := found
        obtain ⟨hserving, hca⟩ := @ih rest
          (fun left hleft => h left (.head ⟨hmore, block, hdecode⟩ hleft)) (i + 1)
        dsimp only [servingCheck, caCheck]
        rw [← hserving, ← hca]
        constructor
        · split
          · rfl
          · cases lib.parseCertificate block.bytes with
            | error err => rfl
            | ok cert =>
              rw [ok_bind, ok_bind]
              dsimp only
              split <;> rfl
        · split
          · rfl
          · rw [ok_bind, decide_eq_true (Nat.succ_ne_zero i)]
    · simp [hmore]

open Classical in
/-- `containsPEMHeader` tells whether the data has a header just under `HeadersTold`. Where that
holds of all data that they come to, the bundle validators read on just while a header is left. -/
theorem headers_told_iff (data : Bytes) :
    ((containsPEMHeader data = true ↔ HasPEMHeader data) ↔ HeadersTold data) ∧
    ((∀ rest, Relation.ReflTransGen (Behind lib (HasPEMHeader ·)) data rest → HeadersTold rest) →
      validateServingBundle lib data =
        readBundle lib (HasPEMHeader ·) (servingCheck lib) (data.length + 1) 0 data ∧
      validateCABundle lib data =
        readBundle lib (HasPEMHeader ·) (fun _ => caCheck) (data.length + 1) 0 data) := by
  refine ⟨headersTold_iff data, fun h => validateLoops_eq (fun rest hrest => ?_) _ 0⟩
  rw [Bool.eq_iff_iff, decide_eq_true_iff]
  exact (headersTold_iff rest).mpr (h rest hrest)

/-- A begin token without dashes on its line hides the header behind it, and a line that ends
right before the dashes does not end the header. -/
theorem header_missed_and_joined :
    (HasPEMHeader (pemBegin ++ replicate 11 10 ++ (pemBegin ++ pemDashes)) ∧
      containsPEMHeader (pemBegin ++ replicate 11 10 ++ (pemBegin ++ pemDashes)) = false) ∧
    ¬ HasPEMHeader (pemBegin ++ [10] ++ pemDashes) ∧
      containsPEMHeader (pemBegin ++ [10] ++ pemDashes) = true := by
  refine ⟨⟨⟨[], not_mem_nil, ?_⟩, rfl⟩, ?_, rfl⟩
  · exact (suffix_append _ _).isInfix
  · have hbegin : bytesIndex pemBegin (pemBegin ++ [10] ++ pemDashes) = some 0 := rfl
    rw [hasPEMHeader_iff hbegin]
    rintro (⟨end_, hend, hline⟩ | hbehind)
    · cases hend
      exact hline (by decide)
    · exact bytesIndex_eq_none rfl hbehind.tokens.1

end Headers

/-! ## What the check of private keys answers -/

section PrivateKeys

variable (lib : Stdlib)

/-- The blocks of a bundle: `pem.Decode` again and again, as long as it finds one. -/
def pemBlocksFrom : Nat → Bytes → List PemBlock
  | 0, _ => []
  | fuel + 1, data =>
    match lib.pemDecode data with
    | none => []
    | some (block, rest) => block :: pemBlocksFrom fuel rest

def pemBlocks (data : Bytes) : List PemBlock := pemBlocksFrom lib (data.length + 1) data

/-- The blocks in front of the first data that is not taken for a header, and whether there
is such data. -/
def seenBlocksFrom : Nat → Bytes → List PemBlock × Bool
  | 0, _ => ([], false)
  | fuel + 1, data =>
    if Recognised data then
      match lib.pemDecode data with
      | none => ([], false)
      | some (block, rest) =>
        (block :: (seenBlocksFrom fuel rest).1, (seenBlocksFrom fuel rest).2)
    else ([], true)

/-- The blocks that `validatePrivateKey` gets to see, unless it returns before. -/
def seenBlocks (data : Bytes) : List PemBlock × Bool := seenBlocksFrom lib (data.length + 1) data

/-- The block has one of the three types of private keys. -/
abbrev IsKey (block : PemBlock) : Prop :=
  block.type ∈ ["PRIVATE KEY", "RSA PRIVATE KEY", "EC PRIVATE KEY"]

/-- The block parses as a private key of its type. -/
def Parses (block : PemBlock) : Prop :=
  (block.type = "PRIVATE KEY" ∧ lib.pkcs8Error block.bytes = none) ∨
  (block.type = "RSA PRIVATE KEY" ∧ lib.pkcs1Error block.bytes = none) ∨
  (block.type = "EC PRIVATE KEY" ∧ lib.ecKeyError block.bytes = none)

/-- The block is the one key among the blocks, and all others are of type EC PARAMETERS. -/
def OnlyKey (blocks : List PemBlock) (block : PemBlock) : Prop :=
  blocks.filter (IsKey ·) = [block] ∧ ∀ other ∈ blocks, IsKey other ∨ other.type = "EC PARAMETERS"

/-- The loop returns at the block without an error. -/
def EndsLoop (block : PemBlock) : Prop := Parses lib block ∧ block.type ≠ "EC PRIVATE KEY"

/-- The loop goes on behind the block. -/
def PassesLoop (block : PemBlock) : Prop :=
  block.type = "EC PARAMETERS" ∨ IsKey block ∧ (Parses lib block ↔ block.type = "EC PRIVATE KEY")

/-- The loop reaches a block at which it returns without an error. -/
def EndsEarly : List PemBlock → Prop
  | [] => False
  | block :: rest => EndsLoop lib block ∨ PassesLoop lib block ∧ EndsEarly rest

variable {lib} {blocks : List PemBlock}

/-- One block in the loop of `validatePrivateKey`, which `next` goes on with. -/
theorem keyBlock_ok_iff (block : PemBlock) (next : Nat → Except String Unit) (keys : Nat) :
    (if block.type = "PRIVATE KEY" then
      if lib.pkcs8Error block.bytes = none then .ok () else next (keys + 1)
    else if block.type = "RSA PRIVATE KEY" then
      if lib.pkcs1Error block.bytes = none then .ok () else next (keys + 1)
    else if block.type = "EC PRIVATE KEY" then
      match lib.ecKeyError block.bytes with
      | some err => .error err
      | none => next (keys + 1)
    else if block.type = "EC PARAMETERS" then next keys
    else .error (unexpectedBlockType block)) = .ok () ↔
      EndsLoop lib block ∨ PassesLoop lib block ∧
        next (keys + if IsKey block then 1 else 0) = .ok () := by
  obtain ⟨type, bytes⟩ := block
  dsimp only [EndsLoop, PassesLoop, Parses, IsKey]
  split
  · subst type
    by_cases h : lib.pkcs8Error bytes = none <;> simp [h]
  split
  · subst type
    by_cases h : lib.pkcs1Error bytes = none <;> simp [h]
  split
  · subst type
    cases lib.ecKeyError bytes <;> simp
  split
  · subst type
    simp
  · simp [*]

/-- The loop accepts the data if it reaches a block at which it returns, or if it goes
through all blocks and counts one key. -/
theorem validatePrivateKeyLoop_ok_iff {fuel keys : Nat} :
    validatePrivateKeyLoop lib fuel keys data = .ok () ↔
      EndsEarly lib (seenBlocksFrom lib fuel data).1 ∨
        (seenBlocksFrom lib fuel data).2 = true ∧
        (∀ block ∈ (seenBlocksFrom lib fuel data).1, PassesLoop lib block) ∧
        keys + ((seenBlocksFrom lib fuel data).1.filter (IsKey ·)).length = 1 := by
  induction fuel generalizing keys data with
  | zero => simp [validatePrivateKeyLoop, seenBlocksFrom, EndsEarly]
  | succ fuel ih =>
    rw [validatePrivateKeyLoop, seenBlocksFrom]
    simp only [containsPEMHeader_iff_recognised]
    split
    · cases lib.pemDecode data with
      | none => simp [EndsEarly]
      | some found =>
        obtain ⟨block, rest⟩ := found
        have hkeys : keys +
            ((block :: (seenBlocksFrom lib fuel rest).1).filter (IsKey ·)).length =
            keys + (if IsKey block then 1 else 0) +
              ((seenBlocksFrom lib fuel rest).1.filter (IsKey ·)).length := by
          rw [filter_cons]
          split <;> simp_all [Nat.add_assoc, Nat.add_comm]
        refine (keyBlock_ok_iff block (validatePrivateKeyLoop lib fuel · rest) keys).trans ?_
        rw [ih, hkeys, EndsEarly, forall_mem_cons]
        tauto
    · split
      · simp_all [EndsEarly]
      · split <;> simp_all [EndsEarly]

theorem seenBlocksFrom_prefix (fuel : Nat) :
    (seenBlocksFrom lib fuel data).1 <+: pemBlocksFrom lib fuel data := by
  induction fuel generalizing data with
  | zero => exact prefix_rfl
  | succ fuel ih =>
    rw [seenBlocksFrom, pemBlocksFrom]
    split
    · cases lib.pemDecode data with
      | none => exact prefix_rfl
      | some found => exact (prefix_cons_inj _).mpr ih
    · exact nil_prefix

/-- With fuel for all of the data, more of it changes nothing. -/
theorem validatePrivateKeyLoop_fuel {n m keys : Nat} (hn : data.length < n) (hm : data.length < m) :
    validatePrivateKeyLoop lib n keys data = validatePrivateKeyLoop lib m keys data := by
  induction n generalizing m keys data with
  | zero => exact absurd hn (Nat.not_lt_zero _)
  | succ n ih =>
    obtain ⟨m, rfl⟩ := Nat.exists_eq_add_one_of_ne_zero (Nat.ne_zero_of_lt hm)
    rw [validatePrivateKeyLoop, validatePrivateKeyLoop]
    cases hdecode : lib.pemDecode data with
    | none => rfl
    | some found =>
      have hrest := lib.pemDecode_shorter data found.1 found.2 hdecode
      have hnext : ∀ keys, validatePrivateKeyLoop lib n keys found.2 =
          validatePrivateKeyLoop lib m keys found.2 := fun keys => ih (by omega) (by omega)
      simp only [hnext]

variable (lib) in
/-- The blocks for which `validatePrivateKey` answers whether they hold one usable key. -/
structure KeysTold (data : Bytes) : Prop where
  /-- A key at which the loop returns is the only one. -/
  alone : EndsEarly lib (seenBlocks lib data).1 → ∃ block, OnlyKey (pemBlocks lib data) block
  /-- The one key of a loop that goes through all blocks is an EC key, and the only one. -/
  counted : (seenBlocks lib data).2 = true → ∀ block, OnlyKey (seenBlocks lib data).1 block →
    PassesLoop lib block → block.type = "EC PRIVATE KEY" ∧ OnlyKey (pemBlocks lib data) block
  /-- The loop sees the only key, and if it is an EC key, it can read on behind it. -/
  seen : ∀ block, OnlyKey (pemBlocks lib data) block → Parses lib block →
    OnlyKey (seenBlocks lib data).1 block ∧
      (block.type = "EC PRIVATE KEY" → (seenBlocks lib data).2 = true)

variable (lib) in
/-- The blocks of the data hold exactly one usable private key. -/
def HoldsOneKey (data : Bytes) : Prop :=
  ∃ block, OnlyKey (pemBlocks lib data) block ∧ Parses lib block

theorem EndsEarly.exists_mem (h : EndsEarly lib blocks) : ∃ block ∈ blocks, EndsLoop lib block := by
  induction blocks with
  | nil => exact absurd h not_false
  | cons block rest ih =>
    obtain hends | ⟨-, hrest⟩ := h
    · exact ⟨block, mem_cons_self, hends⟩
    · obtain ⟨other, hother, hends⟩ := ih hrest
      exact ⟨other, mem_cons_of_mem _ hother, hends⟩

theorem endsEarly_of_mem {block : PemBlock} (hblock : block ∈ blocks) (hends : EndsLoop lib block)
    (hpass : ∀ other ∈ blocks, EndsLoop lib other ∨ PassesLoop lib other) :
    EndsEarly lib blocks := by
  induction blocks with
  | nil => cases hblock
  | cons first rest ih =>
    obtain ⟨hfirst, hrest⟩ := forall_mem_cons.mp hpass
    obtain rfl | hblock := mem_cons.mp hblock
    · exact .inl hends
    · exact hfirst.imp_right fun hpasses => ⟨hpasses, ih hblock hrest⟩

theorem Parses.isKey {block : PemBlock} (h : Parses lib block) : IsKey block := by
  obtain ⟨h, -⟩ | ⟨h, -⟩ | ⟨h, -⟩ := h <;> simp [h]

namespace OnlyKey

variable {blocks : List PemBlock} {block : PemBlock} (h : OnlyKey blocks block)

include h

theorem mem_isKey : block ∈ blocks ∧ IsKey block := by
  have hmem : block ∈ blocks.filter (IsKey ·) := h.1 ▸ mem_singleton_self block
  exact (mem_filter.mp hmem).imp_right of_decide_eq_true

theorem eq_of_mem {other : PemBlock} (hother : other ∈ blocks) (hkey : IsKey other) :
    other = block := by
  have hmem : other ∈ blocks.filter (IsKey ·) := mem_filter.mpr ⟨hother, decide_eq_true hkey⟩
  rwa [h.1, mem_singleton] at hmem

theorem passes (hpass : PassesLoop lib block) : ∀ other ∈ blocks, PassesLoop lib other := by
  intro other hother
  obtain hkey | hparameters := h.2 other hother
  · rwa [h.eq_of_mem hother hkey]
  · exact .inl hparameters

/-- The blocks in front of others hold the only key as soon as they hold any. -/
theorem of_prefix {front : List PemBlock} {other : PemBlock} (hfront : front <+: blocks)
    (hother : other ∈ front) (hkey : IsKey other) : OnlyKey front block := by
  refine ⟨?_, fun b hb => h.2 b (hfront.subset hb)⟩
  have hfilter := hfront.filter (IsKey ·)
  rw [h.1] at hfilter
  have hmem : other ∈ front.filter (IsKey ·) := mem_filter.mpr ⟨hother, decide_eq_true hkey⟩
  exact hfilter.eq_of_length_le (length_pos_of_mem hmem)

theorem endsEarly (hparses : Parses lib block) (hec : block.type ≠ "EC PRIVATE KEY") :
    EndsEarly lib blocks := by
  refine endsEarly_of_mem h.mem_isKey.1 ⟨hparses, hec⟩ fun other hother => ?_
  obtain hkey | hparameters := h.2 other hother
  · exact .inl (h.eq_of_mem hother hkey ▸ ⟨hparses, hec⟩)
  · exact .inr (.inl hparameters)

end OnlyKey

/-- The answer of `validatePrivateKey` is whether the data holds one usable key just for
the blocks for which `KeysTold` says so. -/
theorem holdsOneKey_iff :
    (validatePrivateKey lib data = .ok () ↔ HoldsOneKey lib data) ↔ KeysTold lib data := by
  rw [validatePrivateKey, validatePrivateKeyLoop_ok_iff, ← seenBlocks, Nat.zero_add]
  have hfront : (seenBlocks lib data).1 <+: pemBlocks lib data := seenBlocksFrom_prefix _
  constructor
  · intro h
    refine ⟨fun hearly => ?_, fun hclean block honly hpass => ?_, fun block honly hparses => ?_⟩
    · obtain ⟨block, honly, -⟩ := h.mp (.inl hearly)
      exact ⟨block, honly⟩
    · obtain ⟨key, hkey, hparses⟩ := h.mp (.inr ⟨hclean, honly.passes hpass, by rw [honly.1]; rfl⟩)
      obtain ⟨hblock, hisKey⟩ := honly.mem_isKey
      obtain rfl := hkey.eq_of_mem (hfront.subset hblock) hisKey
      refine ⟨?_, hkey⟩
      obtain hparameters | ⟨-, hec⟩ := hpass
      · simp [hparameters] at hisKey
      · exact hec.mp hparses
    · obtain hearly | ⟨hclean, -, hcount⟩ := h.mpr ⟨block, honly, hparses⟩
      · obtain ⟨other, hother, hends⟩ := hearly.exists_mem
        refine ⟨honly.of_prefix hfront hother hends.1.isKey, fun hec => ?_⟩
        rw [honly.eq_of_mem (hfront.subset hother) hends.1.isKey] at hends
        exact absurd hec hends.2
      · obtain ⟨other, hmem⟩ := exists_mem_of_length_pos (hcount ▸ Nat.one_pos)
        obtain ⟨hother, hkey⟩ := mem_filter.mp hmem
        exact ⟨honly.of_prefix hfront hother (of_decide_eq_true hkey), fun _ => hclean⟩
  · intro h
    constructor
    · rintro (hearly | ⟨hclean, hpass, hcount⟩)
      · obtain ⟨block, honly⟩ := h.alone hearly
        obtain ⟨other, hother, hends⟩ := hearly.exists_mem
        exact ⟨block, honly, honly.eq_of_mem (hfront.subset hother) hends.1.isKey ▸ hends.1⟩
      · obtain ⟨block, hfilter⟩ := length_eq_one_iff.mp hcount
        have honly : OnlyKey (seenBlocks lib data).1 block :=
          ⟨hfilter, fun other hother => (hpass other hother).symm.imp_left And.left⟩
        have hpasses := hpass block honly.mem_isKey.1
        obtain ⟨hec, hall⟩ := h.counted hclean block honly hpasses
        refine ⟨block, hall, ?_⟩
        obtain hparameters | ⟨-, hparses⟩ := hpasses
        · exact absurd (hec.symm.trans hparameters) (by decide)
        · exact hparses.mpr hec
    · rintro ⟨block, honly, hparses⟩
      obtain ⟨hseen, hclean⟩ := h.seen block honly hparses
      by_cases hec : block.type = "EC PRIVATE KEY"
      · exact .inr ⟨hclean hec, hseen.passes (.inr ⟨hparses.isKey, iff_of_true hparses hec⟩),
          by rw [hseen.1]; rfl⟩
      · exact .inl (hseen.endsEarly hparses hec)

/-- `validatePrivateKey` returns on all data; its answer, and that of `isValidSecret`, is
whether the data holds one usable key just under `KeysTold`. -/
theorem private_key_told_iff (data : Bytes) :
    (∀ fuel, data.length < fuel →
      validatePrivateKeyLoop lib fuel 0 data = validatePrivateKey lib data) ∧
    ((validatePrivateKey lib data = .ok () ↔ HoldsOneKey lib data) ↔ KeysTold lib data) ∧
    ∀ secret : Api.Secret, secret.type = .tls → secret.data.lookup tlsPrivateKeyKey = some data →
      isValidSecret lib secret = true → (HoldsOneKey lib data ↔ KeysTold lib data) := by
  refine ⟨fun fuel hfuel => validatePrivateKeyLoop_fuel hfuel (Nat.lt_succ_self _),
    holdsOneKey_iff, fun secret htls hkey hvalid => ?_⟩
  have haccepted : validatePrivateKey lib data = .ok () := by
    rw [isValidSecret, htls, hkey] at hvalid
    cases hcert : secret.data.lookup tlsCertKey with
    | none => simp [hcert] at hvalid
    | some cert =>
      cases hresult : validatePrivateKey lib data with
      | ok _ => rfl
      | error err => simp [hcert, hresult, Except.isOk, Except.toBool] at hvalid
  rw [← holdsOneKey_iff, iff_true_left haccepted]

/-- Every header starts a PKCS #8 key that does not parse. -/
def brokenKeys : Stdlib :=
  { Stdlib.plain with
    pemDecode := fun data =>
      if data = [] then none else some ({ type := "PRIVATE KEY", bytes := [] }, [])
    pemDecode_shorter := fun data block rest h => by
      split at h
      · cases h
      · next hne =>
        cases h
        exact length_pos_iff.mpr hne
    pkcs8Error := fun _ => some "malformed key" }

theorem broken_key_accepted : validatePrivateKey brokenKeys (pemBegin ++ pemDashes) = .ok () ∧
    ¬ HoldsOneKey brokenKeys (pemBegin ++ pemDashes) := by
  refine ⟨rfl, ?_⟩
  rintro ⟨block, honly, hparses⟩
  have hblocks : pemBlocks brokenKeys (pemBegin ++ pemDashes) =
      [{ type := "PRIVATE KEY", bytes := [] }] := rfl
  obtain rfl := mem_singleton.mp (hblocks ▸ honly.mem_isKey.1)
  simp [Parses, brokenKeys] at hparses

end PrivateKeys

end Sesame.Dag
