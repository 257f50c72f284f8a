/-
# Streams of the xDS server

A resource cache replaces its values and calls `Notify` inside `Update`. Every stream of
the server registers its channel, waits in a select for a value, reads the cache and
responds. A registration is for one value only, and the counter tells a stream that
registers again whether it missed one.

A run interleaves updates with any number of streams. The counters are integers without
a bound; those of the source overflow after `2 ^ 63` notifications.
-/

import Mathlib.Logic.Function.Basic
import Sesame.XdsCache.Route
import Sesame.XdsCache.Secret

namespace Sesame.Xds

open List
open Lib Envoy XdsCache

/-! ## Resource caches -/

/-- What the server asks a resource cache for. `Contents` ranges over a map. -/
structure Resource (V M : Type) where
  contents : MapOrder → V → List M
  query : V → List String → List M

/-- The resources of a response to a request with these names. -/
def Resource.answer {V M : Type} (r : Resource V M) (ord : MapOrder) (values : V)
    (names : List String) : List M :=
  match names.length with
  | 0 => r.contents ord values
  | _ => r.query values names

section Caches

variable {M : Type}

/-- `sorter.For` on messages with a name. -/
def sortByName (name : M → String) (messages : List M) : List M :=
  sortStable (fun a b => name a < name b) messages

/-- `Contents` and `Query` of a cache. A name that is neither among the values nor among
the static ones gives `missing`. -/
def cacheOf (site : String) (name : M → String) (staticValues : Map String M)
    (missing : String → Option M) : Resource (Map String M) M where
  contents ord values := sortByName name
    (ord.values (site ++ ".values") values ++ ord.values (site ++ ".staticValues") staticValues)
  query values names := sortByName name
    (names.filterMap fun n => (values.lookup n).or ((staticValues.lookup n).or (missing n)))

/-- A cluster that is not there is left out. -/
def clusterCache : Resource (Map String EnvoyCluster) EnvoyCluster :=
  cacheOf "ClusterCache" EnvoyCluster.name ∅ fun _ => none

/-- A route configuration that is not there is blank. -/
def routeCache : Resource (Map String RouteConfiguration) RouteConfiguration :=
  cacheOf "RouteCache" RouteConfiguration.name ∅ fun n => some { name := n }

def listenerCache (staticValues : Map String Envoy.Listener) :
    Resource (Map String Envoy.Listener) Envoy.Listener :=
  cacheOf "ListenerCache" Envoy.Listener.name staticValues fun _ => none

def secretCache (staticValues : Map String EnvoySecret) :
    Resource (Map String EnvoySecret) EnvoySecret :=
  cacheOf "SecretCache" EnvoySecret.name staticValues fun _ => none

/-- Every message is under its name, and no static one has the name of another. -/
structure Keyed (name : M → String) (staticValues values : Map String M) : Prop where
  named : ∀ k m, values.lookup k = some m → name m = k
  staticNamed : ∀ k m, staticValues.lookup k = some m → name m = k
  disjoint : ∀ k m, values.lookup k = some m → staticValues.lookup k = none

/-- `Contents` does not depend on the order in which it ranges over the maps. -/
theorem contents_orderFree {site : String} {name : M → String} {staticValues values : Map String M}
    {missing : String → Option M} (h : Keyed name staticValues values) (ord ord' : MapOrder) :
    (cacheOf site name staticValues missing).contents ord values =
      (cacheOf site name staticValues missing).contents ord' values := by
  refine sortStable_eq_of_perm (.of_le (R := fun a b => name a ≤ name b) ?_ ?_ ?_) ?_ ?_
  · exact fun x y z _ _ _ => le_trans
  · exact fun x y _ _ => le_total _ _
  · intro x y _ _
    rw [decide_eq_true_iff, not_le]
  · intro a ha b hb hab hba
    have hname : name a = name b :=
      le_antisymm (not_lt.mp (of_decide_eq_false hba)) (not_lt.mp (of_decide_eq_false hab))
    have hlookup : ∀ m ∈ ord'.values (site ++ ".values") values ++
        ord'.values (site ++ ".staticValues") staticValues,
        (values.lookup (name m)).or (staticValues.lookup (name m)) = some m := by
      intro m hm
      rcases mem_append.mp hm with hm | hm
      · obtain ⟨k, hk⟩ := ord'.mem_values.mp hm
        rw [h.named k m hk, hk, Option.some_or]
      · obtain ⟨k, hk⟩ := ord'.mem_values.mp hm
        rw [h.staticNamed k m hk, hk]
        cases hv : values.lookup k with
        | none => rfl
        | some m' => rw [h.disjoint k m' hv] at hk; cases hk
    have hsame := hlookup a ha
    rw [hname, hlookup b hb] at hsame
    exact (Option.some.inj hsame).symm
  · exact (ord.values_perm ord' _ _).append (ord.values_perm ord' _ _)

end Caches

/-! ## The condition -/

/-- A registration: the stream whose channel it is, and the hints. -/
structure Waiter where
  ch : Nat
  hints : List String
  deriving DecidableEq

/-- `Cond`, without its lock. -/
structure Cond where
  waiters : List Waiter := []
  last : Int := 0

def intersection (left right : List String) : Bool :=
  left.any fun l => right.any fun r => l = r

/-- `Notify` with these hints sends to the waiter. -/
def Waiter.interested (w : Waiter) (hints : List String) : Bool :=
  hints.length = 0 || intersection hints w.hints

/-- The holder of the lock of `Cond`. -/
inductive Owner
  | notify
  | register (stream : Nat)

/-! ## The server -/

/-- A response, with its version before it is formatted. It is the nonce, too. -/
structure Response (M : Type) where
  versionInfo : Int
  resources : List M

/-- Where a stream is: it waits for a request, is about to call `Register`, is about to
send to itself in `Register`, is in the select, has received a value, has read the
cache, or has returned. -/
inductive Phase (M : Type)
  | recv
  | register
  | sending
  | select
  | received
  | respond (resources : List M)
  | terminated
  deriving DecidableEq

/-- A stream: its variables, its channel of capacity 1, and its responses, newest
first. -/
structure Stream (M : Type) where
  last : Int := -1
  channel : Option Int := none
  phase : Phase M := .recv
  responses : List (Response M) := []

/-- Where the call of `Update` that holds the lock of the cache is: there is none, it
has replaced the values, or it is in the loop of `Notify`. -/
inductive Updating
  | idle
  | replaced
  | notifying (hints : List String) (notify : List Waiter)
  deriving DecidableEq

/-- The waiters that `Notify` has still to look at. -/
def Updating.rest : Updating → List Waiter
  | .idle | .replaced => []
  | .notifying _ notify => notify

/-- A cache with the streams that it serves. -/
structure Server (V M : Type) where
  values : V
  updating : Updating := .idle
  cond : Cond := {}
  condMu : Option Owner := none
  streams : Nat → Stream M := fun _ => {}

inductive Step (V : Type)
  | recv (i : Nat)
  | register (i : Nat)
  | send (i : Nat)
  | receive (i : Nat)
  | read (i : Nat) (ord : MapOrder)
  | respond (i : Nat)
  | terminate (i : Nat)
  | update (values : V)
  | notify
  | wake
  | finish

namespace Server

variable {V M : Type}

def setStream (s : Server V M) (i : Nat) (stream : Stream M) : Server V M :=
  { s with streams := Function.update s.streams i stream }

/-- `Register`, up to its send: a stream that missed a notification keeps the lock. -/
def register (s : Server V M) (i : Nat) (names : List String) : Server V M :=
  let stream := s.streams i
  if stream.last < s.cond.last then
    { s.setStream i { stream with phase := .sending } with condMu := some (.register i) }
  else
    { s.setStream i { stream with phase := .select } with
      cond := { s.cond with waiters := s.cond.waiters ++ [{ ch := i, hints := names }] } }

/-- Send to the channel of a stream; `none` if this blocks. -/
def send (s : Server V M) (i : Nat) (value : Int) : Option (Server V M) :=
  match (s.streams i).channel with
  | none => some (s.setStream i { s.streams i with channel := some value })
  | some _ => none

/-- `Notify`, up to its loop. -/
def beginNotify (s : Server V M) (hints : List String) : Server V M :=
  { s with
    condMu := some .notify
    updating := .notifying hints s.cond.waiters
    cond := { waiters := [], last := s.cond.last + 1 } }

/-- The body of the loop of `Notify`. -/
def wake (s : Server V M) (hints : List String) (waiter : Waiter) (rest : List Waiter) :
    Option (Server V M) :=
  let s := { s with updating := .notifying hints rest }
  if waiter.interested hints then s.send waiter.ch s.cond.last
  else some { s with cond := { s.cond with waiters := s.cond.waiters ++ [waiter] } }

/-- One step; `none` if it cannot be taken. -/
def step (r : Resource V M) (names : Nat → List String) (s : Server V M) :
    Step V → Option (Server V M)
  | .recv i =>
    match (s.streams i).phase with
    | .recv => some (s.setStream i { s.streams i with phase := .register })
    | _ => none
  | .register i =>
    match (s.streams i).phase, s.condMu with
    | .register, none => some (s.register i (names i))
    | _, _ => none
  | .send i =>
    match (s.streams i).phase with
    | .sending =>
      (s.send i s.cond.last).map fun s =>
        { s.setStream i { s.streams i with phase := .select } with condMu := none }
    | _ => none
  | .receive i =>
    match (s.streams i).phase, (s.streams i).channel with
    | .select, some value =>
      some (s.setStream i { s.streams i with last := value, channel := none, phase := .received })
    | _, _ => none
  | .read i ord =>
    -- `Contents` and `Query` need the lock that `Update` holds.
    match (s.streams i).phase, s.updating with
    | .received, .idle =>
      some (s.setStream i { s.streams i with phase := .respond (r.answer ord s.values (names i)) })
    | _, _ => none
  | .respond i =>
    match (s.streams i).phase with
    | .respond resources =>
      some (s.setStream i
        { s.streams i with
          phase := .recv
          responses := { versionInfo := (s.streams i).last, resources } ::
            (s.streams i).responses })
    | _ => none
  | .terminate i =>
    match (s.streams i).phase with
    | .recv | .select | .respond _ =>
      some (s.setStream i { s.streams i with phase := .terminated })
    | _ => none
  | .update values =>
    match s.updating with
    | .idle => some { s with values, updating := .replaced }
    | _ => none
  | .notify =>
    match s.updating, s.condMu with
    | .replaced, none => some (s.beginNotify [])
    | _, _ => none
  | .wake =>
    match s.updating with
    | .notifying hints (waiter :: rest) => s.wake hints waiter rest
    | _ => none
  | .finish =>
    match s.updating with
    | .notifying _ [] => some { s with updating := .idle, condMu := none }
    | _ => none

end Server

/-- A cache with these values, and streams whose requests have these names. -/
def serve {V M : Type} (r : Resource V M) (names : Nat → List String) (values : V) :
    Machine (Server V M) (Step V) where
  init := { values }
  step := Server.step r names

/-! ## Where a stream can be -/

/-- Where the channel of a stream is registered: nowhere, with the waiters that `Notify`
has still to look at, or with those that wait for the next one. -/
inductive Place
  | out
  | notifying
  | waiting

/-- Where the channel of a stream is registered, if `Notify` has still to look at
`rest`. -/
def placeOf (rest waiters : List Waiter) (i : Nat) : Place :=
  if i ∈ rest.map Waiter.ch then .notifying
  else if i ∈ waiters.map Waiter.ch then .waiting
  else .out

section placeOf

variable {rest waiters : List Waiter} {w : Waiter} {i : Nat}

theorem placeOf_eq_out : placeOf rest waiters i = .out ↔ i ∉ (rest ++ waiters).map Waiter.ch := by
  unfold placeOf
  split_ifs <;> simp_all

theorem placeOf_cons_self : placeOf (w :: rest) waiters w.ch = .notifying := by
  simp [placeOf]

theorem placeOf_cons_of_ne (h : i ≠ w.ch) :
    placeOf (w :: rest) waiters i = placeOf rest waiters i := by
  simp [placeOf, h]

theorem placeOf_concat_self (h : placeOf rest waiters w.ch = .out) :
    placeOf rest (waiters ++ [w]) w.ch = .waiting := by
  have hrest : w.ch ∉ rest.map Waiter.ch := by
    intro hmem
    refine placeOf_eq_out.mp h ?_
    rw [map_append]
    exact mem_append_left _ hmem
  rw [placeOf, if_neg hrest, if_pos (by simp)]

theorem placeOf_concat_of_ne (h : i ≠ w.ch) :
    placeOf rest (waiters ++ [w]) i = placeOf rest waiters i := by
  simp [placeOf, h]

/-- Where a waiter is after `Notify` took the list. -/
def Place.notified : Place → Place
  | .waiting => .notifying
  | place => place

theorem placeOf_nil_ne_notifying : placeOf [] waiters i ≠ .notifying := by
  rw [placeOf, map_nil, if_neg not_mem_nil]
  split_ifs <;> simp

theorem placeOf_notified : placeOf waiters [] i = (placeOf [] waiters i).notified := by
  simp only [placeOf, map_nil, not_mem_nil, if_false]
  split_ifs <;> rfl

end placeOf

section Held

variable {M : Type}

/-- What was read is still there, unless the counter has moved on since then. -/
def Current (c : Int) (fresh : List M → Prop) (last : Int) (resources : List M) : Prop :=
  ∃ m, last ≤ m ∧ m ≤ c ∧ (m = c → fresh resources)

/-- The versions decrease from the newest response on, and `last` is above them. -/
def Above (last : Int) (responses : List (Response M)) : Prop :=
  (last :: responses.map (·.versionInfo)).Pairwise (· > ·)

/-- The stream has responded to the value it received last. -/
def Answered (c : Int) (fresh : List M → Prop) (last : Int) (responses : List (Response M)) :
    Prop :=
  (responses = [] ∧ last = -1) ∨
  ∃ resources rest, responses = { versionInfo := last, resources } :: rest ∧
    Above last rest ∧ Current c fresh last resources

/-- Where a stream can be when the counter is at `c`. -/
inductive Held (c : Int) (fresh : List M → Prop) : Place → Stream M → Prop
  | recv {last responses} (hle : last ≤ c) (hanswered : Answered c fresh last responses) :
      Held c fresh .out { last, channel := none, phase := .recv, responses }
  | register {last responses} (hle : last ≤ c) (hanswered : Answered c fresh last responses) :
      Held c fresh .out { last, channel := none, phase := .register, responses }
  | sending {last responses} (hlt : last < c) (hanswered : Answered c fresh last responses) :
      Held c fresh .out { last, channel := none, phase := .sending, responses }
  | waiting {last responses} (heq : last = c) (hanswered : Answered c fresh last responses) :
      Held c fresh .waiting { last, channel := none, phase := .select, responses }
  | notifying {last responses} (hlt : last < c) (hanswered : Answered c fresh last responses) :
      Held c fresh .notifying { last, channel := none, phase := .select, responses }
  | sent {last value responses} (hlt : last < value) (hle : value ≤ c)
      (hanswered : Answered c fresh last responses) :
      Held c fresh .out { last, channel := some value, phase := .select, responses }
  | received {last responses} (hle : last ≤ c) (habove : Above last responses) :
      Held c fresh .out { last, channel := none, phase := .received, responses }
  | respond {last resources responses} (hle : last ≤ c) (habove : Above last responses)
      (hcurrent : Current c fresh last resources) :
      Held c fresh .out { last, channel := none, phase := .respond resources, responses }
  | terminated {last channel responses} {place : Place}
      (hversions : (responses.map (·.versionInfo)).Pairwise (· > ·))
      (hchannel : place ≠ .out → channel = none) :
      Held c fresh place { last, channel, phase := .terminated, responses }

variable {c c' : Int} {fresh fresh' : List M → Prop} {last : Int} {resources : List M}
  {responses : List (Response M)} {place : Place} {stream : Stream M}

theorem Current.imp (h : Current c fresh last resources)
    (hfresh : ∀ resources, fresh resources → fresh' resources) :
    Current c fresh' last resources := by
  obtain ⟨m, hlast, hm, hcurrent⟩ := h
  exact ⟨m, hlast, hm, fun heq => hfresh _ (hcurrent heq)⟩

/-- Once the counter moves on, nothing is said about what was read. -/
theorem Current.succ (h : Current c fresh last resources) :
    Current (c + 1) fresh' last resources := by
  obtain ⟨m, hlast, hm, -⟩ := h
  exact ⟨m, hlast, by omega, fun heq => by omega⟩

theorem Answered.of_current (h : Answered c fresh last responses)
    (hcurrent : ∀ resources, Current c fresh last resources → Current c' fresh' last resources) :
    Answered c' fresh' last responses := by
  rcases h with hnone | ⟨resources, rest, hresponses, habove, hresources⟩
  · exact .inl hnone
  · exact .inr ⟨resources, rest, hresponses, habove, hcurrent resources hresources⟩

theorem Answered.versions (h : Answered c fresh last responses) :
    (responses.map (·.versionInfo)).Pairwise (· > ·) := by
  rcases h with ⟨rfl, -⟩ | ⟨resources, rest, rfl, habove, -⟩
  · exact Pairwise.nil
  · exact habove

/-- A later value is above all versions. -/
theorem Answered.above (h : Answered c fresh last responses) {value : Int} (hlt : last < value) :
    Above value responses := by
  refine pairwise_cons.mpr ⟨fun v hv => ?_, h.versions⟩
  rcases h with ⟨rfl, -⟩ | ⟨resources, rest, rfl, habove, -⟩
  · cases hv
  · rcases mem_cons.mp hv with rfl | hrest
    · exact hlt
    · exact lt_trans ((pairwise_cons.mp habove).1 v hrest) hlt

variable (h : Held c fresh place stream)

include h

/-- Replacing values says less about what was read, and finishing the same. -/
theorem Held.imp (hfresh : ∀ resources, fresh resources → fresh' resources) :
    Held c fresh' place stream := by
  have hcurrent : ∀ {last} resources, Current c fresh last resources →
      Current c fresh' last resources := fun resources h => h.imp hfresh
  cases h with
  | recv hle hanswered => exact .recv hle (hanswered.of_current hcurrent)
  | register hle hanswered => exact .register hle (hanswered.of_current hcurrent)
  | sending hlt hanswered => exact .sending hlt (hanswered.of_current hcurrent)
  | waiting heq hanswered => exact .waiting heq (hanswered.of_current hcurrent)
  | notifying hlt hanswered => exact .notifying hlt (hanswered.of_current hcurrent)
  | sent hlt hle hanswered => exact .sent hlt hle (hanswered.of_current hcurrent)
  | received hle habove => exact .received hle habove
  | respond hle habove hread => exact .respond hle habove (hcurrent _ hread)
  | terminated hversions hchannel => exact .terminated hversions hchannel

/-- `Notify` moves the counter on and takes all waiters. -/
theorem Held.notify : Held (c + 1) fresh' place.notified stream := by
  have hcurrent : ∀ {last} resources, Current c fresh last resources →
      Current (c + 1) fresh' last resources := fun resources h => h.succ
  cases h with
  | recv hle hanswered => exact .recv (by omega) (hanswered.of_current hcurrent)
  | register hle hanswered => exact .register (by omega) (hanswered.of_current hcurrent)
  | sending hlt hanswered => exact .sending (by omega) (hanswered.of_current hcurrent)
  | waiting heq hanswered => exact .notifying (by omega) (hanswered.of_current hcurrent)
  | notifying hlt hanswered => exact .notifying (by omega) (hanswered.of_current hcurrent)
  | sent hlt hle hanswered => exact .sent hlt (by omega) (hanswered.of_current hcurrent)
  | received hle habove => exact .received (by omega) habove
  | respond hle habove hread => exact .respond (by omega) habove (hcurrent _ hread)
  | terminated hversions hchannel =>
    refine .terminated hversions fun hplace => hchannel ?_
    rintro rfl
    exact hplace rfl

theorem Held.request (hphase : stream.phase = .recv) :
    Held c fresh place { stream with phase := .register } := by
  cases h with
  | recv hle hanswered => exact .register hle hanswered
  | _ => cases hphase

theorem Held.missed (hphase : stream.phase = .register) (hlt : stream.last < c) :
    Held c fresh place { stream with phase := .sending } := by
  cases h with
  | register hle hanswered => exact .sending hlt hanswered
  | _ => cases hphase

/-- A stream that registers is not registered yet. If it missed nothing, it waits. -/
theorem Held.wait (hphase : stream.phase = .register) (hnot : ¬ stream.last < c) :
    place = .out ∧ Held c fresh .waiting { stream with phase := .select } := by
  cases h with
  | register hle hanswered => exact ⟨rfl, .waiting (le_antisymm hle (not_lt.mp hnot)) hanswered⟩
  | _ => cases hphase

/-- `Register` finds the channel empty. -/
theorem Held.send (hphase : stream.phase = .sending) :
    stream.channel = none ∧
      Held c fresh place { stream with channel := some c, phase := .select } := by
  cases h with
  | sending hlt hanswered => exact ⟨rfl, .sent hlt le_rfl hanswered⟩
  | _ => cases hphase

omit h in
/-- The loop of `Notify` finds the channel empty. -/
theorem Held.wake (h : Held c fresh .notifying stream) :
    stream.channel = none ∧ Held c fresh .out { stream with channel := some c } := by
  cases h with
  | notifying hlt hanswered => exact ⟨rfl, .sent hlt le_rfl hanswered⟩
  | terminated hversions hchannel =>
    exact ⟨hchannel (by simp), .terminated hversions fun hplace => absurd rfl hplace⟩

theorem Held.receive (hphase : stream.phase = .select) {value : Int}
    (hchannel : stream.channel = some value) :
    Held c fresh place { stream with last := value, channel := none, phase := .received } := by
  cases h with
  | sent hlt hle hanswered =>
    cases hchannel
    exact .received hle (hanswered.above hlt)
  | waiting | notifying => cases hchannel
  | _ => cases hphase

/-- What is read now is current until the counter moves on. -/
theorem Held.read (hphase : stream.phase = .received) (hfresh : fresh resources) :
    Held c fresh place { stream with phase := .respond resources } := by
  cases h with
  | received hle habove => exact .respond hle habove ⟨c, hle, le_rfl, fun _ => hfresh⟩
  | _ => cases hphase

theorem Held.response (hphase : stream.phase = .respond resources) :
    Held c fresh place { stream with
      phase := .recv
      responses := { versionInfo := stream.last, resources } :: stream.responses } := by
  cases h with
  | respond hle habove hcurrent =>
    cases hphase
    exact .recv hle (.inr ⟨_, _, rfl, habove, hcurrent⟩)
  | _ => cases hphase

theorem Held.versions : (stream.responses.map (·.versionInfo)).Pairwise (· > ·) := by
  cases h with
  | received hle habove => exact (pairwise_cons.mp habove).2
  | respond hle habove => exact (pairwise_cons.mp habove).2
  | terminated hversions => exact hversions
  | _ => exact Answered.versions (by assumption)

/-- A stream may return while its channel is registered, but not with a value in it. -/
theorem Held.terminate : Held c fresh place { stream with phase := .terminated } := by
  refine .terminated h.versions fun hplace => ?_
  cases h with
  | waiting | notifying => rfl
  | terminated _ hchannel => exact hchannel hplace
  | _ => exact absurd rfl hplace

/-- A stream in the select with an empty channel that `Notify` is not about to send to
has answered with what is there. -/
theorem Held.upToDate (hc : 0 ≤ c) (hplace : place ≠ .notifying) (hphase : stream.phase = .select)
    (hchannel : stream.channel = none) :
    ∃ resources rest, stream.responses = { versionInfo := c, resources } :: rest ∧
      fresh resources := by
  cases h with
  | waiting heq hanswered =>
    subst heq
    rcases hanswered with ⟨-, hnever⟩ | ⟨resources, rest, rfl, -, m, hlast, hm, hcurrent⟩
    · omega
    · exact ⟨resources, rest, rfl, hcurrent (le_antisymm hm hlast)⟩
  | notifying => exact absurd rfl hplace
  | sent => cases hchannel
  | _ => cases hphase

omit h

end Held

/-! ## Runs -/

namespace Server

variable {V M : Type} (r : Resource V M) (names : Nat → List String)

/-- The resources are what a request of the stream would be answered with; nothing is
said while `Update` has not yet called `Notify`. -/
def Fresh (s : Server V M) (i : Nat) (resources : List M) : Prop :=
  s.updating ≠ .replaced → ∃ ord, resources = r.answer ord s.values (names i)

/-- The invariant: a channel is registered at most once, and every stream is somewhere in
the table. -/
structure Inv (s : Server V M) : Prop where
  nonneg : 0 ≤ s.cond.last
  nodup : ((s.updating.rest ++ s.cond.waiters).map Waiter.ch).Nodup
  unhinted : ∀ hints notify, s.updating = .notifying hints notify → hints = []
  held : ∀ i, Held s.cond.last (s.Fresh r names i) (placeOf s.updating.rest s.cond.waiters i)
    (s.streams i)

variable {r names} {s s' : Server V M} {i : Nat}

theorem inv_init (values : V) : Inv r names (serve r names values).init where
  nonneg := le_rfl
  nodup := nodup_nil
  unhinted hints notify h := by cases h
  held i := .recv (Int.negSucc_le_zero 0) (.inl ⟨rfl, rfl⟩)

/-- What a step of stream `i` has to show about the streams. -/
theorem held_update {P : Nat → Stream M → Prop} {stream : Stream M} (hi : P i stream)
    (hrest : ∀ j, j ≠ i → P j (s.streams j)) (j : Nat) :
    P j (Function.update s.streams i stream j) := by
  by_cases hj : j = i
  · subst hj
    rw [Function.update_self]
    exact hi
  · rw [Function.update_of_ne hj]
    exact hrest j hj

variable (h : Inv r names s)

include h

/-- A step that changes one stream, and perhaps who holds the lock of `Cond`. -/
theorem Inv.setStream {stream : Stream M}
    (hheld : Held s.cond.last (s.Fresh r names i) (placeOf s.updating.rest s.cond.waiters i) stream)
    (condMu : Option Owner) : Inv r names { s.setStream i stream with condMu } where
  nonneg := h.nonneg
  nodup := h.nodup
  unhinted := h.unhinted
  held := held_update hheld fun j _ => h.held j

theorem Inv.register (hphase : (s.streams i).phase = .register) :
    Inv r names (s.register i (names i)) := by
  rw [Server.register]
  by_cases hlt : (s.streams i).last < s.cond.last
  · rw [if_pos hlt]
    exact h.setStream ((h.held i).missed hphase hlt) _
  rw [if_neg hlt]
  obtain ⟨hout, hwait⟩ := (h.held i).wait hphase hlt
  constructor
  · exact h.nonneg
  · rw [← append_assoc, map_append, nodup_append_comm]
    exact nodup_cons.mpr ⟨placeOf_eq_out.mp hout, h.nodup⟩
  · exact h.unhinted
  · refine held_update ?_ fun j hj => ?_
    · rw [placeOf_concat_self hout]
      exact hwait
    · rw [placeOf_concat_of_ne hj]
      exact h.held j

theorem Inv.update (hidle : s.updating = .idle) (values : V) :
    Inv r names { s with values, updating := .replaced } where
  nonneg := h.nonneg
  nodup := by
    have hnodup := h.nodup
    rw [hidle] at hnodup
    exact hnodup
  unhinted hints notify heq := by cases heq
  held i := by
    have hheld := h.held i
    rw [hidle] at hheld
    exact hheld.imp fun _ _ hnot => absurd rfl hnot

theorem Inv.notify (hreplaced : s.updating = .replaced) : Inv r names (s.beginNotify []) where
  nonneg := Int.add_nonneg h.nonneg Int.one_nonneg
  nodup := by
    have hnodup := h.nodup
    rw [hreplaced] at hnodup
    show ((s.cond.waiters ++ []).map Waiter.ch).Nodup
    rwa [append_nil]
  unhinted hints notify heq := by
    cases heq
    rfl
  held i := by
    have hheld := h.held i
    rw [hreplaced] at hheld
    show Held _ _ (placeOf s.cond.waiters [] i) _
    rw [placeOf_notified]
    exact hheld.notify

theorem Inv.finish {hints : List String} (hnotifying : s.updating = .notifying hints []) :
    Inv r names { s with updating := .idle, condMu := none } where
  nonneg := h.nonneg
  nodup := by
    have hnodup := h.nodup
    rw [hnotifying] at hnodup
    exact hnodup
  unhinted hints notify heq := by cases heq
  held i := by
    have hheld := h.held i
    rw [hnotifying] at hheld
    refine hheld.imp fun _ hfresh _ => hfresh ?_
    rw [hnotifying]
    simp

/-- `Notify` sends to the next waiter. -/
theorem Inv.wake {hints : List String} {waiter : Waiter} {rest : List Waiter}
    (hnotifying : s.updating = .notifying hints (waiter :: rest))
    (hwake : s.wake hints waiter rest = some s') : Inv r names s' := by
  have hnodup := h.nodup
  rw [hnotifying] at hnodup
  obtain ⟨hout, hrest⟩ := nodup_cons.mp hnodup
  have hfresh : ∀ i resources, s.Fresh r names i resources →
      Fresh r names { s with updating := .notifying hints rest } i resources := by
    intro i resources hfresh _
    refine hfresh ?_
    rw [hnotifying]
    simp
  have hheld : Held s.cond.last (s.Fresh r names waiter.ch) .notifying (s.streams waiter.ch) := by
    have hheld := h.held waiter.ch
    rw [hnotifying] at hheld
    exact placeOf_cons_self ▸ hheld
  obtain ⟨hchannel, hsent⟩ := hheld.wake
  have hinterested : waiter.interested hints = true := by
    rw [h.unhinted _ _ hnotifying]
    rfl
  rw [Server.wake, if_pos hinterested, Server.send] at hwake
  simp only [hchannel, Option.some.injEq] at hwake
  subst hwake
  constructor
  · exact h.nonneg
  · exact hrest
  · intro hints' notify heq
    cases heq
    exact h.unhinted _ _ hnotifying
  · refine held_update ?_ fun j hj => ?_
    · show Held _ _ (placeOf rest s.cond.waiters waiter.ch) _
      rw [placeOf_eq_out.mpr hout]
      exact hsent.imp (hfresh waiter.ch)
    · have hheld := h.held j
      rw [hnotifying] at hheld
      rw [← placeOf_cons_of_ne hj]
      exact hheld.imp (hfresh j)

theorem Inv.send (hphase : (s.streams i).phase = .sending)
    (hsend : ((s.send i s.cond.last).map fun s =>
      { s.setStream i { s.streams i with phase := .select } with condMu := none }) = some s') :
    Inv r names s' := by
  obtain ⟨hchannel, hheld⟩ := (h.held i).send hphase
  simp only [Server.send, hchannel, Option.map_some, Option.some.injEq] at hsend
  subst hsend
  have hsame : Server.setStream (s.setStream i { s.streams i with channel := some s.cond.last }) i
      { (s.setStream i { s.streams i with channel := some s.cond.last }).streams i with
        phase := .select } =
      s.setStream i { s.streams i with channel := some s.cond.last, phase := .select } := by
    simp [Server.setStream]
  rw [hsame]
  exact h.setStream hheld none

theorem Inv.step {a : Step V} (hstep : s.step r names a = some s') : Inv r names s' := by
  cases a with
  | recv i =>
    simp only [Server.step] at hstep
    split at hstep
    · next hphase =>
      cases hstep
      exact h.setStream ((h.held i).request hphase) s.condMu
    · cases hstep
  | register i =>
    simp only [Server.step] at hstep
    split at hstep
    · next hphase _ =>
      cases hstep
      exact h.register hphase
    · cases hstep
  | send i =>
    simp only [Server.step] at hstep
    split at hstep
    · next hphase => exact h.send hphase hstep
    · cases hstep
  | receive i =>
    simp only [Server.step] at hstep
    split at hstep
    · next hphase hchannel =>
      cases hstep
      exact h.setStream ((h.held i).receive hphase hchannel) s.condMu
    · cases hstep
  | read i ord =>
    simp only [Server.step] at hstep
    split at hstep
    · next hphase _ =>
      cases hstep
      exact h.setStream ((h.held i).read hphase fun _ => ⟨ord, rfl⟩) s.condMu
    · cases hstep
  | respond i =>
    simp only [Server.step] at hstep
    split at hstep
    · next hphase =>
      cases hstep
      exact h.setStream ((h.held i).response hphase) s.condMu
    · cases hstep
  | terminate i =>
    simp only [Server.step] at hstep
    split at hstep
    case h_4 => cases hstep
    all_goals
      cases hstep
      exact h.setStream (h.held i).terminate s.condMu
  | update values =>
    simp only [Server.step] at hstep
    split at hstep
    · next hidle =>
      cases hstep
      exact h.update hidle values
    · cases hstep
  | notify =>
    simp only [Server.step] at hstep
    split at hstep
    · next hreplaced _ =>
      cases hstep
      exact h.notify hreplaced
    · cases hstep
  | wake =>
    simp only [Server.step] at hstep
    split at hstep
    · next hnotifying => exact h.wake hnotifying hstep
    · cases hstep
  | finish =>
    simp only [Server.step] at hstep
    split at hstep
    · next hnotifying =>
      cases hstep
      exact h.finish hnotifying
    · cases hstep

/-- Whoever sends next finds the channel empty. -/
structure NeverBlocks (s : Server V M) : Prop where
  register : ∀ i, (s.streams i).phase = .sending → (s.streams i).channel = none
  notify : ∀ hints waiter rest, s.updating = .notifying hints (waiter :: rest) →
    waiter.interested hints → (s.streams waiter.ch).channel = none

theorem Inv.neverBlocks : s.NeverBlocks where
  register i hphase := ((h.held i).send hphase).1
  notify hints waiter rest hnotifying _ := by
    have hheld := h.held waiter.ch
    rw [hnotifying] at hheld
    have hplace : placeOf (Updating.notifying hints (waiter :: rest)).rest s.cond.waiters
        waiter.ch = .notifying := placeOf_cons_self
    rw [hplace] at hheld
    exact hheld.wake.1

omit h

end Server

open Server

/-- In every run, no send blocks and the versions on a stream increase. While no update
is in progress, a stream in the select whose channel is empty has responded with what the
cache has. -/
theorem streams_upToDate {V M : Type} {r : Resource V M} {names : Nat → List String} {values : V}
    {s : Server V M} (hreach : (serve r names values).Reachable s) :
    s.NeverBlocks ∧
    (∀ i, ((s.streams i).responses.map (·.versionInfo)).Pairwise (· > ·)) ∧
    (s.updating = .idle → ∀ i, (s.streams i).phase = .select → (s.streams i).channel = none →
      ∃ response rest, (s.streams i).responses = response :: rest ∧
        ∃ ord, response.resources = r.answer ord s.values (names i)) := by
  have hinv : s.Inv r names := hreach.invariant (inv_init values) fun h _ => h.step
  refine ⟨hinv.neverBlocks, fun i => (hinv.held i).versions, ?_⟩
  intro hidle i hphase hchannel
  have hplace : placeOf s.updating.rest s.cond.waiters i ≠ .notifying := by
    rw [hidle]
    exact placeOf_nil_ne_notifying
  obtain ⟨resources, rest, hresponses, hfresh⟩ :=
    (hinv.held i).upToDate hinv.nonneg hplace hphase hchannel
  refine ⟨_, rest, hresponses, hfresh ?_⟩
  rw [hidle]
  simp

/-- The first stream waits when the routes are replaced. The second one registers
between the replacement and `Notify`, so its first response has an old version, and it is
answered once more. -/
def lateRegistration : List (Step (Map String RouteConfiguration)) :=
  [.recv 0, .register 0, .send 0, .receive 0, .read 0 .storage, .respond 0, .recv 0, .register 0,
    .update ((∅ : Map String RouteConfiguration).insert "a" { name := "a" }), .recv 1, .register 1,
    .send 1, .notify, .wake, .finish, .receive 0, .read 0 .storage, .respond 0, .recv 0,
    .register 0, .receive 1, .read 1 .storage, .respond 1, .recv 1, .register 1, .send 1,
    .receive 1, .read 1 .storage, .respond 1, .recv 1, .register 1]

/-- The requests of the second stream are for a configuration that is not there. -/
def someNames (i : Nat) : List String := if i = 1 then ["b"] else []

theorem late_registration_upToDate :
    ∃ s : Server (Map String RouteConfiguration) RouteConfiguration,
    (serve routeCache someNames ∅).Reachable s ∧
    ((s.streams 0).responses.map (·.versionInfo) = [1, 0] ∧
      (s.streams 1).responses.map (·.versionInfo) = [1, 0]) ∧
    ∀ i < 2, ∃ response rest, (s.streams i).responses = response :: rest ∧
      ∀ ord, response.resources = routeCache.answer ord s.values (someNames i) := by
  have hrun : ∃ s, (serve routeCache someNames ∅).ReachableBy (fun _ _ => True) s ∧
      ((s.streams 0).responses.map (·.versionInfo) = [1, 0] ∧
        (s.streams 1).responses.map (·.versionInfo) = [1, 0]) ∧ s.updating = .idle ∧
      (∀ i < 2, (s.streams i).phase = .select ∧ (s.streams i).channel = none) ∧
      ∀ e ∈ s.values.toList, e.2.name = e.1 :=
    Machine.exists_reachableBy lateRegistration (by decide +kernel)
  obtain ⟨s, hreach, hversions, hidle, hselect, hnames⟩ := hrun
  refine ⟨s, hreach, hversions, fun i hi => ?_⟩
  obtain ⟨hphase, hchannel⟩ := hselect i hi
  obtain ⟨response, rest, hresponses, ord, hresources⟩ :=
    (streams_upToDate hreach).2.2 hidle i hphase hchannel
  refine ⟨response, rest, hresponses, fun ord' => hresources.trans ?_⟩
  have hkeyed : Keyed RouteConfiguration.name ∅ s.values :=
    { named := fun k m hk => hnames (k, m) (Map.mem_toList.mpr hk)
      staticNamed := fun k m hk => by cases hk
      disjoint := fun k m hk => rfl }
  unfold Resource.answer
  split
  · exact contents_orderFree hkeyed ord ord'
  · rfl

end Sesame.Xds
