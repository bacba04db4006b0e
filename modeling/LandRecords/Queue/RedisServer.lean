import LandRecords.Queue.Port
import Mathlib

/-! Redis streams as documented: entries by increasing id, and per consumer group the
id it has read up to and its pending entries. The server behind the client is a
parameter that follows this description. -/
namespace LandRecords.Queue

open Text

structure StreamId where
  ms : Nat
  seq : Nat
deriving DecidableEq

namespace StreamId

def key (id : StreamId) : Nat ×ₗ Nat := toLex (id.ms, id.seq)

theorem key_injective : Function.Injective key := by
  rintro ⟨ms, seq⟩ ⟨ms', seq'⟩ h
  exact StreamId.mk.injEq .. ▸ Prod.mk.inj (toLex_inj.mp h)

instance : LinearOrder StreamId := LinearOrder.lift' key key_injective

theorem lt_iff {a b : StreamId} : a < b ↔ a.ms < b.ms ∨ a.ms = b.ms ∧ a.seq < b.seq :=
  Prod.Lex.toLex_lt_toLex

/-- `ms-seq`. -/
def text (id : StreamId) : Text := (toString id.ms).toList ++ '-' :: (toString id.seq).toList

def number (t : Text) : Option Nat :=
  if t ≠ [] ∧ t.all Char.isDigit then some (Nat.ofDigitChars 10 t 0) else none

/-- An id without a sequence number stands for its first one. -/
def parse (t : Text) : Option StreamId :=
  match t.dropWhile (· ≠ '-') with
  | [] => (number t).map fun ms => ⟨ms, 0⟩
  | _ :: seq => (number (t.takeWhile (· ≠ '-'))).bind fun ms =>
      (number seq).map fun seq => ⟨ms, seq⟩

theorem toList_toString (n : Nat) : (toString n).toList = Nat.toDigits 10 n := by
  simp [toString, Nat.repr_eq_ofList_toDigits]

theorem number_toString (n : Nat) : number (toString n).toList = some n := by
  rw [toList_toString]
  have hdigits : (Nat.toDigits 10 n).all Char.isDigit = true :=
    List.all_eq_true.mpr fun _ hc => Nat.isDigit_of_mem_toDigits (by decide) (by decide) hc
  rw [number, if_pos ⟨Nat.toDigits_ne_nil, hdigits⟩, Nat.ofDigitChars_ten_toDigits]

theorem parse_text (id : StreamId) : parse id.text = some id := by
  have hms : ∀ c ∈ (toString id.ms).toList, decide (c ≠ '-') = true := by
    intro c hc
    rw [toList_toString] at hc
    have hdigit := Nat.isDigit_of_mem_toDigits (by decide) (by decide) hc
    rw [decide_eq_true_eq]
    rintro rfl
    exact absurd hdigit (by decide)
  have hdrop : id.text.dropWhile (· ≠ '-') = '-' :: (toString id.seq).toList :=
    List.dropWhile_append_of_pos hms
  have htake : id.text.takeWhile (· ≠ '-') = (toString id.ms).toList :=
    (List.takeWhile_append_of_pos hms).trans (List.append_nil _)
  unfold parse
  rw [hdrop, htake]
  simp only [number_toString, Option.bind_some, Option.map_some]

theorem text_injective : Function.Injective text := by
  intro a b h
  exact Option.some.inj (by rw [← parse_text a, ← parse_text b, h])

end StreamId

structure PendingEntry where
  id : StreamId
  consumer : Text
  timesDelivered : Nat
deriving DecidableEq

structure Group where
  lastDelivered : StreamId
  /-- In the order of the ids. -/
  pel : List PendingEntry

structure RedisStreams (δ : Type) where
  entries : Text → List (StreamId × δ)
  groups : Text × Text → Option Group

namespace Group

variable {δ : Type}

def assign (consumer : Text) (pel : List PendingEntry) (id : StreamId) : List PendingEntry :=
  pel.filter (·.id < id) ++ ⟨id, consumer, 1⟩ :: pel.filter (id < ·.id)

def unread (stream : List (StreamId × δ)) (g : Group) : List (StreamId × δ) :=
  stream.filter (g.lastDelivered < ·.1)

/-- `XREADGROUP` with `>`. -/
def readNew (stream : List (StreamId × δ)) (consumer : Text) (count : Nat) (g : Group) :
    List (StreamId × Option δ) × Group :=
  let new := (g.unread stream).take count
  (new.map fun entry => (entry.1, some entry.2),
    { lastDelivered := (new.getLast?.map Prod.fst).getD g.lastDelivered
      pel := new.foldl (fun pel entry => assign consumer pel entry.1) g.pel })

def ownedBy (consumer : Text) (g : Group) : List PendingEntry :=
  g.pel.filter (·.consumer = consumer)

def fieldsOf (stream : List (StreamId × δ)) (id : StreamId) : Option δ :=
  (stream.find? (·.1 = id)).map Prod.snd

/-- `XREADGROUP` with an id: the pending entries of this consumer after the id. An
entry that has been deleted from the stream comes without its fields. -/
def readPending (stream : List (StreamId × δ)) (consumer : Text) (after : StreamId) (count : Nat)
    (g : Group) : List (StreamId × Option δ) × Group :=
  let own := ((g.ownedBy consumer).filter (after < ·.id)).take count
  let redeliver (entry : PendingEntry) : PendingEntry :=
    if entry ∈ own ∧ (fieldsOf stream entry.id).isSome then
      { entry with timesDelivered := entry.timesDelivered + 1 }
    else entry
  (own.map fun entry => (entry.id, fieldsOf stream entry.id),
    { g with pel := g.pel.map redeliver })

end Group

namespace RedisStreams

variable {δ : Type}

def empty : RedisStreams δ := ⟨fun _ => [], fun _ => none⟩

def lastId (stream : List (StreamId × δ)) : StreamId :=
  (stream.getLast?.map Prod.fst).getD ⟨0, 0⟩

def nextId (now : Nat) (last : StreamId) : StreamId :=
  if last.ms < now then ⟨now, 0⟩ else ⟨last.ms, last.seq + 1⟩

def xadd (now : Nat) (key : Text) (fields : δ) (s : RedisStreams δ) : Text × RedisStreams δ :=
  let id := nextId now (lastId (s.entries key))
  (id.text, { s with entries := Function.update s.entries key (s.entries key ++ [(id, fields)]) })

/-- `$` is the end of the stream. -/
def position (stream : List (StreamId × δ)) (id : Text) : Option StreamId :=
  if id = "$".toList then some (lastId stream) else StreamId.parse id

/-- `XGROUP CREATE` with `MKSTREAM`. A group that exists makes it an error. -/
def xgroupCreate (key group id : Text) (s : RedisStreams δ) : RedisStreams δ :=
  match s.groups (key, group), position (s.entries key) id with
  | none, some start =>
      { s with groups := Function.update s.groups (key, group) (some ⟨start, []⟩) }
  | _, _ => s

def xreadgroup (group consumer key id : Text) (count : Nat) (s : RedisStreams δ) :
    List (Text × Option δ) × RedisStreams δ :=
  match s.groups (key, group) with
  | none => ([], s)
  | some g =>
      let read :=
        if id = ">".toList then g.readNew (s.entries key) consumer count
        else
          match StreamId.parse id with
          | none => ([], g)
          | some after => g.readPending (s.entries key) consumer after count
      (read.1.map fun entry => (entry.1.text, entry.2),
        { s with groups := Function.update s.groups (key, group) (some read.2) })

def xack (key group id : Text) (s : RedisStreams δ) : RedisStreams δ :=
  match s.groups (key, group), StreamId.parse id with
  | some g, some acked => { s with
      groups := Function.update s.groups (key, group)
        (some { g with pel := g.pel.filter (·.id ≠ acked) }) }
  | _, _ => s

/-- `XPENDING` over a range of ids: id, consumer and delivery counter. -/
def xpendingRange (key group min max : Text) (count : Nat) (s : RedisStreams δ) :
    List (Text × Text × Nat) :=
  match s.groups (key, group), StreamId.parse min, StreamId.parse max with
  | some g, some lo, some hi =>
      ((g.pel.filter fun entry => lo ≤ entry.id ∧ entry.id ≤ hi).take count).map fun entry =>
        (entry.id.text, entry.consumer, entry.timesDelivered)
  | _, _, _ => []

def xgroupSetid (key group id : Text) (s : RedisStreams δ) : RedisStreams δ :=
  match s.groups (key, group), position (s.entries key) id with
  | some g, some start => { s with
      groups := Function.update s.groups (key, group) (some { g with lastDelivered := start }) }
  | _, _ => s

end RedisStreams

/-- The commands that the driver sends, on the state of the server. -/
structure StreamServer (R δ : Type) where
  xadd (key : Text) (fields : δ) : R → Text × R
  xgroupCreate (key group id : Text) : R → R
  xreadgroup (group consumer key id : Text) (count : Nat) : R → List (Text × Option δ) × R
  xack (key group id : Text) : R → R
  xpendingRange (key group min max : Text) (count : Nat) : R → List (Text × Text × Nat)
  xgroupSetid (key group id : Text) : R → R

/-- The server does what is documented of these commands, read off its state by
`view`. The clock is its own. -/
structure StreamServer.Follows {R δ : Type} (server : StreamServer R δ)
    (view : R → RedisStreams δ) : Prop where
  xadd : ∀ key fields r, ∃ now,
    (server.xadd key fields r).1 = (RedisStreams.xadd now key fields (view r)).1 ∧
      view (server.xadd key fields r).2 = (RedisStreams.xadd now key fields (view r)).2
  xgroupCreate : ∀ key group id r,
    view (server.xgroupCreate key group id r) = RedisStreams.xgroupCreate key group id (view r)
  xreadgroup : ∀ group consumer key id count r,
    (server.xreadgroup group consumer key id count r).1 =
        (RedisStreams.xreadgroup group consumer key id count (view r)).1 ∧
      view (server.xreadgroup group consumer key id count r).2 =
        (RedisStreams.xreadgroup group consumer key id count (view r)).2
  xack : ∀ key group id r, view (server.xack key group id r) = (view r).xack key group id
  xpendingRange : ∀ key group min max count r,
    server.xpendingRange key group min max count r = (view r).xpendingRange key group min max count
  xgroupSetid : ∀ key group id r,
    view (server.xgroupSetid key group id r) = (view r).xgroupSetid key group id

/-- A server whose clock stands still. -/
def RedisStreams.server (δ : Type) (now : Nat) : StreamServer (RedisStreams δ) δ where
  xadd := xadd now
  xgroupCreate := xgroupCreate
  xreadgroup := xreadgroup
  xack := xack
  xpendingRange := xpendingRange
  xgroupSetid := xgroupSetid

theorem RedisStreams.server_follows (δ : Type) (now : Nat) :
    (RedisStreams.server δ now).Follows id where
  xadd _ _ _ := ⟨now, rfl, rfl⟩
  xgroupCreate _ _ _ _ := rfl
  xreadgroup _ _ _ _ _ _ := ⟨rfl, rfl⟩
  xack _ _ _ _ := rfl
  xpendingRange _ _ _ _ _ _ := rfl
  xgroupSetid _ _ _ _ := rfl

end LandRecords.Queue
