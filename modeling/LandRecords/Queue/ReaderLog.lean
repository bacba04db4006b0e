import LandRecords.Queue.Port
import Mathlib

/-! A queue as the only consumer of each group sees it: streams that grow, and per group the
part that was read and what of it is pending. A driver refines it under the names that it gives
the entries, so two drivers that refine it cannot be told apart. -/
namespace LandRecords.Queue

open Text

structure Place where
  index : ℕ
  deliveryCount : ℕ

def Place.again (place : Place) : Place := { place with deliveryCount := place.deliveryCount + 1 }

structure Reader where
  cursor : ℕ
  pending : List Place

inductive Start where
  | beginning
  | end

def Start.text : Start → Text
  | .beginning => "0".toList
  | .end => "$".toList

structure ReaderLog (δ : Type) where
  messages : Text → List δ
  readers : Text × Text → Option Reader

namespace Reader

def start : Reader := ⟨0, []⟩

/-- The pending entries again, or the next ones if there are none. -/
def read (length count : ℕ) (reader : Reader) : List Place × Reader :=
  if reader.pending ≠ [] then
    let again := (reader.pending.take count).map Place.again
    (again, { reader with pending := again ++ reader.pending.drop count })
  else
    let new := (List.range' reader.cursor (min count (length - reader.cursor))).map (Place.mk · 1)
    (new, ⟨reader.cursor + new.length, new⟩)

def ack (index : ℕ) (reader : Reader) : Reader :=
  { reader with pending := reader.pending.filter (·.index ≠ index) }

structure Sound (length : ℕ) (reader : Reader) : Prop where
  cursor_le : reader.cursor ≤ length
  sorted : reader.pending.Pairwise (·.index < ·.index)
  read : ∀ place ∈ reader.pending, place.index < reader.cursor

variable {length count : ℕ} {reader : Reader}

theorem Sound.mono (h : reader.Sound length) {longer : ℕ} (hle : length ≤ longer) :
    reader.Sound longer :=
  { h with cursor_le := h.cursor_le.trans hle }

theorem Sound.ack (h : reader.Sound length) (index : ℕ) : (reader.ack index).Sound length where
  cursor_le := h.cursor_le
  sorted := h.sorted.filter _
  read place hplace := h.read place (List.mem_of_mem_filter hplace)

theorem Sound.next (h : reader.Sound length) (count : ℕ) : (reader.read length count).2.Sound length := by
  unfold Reader.read
  split
  · have hindexes : ((reader.pending.take count).map Place.again ++ reader.pending.drop count).map
        Place.index = reader.pending.map Place.index := by
      conv_rhs => rw [← List.take_append_drop count reader.pending]
      rw [List.map_append, List.map_append, List.map_map]
      rfl
    refine ⟨h.cursor_le, ?_, fun place hplace => ?_⟩
    · rw [← List.pairwise_map (R := (· < ·)), hindexes]
      exact List.pairwise_map.mpr h.sorted
    · have hmem := List.mem_map_of_mem (f := Place.index) hplace
      rw [hindexes] at hmem
      obtain ⟨old, hold, hindex⟩ := List.mem_map.mp hmem
      exact hindex ▸ h.read old hold
  · refine ⟨?_, ?_, fun place hplace => ?_⟩
    · have := h.cursor_le
      simp only [List.length_map, List.length_range']
      omega
    · exact List.pairwise_map.mpr List.pairwise_lt_range'
    · obtain ⟨index, hindex, rfl⟩ := List.mem_map.mp hplace
      simp only [List.length_map, List.length_range']
      exact (List.mem_range'_1.mp hindex).2

end Reader

namespace ReaderLog

variable {δ : Type}

def empty : ReaderLog δ := ⟨fun _ => [], fun _ => none⟩

/-- The reader of a group, or the one that its first `consume` creates. -/
def readerOf (log : ReaderLog δ) (queue group : Text) : Reader :=
  (log.readers (queue, group)).getD Reader.start

def withReader (queue group : Text) (reader : Reader) (log : ReaderLog δ) : ReaderLog δ :=
  { log with readers := Function.update log.readers (queue, group) (some reader) }

def publish (queue : Text) (message : δ) (log : ReaderLog δ) : ReaderLog δ :=
  { log with messages := Function.update log.messages queue (log.messages queue ++ [message]) }

def ensureGroup (queue group : Text) (start : Start) (log : ReaderLog δ) : ReaderLog δ :=
  match log.readers (queue, group), start with
  | some _, _ => log
  | none, .beginning => log.withReader queue group Reader.start
  | none, .end => log.withReader queue group ⟨(log.messages queue).length, []⟩

def consume (queue group : Text) (count : ℕ) (log : ReaderLog δ) : List Place × ReaderLog δ :=
  let read := (log.readerOf queue group).read (log.messages queue).length count
  (read.1, log.withReader queue group read.2)

def ack (queue group : Text) (index : ℕ) (log : ReaderLog δ) : ReaderLog δ :=
  match log.readers (queue, group) with
  | none => log
  | some reader => log.withReader queue group (reader.ack index)

variable {log : ReaderLog δ} {queue group : Text} {reader : Reader}

@[simp] theorem readerOf_withReader :
    (log.withReader queue group reader).readerOf queue group = reader := by
  simp [readerOf, withReader]

theorem readerOf_withReader_of_ne {key : Text × Text} (hne : key ≠ (queue, group)) :
    (log.withReader queue group reader).readerOf key.1 key.2 = log.readerOf key.1 key.2 := by
  simp only [readerOf, withReader, Function.update_of_ne hne]

theorem readers_withReader :
    (log.withReader queue group reader).readers = Function.update log.readers (queue, group) (some reader) :=
  rfl

theorem ensureGroup_beginning : log.ensureGroup queue group .beginning =
    log.withReader queue group (log.readerOf queue group) := by
  unfold ensureGroup readerOf
  cases hreader : log.readers (queue, group) with
  | none => rfl
  | some reader =>
    simp only [withReader, Option.getD_some]
    rw [← hreader, Function.update_eq_self]

def Sound (log : ReaderLog δ) : Prop :=
  ∀ queue group, (log.readerOf queue group).Sound (log.messages queue).length

theorem sound_empty : (empty : ReaderLog δ).Sound :=
  fun _ _ => ⟨Nat.le_refl _, .nil, fun _ h => nomatch h⟩

theorem Sound.withReader (h : log.Sound) (hreader : reader.Sound (log.messages queue).length) :
    (log.withReader queue group reader).Sound := by
  intro queue' group'
  by_cases hkey : (queue', group') = (queue, group)
  · obtain ⟨rfl, rfl⟩ := hkey
    rw [readerOf_withReader]
    exact hreader
  · rw [readerOf_withReader_of_ne hkey]
    exact h queue' group'

theorem Sound.publish (h : log.Sound) (queue : Text) (message : δ) :
    (log.publish queue message).Sound := by
  intro queue' group
  refine (h queue' group).mono ?_
  by_cases hqueue : queue' = queue
  · subst hqueue
    simp [ReaderLog.publish]
  · simp [ReaderLog.publish, hqueue]

theorem Sound.ensureGroup (h : log.Sound) (queue group : Text) (start : Start) :
    (log.ensureGroup queue group start).Sound := by
  unfold ReaderLog.ensureGroup
  split
  · exact h
  · exact h.withReader ⟨Nat.zero_le _, .nil, fun _ h => absurd h List.not_mem_nil⟩
  · exact h.withReader ⟨Nat.le_refl _, .nil, fun _ h => absurd h List.not_mem_nil⟩

theorem Sound.consume (h : log.Sound) (queue group : Text) (count : ℕ) :
    (log.consume queue group count).2.Sound :=
  h.withReader ((h queue group).next count)

theorem Sound.ack (h : log.Sound) (queue group : Text) (index : ℕ) :
    (log.ack queue group index).Sound := by
  unfold ReaderLog.ack
  split
  · exact h
  · rename_i reader hreader
    have hsound := h queue group
    rw [readerOf, hreader] at hsound
    exact h.withReader (hsound.ack index)

theorem readerOf_ack (log : ReaderLog δ) (queue group : Text) (index : ℕ) :
    (log.ack queue group index).readerOf queue group = (log.readerOf queue group).ack index := by
  unfold ReaderLog.ack
  split
  · rename_i hnone
    rw [readerOf, hnone]
    rfl
  · rename_i reader hreader
    rw [readerOf_withReader, readerOf, hreader]
    rfl

theorem readerOf_ack_of_ne {key : Text × Text} (hne : key ≠ (queue, group)) (index : ℕ) :
    (log.ack queue group index).readerOf key.1 key.2 = log.readerOf key.1 key.2 := by
  unfold ReaderLog.ack
  split
  · rfl
  · exact readerOf_withReader_of_ne hne

end ReaderLog

/-! ## Clients -/

/-- The calls of clients with one consumer per group. An entry is acked by its place among the
published ones. -/
inductive ClientCall (δ : Type)
  | publish (queue : Text) (message : δ)
  | ensureGroup (queue group : Text) (start : Start)
  | consume (queue group : Text) (count : ℕ+)
  | ack (queue group : Text) (index : ℕ)

structure Client (σ δ : Type) where
  state : σ
  published : Text → List (Text × δ)

section Runs

variable {σ σ' δ : Type} (port : QueuePort σ δ) (consumerOf : Text × Text → Text)

/-- One call, and what a `consume` returns of its queue. -/
def QueuePort.call (client : Client σ δ) :
    ClientCall δ → List (Text × List (QueueMessage δ)) × Client σ δ
  | .publish queue message =>
      let published := port.publish queue message client.state
      ([], { state := published.2
             published := Function.update client.published queue
               (client.published queue ++ [(published.1, message)]) })
  | .ensureGroup queue group start =>
      ([], { client with state := port.ensureGroup queue group start.text client.state })
  | .consume queue group count =>
      let consumed := port.consume queue group (consumerOf (queue, group)) count client.state
      ([(queue, consumed.1)], { client with state := consumed.2 })
  | .ack queue group index =>
      match (client.published queue)[index]? with
      | none => ([], client)
      | some entry => ([], { client with state := port.ack queue group entry.1 client.state })

def QueuePort.runCalls (client : Client σ δ) :
    List (ClientCall δ) → List (Text × List (QueueMessage δ)) × Client σ δ
  | [] => ([], client)
  | call :: rest =>
      let called := port.call consumerOf client call
      let later := runCalls called.2 rest
      (called.1 ++ later.1, later.2)

def Names (entries : List (Text × δ)) (place : Place) (message : QueueMessage δ) : Prop :=
  entries[place.index]? = some (message.sequenceId, message.data) ∧
    message.deliveryCount = place.deliveryCount

/-- Under `R` the driver does with its entries what the log does with their places. -/
structure Refines (R : σ → (Text → List (Text × δ)) → ReaderLog δ → Prop) : Prop where
  publish : ∀ {s published log}, R s published log → ∀ queue message,
    R (port.publish queue message s).2 (Function.update published queue
      (published queue ++ [((port.publish queue message s).1, message)])) (log.publish queue message)
  ensureGroup : ∀ {s published log}, R s published log → ∀ queue group start,
    R (port.ensureGroup queue group start.text s) published (log.ensureGroup queue group start)
  consume : ∀ {s published log}, R s published log → ∀ queue group (count : ℕ+),
    let consumed := port.consume queue group (consumerOf (queue, group)) count s
    List.Forall₂ (Names (published queue)) (log.consume queue group count).1 consumed.1 ∧
      R consumed.2 published (log.consume queue group count).2
  ack : ∀ {s published log}, R s published log → ∀ queue group index entry,
    (published queue)[index]? = some entry →
    R (port.ack queue group entry.1 s) published (log.ack queue group index)

structure SameEntry (entries entries' : List (Text × δ)) (message message' : QueueMessage δ) :
    Prop where
  data : message.data = message'.data
  deliveryCount : message.deliveryCount = message'.deliveryCount
  renamed : ∃ index : ℕ, (entries[index]?).map Prod.fst = some message.sequenceId ∧
    (entries'[index]?).map Prod.fst = some message'.sequenceId

def SameReturns (run : List (Text × List (QueueMessage δ)) × Client σ δ)
    (run' : List (Text × List (QueueMessage δ)) × Client σ' δ) : Prop :=
  List.Forall₂ (fun returned returned' => returned.1 = returned'.1 ∧
    List.Forall₂ (SameEntry (run.2.published returned.1) (run'.2.published returned.1))
      returned.2 returned'.2) run.1 run'.1

variable {port} {port' : QueuePort σ' δ} {consumerOf} {consumerOf' : Text × Text → Text}
  {R : σ → (Text → List (Text × δ)) → ReaderLog δ → Prop}
  {R' : σ' → (Text → List (Text × δ)) → ReaderLog δ → Prop} {client : Client σ δ}
  {client' : Client σ' δ} {log : ReaderLog δ} {entries entries' : List (Text × δ)}

theorem getElem?_extended {α : Type} {xs ys : List α} (h : xs <+: ys) {i : ℕ} {a : α}
    (ha : xs[i]? = some a) : ys[i]? = some a := by
  obtain ⟨later, rfl⟩ := h
  rw [List.getElem?_append_left (List.getElem?_eq_some_iff.mp ha).1, ha]

theorem Names.grow {place : Place} {message : QueueMessage δ} {later : List (Text × δ)}
    (h : Names entries place message) (hlater : entries <+: later) : Names later place message :=
  ⟨getElem?_extended hlater h.1, h.2⟩

theorem SameEntry.grow {message message' : QueueMessage δ} {later later' : List (Text × δ)}
    (h : SameEntry entries entries' message message') (hlater : entries <+: later)
    (hlater' : entries' <+: later') : SameEntry later later' message message' := by
  obtain ⟨index, hid, hid'⟩ := h.renamed
  rw [← List.getElem?_map] at hid hid'
  refine ⟨h.data, h.deliveryCount, index, ?_, ?_⟩
  · rw [← List.getElem?_map]
    exact getElem?_extended (hlater.map _) hid
  · rw [← List.getElem?_map]
    exact getElem?_extended (hlater'.map _) hid'

theorem published_call (port : QueuePort σ δ) (consumerOf : Text × Text → Text)
    (client : Client σ δ) (call : ClientCall δ) (queue : Text) :
    client.published queue <+: (port.call consumerOf client call).2.published queue := by
  cases call with
  | publish name message =>
    by_cases hqueue : queue = name
    · subst hqueue
      simp [QueuePort.call]
    · simp [QueuePort.call, hqueue]
  | ensureGroup => exact List.prefix_refl _
  | consume => exact List.prefix_refl _
  | ack name group index =>
    simp only [QueuePort.call]
    split
    · exact List.prefix_refl _
    · exact List.prefix_refl _

theorem published_runCalls (port : QueuePort σ δ) (consumerOf : Text × Text → Text)
    (client : Client σ δ) (calls : List (ClientCall δ)) (queue : Text) :
    client.published queue <+: (port.runCalls consumerOf client calls).2.published queue := by
  induction calls generalizing client with
  | nil => exact List.prefix_refl _
  | cons call rest ih => exact (published_call port consumerOf client call queue).trans (ih _)

theorem Names.id_eq_iff {place : Place} {message : QueueMessage δ} (h : Names entries place message)
    (hdistinct : (entries.map Prod.fst).Nodup) {index : ℕ} {entry : Text × δ}
    (hentry : entries[index]? = some entry) :
    message.sequenceId = entry.1 ↔ place.index = index := by
  have hid : (entries.map Prod.fst)[place.index]? = some message.sequenceId := by
    rw [List.getElem?_map, h.1]
    rfl
  have hidEntry : (entries.map Prod.fst)[index]? = some entry.1 := by
    rw [List.getElem?_map, hentry]
    rfl
  constructor
  · intro hsame
    have hplace := (List.getElem?_eq_some_iff.mp hid).1
    rw [hsame, ← hidEntry] at hid
    exact (List.getElem?_inj hplace hdistinct).mp hid
  · intro hindex
    rw [hindex, hidEntry] at hid
    exact (Option.some.inj hid).symm

theorem sameEntry_of_names {place : Place} {message message' : QueueMessage δ}
    (hdata : entries.map Prod.snd = entries'.map Prod.snd) (h : Names entries place message)
    (h' : Names entries' place message') : SameEntry entries entries' message message' := by
  refine ⟨?_, h.2.trans h'.2.symm, place.index, by rw [h.1]; rfl, by rw [h'.1]; rfl⟩
  have hplace : (entries.map Prod.snd)[place.index]? = (entries'.map Prod.snd)[place.index]? := by
    rw [hdata]
  rw [List.getElem?_map, List.getElem?_map, h.1, h'.1] at hplace
  exact Option.some.inj hplace

theorem forall₂_of_common {α β γ : Type} {P : α → β → Prop} {Q : α → γ → Prop} {S : β → γ → Prop}
    {xs : List α} {ys : List β} {zs : List γ} (h : List.Forall₂ P xs ys) (h' : List.Forall₂ Q xs zs)
    (himp : ∀ {x y z}, P x y → Q x z → S y z) : List.Forall₂ S ys zs := by
  induction h generalizing zs with
  | nil =>
    cases h'
    exact .nil
  | cons hxy _ ih =>
    cases h' with
    | cons hxz hrest => exact .cons (himp hxy hxz) (ih hrest)

theorem forall₂_mem_right {α β : Type} {P : α → β → Prop} {xs : List α} {ys : List β}
    (h : List.Forall₂ P xs ys) {y : β} (hy : y ∈ ys) : ∃ x, P x y := by
  induction h with
  | nil => cases hy
  | cons hxy _ ih =>
    rcases List.mem_cons.mp hy with rfl | hrest
    · exact ⟨_, hxy⟩
    · exact ih hrest

theorem forall₂_imp_mem {α β : Type} {P Q : α → β → Prop} {xs : List α} {ys : List β}
    (h : List.Forall₂ P xs ys) (himp : ∀ x, ∀ y ∈ ys, P x y → Q x y) : List.Forall₂ Q xs ys := by
  induction h with
  | nil => exact .nil
  | cons hxy _ ih =>
    exact .cons (himp _ _ List.mem_cons_self hxy)
      (ih fun x y hy => himp x y (List.mem_cons_of_mem _ hy))

theorem forall₂_places {α : Type} (stream : List α) (cursor count : ℕ) :
    List.Forall₂ (fun index a => stream[index]? = some a)
      (List.range' cursor ((stream.drop cursor).take count).length)
      ((stream.drop cursor).take count) := by
  rw [List.forall₂_iff_get]
  refine ⟨by simp, fun i hi hi' => ?_⟩
  simp only [List.get_eq_getElem, List.getElem_range', one_mul, List.getElem_take, List.getElem_drop]
  rw [List.getElem?_eq_getElem]

theorem call_alike (h : Refines port consumerOf R) (h' : Refines port' consumerOf' R')
    (hR : R client.state client.published log) (hR' : R' client'.state client'.published log)
    (hdata : ∀ queue, (client.published queue).map Prod.snd = (client'.published queue).map Prod.snd)
    (call : ClientCall δ) :
    let called := port.call consumerOf client call
    let called' := port'.call consumerOf' client' call
    SameReturns called called' ∧
      (∀ queue, (called.2.published queue).map Prod.snd = (called'.2.published queue).map Prod.snd) ∧
      ∃ later, R called.2.state called.2.published later ∧
        R' called'.2.state called'.2.published later := by
  cases call with
  | publish queue message =>
    refine ⟨.nil, fun queue' => ?_, _, h.publish hR queue message, h'.publish hR' queue message⟩
    by_cases hqueue : queue' = queue
    · subst hqueue
      simp [QueuePort.call, hdata]
    · simpa [QueuePort.call, hqueue] using hdata queue'
  | ensureGroup queue group start =>
    exact ⟨.nil, hdata, _, h.ensureGroup hR queue group start, h'.ensureGroup hR' queue group start⟩
  | consume queue group count =>
    obtain ⟨hnames, hnext⟩ := h.consume hR queue group count
    obtain ⟨hnames', hnext'⟩ := h'.consume hR' queue group count
    refine ⟨.cons ⟨rfl, ?_⟩ .nil, hdata, _, hnext, hnext'⟩
    exact forall₂_of_common hnames hnames' fun hname hname' =>
      sameEntry_of_names (hdata queue) hname hname'
  | ack queue group index =>
    have hsome : ((client.published queue)[index]?).map Prod.snd =
        ((client'.published queue)[index]?).map Prod.snd := by
      rw [← List.getElem?_map, ← List.getElem?_map, hdata]
    cases hentry : (client.published queue)[index]? with
    | none =>
      have hentry' : (client'.published queue)[index]? = none := by
        rw [hentry] at hsome
        simpa using hsome.symm
      simp only [QueuePort.call, hentry, hentry']
      exact ⟨.nil, hdata, log, hR, hR'⟩
    | some entry =>
      obtain ⟨entry', hentry'⟩ : ∃ entry', (client'.published queue)[index]? = some entry' := by
        rw [hentry] at hsome
        obtain ⟨entry', hentry', -⟩ := Option.map_eq_some_iff.mp hsome.symm
        exact ⟨entry', hentry'⟩
      simp only [QueuePort.call, hentry, hentry']
      exact ⟨.nil, hdata, _, h.ack hR queue group index entry hentry,
        h'.ack hR' queue group index entry' hentry'⟩

/-- Two drivers that refine one log return the same over every sequence of calls. -/
theorem runCalls_alike (h : Refines port consumerOf R) (h' : Refines port' consumerOf' R')
    (hR : R client.state client.published log) (hR' : R' client'.state client'.published log)
    (hdata : ∀ queue, (client.published queue).map Prod.snd = (client'.published queue).map Prod.snd)
    (calls : List (ClientCall δ)) :
    let run := port.runCalls consumerOf client calls
    let run' := port'.runCalls consumerOf' client' calls
    SameReturns run run' ∧ ∃ later, R run.2.state run.2.published later ∧
      R' run'.2.state run'.2.published later := by
  induction calls generalizing client client' log with
  | nil => exact ⟨.nil, log, hR, hR'⟩
  | cons call rest ih =>
    obtain ⟨hreturns, hdataNext, next, hnext, hnext'⟩ := call_alike h h' hR hR' hdata call
    obtain ⟨hlater, hfinal⟩ := ih hnext hnext' hdataNext
    refine ⟨List.rel_append (hreturns.imp fun returned returned' hsame => ?_) hlater, hfinal⟩
    refine ⟨hsame.1, hsame.2.imp fun message message' hentry => ?_⟩
    exact hentry.grow (published_runCalls port consumerOf _ rest _)
      (published_runCalls port' consumerOf' _ rest _)

end Runs

end LandRecords.Queue
