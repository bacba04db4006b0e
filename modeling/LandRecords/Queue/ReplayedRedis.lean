import LandRecords.Queue.Replayed
import LandRecords.Queue.Redelivery

/-! Replays through the Redis Streams driver. Moving the position of a group leaves
its pending entries alone, and the next read returns those first. -/
namespace LandRecords.Queue

open Text

namespace Group

variable {δ : Type} {stream : List (StreamId × δ)} {g : Group} {consumer : Text} {count : Nat}

theorem filter_id_eq {pel : List PendingEntry} (hsorted : pel.Pairwise (·.id < ·.id))
    {entry : PendingEntry} (hentry : entry ∈ pel) :
    pel.filter (fun other => entry.id ≤ other.id ∧ other.id ≤ entry.id) = [entry] := by
  induction pel with
  | nil => exact absurd hentry List.not_mem_nil
  | cons first rest ih =>
    rw [List.pairwise_cons] at hsorted
    rcases List.mem_cons.mp hentry with rfl | hrest
    · have hothers : rest.filter (fun other => entry.id ≤ other.id ∧ other.id ≤ entry.id) = [] := by
        refine List.filter_eq_nil_iff.mpr fun other hother => ?_
        simpa using fun _ => hsorted.1 other hother
      rw [List.filter_cons_of_pos (by simp), hothers]
    · have hfirst : ¬(entry.id ≤ first.id ∧ first.id ≤ entry.id) := fun h =>
        absurd h.1 (not_le.mpr (hsorted.1 entry hrest))
      rw [List.filter_cons_of_neg (by simpa using hfirst), ih hsorted.2 hrest]

theorem filter_split {front back : List (StreamId × δ)} {last : StreamId}
    (hfront : ∀ e ∈ front, e.1 ≤ last) (hback : ∀ e ∈ back, last < e.1) :
    (front ++ back).filter (last < ·.1) = back := by
  rw [List.filter_append]
  have hnone : front.filter (last < ·.1) = [] :=
    List.filter_eq_nil_iff.mpr fun e he => by simpa using hfront e he
  have hall : back.filter (last < ·.1) = back :=
    List.filter_eq_self.mpr fun e he => by simpa using hback e he
  rw [hnone, hall, List.nil_append]

theorem filter_after (hstream : (stream.map Prod.fst).Pairwise (· < ·)) {place : Nat}
    (hplace : place < stream.length) :
    stream.filter (stream[place].1 < ·.1) = stream.drop (place + 1) := by
  have hsplit : (stream.take place ++ [stream[place]]) ++ stream.drop (place + 1) = stream := by
    rw [List.append_assoc, List.singleton_append, ← List.drop_eq_getElem_cons hplace,
      List.take_append_drop]
  have hsorted : stream.Pairwise (·.1 < ·.1) := List.pairwise_map.mp hstream
  rw [← hsplit, List.pairwise_append, List.pairwise_append] at hsorted
  obtain ⟨⟨-, -, hfront⟩, -, hback⟩ := hsorted
  refine (congrArg (List.filter fun e => decide (stream[place].1 < e.1)) hsplit.symm).trans
    (filter_split (fun e he => ?_) fun e he => ?_)
  · rcases List.mem_append.mp he with he | he
    · exact (hfront e he _ (List.mem_singleton_self _)).le
    · rw [List.mem_singleton.mp he]
  · exact hback _ (List.mem_append_right _ (List.mem_singleton_self _)) e he

theorem unread_readNew (hstream : (stream.map Prod.fst).Pairwise (· < ·)) (consumer : Text)
    (count : Nat) (g : Group) :
    (g.readNew stream consumer count).2.unread stream = (g.unread stream).drop count := by
  have hsorted : (g.unread stream).Pairwise (·.1 < ·.1) :=
    (List.pairwise_map.mp hstream).sublist List.filter_sublist
  have hmono := lastDelivered_mono hstream consumer count g
  have hagain : (g.readNew stream consumer count).2.unread stream = (g.unread stream).filter
      ((g.readNew stream consumer count).2.lastDelivered < ·.1) := by
    unfold unread
    rw [List.filter_filter]
    refine List.filter_congr fun e _ => ?_
    rw [Bool.eq_iff_iff]
    simpa using fun h => hmono.trans_lt h
  rw [hagain]
  conv_lhs => rw [← List.take_append_drop count (g.unread stream)]
  rw [← List.take_append_drop count (g.unread stream), List.pairwise_append] at hsorted
  refine filter_split (fun e he => le_lastDelivered hstream he) fun e he => ?_
  cases hnew : ((g.unread stream).take count).getLast? with
  | none =>
    simp only [readNew, hnew, Option.map_none, Option.getD_none]
    have hmem := List.mem_filter.mp (List.mem_of_mem_drop he)
    simpa using hmem.2
  | some last =>
    simp only [readNew, hnew, Option.map_some, Option.getD_some]
    exact hsorted.2.2 last (List.mem_of_getLast? hnew) e he

theorem consume_of_empty (hempty : g.pel = []) :
    g.consume stream consumer count = g.readNew stream consumer count := by
  obtain ⟨last, pel⟩ := g
  cases hempty
  simp [Group.consume, readPending, ownedBy]

theorem pel_readNew_of_empty (hempty : g.pel = []) {entry : PendingEntry} :
    entry ∈ (g.readNew stream consumer count).2.pel ↔
      ∃ e ∈ (g.unread stream).take count, entry = ⟨e.1, consumer, 1⟩ := by
  rw [readNew, hempty, mem_assignAll]
  simp

end Group

namespace RedisStreamsQueue

open RedisStreams

variable {R δ : Type} {server : StreamServer R δ} {view : R → RedisStreams δ}
  {queue group consumerName : Text}

/-- A reply entry with its fields, as the driver returns it: its counter is the one
that the group keeps of it. -/
theorem toMessage_of_pending (h : server.Follows view) {r : R} {g : Group}
    {s : RedisStreams δ} (hview : view r = s.withGroup queue group g)
    (hsorted : g.pel.Pairwise (·.id < ·.id)) {entry : PendingEntry} (hentry : entry ∈ g.pel)
    (data : δ) : toMessage server queue group r (entry.id.text, some data) =
      some ⟨entry.id.text, data, entry.timesDelivered⟩ := by
  have hrange : server.xpendingRange queue group entry.id.text entry.id.text 1 r =
      [(entry.id.text, entry.consumer, entry.timesDelivered)] := by
    rw [h.xpendingRange, hview, xpendingRange, StreamId.parse_text]
    simp only [RedisStreams.withGroup, Function.update_self, Group.filter_id_eq hsorted hentry]
    rfl
  simp only [toMessage, Option.map_some, hrange]

structure Idle (view : R → RedisStreams δ) (queue group : Text) (r : R) : Prop where
  sound : (view r).Sound
  empty : ((view r).groupOf queue group).pel = []

def unreadOf (view : R → RedisStreams δ) (queue group : Text) (r : R) : List (StreamId × δ) :=
  ((view r).groupOf queue group).unread ((view r).entries queue)

theorem Idle.round (h : server.Follows view) {r : R} (hidle : Idle view queue group r)
    (consumerName : Text) (count : Nat) :
    let delivered := consume server queue group consumerName count r
    let next := (port server).ackMessages queue group delivered.1 delivered.2
    delivered.1 = ((unreadOf view queue group r).take count).map (fun e => ⟨e.1.text, e.2, 1⟩) ∧
      Idle view queue group next ∧
      unreadOf view queue group next = (unreadOf view queue group r).drop count := by
  intro delivered next
  have hsorted := hidle.sound.sorted queue
  have hsound : (view delivered.2).Sound :=
    sound_consume h hidle.sound queue group consumerName count
  obtain ⟨hview, hmessages⟩ := consume_spec h queue group consumerName count r
  rw [Group.consume_of_empty hidle.empty] at hview hmessages
  have hgroupSorted := (hsound.groups queue group).sorted
  rw [hview, groupOf_withGroup] at hgroupSorted
  have hdelivered : delivered.1 =
      ((unreadOf view queue group r).take count).map (fun e => ⟨e.1.text, e.2, 1⟩) := by
    rw [hmessages, show (((view r).groupOf queue group).readNew ((view r).entries queue)
      consumerName count).1 = ((unreadOf view queue group r).take count).map
        (fun e => (e.1, some e.2)) from rfl, List.filterMap_map, List.filterMap_map,
      ← List.filterMap_eq_map]
    refine List.filterMap_congr fun e he => ?_
    exact toMessage_of_pending h hview hgroupSorted
      ((Group.pel_readNew_of_empty hidle.empty).mpr ⟨e, he, rfl⟩) e.2
  have hids : ∀ message ∈ delivered.1, ∃ id : StreamId, message.sequenceId = id.text := by
    rw [hdelivered]
    intro message hmessage
    obtain ⟨e, -, rfl⟩ := List.mem_map.mp hmessage
    exact ⟨e.1, rfl⟩
  obtain ⟨hsoundNext, hentries, hgroup⟩ := view_ackAll h queue group hids hsound
  rw [hview, groupOf_withGroup] at hgroup
  refine ⟨hdelivered, ⟨hsoundNext, ?_⟩, ?_⟩
  · refine (congrArg Group.pel hgroup).trans (List.filter_eq_nil_iff.mpr fun entry hentry => ?_)
    obtain ⟨e, he, rfl⟩ := (Group.pel_readNew_of_empty hidle.empty).mp hentry
    intro hkept
    refine of_decide_eq_true hkept ?_
    rw [hdelivered, List.map_map]
    exact List.mem_map.mpr ⟨e, he, rfl⟩
  · have hstream : (view next).entries queue = (view r).entries queue := by
      change (view (ackAll server queue group delivered.1 delivered.2)).entries queue = _
      rw [hentries, hview]
      rfl
    unfold unreadOf
    rw [hstream, show (view next).groupOf queue group = _ from hgroup]
    exact Group.unread_readNew hsorted consumerName count _

theorem Idle.consumeAndAck (h : server.Follows view) {r : R} (hidle : Idle view queue group r)
    (consumerName : Text) (counts : List Nat) :
    (port server).consumeAndAck queue group consumerName counts r =
      ((unreadOf view queue group r).take counts.sum).map (fun e => ⟨e.1.text, e.2, 1⟩) := by
  induction counts generalizing r with
  | nil => simp [QueuePort.consumeAndAck]
  | cons count rest ih =>
    obtain ⟨hmessages, hnext, hunread⟩ := hidle.round h consumerName count
    have hrest := ih hnext
    rw [hunread] at hrest
    rw [List.sum_cons, List.take_add, List.map_append, ← hmessages]
    exact congrArg _ hrest

def streamOf (view : R → RedisStreams δ) (queue : Text) (r : R) : List (Text × δ) :=
  ((view r).entries queue).map fun e => (e.1.text, e.2)

/-- The history of one consumer: whatever is pending is pending for it, and was
delivered at least once. -/
structure Consumed (view : R → RedisStreams δ) (consumerName : Text) (r : R) : Prop where
  sound : (view r).Sound
  started : ∀ key, ∀ id ∈ ((view r).entries key).map Prod.fst, (⟨0, 0⟩ : StreamId) < id
  owned : ∀ key group, ∀ entry ∈ ((view r).groupOf key group).pel,
    entry.consumer = consumerName ∧ 1 ≤ entry.timesDelivered

theorem start_le (id : StreamId) : (⟨0, 0⟩ : StreamId) ≤ id := by
  rw [← not_lt, StreamId.lt_iff]
  rintro (h | ⟨-, h⟩)
  · exact absurd h (Nat.not_lt_zero _)
  · exact absurd h (Nat.not_lt_zero _)

theorem mem_pel_consume {stream : List (StreamId × δ)} {consumer : Text} {count : Nat} {g : Group}
    (howned : ∀ entry ∈ g.pel, entry.consumer = consumer ∧ 1 ≤ entry.timesDelivered) :
    ∀ entry ∈ (g.consume stream consumer count).2.pel,
      entry.consumer = consumer ∧ 1 ≤ entry.timesDelivered := by
  have hpending : ∀ entry ∈ (g.readPending stream consumer ⟨0, 0⟩ count).2.pel,
      entry.consumer = consumer ∧ 1 ≤ entry.timesDelivered := by
    intro entry hentry
    obtain ⟨old, hold, rfl⟩ := List.mem_map.mp hentry
    obtain ⟨hconsumer, htimes⟩ := howned old hold
    split
    · exact ⟨hconsumer, Nat.le_succ_of_le htimes⟩
    · exact ⟨hconsumer, htimes⟩
  unfold Group.consume
  simp only []
  split
  · intro entry hentry
    rcases Group.mem_assignAll.mp hentry with ⟨e, -, rfl⟩ | ⟨hold, -⟩
    · exact ⟨rfl, Nat.le_refl _⟩
    · exact hpending entry hold
  · exact hpending

theorem view_ack_text (h : server.Follows view) (queue group sequenceId : Text) (r : R) :
    (view (ack server queue group sequenceId r)).entries = (view r).entries ∧
      ∀ key other, ∃ keep : PendingEntry → Bool,
        (view (ack server queue group sequenceId r)).groupOf key other =
          { (view r).groupOf key other with
            pel := ((view r).groupOf key other).pel.filter keep } := by
  have hsame : ∀ key other, ∃ keep : PendingEntry → Bool, (view r).groupOf key other =
      { (view r).groupOf key other with
        pel := ((view r).groupOf key other).pel.filter keep } := fun key other =>
    ⟨fun _ => true, by simp⟩
  rw [ack, h.xack, xack]
  split
  · rename_i g acked hgroup _
    refine ⟨rfl, fun key other => ?_⟩
    by_cases hkey : (key, other) = (queue, group)
    · obtain ⟨rfl, rfl⟩ := hkey
      exact ⟨fun entry => entry.id ≠ acked, by simp [groupOf, hgroup]⟩
    · obtain ⟨keep, hkeep⟩ := hsame key other
      refine ⟨keep, ?_⟩
      simp only [groupOf, Function.update_of_ne hkey]
      exact hkeep
  · exact ⟨rfl, hsame⟩

theorem Consumed.perform (h : server.Follows view) {r : R} (hr : Consumed view consumerName r)
    (c : PortCall δ) : Consumed view consumerName ((port server).perform consumerName r c) := by
  cases c with
  | publish queue message =>
    obtain ⟨now, -, hview⟩ := h.xadd queue message r
    change Consumed view consumerName (server.xadd queue message r).2
    refine ⟨hview ▸ hr.sound.xadd now queue message, fun key id hid => ?_, fun key group => ?_⟩
    · rw [hview] at hid
      by_cases hkey : key = queue
      · subst hkey
        simp only [xadd, Function.update_self, List.map_append, List.mem_append,
          List.map_cons, List.map_nil, List.mem_singleton] at hid
        rcases hid with hid | rfl
        · exact hr.started key id hid
        · exact (start_le _).trans_lt (lt_nextId now _)
      · simp only [xadd, Function.update_of_ne hkey] at hid
        exact hr.started key id hid
    · rw [hview]
      exact hr.owned key group
  | consume queue group count =>
    have hview := (consume_spec h queue group consumerName count r).1
    change Consumed view consumerName (consume server queue group consumerName count r).2
    refine ⟨sound_consume h hr.sound queue group consumerName count, ?_, fun key other => ?_⟩
    · rw [hview]
      exact hr.started
    · rw [hview]
      by_cases hkey : (key, other) = (queue, group)
      · obtain ⟨rfl, rfl⟩ := hkey
        rw [groupOf_withGroup]
        exact mem_pel_consume (hr.owned queue group)
      · rw [groupOf_withGroup_of_ne _ _ hkey]
        exact hr.owned key other
  | ack queue group sequenceId =>
    obtain ⟨hentries, hgroups⟩ := view_ack_text h queue group sequenceId r
    change Consumed view consumerName (ack server queue group sequenceId r)
    refine ⟨⟨fun key => hentries ▸ hr.sound.sorted key, fun key other => ?_⟩, ?_,
      fun key other entry hentry => ?_⟩
    · obtain ⟨keep, hkeep⟩ := hgroups key other
      rw [hkeep, hentries]
      exact (hr.sound.groups key other).filter keep
    · rw [hentries]
      exact hr.started
    · obtain ⟨keep, hkeep⟩ := hgroups key other
      rw [hkeep] at hentry
      exact hr.owned key other entry (List.mem_of_mem_filter hentry)

theorem consumed_calls (h : server.Follows view) {r : R} (hr : Consumed view consumerName r)
    (calls : List (PortCall δ)) :
    Consumed view consumerName (calls.foldl ((port server).perform consumerName) r) := by
  induction calls generalizing r with
  | nil => exact hr
  | cons c rest ih => exact ih (hr.perform h c)

theorem consumed_empty {r : R} (hempty : view r = RedisStreams.empty) :
    Consumed view consumerName r := by
  refine ⟨hempty ▸ sound_empty, ?_, ?_⟩
  · rw [hempty]
    exact fun _ _ hid => absurd hid List.not_mem_nil
  · rw [hempty]
    exact fun _ _ _ hentry => absurd hentry List.not_mem_nil

theorem view_replayFrom (h : server.Follows view) (group : Text) {r : R} {sequenceId : Text}
    {start : StreamId} (hstart : position ((view r).entries queue) sequenceId = some start) :
    view (replayFrom server queue group sequenceId r) =
      (view r).withGroup queue group
        { (view r).groupOf queue group with lastDelivered := start } := by
  rw [replayFrom, h.xgroupSetid, view_ensureGroup h, xgroupSetid]
  have hentries : ((view r).withGroup queue group ((view r).groupOf queue group)).entries queue =
      (view r).entries queue := rfl
  rw [hentries, hstart]
  simp only [RedisStreams.withGroup, Function.update_self, Function.update_idem]

/-- A replay position is read as the id before the entries that follow it. -/
theorem position_of_positionId {r : R} {place : Nat} (hr : Consumed view consumerName r)
    (hplace : place ≤ ((view r).entries queue).length) :
    ∃ start, position ((view r).entries queue) (positionId (streamOf view queue r) place) =
        some start ∧
      ((view r).entries queue).filter (start < ·.1) = ((view r).entries queue).drop place := by
  have hstream := hr.sound.sorted queue
  cases place with
  | zero =>
    refine ⟨⟨0, 0⟩, rfl, List.filter_eq_self.mpr fun e he => ?_⟩
    simpa using hr.started queue e.1 (List.mem_map_of_mem he)
  | succ place =>
    have hlt : place < ((view r).entries queue).length := hplace
    have hid : positionId (streamOf view queue r) (place + 1) =
        ((view r).entries queue)[place].1.text := by
      simp [positionId, streamOf, hlt]
    have hne : ((view r).entries queue)[place].1.text ≠ "$".toList := by
      intro hdollar
      have hparse := StreamId.parse_text ((view r).entries queue)[place].1
      have hnone : StreamId.parse "$".toList = none := by decide
      rw [hdollar, hnone] at hparse
      cases hparse
    refine ⟨((view r).entries queue)[place].1, ?_, ?_⟩
    · rw [hid, RedisStreams.position, if_neg hne, StreamId.parse_text]
    · exact Group.filter_after hstream hlt

theorem consumeAndAck_replayFrom (h : server.Follows view) {r : R} {place : Nat}
    (hr : Consumed view consumerName r) (hplace : place ≤ ((view r).entries queue).length)
    (hempty : ((view r).groupOf queue group).pel = []) (counts : List Nat) :
    (port server).consumeAndAck queue group consumerName counts
        (replayFrom server queue group (positionId (streamOf view queue r) place) r) =
      (((streamOf view queue r).drop place).take counts.sum).map fun e => ⟨e.1, e.2, 1⟩ := by
  obtain ⟨start, hstart, hunread⟩ := position_of_positionId hr hplace
  have hview := view_replayFrom h group hstart
  have hidle : Idle view queue group
      (replayFrom server queue group (positionId (streamOf view queue r) place) r) := by
    refine ⟨hview ▸ hr.sound.withGroup ⟨?_, ?_, ?_⟩, ?_⟩
    · rw [hempty]
      exact List.Pairwise.nil
    · rw [hempty]
      exact fun _ hentry => absurd hentry List.not_mem_nil
    · rw [hempty]
      exact fun _ hentry => absurd hentry List.not_mem_nil
    · rw [hview, groupOf_withGroup]
      exact hempty
  rw [hidle.consumeAndAck h]
  have hrest : unreadOf view queue group
      (replayFrom server queue group (positionId (streamOf view queue r) place) r) =
        ((view r).entries queue).drop place := by
    rw [unreadOf, hview, groupOf_withGroup]
    exact hunread
  rw [hrest, streamOf, ← List.map_drop, ← List.map_take, List.map_map]
  rfl

theorem redelivered_of_pending (h : server.Follows view) {r : R} {first : PendingEntry}
    {rest : List PendingEntry} (hpel : ((view r).groupOf queue group).pel = first :: rest)
    (hsorted : (first :: rest).Pairwise (·.id < ·.id))
    (hknown : first.id ∈ ((view r).entries queue).map Prod.fst)
    (hstarted : (⟨0, 0⟩ : StreamId) < first.id) (howner : first.consumer = consumerName) :
    ∃ message ∈ (consume server queue group consumerName 1 r).1,
      message.deliveryCount = first.timesDelivered + 1 := by
  obtain ⟨hview, hmessages⟩ := consume_spec h queue group consumerName 1 r
  obtain ⟨data, hdata⟩ : ∃ data, Group.fieldsOf ((view r).entries queue) first.id = some data := by
    obtain ⟨e, he, hid⟩ := List.mem_map.mp hknown
    rw [← Option.isSome_iff_exists, Group.fieldsOf, Option.isSome_map, List.find?_isSome]
    exact ⟨e, he, by simpa using hid⟩
  have hown : ((((view r).groupOf queue group).ownedBy consumerName).filter
      ((⟨0, 0⟩ : StreamId) < ·.id)).take 1 = [first] := by
    rw [Group.ownedBy, hpel, List.filter_cons_of_pos (by simpa using howner),
      List.filter_cons_of_pos (by simpa using hstarted)]
    rfl
  have hread : ((view r).groupOf queue group).consume ((view r).entries queue) consumerName 1 =
      ((view r).groupOf queue group).readPending ((view r).entries queue) consumerName ⟨0, 0⟩ 1 := by
    rw [Group.consume, if_neg]
    simp [Group.readPending, hown]
  rw [hread] at hview hmessages
  have hentry : (⟨first.id, first.consumer, first.timesDelivered + 1⟩ : PendingEntry) ∈
      (((view r).groupOf queue group).readPending ((view r).entries queue) consumerName
        ⟨0, 0⟩ 1).2.pel := by
    refine List.mem_map.mpr ⟨first, by rw [hpel]; exact List.mem_cons_self, if_pos ⟨?_, ?_⟩⟩
    · rw [hown]
      exact List.mem_singleton_self _
    · rw [hdata]
      rfl
  have hsortedNext : (((view r).groupOf queue group).readPending ((view r).entries queue)
      consumerName ⟨0, 0⟩ 1).2.pel.Pairwise (·.id < ·.id) := by
    obtain ⟨redeliver, heq, hkeeps⟩ := Group.readPending_pel ((view r).entries queue) consumerName
      ⟨0, 0⟩ 1 ((view r).groupOf queue group)
    rw [heq, hpel]
    refine List.pairwise_map.mpr (hsorted.imp fun hlt => ?_)
    rw [(hkeeps _).1, (hkeeps _).1]
    exact hlt
  refine ⟨⟨first.id.text, data, first.timesDelivered + 1⟩, ?_, rfl⟩
  rw [hmessages, show (((view r).groupOf queue group).readPending ((view r).entries queue)
    consumerName ⟨0, 0⟩ 1).1 = [(first.id, some data)] by simp [Group.readPending, hown, hdata]]
  refine List.mem_filterMap.mpr ⟨(first.id.text, some data), List.mem_singleton_self _, ?_⟩
  exact toMessage_of_pending h hview hsortedNext hentry data

theorem Consumed.replaysFirstRun_iff (h : server.Follows view) {r : R} {place : Nat}
    (hr : Consumed view consumerName r) (hplace : place ≤ ((view r).entries queue).length) :
    ReplaysFirstRun (port server) queue group consumerName (streamOf view queue r) place r ↔
      ((view r).groupOf queue group).pel = [] := by
  constructor
  · intro hreplays
    cases hpel : ((view r).groupOf queue group).pel with
    | nil => rfl
    | cons first rest =>
      have hgroup := hr.sound.groups queue group
      have hfirst : first ∈ ((view r).groupOf queue group).pel := by
        rw [hpel]
        exact List.mem_cons_self
      obtain ⟨howner, htimes⟩ := hr.owned queue group first hfirst
      have hknown := hgroup.known first hfirst
      obtain ⟨start, hstart, -⟩ := position_of_positionId hr hplace
      have hview := view_replayFrom h group hstart
      have hpelAfter : ((view (replayFrom server queue group
          (positionId (streamOf view queue r) place) r)).groupOf queue group).pel =
            first :: rest := by
        rw [hview, groupOf_withGroup]
        exact hpel
      obtain ⟨message, hmessage, hcount⟩ := redelivered_of_pending h hpelAfter
        (hpel ▸ hgroup.sorted) (by rw [hview]; exact hknown) (hr.started queue first.id hknown)
        howner
      have hfirstRun := hreplays [1]
      have hmem : message ∈ (port server).consumeAndAck queue group consumerName [1]
          (replayFrom server queue group (positionId (streamOf view queue r) place) r) :=
        List.mem_append_left _ hmessage
      rw [show replayFrom server = (port server).replayFrom from rfl, hfirstRun] at hmem
      obtain ⟨e, -, rfl⟩ := List.mem_map.mp hmem
      exact absurd hcount (by simp only []; omega)
  · intro hempty counts
    exact consumeAndAck_replayFrom h hr hplace hempty counts

end RedisStreamsQueue

section Drivers

variable {R δ : Type}

/-- The in-memory driver replays the first run when no message after the position was
delivered to the group before, the Redis Streams driver when nothing is pending for
the group. -/
theorem drivers_replay_firstRun_iff (server : StreamServer R δ) (view : R → RedisStreams δ)
    (hserver : server.Follows view) (start : R) (hstart : view start = RedisStreams.empty)
    (consumerName : Text) (calls : List (PortCall δ)) (queue group : Text) (place : Nat) :
    let q := calls.foldl (InMemoryQueue.port.perform consumerName) InMemoryQueue.empty
    let r := calls.foldl ((RedisStreamsQueue.port server).perform consumerName) start
    (place ≤ (q.streams queue).length →
      (ReplaysFirstRun InMemoryQueue.port queue group consumerName (q.streams queue) place q ↔
        ∀ entry ∈ (q.streams queue).drop place,
          q.deliveryCounts (queue, group, entry.1) = 0)) ∧
    (place ≤ ((view r).entries queue).length →
      (ReplaysFirstRun (RedisStreamsQueue.port server) queue group consumerName
          (RedisStreamsQueue.streamOf view queue r) place r ↔
        ((view r).groupOf queue group).pel = [])) := by
  intro q r
  exact ⟨fun hplace => (InMemoryQueue.counted_calls consumerName calls).replaysFirstRun_iff hplace,
    fun hplace => (RedisStreamsQueue.consumed_calls hserver
      (RedisStreamsQueue.consumed_empty hstart) calls).replaysFirstRun_iff hserver hplace⟩

def ackedCalls : List (PortCall Nat) :=
  [.publish "queue".toList 7, .consume "queue".toList "group".toList 1,
    .ack "queue".toList "group".toList "1".toList]

def unackedCalls : List (PortCall Nat) :=
  [.publish "queue".toList 7, .consume "queue".toList "group".toList 1]

theorem drivers_replay_firstRun_iff_unacked :
    ¬ ReplaysFirstRun (RedisStreamsQueue.port (RedisStreams.server Nat 5)) "queue".toList
        "group".toList "worker".toList [("5-0".toList, 7)] 0
        (unackedCalls.foldl ((RedisStreamsQueue.port (RedisStreams.server Nat 5)).perform
          "worker".toList) RedisStreams.empty) := by
  have hiff := (drivers_replay_firstRun_iff (RedisStreams.server Nat 5) id
    (RedisStreams.server_follows Nat 5) RedisStreams.empty rfl "worker".toList unackedCalls
    "queue".toList "group".toList 0).2 (Nat.zero_le _)
  exact fun hreplays => absurd (hiff.mp hreplays) (by decide +kernel)

/-- A message comes back with the delivery count two: through the in-memory driver
after an ack, through the Redis Streams driver without one. -/
theorem replay_counts_retries :
    ¬ ReplaysFirstRun InMemoryQueue.port "queue".toList "group".toList "worker".toList
        [("1".toList, 7)] 0
        (ackedCalls.foldl (InMemoryQueue.port.perform "worker".toList) InMemoryQueue.empty) ∧
      ¬ ReplaysFirstRun (RedisStreamsQueue.port (RedisStreams.server Nat 5)) "queue".toList
        "group".toList "worker".toList [("5-0".toList, 7)] 0
        (unackedCalls.foldl ((RedisStreamsQueue.port (RedisStreams.server Nat 5)).perform
          "worker".toList) RedisStreams.empty) := by
  refine ⟨fun hreplays => ?_, fun hreplays => ?_⟩
  · exact absurd (hreplays [1]) (by decide +kernel)
  · exact absurd (hreplays [1]) (by decide +kernel)

end Drivers

end LandRecords.Queue
