import LandRecords.Queue.ConsumerGroup
import LandRecords.Queue.RedisStreams

/-! Whether a message that one consumer left unacked reaches another consumer of the
group through the Redis Streams driver. -/
namespace LandRecords.Queue.RedisStreamsQueue

open Text RedisStreams

variable {R δ : Type}

structure Delivery where
  queue : Text
  group : Text
  consumer : Text
  sequenceId : Text
deriving DecidableEq

/-- The server, and what was delivered and not acked since. -/
structure Client (R : Type) where
  server : R
  outstanding : List Delivery

inductive Call (δ : Type)
  | publish (queue : Text) (message : δ)
  | consume (queue group consumerName : Text) (count : Nat)
  | ack (queue group : Text) (id : StreamId)

def call (server : StreamServer R δ) (s : Client R) : Call δ → Client R
  | .publish queue message => { s with server := (publish server queue message s.server).2 }
  | .consume queue group consumerName count =>
      let consumed := consume server queue group consumerName count s.server
      ⟨consumed.2, s.outstanding ++ consumed.1.map fun message =>
        ⟨queue, group, consumerName, message.sequenceId⟩⟩
  | .ack queue group id =>
      ⟨ack server queue group id.text s.server, s.outstanding.filter fun delivery =>
        ¬(delivery.queue = queue ∧ delivery.group = group ∧ delivery.sequenceId = id.text)⟩

def ackAll (server : StreamServer R δ) (queue group : Text) (messages : List (QueueMessage δ))
    (r : R) : R :=
  messages.foldl (fun r message => ack server queue group message.sequenceId r) r

def drain (server : StreamServer R δ) (queue group consumerName : Text) (count : Nat) :
    Nat → R → Option (List (QueueMessage δ) × R)
  | 0, _ => none
  | fuel + 1, r =>
      let consumed := consume server queue group consumerName count r
      if consumed.1.isEmpty then some ([], consumed.2)
      else
        (drain server queue group consumerName count fuel
          (ackAll server queue group consumed.1 consumed.2)).map fun rest =>
            (consumed.1 ++ rest.1, rest.2)

section Commands

variable {server : StreamServer R δ} {view : R → RedisStreams δ}

variable {queue group consumerName : Text} {count : Nat}

theorem view_ensureGroup (h : server.Follows view) (queue group : Text) (r : R) :
    view (ensureGroup server queue group "0".toList r) =
      (view r).withGroup queue group ((view r).groupOf queue group) := by
  rw [ensureGroup, h.xgroupCreate, xgroupCreate, groupOf, RedisStreams.withGroup]
  have hstart : position ((view r).entries queue) "0".toList = some ⟨0, 0⟩ := rfl
  cases hgroup : (view r).groups (queue, group) with
  | none =>
    rw [hstart]
    rfl
  | some g =>
    have hsame : Function.update (view r).groups (queue, group) (some g) = (view r).groups := by
      rw [← hgroup, Function.update_eq_self]
    simp only [Option.getD_some, hsame]

theorem xreadgroup_pending {s : RedisStreams δ} (g : Group) :
    (s.withGroup queue group g).xreadgroup group consumerName queue "0".toList count =
      ((g.readPending (s.entries queue) consumerName ⟨0, 0⟩ count).1.map fun entry =>
          (entry.1.text, entry.2),
        s.withGroup queue group (g.readPending (s.entries queue) consumerName ⟨0, 0⟩ count).2) := by
  have hread : StreamId.parse "0".toList = some ⟨0, 0⟩ := rfl
  have hne : "0".toList ≠ ">".toList := by decide
  simp only [xreadgroup, RedisStreams.withGroup, Function.update_self, if_neg hne, hread,
    Function.update_idem]

theorem xreadgroup_new {s : RedisStreams δ} (g : Group) :
    (s.withGroup queue group g).xreadgroup group consumerName queue ">".toList count =
      ((g.readNew (s.entries queue) consumerName count).1.map fun entry =>
          (entry.1.text, entry.2),
        s.withGroup queue group (g.readNew (s.entries queue) consumerName count).2) := by
  simp only [xreadgroup, RedisStreams.withGroup, Function.update_self, if_true,
    Function.update_idem]

theorem consume_spec (h : server.Follows view) (queue group consumerName : Text) (count : Nat)
    (r : R) :
    let read := ((view r).groupOf queue group).consume ((view r).entries queue) consumerName count
    view (consume server queue group consumerName count r).2 =
        (view r).withGroup queue group read.2 ∧
      (consume server queue group consumerName count r).1 =
        (read.1.map fun entry => (entry.1.text, entry.2)).filterMap
          (toMessage server queue group (consume server queue group consumerName count r).2) := by
  obtain ⟨hpending, hafter⟩ := h.xreadgroup group consumerName queue "0".toList count
    (ensureGroup server queue group "0".toList r)
  rw [view_ensureGroup h, xreadgroup_pending] at hpending hafter
  obtain ⟨hnew, hafterNew⟩ := h.xreadgroup group consumerName queue ">".toList count
    (server.xreadgroup group consumerName queue "0".toList count
      (ensureGroup server queue group "0".toList r)).2
  rw [hafter, xreadgroup_new] at hnew hafterNew
  simp only [consume, Group.consume]
  rw [hpending, List.isEmpty_map]
  split
  · exact ⟨hafterNew, by rw [hnew]⟩
  · exact ⟨hafter, by rw [hpending]⟩

theorem mem_consume (h : server.Follows view) {queue group consumerName : Text} {count : Nat}
    {r : R} {message : QueueMessage δ}
    (hmessage : message ∈ (consume server queue group consumerName count r).1) :
    ∃ entry ∈ (((view r).groupOf queue group).consume ((view r).entries queue) consumerName
      count).1, message.sequenceId = entry.1.text := by
  rw [(consume_spec h queue group consumerName count r).2] at hmessage
  obtain ⟨reply, hreply, htoMessage⟩ := List.mem_filterMap.mp hmessage
  obtain ⟨entry, hentry, rfl⟩ := List.mem_map.mp hreply
  obtain ⟨data, -, rfl⟩ := Option.map_eq_some_iff.mp htoMessage
  exact ⟨entry, hentry, rfl⟩

theorem view_ack (h : server.Follows view) (queue group : Text) (id : StreamId) (r : R) :
    ((view (ack server queue group id.text r)).entries = (view r).entries) ∧
      (view (ack server queue group id.text r)).groupOf queue group =
        { (view r).groupOf queue group with
          pel := ((view r).groupOf queue group).pel.filter (·.id ≠ id) } ∧
      ∀ key : Text × Text, key ≠ (queue, group) →
        (view (ack server queue group id.text r)).groupOf key.1 key.2 =
          (view r).groupOf key.1 key.2 := by
  rw [ack, h.xack, xack, StreamId.parse_text]
  cases hgroup : (view r).groups (queue, group) with
  | none => exact ⟨rfl, by simp [groupOf, hgroup], fun _ _ => rfl⟩
  | some g =>
    refine ⟨rfl, by simp [groupOf, hgroup], fun key hkey => ?_⟩
    simp only [groupOf, Function.update_of_ne hkey]

theorem sound_ack (h : server.Follows view) {r : R} (hsound : (view r).Sound)
    (queue group : Text) (id : StreamId) :
    (view (ack server queue group id.text r)).Sound := by
  obtain ⟨hentries, hgroup, hother⟩ := view_ack h queue group id r
  refine ⟨fun key => hentries ▸ hsound.sorted key, fun key group' => ?_⟩
  rw [hentries]
  by_cases hkey : (key, group') = (queue, group)
  · obtain ⟨rfl, rfl⟩ := hkey
    rw [hgroup]
    exact (hsound.groups queue group).filter _
  · rw [hother (key, group') hkey]
    exact hsound.groups key group'

theorem sound_consume (h : server.Follows view) {r : R} (hsound : (view r).Sound)
    (queue group consumerName : Text) (count : Nat) :
    (view (consume server queue group consumerName count r).2).Sound := by
  rw [(consume_spec h queue group consumerName count r).1]
  exact hsound.withGroup ((hsound.groups queue group).consume (hsound.sorted queue)
    consumerName count)

structure Tracked (view : R → RedisStreams δ) (s : Client R) : Prop where
  sound : (view s.server).Sound
  pending : ∀ delivery ∈ s.outstanding, ∃ id : StreamId, delivery.sequenceId = id.text ∧
    ((view s.server).groupOf delivery.queue delivery.group).Owns delivery.consumer id

theorem Tracked.call (h : server.Follows view) {s : Client R} (hs : Tracked view s)
    (c : Call δ) : Tracked view (call server s c) := by
  cases c with
  | publish queue message =>
    obtain ⟨now, -, hview⟩ := h.xadd queue message s.server
    refine ⟨?_, fun delivery hdelivery => ?_⟩
    · exact hview ▸ hs.sound.xadd now queue message
    · obtain ⟨id, hid, hown⟩ := hs.pending delivery hdelivery
      refine ⟨id, hid, ?_⟩
      simp only [RedisStreamsQueue.call, publish, hview]
      exact hown
  | consume queue group consumerName count =>
    have hview := (consume_spec h queue group consumerName count s.server).1
    refine ⟨sound_consume h hs.sound queue group consumerName count, fun delivery hmem => ?_⟩
    simp only [RedisStreamsQueue.call] at hmem ⊢
    rw [hview]
    rcases List.mem_append.mp hmem with hold | hnew
    · obtain ⟨id, hid, hown⟩ := hs.pending delivery hold
      refine ⟨id, hid, ?_⟩
      by_cases hkey : (delivery.queue, delivery.group) = (queue, group)
      · obtain ⟨rfl, rfl⟩ := hkey
        rw [groupOf_withGroup]
        exact (hs.sound.groups _ _).owns_consume consumerName count hown
      · rw [groupOf_withGroup_of_ne _ _ hkey]
        exact hown
    · obtain ⟨message, hmessage, rfl⟩ := List.mem_map.mp hnew
      obtain ⟨entry, hentry, hid⟩ := mem_consume h hmessage
      exact ⟨entry.1, hid, by rw [groupOf_withGroup]; exact Group.owns_of_mem_consume hentry⟩
  | ack queue group acked =>
    obtain ⟨-, hgroup, hother⟩ := view_ack h queue group acked s.server
    refine ⟨sound_ack h hs.sound queue group acked, fun delivery hmem => ?_⟩
    obtain ⟨hold, hnot⟩ := List.mem_filter.mp hmem
    obtain ⟨id, hid, hown⟩ := hs.pending delivery hold
    refine ⟨id, hid, ?_⟩
    simp only [RedisStreamsQueue.call]
    by_cases hkey : (delivery.queue, delivery.group) = (queue, group)
    · obtain ⟨rfl, rfl⟩ := hkey
      rw [hgroup]
      obtain ⟨entry, hentry, rfl, hconsumer⟩ := hown
      have hne : entry.id ≠ acked := by
        rintro rfl
        simp [hid] at hnot
      exact ⟨entry, List.mem_filter.mpr ⟨hentry, by simpa using hne⟩, rfl, hconsumer⟩
    · rw [hother (delivery.queue, delivery.group) hkey]
      exact hown

theorem tracked_calls (h : server.Follows view) {s : Client R} (hs : Tracked view s)
    (calls : List (Call δ)) : Tracked view (calls.foldl (RedisStreamsQueue.call server) s) := by
  induction calls generalizing s with
  | nil => exact hs
  | cons c rest ih => exact ih (hs.call h c)

end Commands

section Drain

variable {server : StreamServer R δ} {view : R → RedisStreams δ} {queue group : Text}

theorem view_ackAll (h : server.Follows view) (queue group : Text) {messages : List (QueueMessage δ)}
    (hids : ∀ message ∈ messages, ∃ id : StreamId, message.sequenceId = id.text) {r : R}
    (hsound : (view r).Sound) :
    (view (ackAll server queue group messages r)).Sound ∧
      (view (ackAll server queue group messages r)).entries = (view r).entries ∧
      (view (ackAll server queue group messages r)).groupOf queue group =
        { (view r).groupOf queue group with
          pel := ((view r).groupOf queue group).pel.filter fun entry =>
            entry.id.text ∉ messages.map QueueMessage.sequenceId } := by
  induction messages generalizing r with
  | nil => exact ⟨hsound, rfl, by simp [ackAll]⟩
  | cons message rest ih =>
    obtain ⟨id, hid⟩ := hids message List.mem_cons_self
    obtain ⟨hentries, hgroup, -⟩ := view_ack h queue group id r
    obtain ⟨hsoundAll, hentriesAll, hgroupAll⟩ := ih (fun other hother =>
      hids other (List.mem_cons_of_mem _ hother)) (sound_ack h hsound queue group id)
    have hstep : ackAll server queue group (message :: rest) r =
        ackAll server queue group rest (ack server queue group id.text r) := by
      rw [ackAll, List.foldl_cons, hid]
      rfl
    rw [hstep]
    refine ⟨hsoundAll, hentriesAll.trans hentries, hgroupAll.trans ?_⟩
    rw [hgroup]
    simp only [List.filter_filter]
    congr 1
    refine List.filter_congr fun entry _ => ?_
    have htext : entry.id.text = message.sequenceId ↔ entry.id = id := by
      rw [hid]
      exact StreamId.text_injective.eq_iff
    simp [htext, Bool.and_comm]

theorem countP_lt {α : Type} {p q : α → Bool} {l : List α} (himp : ∀ x ∈ l, q x → p x) {a : α}
    (ha : a ∈ l) (hp : p a) (hq : ¬q a) : l.countP q < l.countP p := by
  rw [List.countP_eq_length_filter, List.countP_eq_length_filter]
  have hsub : (l.filter q).Sublist (l.filter p) := by
    have hfilter : l.filter q = (l.filter p).filter q := by
      rw [List.filter_filter]
      refine List.filter_congr fun x hx => ?_
      cases hqx : q x with
      | false => rfl
      | true => simp [himp x hx hqx]
    rw [hfilter]
    exact List.filter_sublist
  refine lt_of_le_of_ne hsub.length_le fun hlength => ?_
  have hmem : a ∈ l.filter q := hsub.eq_of_length hlength ▸ List.mem_filter.mpr ⟨ha, hp⟩
  exact hq (List.mem_filter.mp hmem).2

def dueCount (queue group consumerName : Text) (s : RedisStreams δ) : Nat :=
  ((s.entries queue).map Prod.fst).countP fun id => (s.groupOf queue group).Due consumerName id

theorem drain_round (h : server.Follows view) {consumerName : Text} {count : Nat} {r : R}
    (hsound : (view r).Sound)
    (hsome : (consume server queue group consumerName count r).1 ≠ []) :
    let consumed := consume server queue group consumerName count r
    let next := ackAll server queue group consumed.1 consumed.2
    (view next).Sound ∧
      dueCount queue group consumerName (view next) < dueCount queue group consumerName (view r) ∧
      ∀ (owner : Text) (id : StreamId), owner ≠ consumerName →
        ((view r).groupOf queue group).Owns owner id →
          ((view next).groupOf queue group).Owns owner id ∧
            id.text ∉ consumed.1.map QueueMessage.sequenceId := by
  simp only []
  have hread := (consume_spec h queue group consumerName count r).1
  have hids : ∀ message ∈ (consume server queue group consumerName count r).1,
      ∃ id : StreamId, message.sequenceId = id.text := by
    intro message hmessage
    obtain ⟨entry, -, hid⟩ := mem_consume h hmessage
    exact ⟨entry.1, hid⟩
  obtain ⟨hsoundNext, hentries, hnext⟩ := view_ackAll h queue group hids
    (sound_consume h hsound queue group consumerName count)
  rw [hread, groupOf_withGroup] at hnext
  rw [hread] at hentries
  change _ = (view r).entries at hentries
  have hgroup := hsound.groups queue group
  have hsorted := hsound.sorted queue
  refine ⟨hsoundNext, ?_, fun owner id hne hown => ?_⟩
  · obtain ⟨message, hmessage⟩ := List.exists_mem_of_ne_nil _ hsome
    obtain ⟨entry, hentry, hid⟩ := mem_consume h hmessage
    have hread' := hgroup.consume hsorted consumerName count
    obtain ⟨own, hown, hownId, hconsumer⟩ := Group.owns_of_mem_consume hentry
    have hdue := Group.due_of_consume hsorted (.inr ⟨own, hown, hownId, hconsumer⟩)
    unfold dueCount
    rw [hentries]
    refine countP_lt (a := entry.1) (fun id _ hid => ?_) ?_ ?_ ?_
    · rw [hnext, decide_eq_true_eq] at hid
      exact decide_eq_true (Group.due_of_consume hsorted (Group.due_of_filter hid))
    · exact hownId ▸ hread'.known own hown
    · exact decide_eq_true hdue
    · rw [hnext, decide_eq_true_eq]
      refine Group.not_due_of_acked (hownId ▸ hread'.read own hown) fun other hother heq => ?_
      have hacked := (List.mem_filter.mp hother).2
      rw [decide_eq_true_eq, heq, ← hid] at hacked
      exact hacked (List.mem_map_of_mem hmessage)
  · have hstill := hgroup.owns_consume consumerName count hown
    have hnot : id.text ∉ (consume server queue group consumerName count r).1.map
        QueueMessage.sequenceId := by
      intro hmem
      obtain ⟨message, hmessage, htext⟩ := List.mem_map.mp hmem
      obtain ⟨entry, hentry, hid⟩ := mem_consume h hmessage
      have heq : entry.1 = id := StreamId.text_injective (hid.symm.trans htext)
      exact hne ((hgroup.consume hsorted consumerName count).owner_unique hstill
        (heq ▸ Group.owns_of_mem_consume hentry))
    refine ⟨?_, hnot⟩
    obtain ⟨own, hmem, rfl, howner⟩ := hstill
    rw [hnext]
    exact ⟨own, List.mem_filter.mpr ⟨hmem, decide_eq_true hnot⟩, rfl, howner⟩

/-- A drain comes to its end, and what is pending for another consumer is not in it. -/
theorem drain_skips (count : Nat) (h : server.Follows view) {consumerName owner : Text}
    {id : StreamId} (hne : owner ≠ consumerName) {r : R} (hsound : (view r).Sound)
    (hown : ((view r).groupOf queue group).Owns owner id) :
    ∃ fuel messages next, drain server queue group consumerName count fuel r =
      some (messages, next) ∧ id.text ∉ messages.map QueueMessage.sequenceId := by
  induction hdue : dueCount queue group consumerName (view r) using Nat.strongRecOn
    generalizing r with
  | ind due ih =>
    by_cases hempty : (consume server queue group consumerName count r).1.isEmpty = true
    · refine ⟨1, [], (consume server queue group consumerName count r).2, ?_, List.not_mem_nil⟩
      rw [drain]
      exact if_pos hempty
    · have hsome : (consume server queue group consumerName count r).1 ≠ [] :=
        fun hnil => hempty (List.isEmpty_iff.mpr hnil)
      obtain ⟨hsoundNext, hless, hkeeps⟩ := drain_round h hsound hsome
      obtain ⟨hownNext, hnot⟩ := hkeeps owner id hne hown
      obtain ⟨fuel, messages, next, hdrain, hrest⟩ :=
        ih _ (hdue ▸ hless) hsoundNext hownNext rfl
      refine ⟨fuel + 1, (consume server queue group consumerName count r).1 ++ messages, next,
        ?_, ?_⟩
      · rw [drain]
        simp only [if_neg hempty, hdrain, Option.map_some]
      · rw [List.map_append, List.mem_append, not_or]
        exact ⟨hnot, hrest⟩

end Drain

/-- After these calls, a message that is delivered and not acked reaches any consumer
with another name that drains the group. -/
def RedeliveredToGroup (server : StreamServer R δ) (s : Client R) (delivery : Delivery)
    (consumerName : Text) (count : Nat) : Prop :=
  ∀ fuel messages next, drain server delivery.queue delivery.group consumerName count fuel
    s.server = some (messages, next) →
      delivery.sequenceId ∈ messages.map QueueMessage.sequenceId

/-- A message that one consumer left unacked never reaches a consumer with another
name. -/
theorem not_redelivered (server : StreamServer R δ) (view : R → RedisStreams δ)
    (h : server.Follows view) (start : R) (hstart : view start = RedisStreams.empty)
    (calls : List (Call δ)) (delivery : Delivery)
    (hdelivery : delivery ∈ (calls.foldl (call server) ⟨start, []⟩).outstanding)
    (consumerName : Text) (hname : consumerName ≠ delivery.consumer) (count : Nat) :
    ¬RedeliveredToGroup server (calls.foldl (call server) ⟨start, []⟩) delivery consumerName
      count := by
  have hinitial : Tracked view ⟨start, []⟩ :=
    ⟨hstart ▸ sound_empty, fun _ hmem => absurd hmem List.not_mem_nil⟩
  have htracked := tracked_calls h hinitial calls
  obtain ⟨id, hid, hown⟩ := htracked.pending delivery hdelivery
  obtain ⟨fuel, messages, next, hdrain, hnot⟩ :=
    drain_skips count h hname.symm htracked.sound hown
  intro hredelivered
  exact hnot (hid ▸ hredelivered fuel messages next hdrain)

def triageDelivery (sequenceId : Text) : Delivery where
  queue := "TRIAGE_QUEUE".toList
  group := "backend.triage".toList
  consumer := "host-1".toList
  sequenceId := sequenceId

/-- The first of two messages is acked, the second one was delivered when the worker
stopped. -/
theorem second_message_not_redelivered :
    ¬RedeliveredToGroup (RedisStreams.server Text 1000)
      ([.publish "TRIAGE_QUEUE".toList "a".toList, .publish "TRIAGE_QUEUE".toList "b".toList,
        .consume "TRIAGE_QUEUE".toList "backend.triage".toList "host-1".toList 2,
        .ack "TRIAGE_QUEUE".toList "backend.triage".toList ⟨1000, 0⟩].foldl
        (call (RedisStreams.server Text 1000)) ⟨RedisStreams.empty, []⟩)
      (triageDelivery "1000-1".toList) "host-2".toList 2 :=
  not_redelivered _ id (RedisStreams.server_follows Text 1000) _ rfl _ _ (by decide +kernel) _
    (by decide) 2

/-- A worker that is restarted under another name finds nothing. -/
theorem restarted_worker_gets_nothing :
    let s := [.publish "TRIAGE_QUEUE".toList "a".toList,
        .consume "TRIAGE_QUEUE".toList "backend.triage".toList "host-1".toList 1].foldl
      (call (RedisStreams.server Text 1000)) ⟨RedisStreams.empty, []⟩
    triageDelivery "1000-0".toList ∈ s.outstanding ∧
      ¬RedeliveredToGroup (RedisStreams.server Text 1000) s (triageDelivery "1000-0".toList)
        "host-2".toList 1 := by
  refine ⟨by decide +kernel, fun hredelivered => ?_⟩
  have hnothing : (drain (RedisStreams.server Text 1000) "TRIAGE_QUEUE".toList
      "backend.triage".toList "host-2".toList 1 1 ([.publish "TRIAGE_QUEUE".toList "a".toList,
        .consume "TRIAGE_QUEUE".toList "backend.triage".toList "host-1".toList 1].foldl
      (call (RedisStreams.server Text 1000)) ⟨RedisStreams.empty, []⟩).server).map Prod.fst =
        some [] := by decide +kernel
  obtain ⟨⟨messages, next⟩, hdrain, hmessages⟩ := Option.map_eq_some_iff.mp hnothing
  have hmem := hredelivered 1 messages next hdrain
  rw [show messages = [] from hmessages] at hmem
  exact absurd hmem List.not_mem_nil

end LandRecords.Queue.RedisStreamsQueue
