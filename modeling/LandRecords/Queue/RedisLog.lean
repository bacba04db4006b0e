import LandRecords.Queue.InMemoryLog
import LandRecords.Queue.ReplayedRedis

/-! The Redis Streams driver refines the log of one consumer per group, so it returns what the
in-memory driver returns. -/
namespace LandRecords.Queue

open Text

namespace Group

variable {δ : Type} {stream : List (StreamId × δ)} {g : Group} {reader : Reader} {consumer : Text}
  {count : ℕ}

def PendingAt (stream : List (StreamId × δ)) (consumer : Text) (place : Place)
    (entry : PendingEntry) : Prop :=
  (stream.map Prod.fst)[place.index]? = some entry.id ∧
    entry.timesDelivered = place.deliveryCount ∧ entry.consumer = consumer

structure Keeps (stream : List (StreamId × δ)) (consumer : Text) (g : Group) (reader : Reader) :
    Prop where
  ended : g.lastDelivered ≤ RedisStreams.lastId stream
  unread : g.unread stream = stream.drop reader.cursor
  pending : List.Forall₂ (PendingAt stream consumer) reader.pending g.pel

theorem Keeps.append (h : g.Keeps stream consumer reader) (hcursor : reader.cursor ≤ stream.length)
    {id : StreamId} (hid : RedisStreams.lastId stream < id) (data : δ) :
    g.Keeps (stream ++ [(id, data)]) consumer reader where
  ended := by
    rw [RedisStreams.lastId, List.getLast?_concat]
    exact h.ended.trans hid.le
  unread := by
    have hnew : g.lastDelivered < id := h.ended.trans_lt hid
    have hunread := h.unread
    unfold Group.unread at hunread ⊢
    rw [List.filter_append, hunread, List.drop_append_of_le_length hcursor]
    simp [hnew]
  pending := h.pending.imp fun place entry hentry =>
    ⟨getElem?_extended ((List.prefix_append stream _).map _) hentry.1, hentry.2⟩

theorem Keeps.ack (h : g.Keeps stream consumer reader)
    (hstream : (stream.map Prod.fst).Nodup) {index : ℕ} {id : StreamId}
    (hid : (stream.map Prod.fst)[index]? = some id) :
    Keeps stream consumer { g with pel := g.pel.filter (·.id ≠ id) } (reader.ack index) where
  ended := h.ended
  unread := h.unread
  pending := by
    refine List.rel_filter (fun place entry hentry => ?_) h.pending
    change decide (place.index ≠ index) = true ↔ decide (entry.id ≠ id) = true
    rw [decide_eq_true_iff, decide_eq_true_iff, not_iff_not]
    have hplace := (List.getElem?_eq_some_iff.mp hentry.1).1
    rw [← List.getElem?_inj hplace hstream, hentry.1, hid, Option.some.injEq]

/-! ## Reading -/

def ReadAt (stream : List (StreamId × δ)) (pel : List PendingEntry) (place : Place)
    (read : StreamId × Option δ) : Prop :=
  ∃ data, stream[place.index]? = some (read.1, data) ∧ read.2 = some data ∧
    ∃ entry ∈ pel, entry.id = read.1 ∧ entry.timesDelivered = place.deliveryCount

theorem assignAll_append {new : List (StreamId × δ)} {pel : List PendingEntry}
    (hnew : (new.map Prod.fst).Pairwise (· < ·))
    (hbefore : ∀ entry ∈ pel, ∀ e ∈ new, entry.id < e.1) :
    new.foldl (fun pel e => assign consumer pel e.1) pel =
      pel ++ new.map fun e => ⟨e.1, consumer, 1⟩ := by
  induction new generalizing pel with
  | nil => simp
  | cons e rest ih =>
    rw [List.map_cons, List.pairwise_cons] at hnew
    have hlast : assign consumer pel e.1 = pel ++ [⟨e.1, consumer, 1⟩] := by
      have hall : pel.filter (·.id < e.1) = pel :=
        List.filter_eq_self.mpr fun entry hentry =>
          decide_eq_true (hbefore entry hentry e List.mem_cons_self)
      have hnone : pel.filter (e.1 < ·.id) = [] :=
        List.filter_eq_nil_iff.mpr fun entry hentry => by
          simpa using (hbefore entry hentry e List.mem_cons_self).le
      rw [assign, hall, hnone]
    rw [List.foldl_cons, hlast, ih hnew.2, List.append_assoc]
    · rfl
    · intro entry hentry later hlater
      rcases List.mem_append.mp hentry with hold | hnewEntry
      · exact hbefore entry hold later (List.mem_cons_of_mem _ hlater)
      · rw [List.mem_singleton.mp hnewEntry]
        exact hnew.1 _ (List.mem_map_of_mem hlater)

theorem Keeps.owned (h : g.Keeps stream consumer reader)
    (hstarted : ∀ id ∈ stream.map Prod.fst, (⟨0, 0⟩ : StreamId) < id) :
    (g.ownedBy consumer).filter ((⟨0, 0⟩ : StreamId) < ·.id) = g.pel := by
  have hall : ∀ entry ∈ g.pel, entry.consumer = consumer ∧ (⟨0, 0⟩ : StreamId) < entry.id := by
    intro entry hentry
    obtain ⟨place, hid, -, hconsumer⟩ := forall₂_mem_right h.pending hentry
    exact ⟨hconsumer, hstarted _ (List.mem_of_getElem? hid)⟩
  unfold ownedBy
  rw [List.filter_eq_self.mpr fun entry hentry => decide_eq_true (hall entry hentry).1,
    List.filter_eq_self.mpr fun entry hentry => decide_eq_true (hall entry hentry).2]

theorem fieldsOf_eq (hstream : (stream.map Prod.fst).Nodup) {index : ℕ} {id : StreamId} {data : δ}
    (h : stream[index]? = some (id, data)) : fieldsOf stream id = some data := by
  have hmem : (id, data) ∈ stream := List.mem_of_getElem? h
  have hfind : stream.find? (fun e => e.1 = id) = some (id, data) := by
    refine List.find?_eq_some_iff_append.mpr ⟨by simp, ?_⟩
    obtain ⟨earlier, later, rfl⟩ := List.append_of_mem hmem
    refine ⟨earlier, later, rfl, fun e he => ?_⟩
    rw [List.map_append, List.nodup_append] at hstream
    have hne : e.1 ≠ id := hstream.2.2 _ (List.mem_map_of_mem he) _ (by simp)
    simpa using hne
  rw [fieldsOf, hfind]
  rfl

theorem data_at {entry : StreamId} {index : ℕ} (h : (stream.map Prod.fst)[index]? = some entry) :
    ∃ data, stream[index]? = some (entry, data) := by
  rw [List.getElem?_map, Option.map_eq_some_iff] at h
  obtain ⟨⟨id, data⟩, hat, rfl⟩ := h
  exact ⟨data, hat⟩

def raise (entry : PendingEntry) : PendingEntry :=
  { entry with timesDelivered := entry.timesDelivered + 1 }

theorem Keeps.readPending_eq (h : g.Keeps stream consumer reader) (hsound : g.Sound stream)
    (hstream : (stream.map Prod.fst).Nodup)
    (hstarted : ∀ id ∈ stream.map Prod.fst, (⟨0, 0⟩ : StreamId) < id) :
    g.readPending stream consumer ⟨0, 0⟩ count =
      ((g.pel.take count).map fun entry => (entry.id, fieldsOf stream entry.id),
        { g with pel := (g.pel.take count).map raise ++ g.pel.drop count }) := by
  have hfields : ∀ entry ∈ g.pel, (fieldsOf stream entry.id).isSome = true := by
    intro entry hentry
    obtain ⟨place, hid, -⟩ := forall₂_mem_right h.pending hentry
    obtain ⟨data, hdata⟩ := data_at hid
    rw [fieldsOf_eq hstream hdata]
    rfl
  have hapart : ∀ entry ∈ g.pel.drop count, entry ∉ g.pel.take count := by
    intro entry hlater hearlier
    have hsorted := hsound.sorted
    rw [← List.take_append_drop count g.pel, List.pairwise_append] at hsorted
    exact lt_irrefl _ (hsorted.2.2 entry hearlier entry hlater)
  unfold readPending
  simp only [h.owned hstarted]
  have hsplit : ∀ change : PendingEntry → PendingEntry, g.pel.map change =
      (g.pel.take count).map change ++ (g.pel.drop count).map change := by
    intro change
    rw [← List.map_append, List.take_append_drop]
  congr 2
  rw [hsplit]
  congr 1
  · refine List.map_congr_left fun entry hentry => ?_
    rw [if_pos ⟨hentry, hfields entry (List.mem_of_mem_take hentry)⟩]
    rfl
  · refine (List.map_congr_left fun entry hentry => ?_).trans (List.map_id _)
    exact if_neg fun hread => hapart entry hentry hread.1

theorem Keeps.consume_again (h : g.Keeps stream consumer reader) (hsound : g.Sound stream)
    (hstream : (stream.map Prod.fst).Nodup)
    (hstarted : ∀ id ∈ stream.map Prod.fst, (⟨0, 0⟩ : StreamId) < id) (hcount : 0 < count)
    (hpending : reader.pending ≠ []) :
    List.Forall₂ (ReadAt stream (g.consume stream consumer count).2.pel)
        (reader.read stream.length count).1 (g.consume stream consumer count).1 ∧
      Keeps stream consumer (g.consume stream consumer count).2
        (reader.read stream.length count).2 := by
  have hpel : g.pel ≠ [] := by
    rw [← List.length_pos_iff, ← h.pending.length_eq, List.length_pos_iff]
    exact hpending
  have hconsume : g.consume stream consumer count =
      ((g.pel.take count).map fun entry => (entry.id, fieldsOf stream entry.id),
        { g with pel := (g.pel.take count).map raise ++ g.pel.drop count }) := by
    rw [Group.consume, h.readPending_eq hsound hstream hstarted]
    simp only []
    rw [if_neg]
    simp [hpel, hcount.ne']
  have hread : reader.read stream.length count =
      ((reader.pending.take count).map Place.again, { reader with
        pending := (reader.pending.take count).map Place.again ++ reader.pending.drop count }) :=
    if_pos hpending
  have htake : List.Forall₂ (PendingAt stream consumer) (reader.pending.take count) (g.pel.take count) :=
    List.forall₂_take count h.pending
  rw [hconsume, hread]
  refine ⟨?_, h.ended, h.unread, ?_⟩
  · rw [List.forall₂_map_left_iff, List.forall₂_map_right_iff]
    refine forall₂_imp_mem htake fun place entry hmem hentry => ?_
    obtain ⟨data, hdata⟩ := data_at hentry.1
    refine ⟨data, hdata, fieldsOf_eq hstream hdata, raise entry, ?_, rfl, congrArg (· + 1) hentry.2.1⟩
    exact List.mem_append_left _ (List.mem_map_of_mem hmem)
  · refine List.rel_append ?_ (List.forall₂_drop count h.pending)
    rw [List.forall₂_map_left_iff, List.forall₂_map_right_iff]
    exact htake.imp fun place entry hentry => ⟨hentry.1, congrArg (· + 1) hentry.2.1, hentry.2.2⟩

theorem lastDelivered_le (hstream : (stream.map Prod.fst).Pairwise (· < ·))
    (hended : g.lastDelivered ≤ RedisStreams.lastId stream) :
    (g.readNew stream consumer count).2.lastDelivered ≤ RedisStreams.lastId stream := by
  cases hlast : ((g.unread stream).take count).getLast? with
  | none => simpa [readNew, hlast] using hended
  | some last =>
    have hmem := (new_spec (List.mem_of_getLast? hlast)).1
    simpa [readNew, hlast] using RedisStreams.le_lastId hstream (List.mem_map_of_mem hmem)

theorem Keeps.consume_new (h : g.Keeps stream consumer reader)
    (hstream : (stream.map Prod.fst).Pairwise (· < ·)) (hpending : reader.pending = []) :
    List.Forall₂ (ReadAt stream (g.consume stream consumer count).2.pel)
        (reader.read stream.length count).1 (g.consume stream consumer count).1 ∧
      Keeps stream consumer (g.consume stream consumer count).2
        (reader.read stream.length count).2 := by
  have hpel : g.pel = [] := by
    rw [← List.length_eq_zero_iff, ← h.pending.length_eq, hpending]
    rfl
  have hplaces := forall₂_places stream reader.cursor count
  have hread : reader.read stream.length count =
      ((List.range' reader.cursor ((stream.drop reader.cursor).take count).length).map (Place.mk · 1),
        ⟨reader.cursor + ((stream.drop reader.cursor).take count).length,
          (List.range' reader.cursor
            ((stream.drop reader.cursor).take count).length).map (Place.mk · 1)⟩) := by
    rw [Reader.read, if_neg (not_not.mpr hpending), List.length_take, List.length_drop]
    simp
  have hcursor := drop_take_length (stream.drop reader.cursor) count
  rw [List.drop_drop, List.drop_drop] at hcursor
  have hnew : (g.unread stream).take count = (stream.drop reader.cursor).take count := by
    rw [h.unread]
  generalize (stream.drop reader.cursor).take count = new at hplaces hread hcursor hnew
  have hpelNew : (g.readNew stream consumer count).2.pel =
      new.map fun e => ⟨e.1, consumer, 1⟩ := by
    have hassign : new.foldl (fun pel e => assign consumer pel e.1) [] =
        [] ++ new.map fun e => ⟨e.1, consumer, 1⟩ :=
      assignAll_append (hnew ▸ new_sorted hstream count g) fun _ h => absurd h List.not_mem_nil
    simp only [readNew, hpel, hnew]
    exact hassign
  rw [consume_of_empty hpel, hread]
  refine ⟨?_, lastDelivered_le hstream h.ended, ?_, ?_⟩
  · rw [hpelNew]
    simp only [readNew, hnew]
    rw [List.forall₂_map_left_iff, List.forall₂_map_right_iff]
    refine forall₂_imp_mem hplaces fun index e hmem hat => ?_
    exact ⟨e.2, hat, rfl, _, List.mem_map_of_mem hmem, rfl, rfl⟩
  · rw [unread_readNew hstream, h.unread, List.drop_drop]
    exact hcursor.symm
  · rw [hpelNew, List.forall₂_map_left_iff, List.forall₂_map_right_iff]
    refine hplaces.imp fun index e hat => ⟨?_, rfl, rfl⟩
    rw [List.getElem?_map, hat]
    rfl

end Group

namespace RedisStreamsQueue

open RedisStreams

variable {R δ : Type} {server : StreamServer R δ} {view : R → RedisStreams δ}
  {consumerOf : Text × Text → Text} {r : R} {published : Text → List (Text × δ)} {log : ReaderLog δ}
  {queue group : Text}

structure Keeps (view : R → RedisStreams δ) (consumerOf : Text × Text → Text) (r : R)
    (published : Text → List (Text × δ)) (log : ReaderLog δ) : Prop where
  sound : (view r).Sound
  started : ∀ key, ∀ id ∈ ((view r).entries key).map Prod.fst, (⟨0, 0⟩ : StreamId) < id
  streams : ∀ queue, streamOf view queue r = published queue
  messages : ∀ queue, ((view r).entries queue).map Prod.snd = log.messages queue
  logSound : log.Sound
  created : ∀ key, ((view r).groups key).isSome = (log.readers key).isSome
  groups : ∀ queue group, ((view r).groupOf queue group).Keeps ((view r).entries queue)
    (consumerOf (queue, group)) (log.readerOf queue group)

theorem keeps_empty (consumerOf : Text × Text → Text) (hempty : view r = RedisStreams.empty) :
    Keeps view consumerOf r (fun _ => []) ReaderLog.empty where
  sound := hempty ▸ sound_empty
  started := by
    rw [hempty]
    exact fun _ _ h => nomatch h
  streams queue := by
    rw [streamOf, hempty]
    rfl
  messages queue := by
    rw [hempty]
    rfl
  logSound := ReaderLog.sound_empty
  created key := by
    rw [hempty]
    rfl
  groups queue group := by
    rw [hempty]
    exact ⟨Std.Refl.refl _, rfl, .nil⟩

theorem Keeps.length (h : Keeps view consumerOf r published log) (queue : Text) :
    (log.messages queue).length = ((view r).entries queue).length := by
  rw [← h.messages, List.length_map]

theorem Keeps.withGroup (h : Keeps view consumerOf r published log) {r' : R} {g : Group}
    {reader : Reader} (hview : view r' = (view r).withGroup queue group g)
    (hsound : g.Sound ((view r).entries queue))
    (hreader : reader.Sound (log.messages queue).length)
    (hgroup : g.Keeps ((view r).entries queue) (consumerOf (queue, group)) reader) :
    Keeps view consumerOf r' published (log.withReader queue group reader) where
  sound := hview ▸ h.sound.withGroup hsound
  started := by
    rw [hview]
    exact h.started
  streams queue' := by
    rw [← h.streams queue', streamOf, streamOf, hview]
    rfl
  messages queue' := by
    rw [hview]
    exact h.messages queue'
  logSound := h.logSound.withReader hreader
  created key := by
    rw [hview, ReaderLog.readers_withReader]
    by_cases hkey : key = (queue, group)
    · subst hkey
      simp [RedisStreams.withGroup]
    · simp only [RedisStreams.withGroup, Function.update_of_ne hkey]
      exact h.created key
  groups queue' group' := by
    rw [hview]
    by_cases hkey : (queue', group') = (queue, group)
    · obtain ⟨rfl, rfl⟩ := hkey
      rw [groupOf_withGroup, ReaderLog.readerOf_withReader]
      exact hgroup
    · rw [groupOf_withGroup_of_ne g (view r) hkey, ReaderLog.readerOf_withReader_of_ne hkey]
      exact h.groups queue' group'

theorem Keeps.publish (hserver : server.Follows view) (h : Keeps view consumerOf r published log)
    (queue : Text) (message : δ) :
    Keeps view consumerOf (publish server queue message r).2 (Function.update published queue
      (published queue ++ [((publish server queue message r).1, message)]))
      (log.publish queue message) := by
  obtain ⟨now, hid, hview⟩ := hserver.xadd queue message r
  have hentries : ∀ queue', (view (RedisStreamsQueue.publish server queue message r).2).entries queue' =
      if queue' = queue then (view r).entries queue ++
        [(nextId now (lastId ((view r).entries queue)), message)] else (view r).entries queue' := by
    intro queue'
    rw [RedisStreamsQueue.publish, hview]
    exact Function.update_apply ..
  have hgroups : (view (RedisStreamsQueue.publish server queue message r).2).groups = (view r).groups := by
    rw [RedisStreamsQueue.publish, hview]
    rfl
  have hreturned : (RedisStreamsQueue.publish server queue message r).1 =
      (nextId now (lastId ((view r).entries queue))).text := hid
  refine ⟨?_, fun key id hmem => ?_, fun queue' => ?_, fun queue' => ?_,
    h.logSound.publish queue message, fun key => ?_, fun queue' group => ?_⟩
  · rw [RedisStreamsQueue.publish, hview]
    exact h.sound.xadd now queue message
  · rw [hentries] at hmem
    split at hmem
    · rename_i hkey
      subst hkey
      rw [List.map_append, List.mem_append, List.map_singleton, List.mem_singleton] at hmem
      rcases hmem with hold | rfl
      · exact h.started key id hold
      · exact (start_le _).trans_lt (lt_nextId now _)
    · exact h.started key id hmem
  · rw [streamOf, hentries, hreturned]
    by_cases hqueue : queue' = queue
    · subst hqueue
      rw [if_pos rfl, Function.update_self, List.map_append, ← h.streams, streamOf]
      rfl
    · rw [if_neg hqueue, Function.update_of_ne hqueue]
      exact h.streams queue'
  · rw [hentries]
    by_cases hqueue : queue' = queue
    · subst hqueue
      simp [ReaderLog.publish, h.messages]
    · simp [ReaderLog.publish, hqueue, h.messages]
  · rw [hgroups]
    exact h.created key
  · have hgroup : (view (RedisStreamsQueue.publish server queue message r).2).groupOf queue' group =
        (view r).groupOf queue' group := by
      rw [groupOf, hgroups]
      rfl
    rw [hgroup, hentries]
    by_cases hqueue : queue' = queue
    · subst hqueue
      rw [if_pos rfl]
      refine (h.groups queue' group).append ?_ (lt_nextId now _) message
      rw [← h.length]
      exact (h.logSound queue' group).cursor_le
    · rw [if_neg hqueue]
      exact h.groups queue' group

theorem Keeps.ensureGroup (hserver : server.Follows view) (h : Keeps view consumerOf r published log)
    (queue group : Text) (start : Start) :
    Keeps view consumerOf (ensureGroup server queue group start.text r) published
      (log.ensureGroup queue group start) := by
  cases start with
  | beginning =>
    rw [ReaderLog.ensureGroup_beginning]
    exact h.withGroup (view_ensureGroup hserver queue group r) (h.sound.groups queue group)
      (h.logSound queue group) (h.groups queue group)
  | «end» =>
    have hview := hserver.xgroupCreate queue group "$".toList r
    have hcreated := h.created (queue, group)
    cases hgroup : (view r).groups (queue, group) with
    | some g =>
      have hsame : view (RedisStreamsQueue.ensureGroup server queue group Start.end.text r) =
          (view r).withGroup queue group ((view r).groupOf queue group) := by
        refine hview.trans ?_
        rw [xgroupCreate, RedisStreams.withGroup, groupOf, hgroup]
        simp only [Option.getD_some]
        rw [← hgroup, Function.update_eq_self]
      obtain ⟨reader, hreader⟩ : ∃ reader, log.readers (queue, group) = some reader := by
        rw [hgroup] at hcreated
        exact Option.isSome_iff_exists.mp hcreated.symm
      have hlog : log.ensureGroup queue group .end =
          log.withReader queue group (log.readerOf queue group) := by
        rw [← ReaderLog.ensureGroup_beginning]
        unfold ReaderLog.ensureGroup
        rw [hreader]
      rw [hlog]
      exact h.withGroup hsame (h.sound.groups queue group) (h.logSound queue group)
        (h.groups queue group)
    | none =>
      have hreader : log.readers (queue, group) = none := by
        rw [hgroup] at hcreated
        exact Option.isNone_iff_eq_none.mp (by simpa using hcreated.symm)
      have hlog : log.ensureGroup queue group .end =
          log.withReader queue group ⟨(log.messages queue).length, []⟩ := by
        unfold ReaderLog.ensureGroup
        rw [hreader]
      have hnew : view (RedisStreamsQueue.ensureGroup server queue group Start.end.text r) =
          (view r).withGroup queue group ⟨lastId ((view r).entries queue), []⟩ := by
        refine hview.trans ?_
        rw [xgroupCreate, hgroup]
        rfl
      rw [hlog]
      refine h.withGroup hnew ⟨.nil, fun _ h => absurd h List.not_mem_nil,
          fun _ h => absurd h List.not_mem_nil⟩
        ⟨Nat.le_refl _, .nil, fun _ h => absurd h List.not_mem_nil⟩ ⟨Std.Refl.refl _, ?_, .nil⟩
      rw [h.length, List.drop_length]
      refine List.filter_eq_nil_iff.mpr fun e he => ?_
      simpa using le_lastId (h.sound.sorted queue) (List.mem_map_of_mem he)

theorem forall₂_filterMap {α β γ : Type} {P : α → β → Prop} {Q : α → γ → Prop} {f : β → Option γ}
    {xs : List α} {ys : List β} (h : List.Forall₂ P xs ys)
    (himp : ∀ x y, P x y → ∃ z, f y = some z ∧ Q x z) : List.Forall₂ Q xs (ys.filterMap f) := by
  induction h with
  | nil => exact .nil
  | cons hxy _ ih =>
    obtain ⟨z, hz, hq⟩ := himp _ _ hxy
    rw [List.filterMap_cons_some hz]
    exact .cons hq ih

theorem Keeps.consume (hserver : server.Follows view) (h : Keeps view consumerOf r published log)
    (queue group : Text) (count : ℕ+) :
    List.Forall₂ (Names (published queue)) (log.consume queue group count).1
        (consume server queue group (consumerOf (queue, group)) count r).1 ∧
      Keeps view consumerOf (consume server queue group (consumerOf (queue, group)) count r).2
        published (log.consume queue group count).2 := by
  have hgroup := h.groups queue group
  have hsound := h.sound.groups queue group
  have hsorted := h.sound.sorted queue
  have hread : List.Forall₂ (Group.ReadAt ((view r).entries queue)
        (((view r).groupOf queue group).consume ((view r).entries queue)
          (consumerOf (queue, group)) count).2.pel)
        ((log.readerOf queue group).read ((view r).entries queue).length count).1
        (((view r).groupOf queue group).consume ((view r).entries queue)
          (consumerOf (queue, group)) count).1 ∧
      Group.Keeps ((view r).entries queue) (consumerOf (queue, group))
        (((view r).groupOf queue group).consume ((view r).entries queue)
          (consumerOf (queue, group)) count).2
        ((log.readerOf queue group).read ((view r).entries queue).length count).2 := by
    by_cases hpending : (log.readerOf queue group).pending = []
    · exact hgroup.consume_new hsorted hpending
    · exact hgroup.consume_again hsound (hsorted.imp fun hlt => hlt.ne) (h.started queue)
        count.pos hpending
  obtain ⟨hreplies, hnext⟩ := hread
  obtain ⟨hview, hmessages⟩ := consume_spec hserver queue group (consumerOf (queue, group)) count r
  have hsoundNext := hsound.consume hsorted (consumerOf (queue, group)) count
  rw [← h.length] at hreplies hnext
  refine ⟨?_, h.withGroup hview hsoundNext ((h.logSound queue group).next count) hnext⟩
  rw [hmessages, List.filterMap_map]
  refine forall₂_filterMap hreplies fun place reply hat => ?_
  obtain ⟨data, hentry, hfields, entry, hmem, hid, htimes⟩ := hat
  refine ⟨⟨entry.id.text, data, entry.timesDelivered⟩, ?_, ?_, htimes⟩
  · simp only [Function.comp_apply, hfields, ← hid]
    exact toMessage_of_pending hserver hview hsoundNext.sorted hmem data
  · rw [← h.streams, streamOf, List.getElem?_map, hentry, hid]
    rfl

theorem isSome_xack (key group id : Text) (s : RedisStreams δ) (other : Text × Text) :
    ((s.xack key group id).groups other).isSome = (s.groups other).isSome := by
  unfold xack
  split
  · rename_i g _ hgroup _
    by_cases hkey : other = (key, group)
    · subst hkey
      simp [hgroup]
    · simp only [Function.update_of_ne hkey]
  · rfl

theorem Keeps.ack (hserver : server.Follows view) (h : Keeps view consumerOf r published log)
    (queue group : Text) {index : ℕ} {entry : Text × δ}
    (hentry : (published queue)[index]? = some entry) :
    Keeps view consumerOf (ack server queue group entry.1 r) published
      (log.ack queue group index) := by
  have hstream := h.streams queue
  rw [← hstream, streamOf, List.getElem?_map, Option.map_eq_some_iff] at hentry
  obtain ⟨⟨id, data⟩, hat, rfl⟩ := hentry
  obtain ⟨hentries, hgroup, hother⟩ := view_ack hserver queue group id r
  have hid : (((view r).entries queue).map Prod.fst)[index]? = some id := by
    rw [List.getElem?_map, hat]
    rfl
  have hmessages : (log.ack queue group index).messages = log.messages := by
    unfold ReaderLog.ack
    split
    · rfl
    · rfl
  refine ⟨sound_ack hserver h.sound queue group id, ?_, fun queue' => ?_, fun queue' => ?_,
    h.logSound.ack queue group index, fun key => ?_, fun queue' group' => ?_⟩
  · rw [hentries]
    exact h.started
  · rw [← h.streams queue', streamOf, streamOf, hentries]
  · rw [hentries, hmessages]
    exact h.messages queue'
  · rw [RedisStreamsQueue.ack, hserver.xack, isSome_xack, h.created]
    unfold ReaderLog.ack
    split
    · rfl
    · rename_i reader hreader
      rw [ReaderLog.readers_withReader]
      by_cases hkey : key = (queue, group)
      · subst hkey
        simp [hreader]
      · rw [Function.update_of_ne hkey]
  · rw [hentries]
    by_cases hkey : (queue', group') = (queue, group)
    · obtain ⟨rfl, rfl⟩ := hkey
      rw [hgroup, ReaderLog.readerOf_ack]
      exact (h.groups queue group).ack ((h.sound.sorted queue).imp fun hlt => hlt.ne) hid
    · rw [hother (queue', group') hkey, ReaderLog.readerOf_ack_of_ne hkey]
      exact h.groups queue' group'

theorem refines (hserver : server.Follows view) (consumerOf : Text × Text → Text) :
    Refines (port server) consumerOf (Keeps view consumerOf) where
  publish h queue message := h.publish hserver queue message
  ensureGroup h queue group start := h.ensureGroup hserver queue group start
  consume h queue group count := h.consume hserver queue group count
  ack h queue group _ _ hentry := h.ack hserver queue group hentry

end RedisStreamsQueue

/-- Two runs return the same under names that keep the order of the entries: numbers in one
driver, stream ids in the other. -/
structure Agree {R δ : Type}
    (fake : List (Text × List (QueueMessage δ)) × Client (InMemoryQueue δ) δ)
    (driver : List (Text × List (QueueMessage δ)) × Client R δ) : Prop where
  returns : SameReturns fake driver
  numbered : ∀ queue, ∃ numbers : List ℕ, numbers.Pairwise (· < ·) ∧
    (fake.2.published queue).map Prod.fst = numbers.map InMemoryQueue.seqId
  increasing : ∀ queue, ∃ ids : List StreamId, ids.Pairwise (· < ·) ∧
    (driver.2.published queue).map Prod.fst = ids.map StreamId.text

/-- The in-memory driver and the Redis Streams driver agree over every sequence of calls. -/
theorem drivers_agree {R δ : Type} {server : StreamServer R δ} {view : R → RedisStreams δ}
    (hserver : server.Follows view) {r : R} (hempty : view r = RedisStreams.empty)
    (consumerOf : Text × Text → Text) (calls : List (ClientCall δ)) :
    Agree (InMemoryQueue.port.runCalls consumerOf ⟨InMemoryQueue.empty, fun _ => []⟩ calls)
      ((RedisStreamsQueue.port server).runCalls consumerOf ⟨r, fun _ => []⟩ calls) := by
  have hstart : ∀ queue,
      ((⟨InMemoryQueue.empty, fun _ => []⟩ : Client (InMemoryQueue δ) δ).published queue).map
        Prod.snd = ((⟨r, fun _ => []⟩ : Client R δ).published queue).map Prod.snd :=
    fun _ => rfl
  obtain ⟨hreturns, log, hfake, hdriver⟩ :=
    runCalls_alike (InMemoryQueue.refines consumerOf)
      (RedisStreamsQueue.refines hserver consumerOf) InMemoryQueue.keeps_empty
      (RedisStreamsQueue.keeps_empty consumerOf hempty) hstart calls
  refine ⟨hreturns, fun queue => ?_, fun queue => ⟨_, hdriver.sound.sorted queue, ?_⟩⟩
  · obtain ⟨numbers, hincreasing, -, hids⟩ := hfake.numbered queue
    exact ⟨numbers, hincreasing, hids⟩
  · rw [← hdriver.streams queue, RedisStreamsQueue.streamOf, List.map_map, List.map_map]
    rfl

def sampleCalls : List (ClientCall ℕ) :=
  [.publish "pages".toList 7, .ensureGroup "pages".toList "triage".toList .end,
    .publish "pages".toList 8, .publish "pages".toList 9,
    .consume "pages".toList "triage".toList 2, .ack "pages".toList "triage".toList 1,
    .consume "pages".toList "triage".toList 2]

theorem drivers_agree_sampleCalls :
    Agree (InMemoryQueue.port.runCalls (fun _ => "worker".toList)
        ⟨InMemoryQueue.empty, fun _ => []⟩ sampleCalls)
      ((RedisStreamsQueue.port (RedisStreams.server ℕ 5)).runCalls (fun _ => "worker".toList)
        ⟨RedisStreams.empty, fun _ => []⟩ sampleCalls) :=
  drivers_agree (RedisStreams.server_follows ℕ 5) rfl _ sampleCalls

example : ((RedisStreamsQueue.port (RedisStreams.server ℕ 5)).runCalls (fun _ => "worker".toList)
    ⟨RedisStreams.empty, fun _ => []⟩ sampleCalls).1.map (fun returned =>
      returned.2.map fun message => (message.data, message.deliveryCount)) =
    [[(8, 1), (9, 1)], [(9, 2)]] := by
  decide +kernel

end LandRecords.Queue
