import LandRecords.Queue.RedisServer
import Mathlib

/-! What holds of a consumer group while its position is not moved back: an entry is
pending for one consumer only, and every pending entry has been read. -/
namespace LandRecords.Queue.Group

open Text

variable {δ : Type} {stream : List (StreamId × δ)} {g : Group} {consumer : Text} {count : Nat}

structure Sound (stream : List (StreamId × δ)) (g : Group) : Prop where
  sorted : g.pel.Pairwise (·.id < ·.id)
  read : ∀ entry ∈ g.pel, entry.id ≤ g.lastDelivered
  known : ∀ entry ∈ g.pel, entry.id ∈ stream.map Prod.fst

def Owns (g : Group) (consumer : Text) (id : StreamId) : Prop :=
  ∃ entry ∈ g.pel, entry.id = id ∧ entry.consumer = consumer

instance (g : Group) (consumer : Text) (id : StreamId) : Decidable (g.Owns consumer id) :=
  inferInstanceAs (Decidable (∃ entry ∈ g.pel, entry.id = id ∧ entry.consumer = consumer))

theorem Sound.owner_unique (h : Sound stream g) {other : Text} {id : StreamId}
    (hown : g.Owns consumer id) (hother : g.Owns other id) : consumer = other := by
  obtain ⟨entry, hentry, hid, rfl⟩ := hown
  obtain ⟨entry', hentry', hid', rfl⟩ := hother
  have hnodup : (g.pel.map PendingEntry.id).Nodup :=
    List.pairwise_map.mpr (h.sorted.imp fun hlt => hlt.ne)
  rw [List.inj_on_of_nodup_map hnodup hentry hentry' (hid.trans hid'.symm)]

theorem mem_assign {pel : List PendingEntry} {id : StreamId} {entry : PendingEntry} :
    entry ∈ assign consumer pel id ↔
      entry = ⟨id, consumer, 1⟩ ∨ entry ∈ pel ∧ entry.id ≠ id := by
  simp only [assign, List.mem_append, List.mem_filter, List.mem_cons, decide_eq_true_eq]
  rw [ne_iff_lt_or_gt]
  tauto

theorem assign_sorted {pel : List PendingEntry} (h : pel.Pairwise (·.id < ·.id)) (id : StreamId) :
    (assign consumer pel id).Pairwise (·.id < ·.id) := by
  refine List.pairwise_append.mpr ⟨h.filter _, List.pairwise_cons.mpr ⟨?_, h.filter _⟩, ?_⟩
  · intro entry hentry
    simpa using (List.mem_filter.mp hentry).2
  · intro low hlow high hhigh
    have hbelow : low.id < id := by simpa using (List.mem_filter.mp hlow).2
    rcases List.mem_cons.mp hhigh with rfl | hhigh
    · exact hbelow
    · have habove : id < high.id := by simpa using (List.mem_filter.mp hhigh).2
      exact hbelow.trans habove

theorem mem_assignAll {new : List (StreamId × δ)} {pel : List PendingEntry}
    {entry : PendingEntry} :
    entry ∈ new.foldl (fun pel e => assign consumer pel e.1) pel ↔
      (∃ e ∈ new, entry = ⟨e.1, consumer, 1⟩) ∨ entry ∈ pel ∧ entry.id ∉ new.map Prod.fst := by
  induction new generalizing pel with
  | nil => simp
  | cons e rest ih =>
    rw [List.foldl_cons, ih, mem_assign]
    constructor
    · rintro (⟨e', he', rfl⟩ | ⟨rfl | ⟨hmem, hne⟩, hrest⟩)
      · exact .inl ⟨e', List.mem_cons_of_mem _ he', rfl⟩
      · exact .inl ⟨e, List.mem_cons_self, rfl⟩
      · exact .inr ⟨hmem, List.not_mem_cons_of_ne_of_not_mem hne hrest⟩
    · rintro (⟨e', he', rfl⟩ | ⟨hmem, hnot⟩)
      · by_cases hrest : e'.1 ∈ rest.map Prod.fst
        · obtain ⟨later, hlater, hid⟩ := List.mem_map.mp hrest
          exact .inl ⟨later, hlater, by rw [hid]⟩
        · rcases List.mem_cons.mp he' with rfl | he'
          · exact .inr ⟨.inl rfl, hrest⟩
          · exact absurd (List.mem_map_of_mem he') hrest
      · rw [List.map_cons, List.mem_cons, not_or] at hnot
        exact .inr ⟨.inr ⟨hmem, hnot.1⟩, hnot.2⟩

theorem assignAll_sorted {new : List (StreamId × δ)} {pel : List PendingEntry}
    (h : pel.Pairwise (·.id < ·.id)) :
    (new.foldl (fun pel e => assign consumer pel e.1) pel).Pairwise (·.id < ·.id) := by
  induction new generalizing pel with
  | nil => exact h
  | cons e rest ih => exact ih (assign_sorted h e.1)

section ReadNew

theorem new_sorted (hstream : (stream.map Prod.fst).Pairwise (· < ·)) (count : Nat) (g : Group) :
    (((g.unread stream).take count).map Prod.fst).Pairwise (· < ·) :=
  hstream.sublist (((List.take_sublist _ _).trans List.filter_sublist).map _)

theorem new_spec {e : StreamId × δ} (h : e ∈ (g.unread stream).take count) :
    e ∈ stream ∧ g.lastDelivered < e.1 := by
  have hmem := List.mem_filter.mp (List.mem_of_mem_take h)
  exact ⟨hmem.1, by simpa using hmem.2⟩

theorem le_lastDelivered (hstream : (stream.map Prod.fst).Pairwise (· < ·)) {e : StreamId × δ}
    (h : e ∈ (g.unread stream).take count) :
    e.1 ≤ (g.readNew stream consumer count).2.lastDelivered := by
  have hsorted := new_sorted hstream count g
  simp only [readNew]
  generalize (g.unread stream).take count = new at h hsorted
  induction new using List.reverseRecOn with
  | nil => exact absurd h List.not_mem_nil
  | append_singleton front last _ =>
    rw [List.getLast?_concat, Option.map_some, Option.getD_some]
    rw [List.map_append, List.pairwise_append] at hsorted
    rcases List.mem_append.mp h with hfront | hlast
    · exact (hsorted.2.2 _ (List.mem_map_of_mem hfront) _ (List.mem_singleton_self _)).le
    · rw [List.mem_singleton.mp hlast]

theorem lastDelivered_mono (hstream : (stream.map Prod.fst).Pairwise (· < ·)) (consumer : Text)
    (count : Nat) (g : Group) :
    g.lastDelivered ≤ (g.readNew stream consumer count).2.lastDelivered := by
  cases hnew : (g.unread stream).take count with
  | nil => simp [readNew, hnew]
  | cons e rest =>
    have hmem : e ∈ (g.unread stream).take count := by rw [hnew]; exact List.mem_cons_self
    exact (new_spec hmem).2.le.trans (le_lastDelivered hstream hmem)

theorem Sound.readNew (h : Sound stream g) (hstream : (stream.map Prod.fst).Pairwise (· < ·)) :
    Sound stream (g.readNew stream consumer count).2 where
  sorted := assignAll_sorted h.sorted
  read entry hentry := by
    rcases mem_assignAll.mp hentry with ⟨e, he, rfl⟩ | ⟨hold, -⟩
    · exact le_lastDelivered hstream he
    · exact (h.read entry hold).trans (lastDelivered_mono hstream consumer count g)
  known entry hentry := by
    rcases mem_assignAll.mp hentry with ⟨e, he, rfl⟩ | ⟨hold, -⟩
    · exact List.mem_map_of_mem (new_spec he).1
    · exact h.known entry hold

theorem Sound.owns_readNew (h : Sound stream g) {other : Text} {id : StreamId}
    (hown : g.Owns other id) : (g.readNew stream consumer count).2.Owns other id := by
  obtain ⟨entry, hentry, rfl, rfl⟩ := hown
  refine ⟨entry, mem_assignAll.mpr (.inr ⟨hentry, fun hnew => ?_⟩), rfl, rfl⟩
  obtain ⟨e, he, hid⟩ := List.mem_map.mp hnew
  exact absurd (h.read entry hentry) (not_le.mpr (hid ▸ (new_spec he).2))

end ReadNew

section ReadPending

variable {after : StreamId}

theorem readPending_pel (stream : List (StreamId × δ)) (consumer : Text) (after : StreamId)
    (count : Nat) (g : Group) :
    ∃ redeliver : PendingEntry → PendingEntry,
      (g.readPending stream consumer after count).2 =
          { g with pel := g.pel.map redeliver } ∧
        ∀ entry, (redeliver entry).id = entry.id ∧ (redeliver entry).consumer = entry.consumer := by
  refine ⟨_, rfl, fun entry => ?_⟩
  split
  · exact ⟨rfl, rfl⟩
  · exact ⟨rfl, rfl⟩

theorem Sound.readPending (h : Sound stream g) :
    Sound stream (g.readPending stream consumer after count).2 := by
  obtain ⟨redeliver, heq, hkeeps⟩ := readPending_pel stream consumer after count g
  rw [heq]
  refine ⟨List.pairwise_map.mpr (h.sorted.imp fun hlt => ?_), ?_, ?_⟩
  · rw [(hkeeps _).1, (hkeeps _).1]
    exact hlt
  · intro entry hentry
    obtain ⟨old, hold, rfl⟩ := List.mem_map.mp hentry
    rw [(hkeeps old).1]
    exact h.read old hold
  · intro entry hentry
    obtain ⟨old, hold, rfl⟩ := List.mem_map.mp hentry
    rw [(hkeeps old).1]
    exact h.known old hold

theorem owns_readPending {other : Text} {id : StreamId} :
    (g.readPending stream consumer after count).2.Owns other id ↔ g.Owns other id := by
  obtain ⟨redeliver, heq, hkeeps⟩ := readPending_pel stream consumer after count g
  rw [heq]
  constructor
  · rintro ⟨entry, hentry, rfl, rfl⟩
    obtain ⟨old, hold, rfl⟩ := List.mem_map.mp hentry
    exact ⟨old, hold, (hkeeps old).1.symm, (hkeeps old).2.symm⟩
  · rintro ⟨entry, hentry, rfl, rfl⟩
    exact ⟨redeliver entry, List.mem_map_of_mem hentry, (hkeeps entry).1, (hkeeps entry).2⟩

end ReadPending

section Consume

def consume (stream : List (StreamId × δ)) (consumer : Text) (count : Nat) (g : Group) :
    List (StreamId × Option δ) × Group :=
  let pending := g.readPending stream consumer ⟨0, 0⟩ count
  if pending.1.isEmpty then pending.2.readNew stream consumer count else pending

theorem Sound.consume (h : Sound stream g) (hstream : (stream.map Prod.fst).Pairwise (· < ·))
    (consumer : Text) (count : Nat) :
    Sound stream (g.consume stream consumer count).2 := by
  unfold Group.consume
  simp only []
  split
  · exact h.readPending.readNew hstream
  · exact h.readPending

theorem Sound.owns_consume (h : Sound stream g) (consumer : Text) (count : Nat) {other : Text}
    {id : StreamId} (hown : g.Owns other id) : (g.consume stream consumer count).2.Owns other id := by
  unfold Group.consume
  simp only []
  split
  · exact h.readPending.owns_readNew (owns_readPending.mpr hown)
  · exact owns_readPending.mpr hown

/-- Whatever is read is pending for the reader from then on. -/
theorem owns_of_mem_consume {entry : StreamId × Option δ}
    (hentry : entry ∈ (g.consume stream consumer count).1) :
    (g.consume stream consumer count).2.Owns consumer entry.1 := by
  unfold Group.consume at hentry ⊢
  simp only [] at hentry ⊢
  split at hentry
  · next hempty =>
    rw [if_pos hempty]
    obtain ⟨e, he, rfl⟩ := List.mem_map.mp hentry
    exact ⟨⟨e.1, consumer, 1⟩, mem_assignAll.mpr (.inl ⟨e, he, rfl⟩), rfl, rfl⟩
  · next hempty =>
    rw [if_neg hempty]
    obtain ⟨own, hown, rfl⟩ := List.mem_map.mp hentry
    have hmem := List.mem_filter.mp (List.mem_of_mem_filter (List.mem_of_mem_take hown))
    exact owns_readPending.mpr ⟨own, hmem.1, rfl, by simpa using hmem.2⟩

def Due (g : Group) (consumer : Text) (id : StreamId) : Prop :=
  g.lastDelivered < id ∨ g.Owns consumer id

instance (g : Group) (consumer : Text) : DecidablePred (g.Due consumer) :=
  fun _ => inferInstanceAs (Decidable (_ ∨ _))

theorem due_of_consume (hstream : (stream.map Prod.fst).Pairwise (· < ·)) {id : StreamId}
    (hdue : (g.consume stream consumer count).2.Due consumer id) : g.Due consumer id := by
  unfold Group.consume at hdue
  simp only [] at hdue
  split at hdue
  · rcases hdue with hunread | ⟨entry, hentry, rfl, hconsumer⟩
    · exact .inl ((lastDelivered_mono hstream consumer count _).trans_lt hunread)
    · rcases mem_assignAll.mp hentry with ⟨e, he, rfl⟩ | ⟨hold, -⟩
      · exact .inl (new_spec he).2
      · exact .inr (owns_readPending.mp ⟨entry, hold, rfl, hconsumer⟩)
  · exact hdue.imp_right owns_readPending.mp

theorem Sound.filter (h : Sound stream g) (keep : PendingEntry → Bool) :
    Sound stream { g with pel := g.pel.filter keep } where
  sorted := h.sorted.filter keep
  read entry hentry := h.read entry (List.mem_of_mem_filter hentry)
  known entry hentry := h.known entry (List.mem_of_mem_filter hentry)

theorem due_of_filter {keep : PendingEntry → Bool} {id : StreamId}
    (h : ({ g with pel := g.pel.filter keep } : Group).Due consumer id) : g.Due consumer id := by
  rcases h with hunread | ⟨entry, hentry, hid, hconsumer⟩
  · exact .inl hunread
  · exact .inr ⟨entry, List.mem_of_mem_filter hentry, hid, hconsumer⟩

/-- An entry that was read and acked is not due to anyone. -/
theorem not_due_of_acked {id : StreamId} (hread : id ≤ g.lastDelivered)
    (hacked : ∀ entry ∈ g.pel, entry.id ≠ id) : ¬g.Due consumer id := by
  rintro (hunread | ⟨entry, hentry, hid, -⟩)
  · exact absurd hread (not_le.mpr hunread)
  · exact hacked entry hentry hid

end Consume

end LandRecords.Queue.Group

namespace LandRecords.Queue.RedisStreams

open Text

variable {δ : Type}

/-- The group, or the one that the first `consume` creates. -/
def groupOf (key group : Text) (s : RedisStreams δ) : Group :=
  (s.groups (key, group)).getD ⟨⟨0, 0⟩, []⟩

structure Sound (s : RedisStreams δ) : Prop where
  sorted : ∀ key, ((s.entries key).map Prod.fst).Pairwise (· < ·)
  groups : ∀ key group, (s.groupOf key group).Sound (s.entries key)

theorem sound_empty : Sound (empty : RedisStreams δ) where
  sorted _ := List.Pairwise.nil
  groups _ _ := ⟨List.Pairwise.nil, fun _ h => absurd h List.not_mem_nil,
    fun _ h => absurd h List.not_mem_nil⟩

theorem lt_nextId (now : Nat) (last : StreamId) : last < nextId now last := by
  unfold nextId
  split
  · next hlt => exact StreamId.lt_iff.mpr (.inl hlt)
  · exact StreamId.lt_iff.mpr (.inr ⟨rfl, Nat.lt_succ_self _⟩)

theorem le_lastId {stream : List (StreamId × δ)} (h : (stream.map Prod.fst).Pairwise (· < ·))
    {id : StreamId} (hid : id ∈ stream.map Prod.fst) : id ≤ lastId stream := by
  induction stream using List.reverseRecOn with
  | nil => exact absurd hid List.not_mem_nil
  | append_singleton front last _ =>
    rw [List.map_append, List.pairwise_append] at h
    rw [lastId, List.getLast?_concat, Option.map_some, Option.getD_some]
    rw [List.map_append, List.mem_append] at hid
    rcases hid with hid | hid
    · exact (h.2.2 _ hid _ (List.mem_singleton_self _)).le
    · exact (List.mem_singleton.mp hid).le

theorem Sound.xadd {s : RedisStreams δ} (h : s.Sound) (now : Nat) (key : Text) (fields : δ) :
    (s.xadd now key fields).2.Sound := by
  have hentries : ∀ other, s.entries other <+: (s.xadd now key fields).2.entries other := by
    intro other
    by_cases hkey : other = key
    · subst hkey
      simp only [RedisStreams.xadd, Function.update_self]
      exact List.prefix_append _ _
    · simp only [RedisStreams.xadd, Function.update_of_ne hkey]
      exact List.prefix_refl _
  refine ⟨fun other => ?_, fun other group => ?_⟩
  · by_cases hkey : other = key
    · subst hkey
      simp only [RedisStreams.xadd, Function.update_self, List.map_append]
      refine List.pairwise_append.mpr ⟨h.sorted other, List.pairwise_singleton _ _, ?_⟩
      intro id hid new hnew
      rw [List.mem_singleton.mp hnew]
      exact (le_lastId (h.sorted other) hid).trans_lt (lt_nextId now _)
    · simp only [RedisStreams.xadd, Function.update_of_ne hkey]
      exact h.sorted other
  · have hgroup := h.groups other group
    exact ⟨hgroup.sorted, hgroup.read, fun entry hentry =>
      ((hentries other).map Prod.fst).subset (hgroup.known entry hentry)⟩

def withGroup (key group : Text) (g : Group) (s : RedisStreams δ) : RedisStreams δ :=
  { s with groups := Function.update s.groups (key, group) (some g) }

@[simp] theorem groupOf_withGroup (key group : Text) (g : Group) (s : RedisStreams δ) :
    (s.withGroup key group g).groupOf key group = g := by
  simp [groupOf, withGroup]

theorem groupOf_withGroup_of_ne {key group key' group' : Text} (g : Group) (s : RedisStreams δ)
    (hne : (key', group') ≠ (key, group)) :
    (s.withGroup key group g).groupOf key' group' = s.groupOf key' group' := by
  simp only [groupOf, withGroup, Function.update_of_ne hne]

theorem Sound.withGroup {s : RedisStreams δ} (h : s.Sound) {key group : Text} {g : Group}
    (hg : g.Sound (s.entries key)) : (s.withGroup key group g).Sound where
  sorted := h.sorted
  groups key' group' := by
    by_cases hkey : (key', group') = (key, group)
    · obtain ⟨rfl, rfl⟩ := hkey
      rw [groupOf_withGroup]
      exact hg
    · rw [groupOf_withGroup_of_ne g s hkey]
      exact h.groups key' group'

end LandRecords.Queue.RedisStreams
