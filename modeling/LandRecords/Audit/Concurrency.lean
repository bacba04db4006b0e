import LandRecords.Audit.History
import LandRecords.Base.Runs
import Mathlib

/-! Concurrent requests on the audit chain under READ COMMITTED. A request runs
one `append`, whose head query locks the row that it selected, and then commits
or rolls back. -/
namespace LandRecords.Audit

open Datetime Text

/-- The head query of a request: its arguments and the rows of its shard that
were committed when the query started. -/
structure HeadQuery where
  args : AppendArgs
  snapshot : List AuditEntry

def HeadQuery.head (query : HeadQuery) : Option AuditEntry :=
  latest AuditEntry.chainKey query.snapshot

inductive Phase
  | idle
  /-- The head query has selected its row and still has to lock it. -/
  | selected (query : HeadQuery)
  | locked (query : HeadQuery)
  | inserted (query : HeadQuery) (entry : AuditEntry)
  /-- The flush raised `IntegrityError`. -/
  | failed (query : HeadQuery)
  | finished

def Phase.query : Phase → Option HeadQuery
  | .selected query | .locked query | .inserted query _ | .failed query => some query
  | .idle | .finished => none

/-- The row that a request holds locked. An empty result locks nothing. -/
def Phase.lockedRow : Phase → Option AuditEntry
  | .locked query | .inserted query _ | .failed query => query.head
  | .idle | .selected _ | .finished => none

def Phase.entry : Phase → Option AuditEntry
  | .inserted _ entry => some entry
  | _ => none

structure Store where
  /-- The committed rows, in commit order. -/
  committed : List AuditEntry
  opened : List Nat
  phase : Nat → Phase

def Store.empty : Store := ⟨[], [], fun _ => .idle⟩

def Store.shard (store : Store) (shardId : Int) : List AuditEntry :=
  store.committed.filter fun entry => entry.shardId = shardId

def Store.set (store : Store) (request : Nat) (phase : Phase) : Store :=
  { store with phase := Function.update store.phase request phase }

def Store.isLocked (store : Store) (request : Nat) (row : AuditEntry) : Bool :=
  store.opened.any fun other => other ≠ request && (store.phase other).lockedRow = some row

def Store.uncommitted (store : Store) : List AuditEntry :=
  store.opened.filterMap fun request => (store.phase request).entry

inductive Step
  | selectHead (request : Nat) (args : AppendArgs)
  | lockHead (request : Nat)
  | insert (request : Nat) (id : Text) (now : Instant)
  | commit (request : Nat)
  | rollback (request : Nat)

/-- A step that is blocked or out of turn is disabled. -/
def step (store : Store) : Step → Option Store
  | .selectHead request args =>
      match store.phase request with
      | .idle =>
          some ({ store with opened := request :: store.opened }.set request
            (.selected ⟨args, store.shard args.resolvedShard⟩))
      | _ => none
  | .lockHead request =>
      match store.phase request with
      | .selected query =>
          if query.head.any (store.isLocked request) then none
          else some (store.set request (.locked query))
      | _ => none
  | .insert request id now =>
      match store.phase request with
      | .locked query =>
          let entry := newEntry id now query.args query.head
          if entry.primaryKey ∈ store.committed.map AuditEntry.primaryKey then
            some (store.set request (.failed query))
          -- a duplicate of an uncommitted row waits for that row's transaction
          else if entry.primaryKey ∈ store.uncommitted.map AuditEntry.primaryKey then none
          else some (store.set request (.inserted query entry))
      | _ => none
  | .commit request =>
      match store.phase request with
      | .inserted _ entry =>
          some ({ store with committed := store.committed ++ [entry] }.set request .finished)
      | _ => none
  | .rollback request =>
      match store.phase request with
      | .idle | .finished => none
      | _ => some (store.set request .finished)

/-- No two committed rows of the shard store the same link. -/
def NoFork (shardId : Int) (store : Store) : Prop :=
  ((store.shard shardId).map AuditEntry.prevHash).Nodup

/-- A commit to the shard meets the condition when nothing was committed to the
shard since the request's head query started, and the clock shows the shard's
last committed row as its latest. -/
def CommitsOnLast (shardId : Int) (store : Store) : Step → Prop
  | .commit request => ∀ query ∈ (store.phase request).query, query.args.resolvedShard = shardId →
      query.snapshot = store.shard shardId ∧
        latest AuditEntry.chainKey (store.shard shardId) = (store.shard shardId).getLast?
  | _ => True

instance (shardId : Int) (store : Store) : Decidable (NoFork shardId store) :=
  inferInstanceAs (Decidable (List.Nodup _))

instance (shardId : Int) (store : Store) : ∀ step, Decidable (CommitsOnLast shardId store step)
  | .commit request =>
      inferInstanceAs (Decidable (∀ query ∈ (store.phase request).query, _ → _ ∧ _))
  | .selectHead .. | .lockHead .. | .insert .. | .rollback .. => inferInstanceAs (Decidable True)

/-- What every reachable store satisfies, whatever the schedule. -/
structure Consistent (shardId : Int) (store : Store) : Prop where
  snapshot : ∀ request, ∀ query ∈ (store.phase request).query,
    query.args.resolvedShard = shardId → query.snapshot <+: store.shard shardId
  entry : ∀ request query entry, store.phase request = .inserted query entry →
    ∃ id now, entry = newEntry id now query.args query.head

theorem step_cases {s t : Store} {a : Step} (h : step s a = some t) :
    (∃ request query entry, a = .commit request ∧ s.phase request = .inserted query entry ∧
      t.committed = s.committed ++ [entry] ∧ t.phase = Function.update s.phase request .finished) ∨
    ((∀ request, a ≠ .commit request) ∧ t.committed = s.committed ∧
      ∃ request phase, t.phase = Function.update s.phase request phase ∧
        (∀ query ∈ phase.query, query ∈ (s.phase request).query ∨
          query.snapshot = s.shard query.args.resolvedShard) ∧
        ∀ query entry, phase = .inserted query entry →
          ∃ id now, entry = newEntry id now query.args query.head) := by
  cases a with
  | selectHead request args =>
    simp only [step] at h
    split at h
    · cases h
      refine Or.inr ⟨nofun, rfl, request, _, rfl, ?_, fun _ _ h => Phase.noConfusion h⟩
      intro query hquery
      cases hquery
      exact Or.inr rfl
    · cases h
  | lockHead request =>
    simp only [step] at h
    split at h
    · rename_i query hphase
      split at h
      · cases h
      · cases h
        refine Or.inr ⟨nofun, rfl, request, _, rfl, ?_, fun _ _ h => Phase.noConfusion h⟩
        intro other hother
        rw [hphase]
        exact Or.inl hother
    · cases h
  | insert request id now =>
    simp only [step] at h
    split at h
    · rename_i query hphase
      split at h
      · cases h
        refine Or.inr ⟨nofun, rfl, request, _, rfl, ?_, fun _ _ h => Phase.noConfusion h⟩
        intro other hother
        rw [hphase]
        exact Or.inl hother
      · split at h
        · cases h
        · cases h
          refine Or.inr ⟨nofun, rfl, request, _, rfl, ?_, ?_⟩
          · intro other hother
            rw [hphase]
            exact Or.inl hother
          · intro other entry hentry
            cases hentry
            exact ⟨id, now, rfl⟩
    · cases h
  | commit request =>
    simp only [step] at h
    split at h
    · rename_i query entry hphase
      cases h
      exact Or.inl ⟨request, query, entry, rfl, hphase, rfl, rfl⟩
    · cases h
  | rollback request =>
    simp only [step] at h
    split at h
    · cases h
    · cases h
    · cases h
      exact Or.inr ⟨nofun, rfl, request, _, rfl, nofun, fun _ _ h => Phase.noConfusion h⟩

theorem shard_of_commit {s t : Store} {entry : AuditEntry} (shardId : Int)
    (hcommitted : t.committed = s.committed ++ [entry]) :
    t.shard shardId = if entry.shardId = shardId then s.shard shardId ++ [entry]
      else s.shard shardId := by
  rw [Store.shard, hcommitted, List.filter_append]
  by_cases hshard : entry.shardId = shardId
  · rw [if_pos hshard, List.filter_cons_of_pos (by simp [hshard])]
    rfl
  · rw [if_neg hshard, List.filter_cons_of_neg (by simp [hshard]), List.filter_nil,
      List.append_nil]
    rfl

theorem Consistent.step {shardId : Int} {s t : Store} {a : Step} (h : Consistent shardId s)
    (hstep : step s a = some t) : Consistent shardId t := by
  rcases step_cases hstep with ⟨request, query, entry, -, -, hcommitted, hphase⟩ |
    ⟨-, hcommitted, request, phase, hphase, hquery, hentry⟩
  · have hgrow : s.shard shardId <+: t.shard shardId := by
      rw [shard_of_commit shardId hcommitted]
      split
      · exact List.prefix_append _ _
      · exact List.prefix_refl _
    constructor
    · intro other query hother hshard
      rw [hphase] at hother
      by_cases hsame : other = request
      · subst hsame
        rw [Function.update_self] at hother
        cases hother
      · rw [Function.update_of_ne hsame] at hother
        exact (h.snapshot other query hother hshard).trans hgrow
    · intro other query entry hother
      rw [hphase] at hother
      by_cases hsame : other = request
      · subst hsame
        rw [Function.update_self] at hother
        cases hother
      · rw [Function.update_of_ne hsame] at hother
        exact h.entry other query entry hother
  · have hkept : t.shard shardId = s.shard shardId := by rw [Store.shard, hcommitted]; rfl
    constructor
    · intro other query hother hshard
      rw [hkept]
      rw [hphase] at hother
      by_cases hsame : other = request
      · subst hsame
        rw [Function.update_self] at hother
        rcases hquery query hother with hold | hnew
        · exact h.snapshot other query hold hshard
        · exact ⟨[], by rw [hnew, hshard, List.append_nil]⟩
      · rw [Function.update_of_ne hsame] at hother
        exact h.snapshot other query hother hshard
    · intro other query entry hother
      rw [hphase] at hother
      by_cases hsame : other = request
      · subst hsame
        rw [Function.update_self] at hother
        exact hentry query entry hother
      · rw [Function.update_of_ne hsame] at hother
        exact h.entry other query entry hother

theorem consistent_empty (shardId : Int) : Consistent shardId .empty :=
  ⟨fun _ _ h => absurd h (by simp [Store.empty, Phase.query]), fun _ _ _ h => Phase.noConfusion h⟩

/-- A commit on the last row keeps the shard one linked list. -/
theorem linked_step {shardId : Int} {s t : Store} {a : Step} (h : Consistent shardId s)
    (hlinked : (chainFormat utc).Linked none (s.shard shardId)) (hok : CommitsOnLast shardId s a)
    (hstep : step s a = some t) : (chainFormat utc).Linked none (t.shard shardId) := by
  rcases step_cases hstep with ⟨request, query, entry, rfl, hinserted, hcommitted, -⟩ |
    ⟨-, hcommitted, -⟩
  · rw [shard_of_commit shardId hcommitted]
    split
    · rename_i hshard
      obtain ⟨id, now, rfl⟩ := h.entry request query entry hinserted
      have hlast := hok query (by rw [hinserted]; rfl) hshard
      have hhead : query.head = (s.shard shardId).getLast? := by
        rw [HeadQuery.head, hlast.1, hlast.2]
      refine ChainFormat.linked_concat.mpr ⟨hlinked, ?_, rfl⟩
      rw [ChainFormat.tip_eq_getLast?, ← hhead]
      rfl
    · exact hlinked
  · rw [Store.shard, hcommitted]
    exact hlinked

/-- The query that selected the last row saw the whole shard. -/
theorem eq_of_prefix_of_getLast? {query : HeadQuery} {rows : List AuditEntry}
    (hnodup : rows.Nodup) (hsnapshot : query.snapshot <+: rows)
    (hhead : query.head = rows.getLast?) : query.snapshot = rows := by
  obtain ⟨later, rfl⟩ := hsnapshot
  cases later using List.reverseRecOn with
  | nil => rw [List.append_nil]
  | append_singleton later row =>
    rw [← List.append_assoc, List.getLast?_concat] at hhead
    have hseen : row ∈ query.snapshot := latest_mem hhead
    exact absurd rfl ((List.nodup_append.mp hnodup).2.2 row hseen row (by simp))

theorem commitsOnLast_of_noFork {shardId : Int} {s t : Store} {a : Step}
    (h : Consistent shardId s) (hlinked : (chainFormat utc).Linked none (s.shard shardId))
    (hstep : step s a = some t) (hfork : NoFork shardId t) : CommitsOnLast shardId s a := by
  rcases step_cases hstep with ⟨request, query, entry, rfl, hinserted, hcommitted, -⟩ | ⟨hcommit, -⟩
  · intro other hother hshard
    rw [hinserted] at hother
    obtain rfl := Option.some.inj hother
    obtain ⟨id, now, rfl⟩ := h.entry request query entry hinserted
    have hsnapshot := h.snapshot request query (by rw [hinserted]; rfl) hshard
    have hentryShard : (newEntry id now query.args query.head).shardId = shardId := hshard
    rw [NoFork, shard_of_commit shardId hcommitted, if_pos hentryShard, List.map_append,
      List.map_singleton, List.nodup_append] at hfork
    have hfresh : query.head.map AuditEntry.hash ∉ (s.shard shardId).map AuditEntry.prevHash :=
      fun hmem => hfork.2.2 _ hmem _ (List.mem_singleton_self _) rfl
    have hnodup : (s.shard shardId).Nodup := List.Nodup.of_map _ hfork.1
    have hselected : ∀ row ∈ query.head, row ∈ query.snapshot := fun _ h => latest_mem h
    have hhead := hlinked.eq_getLast?_of_fresh
      (fun row hrow => hsnapshot.subset (hselected row hrow)) hfresh
    have hcurrent : query.snapshot = s.shard shardId :=
      eq_of_prefix_of_getLast? hnodup hsnapshot hhead
    rw [HeadQuery.head, hcurrent] at hhead
    exact ⟨hcurrent, hhead⟩
  · cases a with
    | commit request => exact absurd rfl (hcommit request)
    | selectHead request args => trivial
    | lockHead request => trivial
    | insert request id now => trivial
    | rollback request => trivial

/-- Without a SHA-256 collision among the committed rows, a schedule of requests
forks no link exactly when every commit was made on the last row. -/
theorem noFork_iff_commitsOnLast {shardId : Int} {steps : List Step}
    (hfree : Runs.Throughout step (fun store => CollisionFree Sha256.hexdigest
      ((chainFormat utc).ownMaterials (store.shard shardId))) .empty steps) :
    Runs.Throughout step (NoFork shardId) .empty steps ↔
      Runs.AllSteps step (CommitsOnLast shardId) .empty steps := by
  refine Runs.throughout_iff_allSteps
    (I := fun s => Consistent shardId s ∧ (chainFormat utc).Linked none (s.shard shardId))
    ?_ ?_ ?_ ?_ hfree
  · exact ⟨consistent_empty shardId, trivial⟩
  · intro s a t hs hok hstep
    exact ⟨hs.1.step hstep, linked_step hs.1 hs.2 hok hstep⟩
  · intro s hs hfree
    exact hs.2.nodup_prev (hs.2.nodup_digest (hfree.mono (hs.2.materials_perm (List.Perm.refl _))))
  · intro s a t hs hstep hfork
    exact commitsOnLast_of_noFork hs.1 hs.2 hstep hfork

def publishing (actor : String) : AppendArgs :=
  { actor := actor.toList, action := "record.published".toList, shardId := some 1 }

def sequentialRequests : List Step :=
  [.selectHead 0 (publishing "officer-1"), .lockHead 0, .insert 0 "a".toList (newYear 1), .commit 0,
    .selectHead 1 (publishing "officer-2"), .lockHead 1, .insert 1 "b".toList (newYear 2), .commit 1]

theorem sequential_requests_noFork :
    Runs.Throughout step (NoFork 1) .empty sequentialRequests := by
  have hdigests : Runs.Throughout step (fun store => (((chainFormat utc).ownMaterials
      (store.shard 1)).map Sha256.hexdigest).Nodup) .empty sequentialRequests := by
    decide +kernel
  have hcommits : Runs.AllSteps step (CommitsOnLast 1) .empty sequentialRequests := by
    decide +kernel
  exact (noFork_iff_commitsOnLast
    (hdigests.imp fun _ => collisionFree_of_nodup)).mpr hcommits

def firstRequests : List Step :=
  [.selectHead 0 (publishing "officer-1"), .lockHead 0, .selectHead 1 (publishing "officer-2"),
    .lockHead 1, .insert 0 "a".toList (newYear 1), .commit 0, .insert 1 "b".toList (newYear 2),
    .commit 1]

def waitingRequest : List Step :=
  [.selectHead 0 (publishing "officer-1"), .lockHead 0, .insert 0 "a".toList (newYear 1), .commit 0,
    .selectHead 1 (publishing "officer-2"), .lockHead 1, .selectHead 2 (publishing "officer-3"),
    .insert 1 "b".toList (newYear 2), .commit 1, .lockHead 2, .insert 2 "c".toList (newYear 3),
    .commit 2]

theorem concurrent_requests_fork :
    ¬ Runs.Throughout step (NoFork 1) .empty firstRequests ∧
      ¬ Runs.Throughout step (NoFork 1) .empty waitingRequest := by
  constructor
  · decide +kernel
  · decide +kernel

end LandRecords.Audit
