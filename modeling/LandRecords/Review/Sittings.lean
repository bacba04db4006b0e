import LandRecords.Base.LastEvent
import LandRecords.Base.Streaks
import LandRecords.Review.MakerChecker

/-! The sessions of the officers. A sitting is a longest run of claims of one officer without a gap
between neighbours: the session rows are the sittings, and a task carries the hour of the sitting
in which it was claimed last. -/
namespace LandRecords.Review

open Backend Audit Datetime Text

structure TaskClaim where
  actor : Text
  taskId : Text
  time : Instant
deriving DecidableEq

def claimOf (db : Database) : ReviewStep → Option TaskClaim
  | .activity (.claimNext actor sessionId now) =>
      match (claimNext actor sessionId now db).1 with
      | .returned (some taskId) => some ⟨actor, taskId, now⟩
      | _ => none
  | _ => none

structure Desk where
  db : Database
  claims : List TaskClaim

def deskStep (s : Desk) (a : ReviewStep) : Option Desk :=
  (reviewStep s.db a).map fun db => ⟨db, s.claims ++ (claimOf s.db a).toList⟩

def withinGap (before now : Instant) : Bool := now.val ≤ before.val + reviewSessionGap

def claimTimes (actor : Text) (claims : List TaskClaim) : List Instant :=
  (claims.filter fun claim => claim.actor = actor).map TaskClaim.time

def sittings (actor : Text) (claims : List TaskClaim) : List (List Instant) :=
  (claimTimes actor claims).splitBy withinGap

def hourAt (taskId : Text) (claims : List TaskClaim) : Option Int := do
  let claim ← claims.getLast?
  let sitting ← (sittings claim.actor claims).getLast?
  let start ← sitting.head?
  if claim.taskId = taskId then some (hoursBetween start claim.time) else none

def sessionsOf (actor : Text) (rows : List ReviewSession) : List ReviewSession :=
  rows.filter fun row => row.actor = actor

structure Spans (row : ReviewSession) (sitting : List Instant) : Prop where
  started : sitting.head? = some row.startedAt
  lastActive : sitting.getLast? = some row.lastActivityAt

structure SittingsTold (times : List Instant) (rows : List ReviewSession) : Prop where
  spans : List.Forall₂ Spans rows (times.splitBy withinGap)
  ended : ∀ row ∈ rows.dropLast, row.endedAt = some row.lastActivityAt
  current : ∀ row ∈ rows.getLast?, row.endedAt = none

section Growth

variable {times : List Instant} {rows : List ReviewSession} {session : ReviewSession} {now : Instant}

theorem sittingsTold_nil : SittingsTold [] [] where
  spans := .nil
  ended := fun _ h => nomatch h
  current := fun _ h => nomatch h

theorem SittingsTold.last (h : SittingsTold times (rows ++ [session])) : ∃ parts sitting,
    times.splitBy withinGap = parts ++ [sitting] ∧ List.Forall₂ Spans rows parts ∧
      Spans session sitting ∧ times.getLast? = some session.lastActivityAt := by
  obtain ⟨parts, sitting, hparts, hrows, hlast⟩ := forall₂_concat_left h.spans
  refine ⟨parts, sitting, hparts, hrows, hlast, ?_⟩
  have hflatten := List.flatten_splitBy withinGap times
  rw [hparts, List.flatten_append, List.flatten_singleton] at hflatten
  rw [← hflatten, List.getLast?_append, hlast.lastActive]
  rfl

/-- A claim within the gap goes on with the last sitting. -/
theorem SittingsTold.touch (h : SittingsTold times (rows ++ [session]))
    (hactive : isActive now session = true) :
    SittingsTold (times ++ [now]) (rows ++ [{ session with lastActivityAt := now }]) := by
  obtain ⟨parts, sitting, hparts, hrows, hlast, htimes⟩ := h.last
  have hended := h.ended
  rw [List.dropLast_concat] at hended
  constructor
  · rw [splitBy_concat_near hparts htimes hactive]
    apply List.rel_append hrows
    apply List.Forall₂.cons _ .nil
    constructor
    · rw [List.head?_append, hlast.started]
      rfl
    · exact List.getLast?_concat
  · rw [List.dropLast_concat]
    exact hended
  · intro row hrow
    rw [List.getLast?_concat] at hrow
    obtain rfl := Option.some.inj hrow
    exact h.current session List.getLast?_concat

/-- A claim after the gap begins a sitting, and the one before has ended. -/
theorem SittingsTold.begin (h : SittingsTold times (rows ++ [session]))
    (hidle : isActive now session = false) (sessionId actor : Text) :
    SittingsTold (times ++ [now]) (rows ++ [{ session with endedAt := some session.lastActivityAt }] ++
      [⟨sessionId, actor, now, now, none⟩]) := by
  obtain ⟨parts, sitting, hparts, hrows, hlast, htimes⟩ := h.last
  have hended := h.ended
  rw [List.dropLast_concat] at hended
  constructor
  · rw [splitBy_concat_apart, hparts]
    · apply List.rel_append
      · exact List.rel_append hrows (.cons ⟨hlast.started, hlast.lastActive⟩ .nil)
      · exact .cons ⟨rfl, rfl⟩ .nil
    · intro y hy
      obtain rfl := Option.some.inj (htimes.symm.trans hy)
      exact hidle
  · rw [List.dropLast_concat]
    intro row hrow
    rcases List.mem_append.mp hrow with hbefore | hlastRow
    · exact hended row hbefore
    · obtain rfl := List.mem_singleton.mp hlastRow
      rfl
  · intro row hrow
    rw [List.getLast?_concat] at hrow
    obtain rfl := Option.some.inj hrow
    rfl

theorem sittingsTold_first (sessionId actor : Text) :
    SittingsTold [now] [⟨sessionId, actor, now, now, none⟩] where
  spans := .cons ⟨rfl, rfl⟩ .nil
  ended := fun _ h => nomatch h
  current := by
    intro row hrow
    obtain rfl := Option.some.inj hrow
    rfl

theorem SittingsTold.filter_current (h : SittingsTold times rows) :
    rows.filter (fun row => row.endedAt = none) = rows.getLast?.toList := by
  cases rows using List.reverseRecOn with
  | nil => rfl
  | append_singleton rows session =>
    have hended := h.ended
    rw [List.dropLast_concat] at hended
    have hbefore : rows.filter (fun row => row.endedAt = none) = [] := by
      apply List.filter_eq_nil_iff.mpr
      intro row hrow
      rw [hended row hrow]
      exact of_decide_eq_false rfl
    have hlast : session.endedAt = none := h.current session List.getLast?_concat
    rw [List.getLast?_concat, List.filter_append, hbefore, List.nil_append, List.filter_singleton,
      decide_eq_true hlast]
    rfl

theorem SittingsTold.times_nil (h : SittingsTold times []) : times = [] := by
  have hparts := List.forall₂_nil_left_iff.mp h.spans
  exact List.splitBy_eq_nil.mp hparts

end Growth

section Table

variable {db db' : Database} {claims : List TaskClaim} {rows : List ReviewSession}
variable {session : ReviewSession} {actor sessionId taskId : Text} {now : Instant} {hour : Int}

structure SessionTable (claims : List TaskClaim) (rows : List ReviewSession) : Prop where
  keys : (rows.map ReviewSession.id).Nodup
  told : ∀ actor, SittingsTold (claimTimes actor claims) (sessionsOf actor rows)

theorem claimTimes_concat (actor : Text) (claims : List TaskClaim) (claim : TaskClaim) :
    claimTimes actor (claims ++ [claim]) =
      if claim.actor = actor then claimTimes actor claims ++ [claim.time]
      else claimTimes actor claims := by
  unfold claimTimes
  rw [List.filter_append, List.map_append, List.filter_singleton]
  by_cases hactor : claim.actor = actor
  · simp [hactor]
  · simp [hactor]

theorem SessionTable.openSession (h : SessionTable claims db.reviewSessions) (actor : Text) :
    openSession db actor = (sessionsOf actor db.reviewSessions).getLast? := by
  have hfilter : db.reviewSessions.filter (fun row => row.actor = actor ∧ row.endedAt = none) =
      (sessionsOf actor db.reviewSessions).filter fun row => row.endedAt = none := by
    rw [sessionsOf, List.filter_filter]
    apply List.filter_congr
    intro row _
    rw [Bool.and_comm, ← Bool.decide_and]
  rw [Review.openSession, hfilter, (h.told actor).filter_current]
  cases (sessionsOf actor db.reviewSessions).getLast? with
  | none => rfl
  | some last => exact latest_eq_some List.mem_cons_self fun row hrow => .inl (List.mem_singleton.mp hrow)

theorem sessionsOf_mapSession (hkeys : (rows.map ReviewSession.id).Nodup) (hrow : session ∈ rows)
    (update : ReviewSession → ReviewSession) (hactor : ∀ row, (update row).actor = row.actor)
    (actor : Text) : sessionsOf actor (mapSession session.id update rows) =
      if session.actor = actor then mapSession session.id update (sessionsOf actor rows)
      else sessionsOf actor rows := by
  have hfilter : sessionsOf actor (mapSession session.id update rows) =
      mapSession session.id update (sessionsOf actor rows) :=
    Rows.filter_updateAt (fun row => by rw [hactor]) rows
  rw [hfilter]
  split
  · rfl
  · rename_i hother
    apply Rows.updateAt_of_notMem
    intro hmem
    obtain ⟨row, hmember, hid⟩ := List.mem_map.mp hmem
    obtain ⟨hold, hown⟩ := List.mem_filter.mp hmember
    have hsame := List.inj_on_of_nodup_map hkeys hold hrow hid
    rw [hsame] at hown
    exact hother (of_decide_eq_true hown)

theorem mapSession_last {last : ReviewSession}
    (hkeys : ((rows ++ [last]).map ReviewSession.id).Nodup)
    (update : ReviewSession → ReviewSession) :
    mapSession last.id update (rows ++ [last]) = rows ++ [update last] := by
  rw [List.map_append, List.nodup_append_comm] at hkeys
  have hbefore : mapSession last.id update rows = rows :=
    Rows.updateAt_of_notMem (List.nodup_cons.mp hkeys).1
  unfold mapSession at hbefore ⊢
  rw [List.map_append, hbefore, List.map_singleton, if_pos rfl]

def touchedOn (now : Instant) (row : ReviewSession) : ReviewSession :=
  { row with lastActivityAt := now }

def endedOn (time : Instant) (row : ReviewSession) : ReviewSession :=
  { row with endedAt := some time }

/-- What a returned `touch_session` writes. -/
inductive Touched (db : Database) (actor sessionId : Text) (now : Instant) :
    Int → List ReviewSession → Prop
  | active (session : ReviewSession) (hopen : openSession db actor = some session)
      (hactive : isActive now session = true) :
      Touched db actor sessionId now (hoursBetween session.startedAt now)
        (mapSession session.id (touchedOn now) db.reviewSessions)
  | stale (session : ReviewSession) (hopen : openSession db actor = some session)
      (hidle : isActive now session = false)
      (hfresh : sessionId ∉ db.reviewSessions.map ReviewSession.id) :
      Touched db actor sessionId now (hoursBetween now now)
        (mapSession session.id (endedOn session.lastActivityAt) db.reviewSessions ++
          [⟨sessionId, actor, now, now, none⟩])
  | first (hopen : openSession db actor = none)
      (hfresh : sessionId ∉ db.reviewSessions.map ReviewSession.id) :
      Touched db actor sessionId now (hoursBetween now now)
        (db.reviewSessions ++ [⟨sessionId, actor, now, now, none⟩])

theorem ids_touchedOn (id : Text) (now : Instant) (rows : List ReviewSession) :
    (mapSession id (touchedOn now) rows).map ReviewSession.id = rows.map ReviewSession.id :=
  have hid : ∀ row, (touchedOn now row).id = row.id := fun _ => rfl
  Rows.map_updateAt hid rows

theorem ids_endedOn (id : Text) (time : Instant) (rows : List ReviewSession) :
    (mapSession id (endedOn time) rows).map ReviewSession.id = rows.map ReviewSession.id :=
  have hid : ∀ row, (endedOn time row).id = row.id := fun _ => rfl
  Rows.map_updateAt hid rows

theorem touchSession_touched (h : touchSession actor sessionId now db = (.returned hour, db')) :
    ∃ rows, Touched db actor sessionId now hour rows ∧ db' = withSessions rows db := by
  simp only [touchSession, Fallible.read_bind] at h
  cases hopen : openSession db actor with
  | none =>
    simp only [hopen, Option.filter_none, Fallible.bind_eq_returned, addRow_returned] at h
    obtain ⟨_, _, ⟨hfresh, rfl⟩, h⟩ := h
    cases h
    exact ⟨_, .first hopen (of_decide_eq_false hfresh), rfl⟩
  | some session =>
    cases hactive : isActive now session with
    | true =>
      simp only [hopen, Option.filter_some, hactive] at h
      cases h
      exact ⟨_, .active session hopen hactive, rfl⟩
    | false =>
      simp only [hopen, Option.filter_some, hactive, Bool.false_eq_true, if_false,
        Fallible.write_bind, Fallible.bind_eq_returned, addRow_returned] at h
      obtain ⟨_, _, ⟨hfresh, rfl⟩, h⟩ := h
      cases h
      have hids : sessionId ∉ (mapSession session.id (endedOn session.lastActivityAt)
          db.reviewSessions).map ReviewSession.id := of_decide_eq_false hfresh
      rw [ids_endedOn] at hids
      exact ⟨_, .stale session hopen hactive hids, rfl⟩

theorem sessionsOf_concat (actor : Text) (rows : List ReviewSession) (row : ReviewSession) :
    sessionsOf actor (rows ++ [row]) =
      if row.actor = actor then sessionsOf actor rows ++ [row] else sessionsOf actor rows := by
  unfold sessionsOf
  rw [List.filter_append, List.filter_singleton]
  by_cases hactor : row.actor = actor
  · simp [hactor]
  · simp [hactor]

theorem SessionTable.claimed (h : SessionTable claims db.reviewSessions)
    (hkeys : (rows.map ReviewSession.id).Nodup)
    (hown : SittingsTold (claimTimes actor claims ++ [now]) (sessionsOf actor rows))
    (hothers : ∀ other, actor ≠ other → sessionsOf other rows = sessionsOf other db.reviewSessions)
    (taskId : Text) : SessionTable (claims ++ [⟨actor, taskId, now⟩]) rows := by
  refine ⟨hkeys, fun other => ?_⟩
  rw [claimTimes_concat]
  by_cases hactor : actor = other
  · subst hactor
    rw [if_pos rfl]
    exact hown
  · rw [if_neg hactor, hothers other hactor]
    exact h.told other

theorem Touched.table (h : Touched db actor sessionId now hour rows)
    (htable : SessionTable claims db.reviewSessions) (taskId : Text) :
    SessionTable (claims ++ [⟨actor, taskId, now⟩]) rows ∧
      ∃ row, (sessionsOf actor rows).getLast? = some row ∧
        hour = hoursBetween row.startedAt now := by
  have htold := htable.told actor
  cases h with
  | active session hopen hactive =>
    rw [htable.openSession] at hopen
    obtain ⟨hrow, hactor⟩ := List.mem_filter.mp (List.mem_of_getLast? hopen)
    obtain ⟨before, hrows⟩ := List.getLast?_eq_some_iff.mp hopen
    have hkeys : ((before ++ [session]).map ReviewSession.id).Nodup :=
      hrows ▸ (List.filter_sublist.map ReviewSession.id).nodup htable.keys
    have hmapped := fun other => sessionsOf_mapSession htable.keys hrow
      (touchedOn now) (fun _ => rfl) other
    have hown := hmapped actor
    rw [if_pos (of_decide_eq_true hactor), hrows, mapSession_last hkeys] at hown
    constructor
    · apply htable.claimed
      · rw [ids_touchedOn]
        exact htable.keys
      · rw [hown]
        rw [hrows] at htold
        exact htold.touch hactive
      · intro other hother
        rw [hmapped, if_neg (of_decide_eq_true hactor ▸ hother)]
    · exact ⟨touchedOn now session, by rw [hown, List.getLast?_concat], rfl⟩
  | stale session hopen hidle hfresh =>
    rw [htable.openSession] at hopen
    obtain ⟨hrow, hactor⟩ := List.mem_filter.mp (List.mem_of_getLast? hopen)
    obtain ⟨before, hrows⟩ := List.getLast?_eq_some_iff.mp hopen
    have hkeys : ((before ++ [session]).map ReviewSession.id).Nodup :=
      hrows ▸ (List.filter_sublist.map ReviewSession.id).nodup htable.keys
    have hmapped := fun other => sessionsOf_mapSession htable.keys hrow
      (endedOn session.lastActivityAt) (fun _ => rfl) other
    have hown := hmapped actor
    rw [if_pos (of_decide_eq_true hactor), hrows, mapSession_last hkeys] at hown
    constructor
    · apply htable.claimed
      · apply Rows.nodup_append_row
        · rw [ids_endedOn]
          exact htable.keys
        · rw [ids_endedOn]
          exact hfresh
      · rw [sessionsOf_concat, if_pos rfl, hown]
        rw [hrows] at htold
        exact htold.begin hidle sessionId actor
      · intro other hother
        rw [sessionsOf_concat, if_neg hother, hmapped, if_neg (of_decide_eq_true hactor ▸ hother)]
    · exact ⟨_, by rw [sessionsOf_concat, if_pos rfl, List.getLast?_concat], rfl⟩
  | first hopen hfresh =>
    rw [htable.openSession, List.getLast?_eq_none_iff] at hopen
    rw [hopen] at htold
    constructor
    · apply htable.claimed
      · exact Rows.nodup_append_row htable.keys hfresh
      · rw [sessionsOf_concat, if_pos rfl, hopen, htold.times_nil]
        exact sittingsTold_first sessionId actor
      · intro other hother
        rw [sessionsOf_concat, if_neg hother]
    · exact ⟨_, by rw [sessionsOf_concat, if_pos rfl, List.getLast?_concat], rfl⟩

end Table

section Claims

variable {db db' : Database} {claims : List TaskClaim} {actor sessionId taskId : Text}
variable {now : Instant}

theorem claimNext_claimed {claimed : Option Text}
    (h : claimNext actor sessionId now db = (.returned claimed, db')) :
    (claimed = none ∧ db' = db) ∨ ∃ task ∈ db.reviewTasks, ∃ hour rows,
      claimed = some task.id ∧ Touched db actor sessionId now hour rows ∧
        db' = mapTask task.id (claimedBy actor hour) (withSessions rows db) := by
  simp only [claimNext, Fallible.read_bind] at h
  cases htask : oldestUnclaimed db with
  | none =>
    simp only [htask] at h
    cases h
    exact .inl ⟨rfl, rfl⟩
  | some task =>
    simp only [htask, Fallible.bind_eq_returned] at h
    obtain ⟨hour, mid, htouch, _, _, hwrite, h⟩ := h
    obtain ⟨rows, htouched, rfl⟩ := touchSession_touched htouch
    cases hwrite
    cases h
    exact .inr ⟨task, (oldestUnclaimed_open htask).1, hour, rows, rfl, htouched, rfl⟩

theorem hourAt_claimed {row : ReviewSession} {rows : List ReviewSession}
    (h : SessionTable (claims ++ [⟨actor, taskId, now⟩]) rows)
    (hlast : (sessionsOf actor rows).getLast? = some row) (id : Text) :
    hourAt id (claims ++ [⟨actor, taskId, now⟩]) =
      if taskId = id then some (hoursBetween row.startedAt now) else none := by
  obtain ⟨before, hrows⟩ := List.getLast?_eq_some_iff.mp hlast
  have htold := h.told actor
  rw [hrows] at htold
  obtain ⟨parts, sitting, hparts, -, hspans, -⟩ := htold.last
  have hsittings : (sittings actor (claims ++ [⟨actor, taskId, now⟩])).getLast? = some sitting := by
    rw [sittings, hparts, List.getLast?_concat]
  simp only [hourAt, List.getLast?_concat, Option.bind_eq_bind, Option.bind_some, hsittings,
    hspans.started]

end Claims

section Frame

variable {db db' : Database}

structure KeepsHours (db db' : Database) : Prop where
  sessions : db'.reviewSessions = db.reviewSessions
  known : db.reviewTasks.map ReviewTask.id ⊆ db'.reviewTasks.map ReviewTask.id
  hours : ∀ task ∈ db'.reviewTasks,
    (∃ old ∈ db.reviewTasks, old.id = task.id ∧ old.hourIntoSession = task.hourIntoSession) ∨
      task.id ∉ db.reviewTasks.map ReviewTask.id ∧ task.hourIntoSession = none

theorem KeepsHours.same (hsessions : db'.reviewSessions = db.reviewSessions)
    (htasks : db'.reviewTasks = db.reviewTasks) : KeepsHours db db' where
  sessions := hsessions
  known := by rw [htasks]; exact List.Subset.refl _
  hours := fun task htask => .inl ⟨task, htasks ▸ htask, rfl, rfl⟩

theorem KeepsHours.added {row : ReviewTask} (hsessions : db'.reviewSessions = db.reviewSessions)
    (htasks : db'.reviewTasks = db.reviewTasks ++ [row])
    (hfresh : row.id ∉ db.reviewTasks.map ReviewTask.id) (hhour : row.hourIntoSession = none) :
    KeepsHours db db' where
  sessions := hsessions
  known := by
    rw [htasks, List.map_append]
    exact List.subset_append_left _ _
  hours := by
    intro task htask
    rw [htasks] at htask
    rcases List.mem_append.mp htask with hold | hnew
    · exact .inl ⟨task, hold, rfl, rfl⟩
    · rw [List.mem_singleton.mp hnew]
      exact .inr ⟨hfresh, hhour⟩

theorem KeepsHours.updated (id : Text) (update : ReviewTask → ReviewTask)
    (hid : ∀ row, (update row).id = row.id)
    (hhour : ∀ row, (update row).hourIntoSession = row.hourIntoSession)
    (hsessions : db'.reviewSessions = db.reviewSessions)
    (htasks : db'.reviewTasks = (mapTask id update db).reviewTasks) : KeepsHours db db' where
  sessions := hsessions
  known := by
    have hids : (mapTask id update db).reviewTasks.map ReviewTask.id =
        db.reviewTasks.map ReviewTask.id := Rows.map_updateAt hid db.reviewTasks
    rw [htasks, hids]
    exact List.Subset.refl _
  hours := by
    intro task htask
    rw [htasks] at htask
    obtain ⟨old, hold, rfl⟩ := List.mem_map.mp htask
    refine .inl ⟨old, hold, ?_⟩
    split
    · exact ⟨(hid old).symm, (hhour old).symm⟩
    · exact ⟨rfl, rfl⟩

theorem keepsHours_decision {a : Decision.Step} (h : Decision.step db a = some db') :
    KeepsHours db db' := by
  cases a with
  | insertExtraction row =>
    rw [Decision.step, Option.ite_none_left_eq_some] at h
    obtain ⟨-, h⟩ := h
    cases h
    exact .same rfl rfl
  | setRoutingOutcome extractionId outcome =>
    cases h
    exact .same rfl rfl
  | route extractionId noveltyClusterId envelopeId stamps =>
    rcases Decision.step_route h with ⟨rfl, -⟩ | ⟨extraction, outcome, -, hdecided⟩
    · exact .same rfl rfl
    · obtain ⟨mid, decision, heffect, -, -, htables⟩ := hdecided.tables
      rw [htables]
      cases heffect with
      | auditSample stamp sample htask => exact .added rfl rfl htask rfl
      | review stamp htask => exact .added rfl rfl htask rfl
      | _ => exact .same rfl rfl

theorem keepsHours_of_unclaimed {a : ReviewStep} (h : reviewStep db a = some db')
    (hnone : claimOf db a = none) : KeepsHours db db' := by
  cases a with
  | activity activity =>
    cases activity with
    | decision a => exact keepsHours_decision h
    | openConflict records rule evidence origin stamp entry =>
      obtain ⟨_, hopened⟩ := commit_returned h (Publication.openConflict_raisesOnly _ _ _ _ _ _)
      obtain ⟨-, hdb'⟩ := Publication.openConflict_returned hopened
      rw [hdb']
      exact .same rfl rfl
    | transition conflictId newState actor resolution entry =>
      rcases commit_eq_some h with rfl | ⟨_, hresult⟩
      · exact .same rfl rfl
      · obtain ⟨conflict, state, -, hdb'⟩ := Publication.transition_returned hresult
        rw [hdb']
        exact .same rfl rfl
    | claimNext actor sessionId now =>
      rcases commit_eq_some h with rfl | ⟨claimed, hresult⟩
      · exact .same rfl rfl
      · rcases claimNext_claimed hresult with ⟨-, rfl⟩ | ⟨task, -, hour, rows, rfl, -⟩
        · exact .same rfl rfl
        · rw [claimOf, hresult] at hnone
          cases hnone
    | skip taskId actor entry =>
      rcases commit_eq_some h with rfl | ⟨_, hresult⟩
      · exact .same rfl rfl
      · obtain ⟨task, -, -, -, hdb'⟩ := skip_returned hresult
        rw [hdb']
        exact .updated taskId released (fun _ => rfl) (fun _ => rfl) rfl rfl
    | submit taskId actor correctedValue verdict stamps =>
      rcases commit_eq_some h with rfl | ⟨_, hresult⟩
      · exact .same rfl rfl
      · obtain ⟨task, extraction, row, mid, samples, -, -, -, -, hmid, -, hdb', -⟩ :=
          submit_returned hresult
        rw [hdb']
        cases hmid with
        | held =>
          exact .updated taskId (closedOn stamps.closedAt) (fun _ => rfl) (fun _ => rfl) rfl rfl
        | written =>
          exact .updated taskId (closedOn stamps.closedAt) (fun _ => rfl) (fun _ => rfl) rfl rfl
  | confirm pendingId actor row confirmedAt entry =>
    rcases confirmRoute_cases h with ⟨correction, hconfirm⟩ | ⟨-, hdb'⟩
    · obtain ⟨pending, -, -, -, -, -, -, hdb'⟩ := confirmPendingCorrection_returned hconfirm
      rw [hdb']
      exact .same rfl rfl
    · rw [hdb']
      exact .same rfl rfl

end Frame

section Run

variable {s s' : Desk} {a : ReviewStep}

/-- The rows of every officer are the sittings, and a task has the hour of its last claim. -/
structure SittingsKept (s : Desk) : Prop where
  sessions : ∀ actor,
    SittingsTold (claimTimes actor s.claims) (sessionsOf actor s.db.reviewSessions)
  hours : ∀ task ∈ s.db.reviewTasks,
    task.hourIntoSession = lastValue (hourAt task.id) s.claims.inits

structure Booked (s : Desk) : Prop where
  table : SessionTable s.claims s.db.reviewSessions
  known : ∀ claim ∈ s.claims, claim.taskId ∈ s.db.reviewTasks.map ReviewTask.id
  hours : ∀ task ∈ s.db.reviewTasks,
    task.hourIntoSession = lastValue (hourAt task.id) s.claims.inits

theorem hourAt_eq_some {id : Text} {claims : List TaskClaim} {hour : Int}
    (h : hourAt id claims = some hour) : ∃ claim ∈ claims, claim.taskId = id := by
  simp only [hourAt, Option.bind_eq_bind, Option.bind_eq_some_iff,
    Option.ite_none_right_eq_some] at h
  obtain ⟨claim, hclaim, _, -, _, -, hid, -⟩ := h
  exact ⟨claim, List.mem_of_getLast? hclaim, hid⟩

theorem Booked.unclaimed (h : Booked s) {id : Text}
    (hid : id ∉ s.db.reviewTasks.map ReviewTask.id) :
    lastValue (hourAt id) s.claims.inits = none := by
  apply lastValue_eq_none
  intro before hbefore
  cases hhour : hourAt id before with
  | none => rfl
  | some hour =>
    obtain ⟨claim, hclaim, rfl⟩ := hourAt_eq_some hhour
    exact absurd (h.known claim (((List.mem_inits _ _).mp hbefore).subset hclaim)) hid

theorem Booked.keeps (h : Booked s) {db : Database} (hkeeps : KeepsHours s.db db) :
    Booked ⟨db, s.claims⟩ := by
  constructor
  · rw [hkeeps.sessions]
    exact h.table
  · intro claim hclaim
    exact hkeeps.known (h.known claim hclaim)
  · intro task htask
    rcases hkeeps.hours task htask with ⟨old, hold, hid, hhour⟩ | ⟨hfresh, hhour⟩
    · rw [← hhour, ← hid]
      exact h.hours old hold
    · rw [hhour, h.unclaimed hfresh]

theorem Booked.claim (h : Booked s) {task : ReviewTask} {actor sessionId : Text} {now : Instant}
    {hour : Int} {rows : List ReviewSession} (htask : task ∈ s.db.reviewTasks)
    (htouched : Touched s.db actor sessionId now hour rows) :
    Booked ⟨mapTask task.id (claimedBy actor hour) (withSessions rows s.db),
      s.claims ++ [⟨actor, task.id, now⟩]⟩ := by
  obtain ⟨htable, row, hlast, rfl⟩ := htouched.table h.table task.id
  have hids : (mapTask task.id (claimedBy actor (hoursBetween row.startedAt now))
      (withSessions rows s.db)).reviewTasks.map ReviewTask.id =
        s.db.reviewTasks.map ReviewTask.id := by
    have hid : ∀ other, (claimedBy actor (hoursBetween row.startedAt now) other).id = other.id :=
      fun _ => rfl
    exact Rows.map_updateAt hid s.db.reviewTasks
  constructor
  · exact htable
  · intro claim hclaim
    dsimp only at hclaim ⊢
    rw [hids]
    rcases List.mem_append.mp hclaim with hold | hnew
    · exact h.known claim hold
    · rw [List.mem_singleton.mp hnew]
      exact List.mem_map_of_mem htask
  · intro after hafter
    obtain ⟨old, hold, rfl⟩ := List.mem_map.mp hafter
    have hinits : (s.claims ++ [TaskClaim.mk actor task.id now]).inits =
        s.claims.inits ++ [s.claims ++ [⟨actor, task.id, now⟩]] := List.inits_append _ _
    dsimp only
    rw [hinits, lastValue_concat, hourAt_claimed htable hlast]
    by_cases hsame : old.id = task.id
    · rw [if_pos hsame]
      have hown : (claimedBy actor (hoursBetween row.startedAt now) old).id = task.id := hsame
      rw [if_pos hown.symm]
      rfl
    · rw [if_neg hsame, if_neg (Ne.symm hsame)]
      exact h.hours old hold

theorem Booked.step (h : Booked s) (hstep : deskStep s a = some s') : Booked s' := by
  obtain ⟨db, hdb, rfl⟩ := Option.map_eq_some_iff.mp hstep
  cases hclaim : claimOf s.db a with
  | none =>
    rw [Option.toList_none, List.append_nil]
    exact h.keeps (keepsHours_of_unclaimed hdb hclaim)
  | some claim =>
    cases a with
    | confirm pendingId actor row confirmedAt entry => cases hclaim
    | activity activity =>
      cases activity with
      | claimNext actor sessionId now =>
        cases hexit : claimNext actor sessionId now s.db with
        | mk exit after =>
          rw [claimOf, hexit] at hclaim
          cases exit with
          | raised e => cases hclaim
          | crashed => cases hclaim
          | returned claimed =>
            have hcommit : commit (claimNext actor sessionId now) s.db = some db := hdb
            rw [commit_of_returned hexit] at hcommit
            obtain rfl := Option.some.inj hcommit
            rcases claimNext_claimed hexit with ⟨rfl, -⟩ | ⟨task, htask, hour, rows, rfl, htouched, rfl⟩
            · cases hclaim
            · cases hclaim
              exact h.claim htask htouched
      | _ => cases hclaim

/-- Nothing has been given to the officers yet. -/
def Desk.opening (db : Database) : Desk :=
  ⟨{ db with reviewTasks := [], reviewSessions := [] }, []⟩

theorem booked_opening (db : Database) : Booked (.opening db) where
  table := ⟨List.nodup_nil, fun _ => sittingsTold_nil⟩
  known := fun _ h => nomatch h
  hours := fun _ h => nomatch h

/-- Throughout every run, the sessions are the sittings of the officers, and a task has the hour of
the sitting in which it was claimed last. -/
theorem sittings_kept (db : Database) (steps : List ReviewStep) :
    Runs.Throughout deskStep SittingsKept (.opening db) steps := by
  have hbooked : Runs.Throughout deskStep Booked (.opening db) steps :=
    Runs.throughout_of_preserved (booked_opening db) fun _ _ _ hs hstep => hs.step hstep
  exact hbooked.imp fun s hs => ⟨hs.table.told, hs.hours⟩

end Run

def hoursAfter (hours : Fin 10) : Instant :=
  ⟨(newYear 0).val + reviewSessionGap * hours.val, by
    simp only [newYear, reviewSessionGap, microsPerDay, microsPerSecond, calendarDays]
    omega⟩

/-- An officer gives the task back after each claim. The last one comes after a gap. -/
def claimedAgain : List ReviewStep :=
  [.activity (.decision (.insertExtraction sampleReview)),
    .activity (.decision (.route sampleReview.id none none Decision.sampleStamps)),
    .activity (.claimNext "alice".toList "w1".toList (hoursAfter 0)),
    .activity (.skip "c1".toList "alice".toList ⟨"a3".toList, newYear 2⟩),
    .activity (.claimNext "alice".toList "w2".toList (hoursAfter 1)),
    .activity (.skip "c1".toList "alice".toList ⟨"a4".toList, newYear 3⟩),
    .activity (.claimNext "alice".toList "w3".toList (hoursAfter 3))]

example : (Runs.run deskStep (.opening scannedPage) claimedAgain).map (fun s =>
    (s.db.reviewSessions.map fun row => (row.startedAt, row.endedAt),
      s.claims.inits.map (hourAt "c1".toList),
      s.db.reviewTasks.map ReviewTask.hourIntoSession)) =
    some ([(hoursAfter 0, some (hoursAfter 1)), (hoursAfter 3, none)],
      [none, some 0, some 1, some 0], [some 0]) := by
  decide +kernel

end LandRecords.Review
