import LandRecords.Base.ReadCommitted
import LandRecords.Review.Returned

/-! Concurrent confirmations and submissions. Neither path locks the row that it
checks, so that two requests can both find it open. -/
namespace LandRecords.Review

open Backend Datetime Text ReadCommitted

inductive Request
  | confirm (pendingId actor rowId : Text)
  | submit (taskId actor correctedValue : Text) (verdict : Option Text) (rowId : Text)

inductive Target
  | pending (id : Text)
  | task (id : Text)
deriving DecidableEq

def Request.target : Request → Target
  | .confirm pendingId _ _ => .pending pendingId
  | .submit taskId _ _ _ _ => .task taskId

abbrev NewRow := Correction ⊕ PendingCorrection

inductive Phase
  | received
  | pendingRead (pending : PendingCorrection)
  | claimantRead (pending : PendingCorrection)
  | refused
  | taskRead (task : ReviewTask)
  | extractionRead (task : ReviewTask) (extraction : Extraction)
  | digestRead (task : ReviewTask) (extraction : Extraction) (digest : Text)
  | rowAdded (row : NewRow)
  | sampleRead (row : NewRow) (verdict : Option (Text × OfficerVerdict))
  | decided (row : NewRow)

structure Locals where
  request : Request
  phase : Phase

inductive Write
  | addCorrection (row : Correction)
  | addPending (row : PendingCorrection)
  | resolve (pendingId actor correctionId : Text) (confirmedAt : Instant)
  | recordVerdict (sampleId : Text) (verdict : OfficerVerdict)
  | closeTask (taskId : Text) (closedAt : Instant)

inductive RowKey
  | correction (id : Text)
  | pendingCorrection (id : Text)
  | auditSample (id : Text)
  | reviewTask (id : Text)
deriving DecidableEq

def Write.rowKey : Write → RowKey
  | .addCorrection row => .correction row.id
  | .addPending row => .pendingCorrection row.id
  | .resolve pendingId _ _ _ => .pendingCorrection pendingId
  | .recordVerdict sampleId _ => .auditSample sampleId
  | .closeTask taskId _ => .reviewTask taskId

def Write.apply : Write → Database → Database
  | .addCorrection row => withCorrection row
  | .addPending row => withPending row
  | .resolve pendingId actor correctionId confirmedAt =>
      withResolved pendingId actor correctionId confirmedAt
  | .recordVerdict sampleId verdict => mapSample sampleId fun row =>
      { row with officerVerdict := verdict, agreed := some (verdict = .agree) }
  | .closeTask taskId closedAt => mapTask taskId (closedOn closedAt)

def Write.violates (db : Database) : Write → Bool
  | .addCorrection row => row.id ∈ db.corrections.map Correction.id
  | .addPending row => row.id ∈ db.pendingCorrections.map PendingCorrection.id
  | _ => false

/-- `confirm_pending_correction`, up to its first write. -/
def confirmStatement (pendingId actor rowId : Text) (now : Instant) (db : Database) :
    Phase → Statement Phase Write
  | .received =>
      match db.pendingCorrection? pendingId with
      | none => .fail
      | some pending =>
          if pending.state ≠ .pending then .fail else .next (.pendingRead pending) none
  | .pendingRead pending =>
      if actor = pending.firstActor ∨ claimantOf db pending.extractionId = some actor then
        .next .refused none
      else .next (.claimantRead pending) none
  | .claimantRead pending =>
      let correction := confirmedCorrection pending actor ⟨rowId, now⟩
      .next (.rowAdded (.inl correction)) (some (.addCorrection correction))
  | .rowAdded row => .next (.decided row) (some (.resolve pendingId actor rowId now))
  | .refused | .decided _ => .done
  | _ => .fail

def sampleVerdict (sample : Option AuditSample) (verdict : Option Text) :
    Option (Option (Text × OfficerVerdict)) :=
  match sample, verdict with
  | some sample, some verdict =>
      (OfficerVerdict.ofText? verdict).map fun officerVerdict => some (sample.id, officerVerdict)
  | _, _ => some none

/-- `submit`. -/
def submitStatement (taskId actor correctedValue : Text) (verdict : Option Text) (rowId : Text)
    (now : Instant) (db : Database) : Phase → Statement Phase Write
  | .received =>
      match (claimedTask taskId actor db).1 with
      | .returned task => .next (.taskRead task) none
      | _ => .fail
  | .taskRead task =>
      match db.extraction? task.extractionId with
      | none => .fail
      | some extraction => .next (.extractionRead task extraction) none
  | .extractionRead task extraction =>
      match (sourcePageDigestFor (db.page? extraction.pageId) db).1 with
      | .returned digest => .next (.digestRead task extraction digest) none
      | _ => .fail
  | .digestRead task extraction digest =>
      if needsMakerChecker extraction correctedValue then
        let pending := heldCorrection extraction correctedValue actor task.sourceStream digest
          ⟨rowId, now⟩
        .next (.rowAdded (.inr pending)) (some (.addPending pending))
      else
        let correction := submittedCorrection extraction correctedValue actor task.sourceStream
          digest ⟨rowId, now⟩
        .next (.rowAdded (.inl correction)) (some (.addCorrection correction))
  | .rowAdded row =>
      match (scalarOneOrNone (fun db =>
          db.auditSamples.filter fun row => row.reviewTaskId = some taskId) db).1 with
      | .returned sample =>
          match sampleVerdict sample verdict with
          | none => .fail
          | some verdict => .next (.sampleRead row verdict) none
      | _ => .fail
  | .sampleRead row (some (sampleId, verdict)) =>
      .next (.sampleRead row none) (some (.recordVerdict sampleId verdict))
  | .sampleRead row none => .next (.decided row) (some (.closeTask taskId now))
  | .decided _ => .done
  | _ => .fail

def requestStatement (now : Instant) (db : Database) (request : Request) :
    Phase → Statement Phase Write :=
  match request with
  | .confirm pendingId actor rowId => confirmStatement pendingId actor rowId now db
  | .submit taskId actor correctedValue verdict rowId =>
      submitStatement taskId actor correctedValue verdict rowId now db

def Locals.statement (locals : Locals) (now : Instant) (db : Database) : Statement Locals Write :=
  match requestStatement now db locals.request locals.phase with
  | .done => .done
  | .fail => .fail
  | .next phase write => .next { locals with phase := phase } write

/-- The two routes. Their updates lock the row that they write, and nothing else. -/
def reviewRequests : System Database Request Locals Write Instant where
  init request := ⟨request, .received⟩
  statement := Locals.statement
  apply := Write.apply
  clash write held := write.rowKey = held.rowKey
  violates write db := write.violates db

def Phase.row? : Phase → Option NewRow
  | .rowAdded row | .sampleRead row _ | .decided row => some row
  | _ => none

def Phase.isDecided : Phase → Bool
  | .decided _ => true
  | _ => false

abbrev Commits := Shared Database Locals Instant

def rowsFor (v : Commits) (target : Target) : List NewRow :=
  (v.log.filter fun locals => locals.request.target = target).filterMap fun locals =>
    locals.phase.row?

/-- The new corrections are the rows of the committed requests, and no target has
two of them. -/
structure OnePerTarget (start : Database) (v : Commits) : Prop where
  corrections : v.committed.corrections = start.corrections ++
    v.log.filterMap fun locals => locals.phase.row?.bind Sum.getLeft?
  pendings : v.committed.pendingCorrections.map PendingCorrection.id =
    start.pendingCorrections.map PendingCorrection.id ++
      (v.log.filterMap fun locals => locals.phase.row?.bind Sum.getRight?).map PendingCorrection.id
  once : ∀ target, (rowsFor v target).length ≤ 1

def Decided (db : Database) : Target → Bool
  | .pending id => (db.pendingCorrection? id).any fun row => row.state ≠ .pending
  | .task id => (db.reviewTask? id).any fun row => row.closedAt ≠ none

def StillOpen (v : Commits) (txn : Txn Locals Write) : Prop :=
  txn.locals.phase.row? ≠ none → Decided v.committed txn.locals.request.target = false

def Write.decides : Write → Option Target
  | .resolve pendingId _ _ _ => some (.pending pendingId)
  | .closeTask taskId _ => some (.task taskId)
  | _ => none

def Found (db : Database) : Target → Prop
  | .pending id => db.pendingCorrection? id ≠ none
  | .task id => db.reviewTask? id ≠ none

def Write.AddsPending : Write → Prop
  | .addPending row => row.state = .pending
  | _ => True

section Updates

variable {db : Database} {target : Target}

theorem found_apply (write : Write) (h : Found db target) : Found (write.apply db) target := by
  cases target with
  | pending id =>
    cases write with
    | addPending row =>
      obtain ⟨found, hfound⟩ := Option.ne_none_iff_exists'.mp h
      simp only [Found, Write.apply, withPending, Database.pendingCorrection?,
        List.find?_append] at hfound ⊢
      rw [hfound]
      exact Option.some_ne_none _
    | resolve pendingId actor correctionId confirmedAt =>
      simp only [Found, Write.apply, pendingCorrection?_resolved] at h ⊢
      exact fun hnone => h (Option.map_eq_none_iff.mp hnone)
    | _ => exact h
  | task id =>
    cases write with
    | closeTask taskId closedAt =>
      simp only [Found, Write.apply, reviewTask?_mapTask (closedOn closedAt)
        (fun _ => rfl)] at h ⊢
      exact fun hnone => h (Option.map_eq_none_iff.mp hnone)
    | _ => exact h

theorem decided_apply (db : Database) (target : Target) {write : Write}
    (hadds : write.AddsPending) : Decided (write.apply db) target = true ↔
    Decided db target = true ∨ (write.decides = some target ∧ Found db target) := by
  cases target with
  | pending targetId =>
    cases write with
    | addPending row =>
      have hnew : row.state = .pending := hadds
      simp only [Decided, Write.apply, withPending, Database.pendingCorrection?,
        List.find?_append, Write.decides, reduceCtorEq, false_and, or_false]
      cases db.pendingCorrections.find? fun row => row.id = targetId with
      | some found => rfl
      | none =>
        by_cases hid : row.id = targetId
        · simp [hid, hnew]
        · simp [hid]
    | resolve pendingId actor correctionId confirmedAt =>
      simp only [Decided, Write.apply, pendingCorrection?_resolved, Write.decides, Found]
      cases hrow : db.pendingCorrection? targetId with
      | none => simp
      | some row =>
        have hid := Database.pendingCorrection?_id hrow
        by_cases hown : pendingId = targetId
        · simp [hid, hown]
        · simp [hid, hown, Ne.symm hown]
    | _ => exact ⟨.inl, fun h => h.elim id fun hown => nomatch hown.1⟩
  | task targetId =>
    cases write with
    | closeTask taskId closedAt =>
      simp only [Decided, Write.apply, Write.decides, Found,
        reviewTask?_mapTask (closedOn closedAt) (fun _ => rfl)]
      cases hrow : db.reviewTask? targetId with
      | none => simp
      | some row =>
        have hid := Database.reviewTask?_id hrow
        by_cases hown : taskId = targetId
        · simp [hid, hown, closedOn]
        · simp [hid, hown, Ne.symm hown]
    | _ => exact ⟨.inl, fun h => h.elim id fun hown => nomatch hown.1⟩

end Updates

section Views

variable {txn : Txn Locals Write} {db : Database} {target : Target}

theorem view_cons (locals : Locals) (write : Write) (writes : List Write) :
    view reviewRequests ⟨locals, write :: writes⟩ db =
      view reviewRequests ⟨locals, writes⟩ (write.apply db) := rfl

theorem found_view (h : Found db target) : Found (view reviewRequests txn db) target := by
  obtain ⟨locals, writes⟩ := txn
  induction writes generalizing db with
  | nil => exact h
  | cons write writes ih => exact ih (found_apply write h)

theorem decided_view (hadds : ∀ write ∈ txn.writes, write.AddsPending) (hfound : Found db target) :
    Decided (view reviewRequests txn db) target = true ↔
      Decided db target = true ∨ ∃ write ∈ txn.writes, write.decides = some target := by
  obtain ⟨locals, writes⟩ := txn
  induction writes generalizing db with
  | nil => simp [view]
  | cons write writes ih =>
    have hhere := decided_apply db target (hadds write List.mem_cons_self)
    have hrest := ih (found_apply write hfound) fun other hother =>
      hadds other (List.mem_cons_of_mem _ hother)
    rw [view_cons, hrest, hhere, and_iff_left hfound, or_assoc]
    simp only [List.exists_mem_cons_iff]

def Write.row? : Write → Option NewRow
  | .addCorrection row => some (.inl row)
  | .addPending row => some (.inr row)
  | _ => none

theorem corrections_view : (view reviewRequests txn db).corrections = db.corrections ++
    (txn.writes.filterMap Write.row?).filterMap Sum.getLeft? := by
  obtain ⟨locals, writes⟩ := txn
  induction writes generalizing db with
  | nil => simp [view]
  | cons write writes ih =>
    rw [view_cons, ih]
    cases write with
    | addCorrection row => simp [Write.apply, Write.row?, withCorrection]
    | addPending row => simp [List.filterMap_cons, Write.apply, Write.row?, withPending]
    | _ => simp [List.filterMap_cons, Write.apply, Write.row?, withResolved, mapSample, mapTask]

theorem pendings_view : (view reviewRequests txn db).pendingCorrections.map PendingCorrection.id =
    db.pendingCorrections.map PendingCorrection.id ++
      ((txn.writes.filterMap Write.row?).filterMap Sum.getRight?).map PendingCorrection.id := by
  obtain ⟨locals, writes⟩ := txn
  induction writes generalizing db with
  | nil => simp [view]
  | cons write writes ih =>
    rw [view_cons, ih]
    cases write with
    | addCorrection row => simp [List.filterMap_cons, Write.apply, Write.row?, withCorrection]
    | addPending row => simp [Write.apply, Write.row?, withPending]
    | resolve pendingId actor correctionId confirmedAt =>
      simp only [Write.apply, withResolved, map_id_resolvePending]
      rfl
    | _ => simp [List.filterMap_cons, Write.apply, Write.row?, mapSample, mapTask]

end Views

structure Advanced (db : Database) (locals locals' : Locals) (write : Option Write) : Prop where
  request : locals'.request = locals.request
  started : locals'.phase ≠ .received
  checked : locals.phase = .received →
    Found db locals.request.target ∧ Decided db locals.request.target = false
  idle : locals'.phase.row? = none → locals.phase.row? = none ∧ write = none
  row : locals'.phase.row?.toList = locals.phase.row?.toList ++ (write.bind Write.row?).toList
  adds : ∀ update ∈ write, update.AddsPending
  own : ∀ update ∈ write, ∀ target, update.decides = some target → target = locals.request.target
  decided : locals'.phase.isDecided = true →
    ∃ update ∈ write, update.decides = some locals.request.target

section Statements

variable {db : Database} {now : Instant} {locals locals' : Locals} {write : Option Write}

theorem Advanced.read {request : Request} {phase phase' : Phase} (hstarted : phase' ≠ .received)
    (hchecked : phase = .received → Found db request.target ∧ Decided db request.target = false)
    (hrow : phase'.row? = phase.row?) (hopen : phase'.isDecided = false) :
    Advanced db ⟨request, phase⟩ ⟨request, phase'⟩ none where
  request := rfl
  started := hstarted
  checked := hchecked
  idle := fun hnone => ⟨hrow.symm.trans hnone, rfl⟩
  row := by simp [hrow]
  adds := fun _ h => nomatch h
  own := fun _ h => nomatch h
  decided := fun hdecided => absurd hdecided (by simp [hopen])

theorem Advanced.added {request : Request} {phase : Phase} {row : NewRow} {update : Write}
    (hphase : phase ≠ .received) (hbefore : phase.row? = none) (hrow : update.row? = some row)
    (hadds : update.AddsPending) (hdecides : update.decides = none) :
    Advanced db ⟨request, phase⟩ ⟨request, .rowAdded row⟩ (some update) where
  request := rfl
  started := nofun
  checked := fun h => absurd h hphase
  idle := nofun
  row := by
    rw [hbefore, Option.bind_some, hrow]
    rfl
  adds := fun other h => by cases h; exact hadds
  own := fun other h target htarget => by
    cases h
    rw [hdecides] at htarget
    cases htarget
  decided := nofun

theorem Advanced.updated {request : Request} {phase phase' : Phase} {row : NewRow} {update : Write}
    (hphase : phase ≠ .received) (hbefore : phase.row? = some row) (hafter : phase'.row? = some row)
    (hrow : update.row? = none) (hadds : update.AddsPending)
    (hown : ∀ target, update.decides = some target → target = request.target)
    (hdecided : phase'.isDecided = true → update.decides = some request.target) :
    Advanced db ⟨request, phase⟩ ⟨request, phase'⟩ (some update) where
  request := rfl
  started := by
    rintro rfl
    cases hafter
  checked := fun h => absurd h hphase
  idle := fun hnone => by
    rw [hafter] at hnone
    cases hnone
  row := by simp [hbefore, hafter, hrow]
  adds := fun other h => by cases h; exact hadds
  own := fun other h => by cases h; exact hown
  decided := fun h => ⟨update, rfl, hdecided h⟩

variable {request : Request} {phase phase' : Phase}

theorem Locals.statement_next (h : locals.statement now db = .next locals' write) :
    requestStatement now db locals.request locals.phase = .next locals'.phase write ∧
      locals' = ⟨locals.request, locals'.phase⟩ := by
  unfold Locals.statement at h
  split at h
  · cases h
  · cases h
  · rename_i phase update hrequest
    cases h
    exact ⟨hrequest, rfl⟩

theorem confirmStatement_advanced {pendingId actor rowId : Text}
    (h : confirmStatement pendingId actor rowId now db phase = .next phase' write) :
    Advanced db ⟨.confirm pendingId actor rowId, phase⟩ ⟨.confirm pendingId actor rowId, phase'⟩
      write := by
  cases phase with
  | received =>
    simp only [confirmStatement] at h
    cases hpending : db.pendingCorrection? pendingId with
    | none =>
      simp only [hpending] at h
      cases h
    | some pending =>
      by_cases hstate : pending.state = .pending
      · simp only [hpending, hstate, ne_eq, not_true, if_false] at h
        cases h
        refine .read nofun (fun _ => ⟨?_, ?_⟩) rfl rfl
        · simp [Found, Request.target, hpending]
        · simp [Decided, Request.target, hpending, hstate]
      · simp only [hpending, hstate, ne_eq, not_false_eq_true, if_true] at h
        cases h
  | pendingRead pending =>
    simp only [confirmStatement] at h
    split at h
    · cases h
      exact .read nofun nofun rfl rfl
    · cases h
      exact .read nofun nofun rfl rfl
  | claimantRead pending =>
    cases h
    exact .added nofun rfl rfl trivial rfl
  | rowAdded row =>
    cases h
    exact .updated nofun rfl rfl rfl trivial (fun _ h => (Option.some.inj h).symm) fun _ => rfl
  | _ => cases h

section Submit

variable {taskId actor correctedValue rowId : Text} {verdict : Option Text}

theorem submitStatement_received
    (h : submitStatement taskId actor correctedValue verdict rowId now db .received =
      .next phase' write) :
    write = none ∧ ∃ task, phase' = .taskRead task ∧ db.reviewTask? taskId = some task ∧
      task.closedAt = none := by
  simp only [submitStatement] at h
  cases htask : claimedTask taskId actor db with
  | mk exit after =>
    cases exit with
    | returned task =>
      simp only [htask] at h
      cases h
      obtain ⟨hfound, hclosed, -, -⟩ := claimedTask_returned htask
      exact ⟨rfl, task, rfl, hfound, hclosed⟩
    | raised e =>
      simp only [htask] at h
      cases h
    | crashed =>
      simp only [htask] at h
      cases h

theorem submitStatement_taskRead {task : ReviewTask}
    (h : submitStatement taskId actor correctedValue verdict rowId now db (.taskRead task) =
      .next phase' write) :
    write = none ∧ ∃ extraction, phase' = .extractionRead task extraction := by
  simp only [submitStatement] at h
  split at h
  · cases h
  · cases h
    exact ⟨rfl, _, rfl⟩

theorem submitStatement_extractionRead {task : ReviewTask} {extraction : Extraction}
    (h : submitStatement taskId actor correctedValue verdict rowId now db
      (.extractionRead task extraction) = .next phase' write) :
    write = none ∧ ∃ digest, phase' = .digestRead task extraction digest := by
  simp only [submitStatement] at h
  split at h
  · cases h
    exact ⟨rfl, _, rfl⟩
  · cases h

theorem submitStatement_rowAdded (taskId actor correctedValue : Text) (verdict : Option Text)
    (rowId : Text) (now : Instant) (db : Database) (row : NewRow) :
    submitStatement taskId actor correctedValue verdict rowId now db (.rowAdded row) = .fail ∨
      ∃ found, submitStatement taskId actor correctedValue verdict rowId now db (.rowAdded row) =
        .next (.sampleRead row found) none := by
  simp only [submitStatement]
  split
  · split
    · exact .inl rfl
    · exact .inr ⟨_, rfl⟩
  · exact .inl rfl

theorem submitStatement_advanced
    (h : submitStatement taskId actor correctedValue verdict rowId now db phase =
      .next phase' write) :
    Advanced db ⟨.submit taskId actor correctedValue verdict rowId, phase⟩
      ⟨.submit taskId actor correctedValue verdict rowId, phase'⟩ write := by
  cases phase with
  | received =>
    obtain ⟨rfl, task, rfl, hfound, hclosed⟩ := submitStatement_received h
    refine .read nofun (fun _ => ⟨?_, ?_⟩) rfl rfl
    · simp [Found, Request.target, hfound]
    · simp [Decided, Request.target, hfound, hclosed]
  | taskRead task =>
    obtain ⟨rfl, extraction, rfl⟩ := submitStatement_taskRead h
    exact .read nofun nofun rfl rfl
  | extractionRead task extraction =>
    obtain ⟨rfl, digest, rfl⟩ := submitStatement_extractionRead h
    exact .read nofun nofun rfl rfl
  | digestRead task extraction digest =>
    simp only [submitStatement] at h
    split at h
    · cases h
      exact .added nofun rfl rfl rfl rfl
    · cases h
      exact .added nofun rfl rfl trivial rfl
  | rowAdded row =>
    rcases submitStatement_rowAdded taskId actor correctedValue verdict rowId now db row with
      hfail | ⟨found, hnext⟩
    · cases hfail.symm.trans h
    · cases hnext.symm.trans h
      exact .read nofun nofun rfl rfl
  | sampleRead row found =>
    cases found with
    | none =>
      cases h
      exact .updated nofun rfl rfl rfl trivial (fun _ h => (Option.some.inj h).symm) fun _ => rfl
    | some found =>
      cases h
      exact .updated nofun rfl rfl rfl trivial nofun nofun
  | _ => cases h

end Submit

theorem statement_next (h : locals.statement now db = .next locals' write) :
    Advanced db locals locals' write := by
  obtain ⟨hrequest, hlocals⟩ := Locals.statement_next h
  obtain ⟨request, phase⟩ := locals
  rw [hlocals]
  cases request with
  | confirm pendingId actor rowId => exact confirmStatement_advanced hrequest
  | submit taskId actor correctedValue verdict rowId => exact submitStatement_advanced hrequest

theorem Locals.statement_done (h : locals.statement now db = .done) :
    requestStatement now db locals.request locals.phase = .done := by
  unfold Locals.statement at h
  split at h
  · assumption
  · cases h
  · cases h

theorem statement_done (h : locals.statement now db = .done) :
    locals.phase.isDecided = true ∨ locals.phase.row? = none := by
  have hrequest := Locals.statement_done h
  obtain ⟨request, phase⟩ := locals
  cases phase with
  | rowAdded row =>
    cases request with
    | confirm pendingId actor rowId => cases hrequest
    | submit taskId actor correctedValue verdict rowId =>
      rcases submitStatement_rowAdded taskId actor correctedValue verdict rowId now db row with
        hfail | ⟨found, hnext⟩
      · cases hfail.symm.trans hrequest
      · cases hnext.symm.trans hrequest
  | sampleRead row found =>
    cases request with
    | confirm pendingId actor rowId => cases hrequest
    | submit taskId actor correctedValue verdict rowId =>
      cases found with
      | none => cases hrequest
      | some found => cases hrequest
  | decided row => exact .inl rfl
  | _ => exact .inr rfl

end Statements

structure Progress (v : Commits) (txn : Txn Locals Write) : Prop where
  idle : txn.locals.phase.row? = none → txn.writes = []
  rows : txn.writes.filterMap Write.row? = txn.locals.phase.row?.toList
  adds : ∀ write ∈ txn.writes, write.AddsPending
  own : ∀ write ∈ txn.writes, ∀ target, write.decides = some target →
    target = txn.locals.request.target
  decided : txn.locals.phase.isDecided = true →
    ∃ write ∈ txn.writes, write.decides = some txn.locals.request.target
  found : txn.locals.phase ≠ .received → Found v.committed txn.locals.request.target ∧
    (Decided v.committed txn.locals.request.target = true →
      rowsFor v txn.locals.request.target ≠ [])

structure Kept (start : Database) (v : Commits) : Prop extends OnePerTarget start v where
  closed : ∀ target, rowsFor v target ≠ [] → Decided v.committed target = true

section Requests

variable {v : Commits} {txn : Txn Locals Write} {start : Database}

theorem Progress.next (h : Progress v txn) {locals : Locals} {write : Option Write}
    (hnext : txn.locals.statement v.now (view reviewRequests txn v.committed) =
      .next locals write) :
    Progress v ⟨locals, txn.writes ++ write.toList⟩ := by
  have hadvanced := statement_next hnext
  constructor
  · intro hnone
    obtain ⟨hbefore, hwrite⟩ := hadvanced.idle hnone
    rw [h.idle hbefore, hwrite]
    rfl
  · rw [List.filterMap_append, h.rows, hadvanced.row]
    cases write with
    | none => rfl
    | some update => cases hrow : update.row? <;> simp [hrow]
  · intro update hupdate
    rcases List.mem_append.mp hupdate with hold | hnew
    · exact h.adds update hold
    · exact hadvanced.adds update (Option.mem_toList.mp hnew)
  · intro update hupdate target htarget
    rw [hadvanced.request]
    rcases List.mem_append.mp hupdate with hold | hnew
    · exact h.own update hold target htarget
    · exact hadvanced.own update (Option.mem_toList.mp hnew) target htarget
  · intro hdecided
    obtain ⟨update, hupdate, htarget⟩ := hadvanced.decided hdecided
    rw [hadvanced.request]
    exact ⟨update, List.mem_append_right _ (Option.mem_toList.mpr hupdate), htarget⟩
  · intro _
    rw [hadvanced.request]
    by_cases hreceived : txn.locals.phase = .received
    · obtain ⟨hfound, hopen⟩ := hadvanced.checked hreceived
      have hwrites : txn.writes = [] := h.idle (by rw [hreceived]; rfl)
      have hview : view reviewRequests txn v.committed = v.committed := by
        rw [view, hwrites]
        rfl
      rw [hview] at hfound hopen
      exact ⟨hfound, fun hdecided => absurd hdecided (by simp [hopen])⟩
    · exact h.found hreceived

theorem filterMap_row {β : Type} (locals : Locals) (f : NewRow → Option β) :
    locals.phase.row?.toList.filterMap f =
      [locals].filterMap fun locals => locals.phase.row?.bind f := by
  cases hrow : locals.phase.row? with
  | none => simp [hrow]
  | some row => cases hrest : f row <;> simp [hrow, hrest]

theorem rowsFor_publish (target : Target) : rowsFor (publish reviewRequests txn v) target =
    rowsFor v target ++ if txn.locals.request.target = target then
      txn.locals.phase.row?.toList else [] := by
  unfold rowsFor publish
  rw [List.filter_append, List.filterMap_append]
  congr 1
  by_cases hown : txn.locals.request.target = target
  · cases hrow : txn.locals.phase.row? <;> simp [hown, hrow]
  · simp [hown]

theorem decided_found {db : Database} {target : Target} (h : Decided db target = true) :
    Found db target := by
  cases target with
  | pending id =>
    intro hnone
    simp only [Decided, hnone, Option.any_none, Bool.false_eq_true] at h
  | task id =>
    intro hnone
    simp only [Decided, hnone, Option.any_none, Bool.false_eq_true] at h

theorem Progress.decided_publish (h : Progress v txn)
    (hdone : txn.locals.statement v.now (view reviewRequests txn v.committed) = .done)
    {target : Target} (hfound : Found v.committed target) :
    Decided (publish reviewRequests txn v).committed target = true ↔
      Decided v.committed target = true ∨
        (txn.locals.phase.row? ≠ none ∧ target = txn.locals.request.target) := by
  refine (decided_view h.adds hfound).trans (or_congr_right ⟨?_, ?_⟩)
  · rintro ⟨update, hupdate, htarget⟩
    refine ⟨fun hnone => ?_, h.own update hupdate target htarget⟩
    rw [h.idle hnone] at hupdate
    cases hupdate
  · rintro ⟨hrow, rfl⟩
    exact h.decided ((statement_done hdone).resolve_right hrow)

theorem Progress.published (h : Progress v txn) (hkept : Kept start v)
    (hdone : txn.locals.statement v.now (view reviewRequests txn v.committed) = .done) {target : Target}
    (hrows : rowsFor (publish reviewRequests txn v) target ≠ []) :
    Decided (publish reviewRequests txn v).committed target = true := by
  rw [rowsFor_publish] at hrows
  by_cases hold : rowsFor v target = []
  · rw [hold, List.nil_append] at hrows
    have hown : txn.locals.request.target = target := by
      by_contra hother
      rw [if_neg hother] at hrows
      exact hrows rfl
    have hrow : txn.locals.phase.row? ≠ none := by
      intro hnone
      rw [if_pos hown, hnone] at hrows
      exact hrows rfl
    have hstarted : txn.locals.phase ≠ .received := by
      intro hreceived
      rw [hreceived] at hrow
      exact hrow rfl
    exact (h.decided_publish hdone (hown ▸ (h.found hstarted).1)).mpr (.inr ⟨hrow, hown.symm⟩)
  · have hdecided := hkept.closed target hold
    exact (h.decided_publish hdone (decided_found hdecided)).mpr (.inl hdecided)

/-- A commit that finds its target open keeps it the only one. -/
theorem Kept.publish (hkept : Kept start v) (h : Progress v txn)
    (hdone : txn.locals.statement v.now (view reviewRequests txn v.committed) = .done)
    (hopen : StillOpen v txn) : Kept start (ReadCommitted.publish reviewRequests txn v) := by
  constructor
  · constructor
    · refine corrections_view.trans ?_
      rw [hkept.corrections, h.rows, ReadCommitted.publish, List.filterMap_append,
        List.append_assoc]
      exact congrArg _ (congrArg _ (filterMap_row txn.locals Sum.getLeft?))
    · refine pendings_view.trans ?_
      rw [hkept.pendings, h.rows, ReadCommitted.publish, List.filterMap_append, List.map_append,
        List.append_assoc]
      exact congrArg _ (congrArg _ (congrArg _ (filterMap_row txn.locals Sum.getRight?)))
    · intro target
      rw [rowsFor_publish]
      by_cases hown : txn.locals.request.target = target
      · cases hrow : txn.locals.phase.row? with
        | none =>
          rw [if_pos hown, Option.toList_none, List.append_nil]
          exact hkept.once target
        | some row =>
          have hundecided := hopen (by rw [hrow]; exact Option.some_ne_none _)
          have hnone : rowsFor v target = [] := by
            by_contra hsome
            rw [hown, hkept.closed target hsome] at hundecided
            cases hundecided
          rw [hnone, if_pos hown]
          exact le_refl _
      · rw [if_neg hown, List.append_nil]
        exact hkept.once target
  · exact fun target hrows => h.published hkept hdone hrows

theorem reviewRequests_guarantee : Guarantee reviewRequests (Kept start) Progress StillOpen where
  symm write held := decide_eq_decide.mpr eq_comm
  begins v request hkept := {
    idle := fun _ => rfl
    rows := rfl
    adds := fun _ h => nomatch h
    own := fun _ h => nomatch h
    decided := nofun
    found := fun hstarted => absurd rfl hstarted }
  reads v txn locals hkept h hnext := by
    have hprogress := h.next hnext
    rw [Option.toList_none, List.append_nil] at hprogress
    exact hprogress
  writes v txn locals write hkept h hnext hvalid := h.next hnext
  commits v txn hkept h hdone hopen := by
    refine ⟨hkept.publish h hdone hopen, fun other hother hapart => ?_⟩
    refine ⟨hother.idle, hother.rows, hother.adds, hother.own, hother.decided, fun hstarted => ?_⟩
    obtain ⟨hfound, hrows⟩ := hother.found hstarted
    refine ⟨found_view hfound, fun hdecided => ?_⟩
    rw [rowsFor_publish]
    intro hnone
    obtain ⟨hold, hnew⟩ := List.append_eq_nil_iff.mp hnone
    rcases (h.decided_publish hdone hfound).mp hdecided with hbefore | ⟨hrow, hown⟩
    · exact hrows hbefore hold
    · rw [if_pos hown.symm, Option.toList_eq_nil_iff] at hnew
      exact hrow hnew
  advances v now hnow hkept := ⟨⟨⟨hkept.corrections, hkept.pendings, hkept.once⟩, hkept.closed⟩,
    fun other hother => ⟨hother.idle, hother.rows, hother.adds, hother.own, hother.decided,
      hother.found⟩⟩

end Requests

/-- No target gets two rows throughout a run exactly when each request that has added
a row commits while its target is still open. -/
theorem onePerTarget_iff_stillOpen (db : Database) (now : Instant)
    (steps : List (ReadCommitted.Step Request Instant)) :
    Runs.Throughout (step reviewRequests) (fun s => OnePerTarget db s.shared)
        { shared := { committed := db, now := now } } steps ↔
      Runs.AllSteps (step reviewRequests) (CommitsWhen StillOpen)
        { shared := { committed := db, now := now } } steps := by
  apply reviewRequests_guarantee.throughout_iff (G := Kept db)
  · apply Invariant.start
    exact ⟨⟨by simp, by simp, fun target => Nat.zero_le _⟩, fun target h => absurd rfl h⟩
  · exact fun v hkept => hkept.toOnePerTarget
  · intro v txn hkept h hdone hone hrow
    rw [← Bool.not_eq_true]
    intro hdecided
    have hstarted : txn.locals.phase ≠ .received := by
      intro hreceived
      rw [hreceived] at hrow
      exact hrow rfl
    have hbefore := List.length_pos_iff.mpr ((h.found hstarted).2 hdecided)
    have hafter := hone.once txn.locals.request.target
    obtain ⟨row, hnew⟩ := Option.ne_none_iff_exists'.mp hrow
    rw [rowsFor_publish, if_pos rfl, hnew, List.length_append, Option.toList_some,
      List.length_singleton] at hafter
    omega

def heldArea : PendingCorrection where
  id := "m1".toList
  extractionId := "e1".toList
  cropUri := "/pages/p1/crop?bbox=None".toList
  predicted := some "2.5".toList
  corrected := "1234567".toList
  editDistance := 7
  fieldClass := "area".toList
  firstActor := "alice".toList
  modelVersion := none
  configVersion := none
  stream := .routed
  sourcePageDigest := "abcd".toList
  openedAt := newYear 1

def bothConfirm : List (ReadCommitted.Step Request Instant) :=
  [.begin (.confirm "m1".toList "bob".toList "k1".toList),
    .begin (.confirm "m1".toList "carol".toList "k2".toList),
    .execute 0, .execute 1, .execute 0, .execute 1, .execute 0, .execute 1, .execute 0, .commit 0,
    .execute 1, .commit 1]

def heldDatabase : Database := { pendingCorrections := [heldArea] }

theorem bothConfirm_two_corrections :
    ¬ Runs.Throughout (step reviewRequests) (fun s => OnePerTarget heldDatabase s.shared)
      { shared := { committed := heldDatabase, now := newYear 2 } } bothConfirm := by
  intro h
  have htwo : (Runs.run (step reviewRequests)
      { shared := { committed := heldDatabase, now := newYear 2 } } bothConfirm).any (fun s =>
        1 < (rowsFor s.shared (.pending "m1".toList)).length) = true := by
    decide +kernel
  obtain ⟨s, hrun, hs⟩ := (Option.any_eq_true _ _).mp htwo
  exact absurd ((h.at_run hrun).once _) (Nat.not_le_of_lt (of_decide_eq_true hs))

end LandRecords.Review
