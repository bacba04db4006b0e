import LandRecords.Review.Claims

/-! A claim takes a task that nobody else has, and no older one that it could have taken,
where officers skip only what is theirs. -/
namespace LandRecords.Review.Claims

open Backend Datetime RowLocks Text

section Updates

variable {db : Database} {taskId id : Text}

def Write.onTask : Write → ReviewTask → ReviewTask
  | .review (.closeTask taskId closedAt), row =>
      if row.id = taskId then closedOn closedAt row else row
  | .assign taskId actor hour, row => if row.id = taskId then claimedBy actor hour row else row
  | .release taskId, row => if row.id = taskId then released row else row
  | _, row => row

def Write.assigns : Write → Option (Text × Option Text)
  | .assign taskId actor _ => some (taskId, some actor)
  | .release taskId => some (taskId, none)
  | _ => none

theorem Write.reviewTasks_apply (write : Write) (db : Database) :
    (write.apply db).reviewTasks = db.reviewTasks.map write.onTask := by
  cases write with
  | review write =>
    cases write with
    | closeTask taskId closedAt => rfl
    | _ => exact (List.map_id' _).symm
  | assign taskId actor hour => rfl
  | release taskId => rfl
  | _ => exact (List.map_id' _).symm

@[simp] theorem Write.onTask_id (write : Write) (row : ReviewTask) : (write.onTask row).id = row.id := by
  cases write with
  | review write =>
    cases write with
    | closeTask taskId closedAt =>
      simp only [Write.onTask]
      split <;> rfl
    | _ => rfl
  | assign taskId actor hour =>
    simp only [Write.onTask]
    split <;> rfl
  | release taskId =>
    simp only [Write.onTask]
    split <;> rfl
  | _ => rfl

theorem Write.onTask_other {write : Write} {row : ReviewTask} (h : taskKey row.id ∉ write.keys) :
    write.onTask row = row := by
  cases write with
  | review write =>
    cases write with
    | closeTask taskId closedAt =>
      refine if_neg fun hown => h ?_
      rw [hown]
      exact List.mem_singleton_self _
    | _ => rfl
  | assign taskId actor hour =>
    refine if_neg fun hown => h ?_
    rw [hown]
    exact List.mem_singleton_self _
  | release taskId =>
    refine if_neg fun hown => h ?_
    rw [hown]
    exact List.mem_singleton_self _
  | _ => rfl

theorem Write.onTask_closedAt {write : Write} {row : ReviewTask} (h : row.closedAt ≠ none) :
    (write.onTask row).closedAt ≠ none := by
  cases write with
  | review write =>
    cases write with
    | closeTask taskId closedAt =>
      simp only [Write.onTask]
      split
      · exact Option.some_ne_none _
      · exact h
    | _ => exact h
  | assign taskId actor hour =>
    simp only [Write.onTask]
    split <;> exact h
  | release taskId =>
    simp only [Write.onTask]
    split <;> exact h
  | _ => exact h

def changed (taskId : Text) (assignee : Option Text) (change : Text × Option Text) : Option Text :=
  if taskId = change.1 then change.2 else assignee

theorem Write.onTask_assignee (write : Write) (row : ReviewTask) :
    (write.onTask row).assignee = write.assigns.toList.foldl (changed row.id) row.assignee := by
  cases write with
  | review write =>
    cases write with
    | closeTask taskId closedAt =>
      simp only [Write.onTask]
      split <;> rfl
    | _ => rfl
  | assign taskId actor hour =>
    simp only [Write.onTask]
    split
    · rename_i hown
      exact (if_pos hown).symm
    · rename_i hother
      exact (if_neg hother).symm
  | release taskId =>
    simp only [Write.onTask]
    split
    · rename_i hown
      exact (if_pos hown).symm
    · rename_i hother
      exact (if_neg hother).symm
  | _ => rfl

def onTasks (writes : List Write) (row : ReviewTask) : ReviewTask :=
  writes.foldl (fun row write => write.onTask row) row

@[simp] theorem onTasks_id (writes : List Write) (row : ReviewTask) :
    (onTasks writes row).id = row.id := by
  induction writes generalizing row with
  | nil => rfl
  | cons write writes ih => exact (ih _).trans (write.onTask_id row)

theorem onTasks_other {writes : List Write} {row : ReviewTask}
    (h : ∀ write ∈ writes, taskKey row.id ∉ write.keys) : onTasks writes row = row := by
  induction writes with
  | nil => rfl
  | cons write writes ih =>
    rw [onTasks, List.foldl_cons, Write.onTask_other (h write List.mem_cons_self)]
    exact ih fun other hother => h other (List.mem_cons_of_mem _ hother)

theorem onTasks_closedAt {row : ReviewTask} (writes : List Write) (h : row.closedAt ≠ none) :
    (onTasks writes row).closedAt ≠ none := by
  induction writes generalizing row with
  | nil => exact h
  | cons write writes ih => exact ih (Write.onTask_closedAt h)

theorem onTasks_assignee (writes : List Write) (row : ReviewTask) :
    (onTasks writes row).assignee =
      (writes.filterMap Write.assigns).foldl (changed row.id) row.assignee := by
  induction writes generalizing row with
  | nil => rfl
  | cons write writes ih =>
    refine (ih _).trans ?_
    rw [Write.onTask_id, Write.onTask_assignee, List.filterMap_cons]
    cases write.assigns <;> rfl

variable {txn : ClaimTxn}

theorem reviewTasks_view (txn : ClaimTxn) (db : Database) :
    (view claims txn db).reviewTasks = db.reviewTasks.map (onTasks txn.writes) := by
  obtain ⟨locals, writes, locks⟩ := txn
  induction writes generalizing db with
  | nil => exact (List.map_id' _).symm
  | cons write writes ih =>
    refine (ih _).trans ?_
    change (write.apply db).reviewTasks.map _ = _
    rw [Write.reviewTasks_apply, List.map_map]
    rfl

theorem reviewTask?_view (txn : ClaimTxn) (db : Database) (id : Text) :
    (view claims txn db).reviewTask? id = (db.reviewTask? id).map (onTasks txn.writes) := by
  unfold Database.reviewTask?
  rw [reviewTasks_view]
  exact Rows.find?_map_key (onTasks_id txn.writes) db.reviewTasks id

theorem reviewTask?_view_other (h : ∀ write ∈ txn.writes, taskKey id ∉ write.keys) :
    (view claims txn db).reviewTask? id = db.reviewTask? id := by
  rw [reviewTask?_view]
  cases hrow : db.reviewTask? id with
  | none => rfl
  | some row =>
    rw [← Database.reviewTask?_id hrow] at h
    rw [Option.map_some, onTasks_other h]

theorem available_view_other (h : ∀ write ∈ txn.writes, taskKey id ∉ write.keys) :
    available (view claims txn db) id = available db id := by
  rw [available, reviewTask?_view_other h, available]

theorem closed_view (txn : ClaimTxn) (h : closed db id = true) :
    closed (view claims txn db) id = true := by
  obtain ⟨row, hrow, hclosed⟩ := (Option.any_eq_true _ _).mp h
  rw [closed, reviewTask?_view, hrow]
  exact decide_eq_true (onTasks_closedAt txn.writes (of_decide_eq_true hclosed))

theorem foldl_changed_none {changes : List (Text × Option Text)}
    (h : ∀ change ∈ changes, id = change.1 → change.2 = none) :
    changes.foldl (changed id) none = none := by
  induction changes with
  | nil => rfl
  | cons change changes ih =>
    have hhere : changed id none change = none := by
      unfold changed
      split
      · rename_i hown
        exact h change List.mem_cons_self hown
      · rfl
    rw [List.foldl_cons, hhere]
    exact ih fun other hother => h other (List.mem_cons_of_mem _ hother)

theorem assigneeOf_view (id : Text) (hfound : ∀ change ∈ txn.writes.filterMap Write.assigns,
    change.2 ≠ none → db.reviewTask? change.1 ≠ none) :
    assigneeOf (view claims txn db) id =
      (txn.writes.filterMap Write.assigns).foldl (changed id) (assigneeOf db id) := by
  unfold assigneeOf
  rw [reviewTask?_view]
  cases hrow : db.reviewTask? id with
  | some row =>
    rw [Option.map_some, Option.bind_some, Option.bind_some, onTasks_assignee,
      Database.reviewTask?_id hrow]
  | none =>
    refine (foldl_changed_none fun change hchange hown => ?_).symm
    by_contra hassigned
    exact hfound change hchange hassigned (hown ▸ hrow)

end Updates

def Phase.task? : Phase → Option Text
  | .taken taskId | .sessionRead taskId _ _ | .sessionStarting taskId _ | .sessionKept taskId _
  | .assigned taskId => some taskId
  | _ => none

def Phase.ahead? : Phase → Option (List Text)
  | .searching ahead => some ahead
  | .checking taskId ahead => some (taskId :: ahead)
  | _ => none

def Locals.assigns (locals : Locals) : Option (Text × Option Text) :=
  match locals.claimed?, locals.skipped? with
  | some (taskId, actor), _ => some (taskId, some actor)
  | none, some (taskId, _) => some (taskId, none)
  | none, none => none

section Statements

inductive Stated (now : Instant) (db : Database) : Locals → Statement Phase Write Key Unit → Prop
  | selected (actor sessionId : Text) :
      Stated now db ⟨.claim actor sessionId, .received⟩ (.next (.searching (unclaimedIds db)))
  | tried (actor sessionId taskId : Text) (ahead : List Text) :
      Stated now db ⟨.claim actor sessionId, .searching (taskId :: ahead)⟩
        (.tryLock (taskKey taskId) (.checking taskId ahead) (.searching ahead))
  | exhausted (actor sessionId : Text) :
      Stated now db ⟨.claim actor sessionId, .searching []⟩ (.next .nothingLeft)
  | took (actor sessionId taskId : Text) (ahead : List Text) (hfree : available db taskId = true) :
      Stated now db ⟨.claim actor sessionId, .checking taskId ahead⟩ (.next (.taken taskId))
  | passed (actor sessionId taskId : Text) (ahead : List Text)
      (hgone : available db taskId = false) :
      Stated now db ⟨.claim actor sessionId, .checking taskId ahead⟩ (.next (.searching ahead))
  | read (actor sessionId taskId : Text) (phase phase' : Phase) (hphase : phase.task? = some taskId)
      (hphase' : phase'.task? = some taskId) (hopen : ∀ id, phase ≠ .assigned id)
      (hopen' : ∀ id, phase' ≠ .assigned id) :
      Stated now db ⟨.claim actor sessionId, phase⟩ (.next phase')
  | touched (actor sessionId taskId : Text) (phase phase' : Phase) (write : Write)
      (hphase : phase.task? = some taskId) (hphase' : phase'.task? = some taskId)
      (hopen : ∀ id, phase ≠ .assigned id) (hopen' : ∀ id, phase' ≠ .assigned id)
      (hwrite : write.assigns = none) :
      Stated now db ⟨.claim actor sessionId, phase⟩ (.write phase' write)
  | assigned (actor sessionId taskId : Text) (hour : Int) :
      Stated now db ⟨.claim actor sessionId, .sessionKept taskId hour⟩
        (.write (.assigned taskId) (.assign taskId actor hour))
  | checked (taskId actor : Text) : Stated now db ⟨.skip taskId actor, .received⟩ (.next .skipping)
  | skipped (taskId actor : Text) :
      Stated now db ⟨.skip taskId actor, .skipping⟩ (.write .skipped (.release taskId))
  | submitRead (taskId actor value : Text) (verdict : Option Text) (rowId : Text) (phase : Phase)
      (inner : Review.Phase) :
      Stated now db ⟨.submit taskId actor value verdict rowId, phase⟩ (.next (.submitting inner))
  | submitWrote (taskId actor value : Text) (verdict : Option Text) (rowId : Text) (phase : Phase)
      (inner : Review.Phase) (write : Review.Write) :
      Stated now db ⟨.submit taskId actor value verdict rowId, phase⟩
        (.write (.submitting inner) (.review write))
  | done (locals : Locals) : Stated now db locals .done
  | failed (locals : Locals) : Stated now db locals .fail

variable {now : Instant} {db : Database} {locals : Locals}

theorem claimStatement_stated (actor sessionId : Text) (now : Instant) (db : Database)
    (phase : Phase) : Stated now db ⟨.claim actor sessionId, phase⟩
      (claimStatement actor sessionId now db phase) := by
  cases phase with
  | received => exact .selected actor sessionId
  | searching ahead =>
    cases ahead with
    | nil => exact .exhausted actor sessionId
    | cons taskId ahead => exact .tried actor sessionId taskId ahead
  | checking taskId ahead =>
    simp only [claimStatement]
    split
    · rename_i hfree
      exact .took actor sessionId taskId ahead hfree
    · rename_i hgone
      exact .passed actor sessionId taskId ahead (Bool.eq_false_of_not_eq_true hgone)
  | taken taskId => exact .read actor sessionId taskId _ _ rfl rfl nofun nofun
  | sessionRead taskId current now =>
    simp only [claimStatement]
    split
    · exact .touched actor sessionId taskId _ _ _ rfl rfl nofun nofun rfl
    · exact .touched actor sessionId taskId _ _ _ rfl rfl nofun nofun rfl
    · exact .read actor sessionId taskId _ _ rfl rfl nofun nofun
  | sessionStarting taskId now => exact .touched actor sessionId taskId _ _ _ rfl rfl nofun nofun rfl
  | sessionKept taskId hour => exact .assigned actor sessionId taskId hour
  | assigned taskId => exact .done _
  | nothingLeft => exact .done _
  | _ => exact .failed _

theorem submitting_stated (taskId actor value : Text) (verdict : Option Text) (rowId : Text)
    (phase : Phase) (statement : ReadCommitted.Statement Review.Phase Review.Write) :
    Stated now db ⟨.submit taskId actor value verdict rowId, phase⟩ (submitting statement) := by
  cases statement with
  | done => exact .done _
  | fail => exact .failed _
  | next inner write =>
    cases write with
    | none => exact .submitRead taskId actor value verdict rowId phase inner
    | some write => exact .submitWrote taskId actor value verdict rowId phase inner write

theorem requestStatement_stated (now : Instant) (db : Database) (locals : Locals) :
    Stated now db locals (requestStatement now db locals.request locals.phase) := by
  obtain ⟨request, phase⟩ := locals
  cases request with
  | claim actor sessionId => exact claimStatement_stated actor sessionId now db phase
  | skip taskId actor =>
    cases phase with
    | received =>
      simp only [requestStatement, skipStatement]
      split
      · exact .checked taskId actor
      · exact .failed _
    | skipping => exact .skipped taskId actor
    | skipped => exact .done _
    | _ => exact .failed _
  | submit taskId actor value verdict rowId =>
    cases phase with
    | received => exact submitting_stated ..
    | submitting phase => exact submitting_stated ..
    | _ => exact .failed _

end Statements

structure Progress (v : Commits) (txn : ClaimTxn) : Prop where
  received : txn.locals.phase = .received → txn.writes = []
  searching : txn.locals.phase.ahead? ≠ none → txn.writes = []
  locked : ∀ taskId ahead, txn.locals.phase = .checking taskId ahead → taskKey taskId ∈ txn.locks
  owned : ∀ taskId, txn.locals.phase.task? = some taskId →
    taskKey taskId ∈ txn.locks ∧ available v.committed taskId = true
  assigns : txn.writes.filterMap Write.assigns = txn.locals.assigns.toList

structure Kept (start : Database) (v : Commits) : Prop where
  holders : ∀ taskId, holder start v.log taskId = assigneeOf v.committed taskId
  handedOver : HandedOver start v.log

section Transactions

variable {v : Commits} {txn : ClaimTxn} {locals : Locals}

theorem nextStatement_claims (txn : ClaimTxn) (v : Commits) : nextStatement claims txn v =
    (requestStatement v.now (view claims txn v.committed) txn.locals.request txn.locals.phase).mapLocals
      fun phase => ⟨txn.locals.request, phase⟩ := rfl

theorem assigns_claim {actor sessionId : Text} {phase : Phase} (h : ∀ id, phase ≠ .assigned id) :
    (⟨.claim actor sessionId, phase⟩ : Locals).assigns = none := by
  cases phase with
  | assigned id => exact absurd rfl (h id)
  | _ => rfl

theorem view_unwritten (h : txn.writes = []) (db : Database) : view claims txn db = db := by
  rw [view, h]
  rfl

theorem Phase.searched {phase : Phase} {taskId : Text} (h : phase.task? = some taskId) :
    phase ≠ .received ∧ phase.ahead? = none ∧ ∀ id ahead, phase ≠ .checking id ahead := by
  cases phase with
  | received => cases h
  | searching ahead => cases h
  | checking id ahead => cases h
  | _ => exact ⟨nofun, rfl, nofun⟩

theorem Progress.stated_next (h : Progress v txn) {after : Phase}
    (hstated : Stated v.now (view claims txn v.committed) txn.locals (.next after)) :
    Progress v ⟨⟨txn.locals.request, after⟩, txn.writes, txn.locks⟩ := by
  obtain ⟨locals, writes, locks⟩ := txn
  cases hstated with
  | selected actor sessionId =>
    exact ⟨nofun, fun _ => h.received rfl, nofun, nofun, h.assigns⟩
  | exhausted actor sessionId => exact ⟨nofun, nofun, nofun, nofun, h.assigns⟩
  | took actor sessionId taskId ahead hfree =>
    rw [view_unwritten (h.searching nofun)] at hfree
    refine ⟨nofun, nofun, nofun, fun id hid => ?_, h.assigns⟩
    obtain rfl := Option.some.inj hid
    exact ⟨h.locked _ _ rfl, hfree⟩
  | passed actor sessionId taskId ahead hgone =>
    exact ⟨nofun, fun _ => h.searching nofun, nofun, nofun, h.assigns⟩
  | read actor sessionId taskId phase phase' hphase hphase' hopen hopen' =>
    obtain ⟨hreceived, hahead, hchecking⟩ := Phase.searched hphase'
    refine ⟨fun hafter => absurd hafter hreceived, fun hsearch => absurd hahead hsearch,
      fun id ahead hafter => absurd hafter (hchecking id ahead), fun id hid => ?_, ?_⟩
    · exact h.owned id (hphase.trans (hphase'.symm.trans hid))
    · have hassigns := h.assigns
      rw [assigns_claim hopen] at hassigns
      rw [assigns_claim hopen']
      exact hassigns
  | checked taskId actor => exact ⟨nofun, nofun, nofun, nofun, h.assigns⟩
  | submitRead taskId actor value verdict rowId phase inner =>
    exact ⟨nofun, nofun, nofun, nofun, h.assigns⟩

theorem Progress.stated_write (h : Progress v txn) {after : Phase} {write : Write}
    (hstated : Stated v.now (view claims txn v.committed) txn.locals (.write after write)) :
    Progress v ⟨⟨txn.locals.request, after⟩, txn.writes ++ [write], txn.locks ++ write.keys⟩ := by
  obtain ⟨locals, writes, locks⟩ := txn
  have howned : ∀ id, locals.phase.task? = some id →
      taskKey id ∈ locks ++ write.keys ∧ available v.committed id = true := fun id hid =>
    ⟨List.mem_append_left _ (h.owned id hid).1, (h.owned id hid).2⟩
  have hassigns : (writes ++ [write]).filterMap Write.assigns =
      locals.assigns.toList ++ write.assigns.toList := by
    rw [List.filterMap_append, h.assigns, List.filterMap_cons]
    cases write.assigns <;> rfl
  cases hstated with
  | touched actor sessionId taskId phase phase' write hphase hphase' hopen hopen' hwrite =>
    obtain ⟨hreceived, hahead, hchecking⟩ := Phase.searched hphase'
    refine ⟨fun hafter => absurd hafter hreceived, fun hsearch => absurd hahead hsearch,
      fun id ahead hafter => absurd hafter (hchecking id ahead), fun id hid => ?_, ?_⟩
    · exact howned id (hphase.trans (hphase'.symm.trans hid))
    · rw [hassigns, assigns_claim hopen, assigns_claim hopen', hwrite]
      rfl
  | assigned actor sessionId taskId hour =>
    exact ⟨nofun, nofun, nofun, fun id hid => howned id hid, hassigns⟩
  | skipped taskId actor => exact ⟨nofun, nofun, nofun, nofun, hassigns⟩
  | submitWrote taskId actor value verdict rowId phase inner write =>
    exact ⟨nofun, nofun, nofun, nofun, hassigns⟩

/-- Commits leave the task of a claim alone that has it locked. -/
theorem Progress.publish (h : Progress v txn) {other : ClaimTxn} (hapart : Apart claims other txn) :
    Progress (publish claims other v) txn := by
  refine ⟨h.received, h.searching, h.locked, fun taskId htask => ?_, h.assigns⟩
  obtain ⟨hlock, hfree⟩ := h.owned taskId htask
  refine ⟨hlock, ?_⟩
  have hother : ∀ write ∈ other.writes, taskKey taskId ∉ write.keys := fun write hwrite hkey =>
    hapart write hwrite _ hkey hlock
  exact (available_view_other hother).trans hfree

theorem assigneeOf_available {db : Database} {taskId : Text} (h : available db taskId = true) :
    db.reviewTask? taskId ≠ none ∧ assigneeOf db taskId = none := by
  obtain ⟨row, hrow, hfree⟩ := (Option.any_eq_true _ _).mp h
  rw [assigneeOf, hrow]
  exact ⟨Option.some_ne_none _, (of_decide_eq_true hfree).1⟩

theorem claimed?_eq {taskId actor : Text} (h : locals.claimed? = some (taskId, actor)) :
    locals.phase = .assigned taskId ∧ locals.skipped? = none ∧
      locals.assigns = some (taskId, some actor) := by
  obtain ⟨request, phase⟩ := locals
  cases request with
  | claim officer sessionId =>
    cases phase with
    | assigned id =>
      obtain ⟨rfl, rfl⟩ := Prod.mk.inj (Option.some.inj h)
      exact ⟨rfl, rfl, rfl⟩
    | _ => cases h
  | _ => cases h

theorem Kept.holders_publish {start : Database} (hkept : Kept start v) (h : Progress v txn)
    (hown : SkipsOwn v txn) (taskId : Text) :
    holder start (publish claims txn v).log taskId =
      assigneeOf (publish claims txn v).committed taskId := by
  have hassigns := h.assigns
  rw [publish, holder, List.foldl_append, List.foldl_cons, List.foldl_nil]
  change holderAfter taskId (holder start v.log taskId) txn.locals = _
  rw [hkept.holders]
  cases hclaimed : txn.locals.claimed? with
  | some claimed =>
    obtain ⟨id, actor⟩ := claimed
    obtain ⟨hphase, -, hchange⟩ := claimed?_eq hclaimed
    rw [hchange] at hassigns
    have hfree := (h.owned id (by rw [hphase]; rfl)).2
    rw [assigneeOf_view taskId, hassigns, holderAfter, hclaimed]
    · rfl
    · rw [hassigns]
      intro change hmem _
      rw [List.mem_singleton.mp hmem]
      exact (assigneeOf_available hfree).1
  | none =>
    cases hskipped : txn.locals.skipped? with
    | some skipped =>
      obtain ⟨id, actor⟩ := skipped
      rw [Locals.assigns, hclaimed, hskipped] at hassigns
      rw [assigneeOf_view taskId, hassigns, holderAfter, hclaimed, hskipped]
      · change _ = if taskId = id then none else assigneeOf v.committed taskId
        by_cases htask : taskId = id
        · subst htask
          rcases hown (taskId, actor) hskipped with hnone | hactor
          · simp only [hnone, reduceCtorEq, and_false, if_false, if_true]
          · simp only [hactor, and_self, if_true]
        · simp only [htask, false_and, if_false]
      · rw [hassigns]
        intro change hmem hassigned
        rw [List.mem_singleton.mp hmem] at hassigned
        exact absurd rfl hassigned
    | none =>
      rw [Locals.assigns, hclaimed, hskipped] at hassigns
      rw [assigneeOf_view taskId, hassigns, holderAfter, hclaimed, hskipped]
      · rfl
      · rw [hassigns]
        exact fun _ hmem => nomatch hmem

theorem Kept.handedOver_publish {start : Database} (hkept : Kept start v) (h : Progress v txn) :
    HandedOver start (publish claims txn v).log := by
  intro before locals after hlog taskId actor hclaimed
  rcases List.eq_nil_or_concat after with rfl | ⟨after, last, rfl⟩
  · obtain ⟨rfl, hlast⟩ := List.append_inj' hlog rfl
    obtain rfl : txn.locals = locals := List.head_eq_of_cons_eq hlast
    obtain ⟨hphase, -, -⟩ := claimed?_eq hclaimed
    have hfree := (h.owned taskId (by rw [hphase]; rfl)).2
    rw [hkept.holders]
    exact .inl (assigneeOf_available hfree).2
  · rw [List.concat_eq_append, ← List.cons_append, ← List.append_assoc] at hlog
    obtain ⟨hold, -⟩ := List.append_inj' hlog rfl
    exact hkept.handedOver before locals after hold taskId actor hclaimed

theorem claims_guarantee (start : Database) :
    Guarantee claims (Kept start) Progress SkipsOwn where
  begins v request _ := ⟨fun _ => rfl, fun _ => rfl, nofun, nofun, by cases request <;> rfl⟩
  reads v txn locals _ h hnext := by
    rw [nextStatement_claims] at hnext
    obtain ⟨phase, hinner, rfl⟩ := Statement.mapLocals_next hnext
    exact h.stated_next (hinner ▸ requestStatement_stated ..)
  writes v txn locals write _ h hnext _ := by
    rw [nextStatement_claims] at hnext
    obtain ⟨phase, hinner, rfl⟩ := Statement.mapLocals_write hnext
    exact h.stated_write (hinner ▸ requestStatement_stated ..)
  locks v txn key taken skipped _ h hnext := by
    obtain ⟨locals, writes, locks⟩ := txn
    rw [nextStatement_claims] at hnext
    obtain ⟨phaseTaken, phaseSkipped, hinner, rfl, rfl⟩ := Statement.mapLocals_tryLock hnext
    have hstated := requestStatement_stated v.now (view claims ⟨locals, writes, locks⟩ v.committed)
      locals
    rw [hinner] at hstated
    cases hstated with
    | tried actor sessionId taskId ahead =>
      have hwrites := h.searching nofun
      refine ⟨⟨nofun, fun _ => hwrites, fun id rest hphase => ?_, nofun, h.assigns⟩,
        ⟨nofun, fun _ => hwrites, nofun, nofun, h.assigns⟩⟩
      cases hphase
      exact List.mem_append_right _ (List.mem_singleton_self _)
  calls v txn locals effect _ _ hnext := by
    obtain ⟨locals, writes, locks⟩ := txn
    rw [nextStatement_claims] at hnext
    obtain ⟨phase, hinner, rfl⟩ := Statement.mapLocals_call hnext
    have hstated := requestStatement_stated v.now (view claims ⟨locals, writes, locks⟩ v.committed)
      locals
    rw [hinner] at hstated
    cases hstated
  commits v txn hkept h _ hown :=
    ⟨⟨hkept.holders_publish h hown, hkept.handedOver_publish h⟩,
      fun other hother hapart => hother.publish hapart⟩
  advances v now _ hkept := ⟨⟨hkept.holders, hkept.handedOver⟩, fun other hother =>
    ⟨hother.received, hother.searching, hother.locked, hother.owned, hother.assigns⟩⟩

end Transactions

section Searches

variable {start s t : ClaimsState} {steps : List ClaimsStep} {i : Nat}

def Searched (start : ClaimsState) (steps : List ClaimsStep) (i : Nat) (ahead : List Text) : Prop :=
  ∃ front s txn older newer, front ++ [.execute i] <+: steps ∧
    Runs.run (step claims) start front = some s ∧ s.txn? i = some txn ∧
    txn.locals.phase = .received ∧
    orderBy ReviewTask.openedAt (s.shared.committed.reviewTasks.filter isUnclaimed) =
      older ++ newer ∧ newer.map ReviewTask.id = ahead ∧
    ∀ other ∈ older, ∃ later t, front <+: later ∧ later <+: steps ∧
      Runs.run (step claims) start later = some t ∧
        (t.heldElsewhere i (taskKey other.id) = true ∨
          available t.shared.committed other.id = false)

theorem Searched.later {ahead : List Text} (h : Searched start steps i ahead) (a : ClaimsStep) :
    Searched start (steps ++ [a]) i ahead := by
  obtain ⟨front, s, txn, older, newer, hfront, hrun, htxn, hphase, hrows, hids, hpassed⟩ := h
  refine ⟨front, s, txn, older, newer, hfront.trans (List.prefix_append _ _), hrun, htxn, hphase,
    hrows, hids, fun other hother => ?_⟩
  obtain ⟨later, t, hbefore, hlater, hrunLater, hreason⟩ := hpassed other hother
  exact ⟨later, t, hbefore, hlater.trans (List.prefix_append _ _), hrunLater, hreason⟩

/-- The claim passes the task that it has come to. -/
theorem Searched.pass {taskId : Text} {ahead : List Text} (h : Searched start steps i (taskId :: ahead))
    (hrun : Runs.run (step claims) start steps = some s)
    (hreason : s.heldElsewhere i (taskKey taskId) = true ∨
      available s.shared.committed taskId = false) (a : ClaimsStep) :
    Searched start (steps ++ [a]) i ahead := by
  obtain ⟨front, s', txn, older, newer, hfront, hrunFront, htxn, hphase, hrows, hids, hpassed⟩ := h
  obtain ⟨task, newer, rfl, rfl, hrest⟩ := List.map_eq_cons_iff.mp hids
  have hlonger : steps <+: steps ++ [a] := List.prefix_append _ _
  refine ⟨front, s', txn, older ++ [task], newer, hfront.trans hlonger, hrunFront, htxn, hphase, ?_,
    hrest, fun other hother => ?_⟩
  · rw [hrows, List.append_assoc, List.singleton_append]
  · rcases List.mem_append.mp hother with hold | hnew
    · obtain ⟨later, t, hbefore, hlater, hrunLater, hreason⟩ := hpassed other hold
      exact ⟨later, t, hbefore, hlater.trans hlonger, hrunLater, hreason⟩
    · rw [List.mem_singleton.mp hnew]
      exact ⟨steps, s, (List.prefix_append _ _).trans hfront, hlonger, hrun, hreason⟩

theorem Searched.tookOldest {taskId : Text} {ahead : List Text}
    (h : Searched start steps i (taskId :: ahead)) : TookOldest start steps i taskId := by
  obtain ⟨front, s, txn, older, newer, hfront, hrun, htxn, hphase, hrows, hids, hpassed⟩ := h
  obtain ⟨task, newer, rfl, rfl, -⟩ := List.map_eq_cons_iff.mp hids
  have hmem : ∀ row, row ∈ older ++ task :: newer ↔
      row ∈ s.shared.committed.reviewTasks ∧ isUnclaimed row = true := fun row => by
    rw [← hrows, mem_orderBy, List.mem_filter]
  obtain ⟨htask, hfree⟩ := (hmem task).mp (List.mem_append_right _ List.mem_cons_self)
  refine ⟨front, s, txn, task, hfront, hrun, htxn, hphase, htask, rfl, hfree,
    fun other hother hotherFree holder => hpassed other ?_⟩
  rcases List.mem_append.mp ((hmem other).mpr ⟨hother, hotherFree⟩) with hold | hnew
  · exact hold
  · have hsorted := orderBy_sorted ReviewTask.openedAt
      (s.shared.committed.reviewTasks.filter isUnclaimed)
    rw [hrows] at hsorted
    rcases List.mem_cons.mp hnew with rfl | hnewer
    · exact absurd holder (lt_irrefl _)
    · have hle := List.rel_of_pairwise_cons (List.pairwise_append.mp hsorted).2.1 hnewer
      exact absurd holder (not_lt_of_ge hle)

def Searches (start : ClaimsState) (steps : List ClaimsStep) (s : ClaimsState) : Prop :=
  ∀ i txn, s.txn? i = some txn →
    (∀ ahead, txn.locals.phase.ahead? = some ahead → Searched start steps i ahead) ∧
      ∀ taskId, txn.locals.phase.task? = some taskId →
        ∃ ahead, Searched start steps i (taskId :: ahead)

theorem Searches.replace {a : ClaimsStep} (h : Searches start steps s) {v : Commits}
    {replaced : Option ClaimTxn}
    (hself : ∀ txn, replaced = some txn →
      (∀ ahead, txn.locals.phase.ahead? = some ahead → Searched start (steps ++ [a]) i ahead) ∧
        ∀ taskId, txn.locals.phase.task? = some taskId →
          ∃ ahead, Searched start (steps ++ [a]) i (taskId :: ahead)) :
    Searches start (steps ++ [a]) { s.setTxn i replaced with shared := v } := by
  intro j txn htxn
  rcases txn?_of_setTxn (s := s) htxn with ⟨rfl, hsame⟩ | ⟨-, hold⟩
  · exact hself txn hsame
  · refine ⟨fun ahead hahead => ((h j txn hold).1 ahead hahead).later a, fun taskId htask => ?_⟩
    obtain ⟨ahead, hsearched⟩ := (h j txn hold).2 taskId htask
    exact ⟨ahead, hsearched.later a⟩

theorem Searches.next {txn : ClaimTxn} (h : Searches start steps s) (htxn : s.txn? i = some txn)
    (hprogress : Progress s.shared txn) (hrun : Runs.run (step claims) start steps = some s)
    {statement : Statement Phase Write Key Unit}
    (hinner : requestStatement s.shared.now (view claims txn s.shared.committed)
      txn.locals.request txn.locals.phase = statement)
    {after : Phase} (hnext : after ∈ statement.nexts)
    (hskipped : ∀ key taken missed, statement = .tryLock key taken missed →
      after = taken ∨ s.heldElsewhere i key = true) :
    (∀ ahead, after.ahead? = some ahead → Searched start (steps ++ [.execute i]) i ahead) ∧
      ∀ taskId, after.task? = some taskId →
        ∃ ahead, Searched start (steps ++ [.execute i]) i (taskId :: ahead) := by
  obtain ⟨locals, writes, locks⟩ := txn
  have hstated := requestStatement_stated s.shared.now
    (view claims ⟨locals, writes, locks⟩ s.shared.committed) locals
  rw [hinner] at hstated
  obtain ⟨hahead, htask⟩ := h i _ htxn
  have hkept : ∀ taskId, after.task? = some taskId → locals.phase.task? = some taskId →
      ∃ ahead, Searched start (steps ++ [.execute i]) i (taskId :: ahead) := fun taskId _ hbefore => by
    obtain ⟨ahead, hsearched⟩ := htask taskId hbefore
    exact ⟨ahead, hsearched.later _⟩
  cases hstated with
  | selected actor sessionId =>
    obtain rfl := List.mem_singleton.mp hnext
    refine ⟨fun ahead hsame => ?_, nofun⟩
    obtain rfl := Option.some.inj hsame
    rw [view_unwritten (hprogress.received rfl)]
    exact ⟨steps, s, _, [], _, List.prefix_rfl, hrun, htxn, rfl, rfl, rfl, fun _ hmem => nomatch hmem⟩
  | tried actor sessionId taskId ahead =>
    simp only [Statement.nexts, List.mem_cons, List.not_mem_nil, or_false] at hnext
    have hsearched := hahead _ rfl
    rcases hskipped _ _ _ rfl with rfl | hheld
    · refine ⟨fun rest hsame => ?_, nofun⟩
      obtain rfl := Option.some.inj hsame
      exact hsearched.later _
    · rcases hnext with rfl | rfl
      · refine ⟨fun rest hsame => ?_, nofun⟩
        obtain rfl := Option.some.inj hsame
        exact hsearched.later _
      · refine ⟨fun rest hsame => ?_, nofun⟩
        obtain rfl := Option.some.inj hsame
        exact hsearched.pass hrun (.inl hheld) _
  | exhausted actor sessionId =>
    obtain rfl := List.mem_singleton.mp hnext
    exact ⟨nofun, nofun⟩
  | took actor sessionId taskId ahead hfree =>
    obtain rfl := List.mem_singleton.mp hnext
    refine ⟨nofun, fun id hid => ?_⟩
    obtain rfl := Option.some.inj hid
    exact ⟨ahead, (hahead _ rfl).later _⟩
  | passed actor sessionId taskId ahead hgone =>
    obtain rfl := List.mem_singleton.mp hnext
    rw [view_unwritten (hprogress.searching nofun)] at hgone
    refine ⟨fun rest hsame => ?_, nofun⟩
    obtain rfl := Option.some.inj hsame
    exact (hahead _ rfl).pass hrun (.inr hgone) _
  | read actor sessionId taskId phase phase' hphase hphase' hopen hopen' =>
    obtain rfl := List.mem_singleton.mp hnext
    refine ⟨fun rest hrest => ?_, fun id hid => hkept id hid (hphase.trans (hphase'.symm.trans hid))⟩
    rw [(Phase.searched hphase').2.1] at hrest
    cases hrest
  | touched actor sessionId taskId phase phase' write hphase hphase' hopen hopen' hwrite =>
    obtain rfl := List.mem_singleton.mp hnext
    refine ⟨fun rest hrest => ?_, fun id hid => hkept id hid (hphase.trans (hphase'.symm.trans hid))⟩
    rw [(Phase.searched hphase').2.1] at hrest
    cases hrest
  | assigned actor sessionId taskId hour =>
    obtain rfl := List.mem_singleton.mp hnext
    exact ⟨nofun, fun id hid => hkept id hid hid⟩
  | checked taskId actor =>
    obtain rfl := List.mem_singleton.mp hnext
    exact ⟨nofun, nofun⟩
  | skipped taskId actor =>
    obtain rfl := List.mem_singleton.mp hnext
    exact ⟨nofun, nofun⟩
  | submitRead taskId actor value verdict rowId phase inner =>
    obtain rfl := List.mem_singleton.mp hnext
    exact ⟨nofun, nofun⟩
  | submitWrote taskId actor value verdict rowId phase inner write =>
    obtain rfl := List.mem_singleton.mp hnext
    exact ⟨nofun, nofun⟩
  | done locals => cases hnext
  | failed locals => cases hnext

theorem Searches.step {a : ClaimsStep} (h : Searches start steps s)
    (hbase : Invariant claims (Kept start.shared.committed) Progress s)
    (hrun : Runs.run (step claims) start steps = some s)
    (hstep : RowLocks.step claims s a = some t) : Searches start (steps ++ [a]) t := by
  have hended : ∀ {i : Nat} {v : Commits},
      Searches start (steps ++ [a]) { s.setTxn i none with shared := v } :=
    fun {_ _} => h.replace fun _ hnone => nomatch hnone
  cases step_cases hstep with
  | begun request =>
    intro j txn htxn
    rcases txn?_of_begun htxn with hold | ⟨rfl, -⟩
    · refine ⟨fun ahead hahead => ((h j txn hold).1 ahead hahead).later _, fun taskId htask => ?_⟩
      obtain ⟨ahead, hsearched⟩ := (h j txn hold).2 taskId htask
      exact ⟨ahead, hsearched.later _⟩
    · exact ⟨nofun, nofun⟩
  | read i txn locals htxn hnext =>
    rw [nextStatement_claims] at hnext
    obtain ⟨phase, hinner, rfl⟩ := Statement.mapLocals_next hnext
    refine h.replace fun replaced hsame => ?_
    obtain rfl := Option.some.inj hsame
    exact h.next htxn (hbase.txns i txn htxn) hrun hinner
      (List.mem_singleton_self _)
      (fun _ _ _ hattempt => nomatch hattempt)
  | wrote i txn locals write htxn hnext hfree hvalid =>
    rw [nextStatement_claims] at hnext
    obtain ⟨phase, hinner, rfl⟩ := Statement.mapLocals_write hnext
    refine h.replace fun replaced hsame => ?_
    obtain rfl := Option.some.inj hsame
    exact h.next htxn (hbase.txns i txn htxn) hrun hinner
      (List.mem_singleton_self _)
      (fun _ _ _ hattempt => nomatch hattempt)
  | locked i txn key taken missed htxn hnext hfree =>
    rw [nextStatement_claims] at hnext
    obtain ⟨phaseTaken, phaseMissed, hinner, rfl, rfl⟩ := Statement.mapLocals_tryLock hnext
    refine h.replace fun replaced hsame => ?_
    obtain rfl := Option.some.inj hsame
    refine h.next htxn (hbase.txns i txn htxn) hrun hinner
      List.mem_cons_self fun _ _ _ hattempt => ?_
    cases hattempt
    exact .inl rfl
  | skipped i txn key taken missed htxn hnext hheld =>
    rw [nextStatement_claims] at hnext
    obtain ⟨phaseTaken, phaseMissed, hinner, rfl, rfl⟩ := Statement.mapLocals_tryLock hnext
    refine h.replace fun replaced hsame => ?_
    obtain rfl := Option.some.inj hsame
    refine h.next htxn (hbase.txns i txn htxn) hrun hinner
      (List.mem_cons_of_mem _ List.mem_cons_self) fun _ _ _ hattempt => ?_
    cases hattempt
    exact .inr hheld
  | called i txn locals effect htxn hnext =>
    rw [nextStatement_claims] at hnext
    obtain ⟨phase, hinner, rfl⟩ := Statement.mapLocals_call hnext
    refine h.replace fun replaced hsame => ?_
    obtain rfl := Option.some.inj hsame
    exact h.next htxn (hbase.txns i txn htxn) hrun hinner
      (List.mem_singleton_self _)
      (fun _ _ _ hattempt => nomatch hattempt)
  | raised i txn htxn hnext => exact hended
  | violated i txn locals write htxn hnext hinvalid => exact hended
  | rolledBack i txn htxn => exact hended
  | faulted i txn locals effect reached htxn hnext =>
    cases reached with
    | false => exact hended
    | true => exact hended
  | committed i txn htxn hdone => exact hended
  | advanced now hnow =>
    intro j txn htxn
    refine ⟨fun ahead hahead => ((h j txn htxn).1 ahead hahead).later _, fun taskId htask => ?_⟩
    obtain ⟨ahead, hsearched⟩ := (h j txn htxn).2 taskId htask
    exact ⟨ahead, hsearched.later _⟩

end Searches

section Runs

variable {start s t : ClaimsState} {steps : List ClaimsStep} {i : Nat}

theorem closed_step {db : Database} (hbase : Invariant claims (Kept db) Progress s)
    {a : ClaimsStep} (hstep : step claims s a = some t) {taskId : Text}
    (hclosed : closed s.shared.committed taskId = true) :
    closed t.shared.committed taskId = true ∧ ∃ later, t.shared.log = s.shared.log ++ later ∧
      ∀ locals ∈ later, ∀ actor, locals.claimed? ≠ some (taskId, actor) := by
  rcases step_commits hstep with ⟨hcommitted, hlog⟩ | ⟨i, txn, rfl, htxn, -, hshared⟩
  · refine ⟨hcommitted ▸ hclosed, [], hlog.trans (List.append_nil _).symm, fun _ hmem => nomatch hmem⟩
  · rw [hshared]
    refine ⟨closed_view txn hclosed, [txn.locals], rfl, fun locals hmem actor hclaimed => ?_⟩
    rw [List.mem_singleton.mp hmem] at hclaimed
    obtain ⟨hphase, -, -⟩ := claimed?_eq hclaimed
    have hfree := ((hbase.txns i txn htxn).owned taskId (by rw [hphase]; rfl)).2
    obtain ⟨row, hrow, hunclaimed⟩ := (Option.any_eq_true _ _).mp hfree
    rw [closed, hrow] at hclosed
    exact of_decide_eq_true hclosed (of_decide_eq_true hunclaimed).2

def startOf (db : Database) (now : Instant) : ClaimsState := { shared := { committed := db, now := now } }

variable {db : Database} {now : Instant}

theorem startOf_invariant : Invariant claims (Kept db) Progress (startOf db now) :=
  .start ⟨fun _ => rfl, fun before _ _ hlog => absurd hlog.symm (by simp)⟩

theorem invariant_run (hok : Runs.AllSteps (step claims) (CommitsWhen SkipsOwn) (startOf db now) steps)
    {front : List ClaimsStep} (hfront : front <+: steps)
    (hrun : Runs.run (step claims) (startOf db now) front = some s) :
    Invariant claims (Kept db) Progress s ∧ Searches (startOf db now) front s := by
  have hbase : ∀ as u, as <+: steps → Runs.run (step claims) (startOf db now) as = some u →
      Invariant claims (Kept db) Progress u := fun as u has hu =>
    ((claims_guarantee db).throughout startOf_invariant (hok.of_prefix has)).at_run hu
  refine ⟨hbase front s hfront hrun, ?_⟩
  refine Runs.run_induction (H := fun as u => as <+: steps → Searches (startOf db now) as u) ?_ ?_ hrun
    hfront
  · intro _ i txn htxn
    cases htxn
  · intro as a u t hu hsearches ht hlonger
    have has : as <+: steps := (List.prefix_append _ _).trans hlonger
    exact (hsearches has).step (hbase as u has hu) hu ht

/-- Where officers skip only what is theirs, claims are exclusive and fair. -/
theorem claims_exclusive (db : Database) (now : Instant) (steps : List ClaimsStep)
    (hok : Runs.AllSteps (step claims) (CommitsWhen SkipsOwn) (startOf db now) steps) :
    ClaimsExclusive (startOf db now) steps := by
  refine ⟨?_, ?_, ?_, ?_⟩
  · intro front s i t txn taskId actor hfront hrun _ htxn hclaimed
    obtain ⟨hbase, -⟩ := invariant_run hok ((List.prefix_append _ _).trans hfront) hrun
    obtain ⟨hphase, -, -⟩ := claimed?_eq hclaimed
    obtain ⟨hlock, hfree⟩ := (hbase.txns i txn htxn).owned taskId (by rw [hphase]; rfl)
    exact ⟨hfree, hbase.heldElsewhere_own htxn hlock⟩
  · exact ((claims_guarantee db).throughout startOf_invariant hok).imp fun s hs => hs.shared.handedOver
  · intro front rest s t taskId hfront hrun hrest hclosed
    refine Runs.run_induction (H := fun as u => front ++ as <+: steps →
      closed u.shared.committed taskId = true ∧ ∃ later, u.shared.log = s.shared.log ++ later ∧
        ∀ locals ∈ later, ∀ actor, locals.claimed? ≠ some (taskId, actor)) ?_ ?_ hrest hfront
    · exact fun _ => ⟨hclosed, [], (List.append_nil _).symm, fun _ hmem => nomatch hmem⟩
    · intro as a u v hu hkept hv hlonger
      rw [← List.append_assoc] at hlonger
      have has := (List.prefix_append _ _).trans hlonger
      have hall : Runs.run (step claims) (startOf db now) (front ++ as) = some u := by
        rw [Runs.run_append, hrun]
        exact hu
      obtain ⟨hclosedHere, later, hlater, hnone⟩ := hkept has
      obtain ⟨hbase, -⟩ := invariant_run hok has hall
      obtain ⟨hclosedAfter, last, hlast, hnoneLast⟩ := closed_step hbase hv hclosedHere
      refine ⟨hclosedAfter, later ++ last, ?_, fun locals hmem => ?_⟩
      · rw [hlast, hlater, List.append_assoc]
      · rcases List.mem_append.mp hmem with hold | hnew
        · exact hnone locals hold
        · exact hnoneLast locals hnew
  · intro front s i txn taskId actor hfront hrun htxn hclaimed
    obtain ⟨-, hsearches⟩ := invariant_run hok hfront hrun
    obtain ⟨hphase, -, -⟩ := claimed?_eq hclaimed
    obtain ⟨ahead, hsearched⟩ := (hsearches i txn htxn).2 taskId (by rw [hphase]; rfl)
    exact hsearched.tookOldest

def oneTask : Database where
  reviewTasks := [
    { id := "t1".toList
      extractionId := "x1".toList
      sourceStream := .routed
      openedAt := newYear 0 }]

def claimSteps (actor sessionId : String) (i : Nat) : List ClaimsStep :=
  .begin (.claim actor.toList sessionId.toList) :: List.replicate 7 (.execute i) ++ [.commit i]

def skipOnce : List ClaimsStep :=
  claimSteps "a" "s1" 0 ++
    [.begin (.skip "t1".toList "a".toList), .execute 1, .execute 1, .commit 1] ++
    claimSteps "b" "s2" 2

theorem claims_exclusive_skipOnce :
    Runs.AllSteps (step claims) (CommitsWhen SkipsOwn) (startOf oneTask (newYear 1)) skipOnce ∧
      ClaimsExclusive (startOf oneTask (newYear 1)) skipOnce := by
  have hok : Runs.AllSteps (step claims) (CommitsWhen SkipsOwn) (startOf oneTask (newYear 1))
      skipOnce := by
    decide +kernel
  exact ⟨hok, claims_exclusive oneTask (newYear 1) skipOnce hok⟩

/-- Two skips of an officer have both found the task claimed. One commits after another
officer has claimed it, and a third officer claims it from the second. -/
def skipTwice : List ClaimsStep :=
  claimSteps "a" "s1" 0 ++
    [.begin (.skip "t1".toList "a".toList), .begin (.skip "t1".toList "a".toList), .execute 1,
      .execute 2, .execute 1, .commit 1] ++
    claimSteps "b" "s2" 3 ++ [.execute 2, .commit 2] ++ claimSteps "c" "s3" 4

theorem skipTwice_handsOver : ¬ ClaimsExclusive (startOf oneTask (newYear 1)) skipTwice := by
  intro h
  have hlast : (Runs.run (step claims) (startOf oneTask (newYear 1)) skipTwice).any (fun s =>
      (s.shared.log.drop 4).any (fun locals =>
        locals.claimed? = some ("t1".toList, "c".toList)) &&
      decide (holder oneTask (s.shared.log.take 4) "t1".toList = some "b".toList) &&
      decide ((s.shared.log.drop 4).length = 1)) = true := by
    decide +kernel
  obtain ⟨s, hrun, hs⟩ := (Option.any_eq_true _ _).mp hlast
  simp only [Bool.and_eq_true, decide_eq_true_eq] at hs
  obtain ⟨⟨hclaims, hholder⟩, hlength⟩ := hs
  obtain ⟨locals, hlocals⟩ := List.length_eq_one_iff.mp hlength
  have hlog : s.shared.log = s.shared.log.take 4 ++ locals :: [] := by
    rw [← hlocals, List.take_append_drop]
  have hclaimed : locals.claimed? = some ("t1".toList, "c".toList) := by
    simpa [hlocals] using hclaims
  rcases h.handedOver.at_run hrun _ _ _ hlog _ _ hclaimed with hnone | hsame
  · exact absurd (hholder.symm.trans hnone) (by decide)
  · exact absurd (hholder.symm.trans hsame) (by decide)

end Runs

end LandRecords.Review.Claims
