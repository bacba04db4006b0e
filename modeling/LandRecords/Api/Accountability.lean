import LandRecords.Api.Server
import LandRecords.Base.Guarded
import LandRecords.Base.Runs

/-! The audit log accounts for every request. Whatever requests, validators and workers do in
whatever order, the entries of the API's own actions are those of the checks it made and of the
answers it gave, no more and no less; and what an answer gave out or changed was asked for by an
officer with the role. -/
namespace LandRecords.Api

open Backend Audit Datetime Publication Text

structure Event where
  actor : Text
  action : Text
  subject : Option Text
  purpose : Option Text
deriving DecidableEq

def Event.ofEntry (entry : AuditEntry) : Event :=
  ⟨entry.actor, entry.action, entry.subject, entry.purpose⟩

def Event.ofArgs (args : AppendArgs) : Event :=
  ⟨args.actor, args.action, args.subject, args.purpose⟩

def ownEvents (db : Database) : List Event :=
  (db.tables.audit.rows.filter fun entry => isOwnAction entry.action).map Event.ofEntry

def checkEvent (identity : Identity) (request : Request) : Event :=
  .ofArgs (recordPermissionCheck identity.actor request.permission
    (identity.has request.permission))

def effectEvents (identity : Identity) (request : Request) (response : Response) : List Event :=
  match request, response with
  | .assignConflict conflictId assignee _, ⟨200, _⟩ =>
      [⟨identity.actor, "conflict.assigned".toList, some conflictId, some assignee⟩]
  | .transitionConflict conflictId newState resolution _, ⟨200, _⟩ =>
      [⟨identity.actor, "conflict.transitioned.".toList ++ newState, some conflictId, resolution⟩]
  | .unmaskedRead args _, ⟨200, .unmasked field⟩ =>
      [⟨identity.actor, "field.unmasked_read".toList,
        some (fieldIdentity args.recordId args.version field.fieldName), some args.purpose⟩]
  | .publish _ _, ⟨200, .published recordGroupId _ version⟩ =>
      [⟨identity.actor, "record.published".toList,
        some (recordGroupId ++ ':' :: (toString version).toList), none⟩]
  | _, _ => []

def Happening.events (provider : IdentityProvider) : Happening → List Event
  | .checked _ call =>
      (provider.resolve call.header).toList.map fun identity => checkEvent identity call.request
  | .answered _ call response =>
      (provider.resolve call.header).toList.flatMap fun identity =>
        effectEvents identity call.request response
  | .opened conflictId rule origin =>
      [⟨"system:".toList ++ origin.text, "conflict.opened".toList, some conflictId, some rule⟩]

/-! ## What the log says of one call -/

def Logs (db db' : Database) (events : List Event) : Prop :=
  ∃ calls, Appended db.tables db'.tables calls ∧
    (calls.filter fun args => isOwnAction args.action).map Event.ofArgs = events

section Logs

variable {db db' : Database} {events : List Event}

theorem ofEntry_of_recorded {entry : AuditEntry} {args : AppendArgs} (h : Recorded entry args) :
    Event.ofEntry entry = Event.ofArgs args := by
  obtain ⟨id, now, last, rfl⟩ := h
  rfl

theorem Logs.ownEvents (h : Logs db db' events) : ownEvents db' = ownEvents db ++ events := by
  obtain ⟨calls, happended, hevents⟩ := h
  rw [← hevents]
  apply happended.filter_map
  · intro entry args hrecorded
    rw [hrecorded.action]
  · intro entry args hrecorded
    exact ofEntry_of_recorded hrecorded

theorem Logs.refl (db : Database) : Logs db db [] := ⟨[], .refl _, rfl⟩

theorem Logs.own {args : AppendArgs} (h : Appended db.tables db'.tables [args])
    (hown : isOwnAction args.action = true) : Logs db db' [.ofArgs args] := by
  have hkept : [args].filter (fun args => isOwnAction args.action) = [args] := by simp [hown]
  exact ⟨[args], h, by rw [hkept, List.map_singleton]⟩

theorem Logs.foreign {calls : List AppendArgs} (h : Appended db.tables db'.tables calls)
    (hforeign : ∀ args ∈ calls, isOwnAction args.action = false) : Logs db db' [] := by
  refine ⟨calls, h, ?_⟩
  rw [List.filter_eq_nil_iff.mpr fun args hargs => by simp [hforeign args hargs]]
  rfl

end Logs

/-! ## What one call does -/

inductive Effect (db db' : Database) : List Event → Prop
  /-- Nothing of the register is written. -/
  | apart (events : List Event) (hconflicts : db'.tables.conflicts = db.tables.conflicts)
      (hassignee : db'.assignee = db.assignee)
      (hevents : ∀ event ∈ events, "conflict.".toList.isPrefixOf event.action = false) :
      Effect db db' events
  | opened (row : Conflict) (hfresh : row.id ∉ db.tables.conflicts.map Conflict.id)
      (hstate : row.state = .open)
      (hconflicts : db'.tables.conflicts = db.tables.conflicts ++ [row])
      (hassignee : db'.assignee = db.assignee) :
      Effect db db' [⟨"system:".toList ++ row.origin.text, "conflict.opened".toList, some row.id,
        some row.rule⟩]
  /-- A conflict of the decision engine, which has no entry of its own. -/
  | placed (extraction : Extraction) (stamp : Stamp)
      (hfresh : stamp.id ∉ db.tables.conflicts.map Conflict.id)
      (hconflicts : db'.tables.conflicts =
        db.tables.conflicts ++ [Decision.conflictPlaceholder extraction stamp])
      (hassignee : db'.assignee = db.assignee)
      (hentry : ∃ entry ∈ db'.tables.audit.rows,
        entry.action = Decision.routedAction .conflict ∧ entry.subject = some extraction.id) :
      Effect db db' []
  | assigned (row : Conflict) (assignee actor : Text)
      (hrow : db.tables.conflict? row.id = some row)
      (hconflicts : db'.tables.conflicts = db.tables.conflicts)
      (hassignee : db'.assignee = Function.update db.assignee row.id (some assignee)) :
      Effect db db' [⟨actor, "conflict.assigned".toList, some row.id, some assignee⟩]
  | moved (row : Conflict) (newState actor : Text) (resolution : Option Text)
      (state : ConflictState) (hmoves : Moves db.tables row.id newState resolution row state)
      (hconflicts : db'.tables.conflicts = setState row.id state db.tables.conflicts)
      (hassignee : db'.assignee = db.assignee) :
      Effect db db' [⟨actor, "conflict.transitioned.".toList ++ newState, some row.id, resolution⟩]

structure Did (db db' : Database) (events : List Event) : Prop where
  logs : Logs db db' events
  effect : Effect db db' events

theorem Did.refl (db : Database) : Did db db [] :=
  ⟨.refl db, .apart [] rfl rfl (by simp)⟩

section Routes

variable {signGet : Text → ℕ → Text} {zone : Zone} {db db' : Database} {identity : Identity}
  {request : Request} {response : Response} {conflictId assignee actor newState : Text}
  {resolution : Option Text} {entry : Stamp} {u : Unit}

theorem onTables_returned {α : Type} {m : Session α} {a : α} (h : onTables m db = (.returned a, db')) :
    m db.tables = (.returned a, db'.tables) ∧ db'.assignee = db.assignee := by
  obtain ⟨tables, hm, rfl⟩ := Fallible.within_returned.mp h
  exact ⟨hm, rfl⟩

theorem onTables_append {args : AppendArgs}
    (h : onTables (auditAppend entry args) db = (.returned u, db')) :
    db'.tables = db.tables.withAudit db'.tables.audit ∧ db'.assignee = db.assignee ∧
      Appended db.tables db'.tables [args] := by
  have ⟨hentry, hassignee⟩ := onTables_returned h
  have ⟨htables, happended⟩ := auditAppend_returned hentry
  exact ⟨htables, hassignee, happended⟩

theorem assign_returned (h : assign conflictId assignee actor entry db = (.returned u, db')) :
    Did db db' [⟨actor, "conflict.assigned".toList, some conflictId, some assignee⟩] ∧
      (db'.tables.conflict? conflictId).isSome := by
  unfold assign at h
  simp only [Fallible.read_bind] at h
  cases hrow : db.tables.conflict? conflictId with
  | none =>
    rw [hrow] at h
    cases h
  | some row =>
    simp only [hrow, Fallible.write_bind] at h
    have hid := Database.conflict?_id hrow
    subst hid
    have ⟨htables, hassignee, happended⟩ := onTables_append h
    have hconflicts : db'.tables.conflicts = db.tables.conflicts := by
      rw [htables]
      rfl
    refine ⟨⟨.own happended rfl, .assigned row assignee actor hrow hconflicts hassignee⟩, ?_⟩
    rw [Backend.Database.conflict?, hconflicts]
    exact Option.isSome_of_eq_some hrow

theorem find?_setState (state : ConflictState) (conflicts : List Conflict) (id : Text) :
    ((setState conflictId state conflicts).find? fun row => row.id = id) =
      (conflicts.find? fun row => row.id = id).map fun row =>
        if row.id = conflictId then { row with state := state } else row := by
  apply Rows.find?_updateAt
  intro row
  rfl

theorem transition_did
    (h : onTables (transition conflictId newState actor resolution entry) db = (.returned u, db')) :
    Did db db' [⟨actor, "conflict.transitioned.".toList ++ newState, some conflictId, resolution⟩] ∧
      (db'.tables.conflict? conflictId).isSome := by
  have ⟨hrun, hassignee⟩ := onTables_returned h
  obtain ⟨row, state, hmoves, htables⟩ := transition_returned hrun
  have hid := Database.conflict?_id hmoves.1
  subst hid
  rw [transition_of_moves hmoves, Fallible.write_bind] at hrun
  have happended : Appended db.tables db'.tables _ := (auditAppend_returned hrun).2
  have hconflicts : db'.tables.conflicts = setState row.id state db.tables.conflicts := by
    rw [htables]
    rfl
  refine ⟨⟨.own happended rfl,
    .moved row newState actor resolution state hmoves hconflicts hassignee⟩, ?_⟩
  rw [Backend.Database.conflict?, hconflicts, find?_setState, Option.isSome_map]
  exact Option.isSome_of_eq_some hmoves.1

theorem openConflict_did {records : List Text} {rule : Text} {evidence : List (Text × Text)}
    {origin : ConflictOrigin} {stamp : Stamp} {tables : Backend.Database}
    (h : commit (openConflict records rule evidence origin stamp entry) db.tables = some tables) :
    Did db (withTables tables db)
      [⟨"system:".toList ++ origin.text, "conflict.opened".toList, some stamp.id, some rule⟩] := by
  obtain ⟨conflict, hreturned⟩ := commit_returned h (openConflict_raisesOnly _ _ _ _ _ _)
  have ⟨hfresh, htables⟩ := openConflict_returned hreturned
  simp only [openConflict, Fallible.bind_eq_returned, addConflict, addRow_returned] at hreturned
  obtain ⟨_, _, ⟨_, rfl⟩, _, _, hentry, hdone⟩ := hreturned
  cases hdone
  have happended : Appended db.tables tables _ := (auditAppend_returned hentry).2
  have hconflicts : tables.conflicts =
      db.tables.conflicts ++ [openedConflict stamp records rule evidence origin] := by
    rw [htables]
    rfl
  have hlogs : Logs db (withTables tables db) _ := .own happended rfl
  exact ⟨hlogs, .opened (openedConflict stamp records rule evidence origin) hfresh rfl hconflicts rfl⟩

theorem viewOf_of_isSome (h : (db.tables.conflict? conflictId).isSome) :
    ∃ view, viewOf zone conflictId db = ⟨200, .conflict view⟩ := by
  obtain ⟨row, hrow⟩ := Option.isSome_iff_exists.mp h
  refine ⟨conflictToPublicView zone db row, ?_⟩
  rw [viewOf, hrow]

theorem readUnmaskedField_returned {args : UnmaskedReadArgs} {field : UnmaskedField}
    (h : readUnmaskedField signGet actor args entry db = (.returned field, db')) :
    Ocr.strip args.purpose ≠ [] ∧ Did db db' [⟨actor, "field.unmasked_read".toList,
      some (fieldIdentity args.recordId args.version field.fieldName), some args.purpose⟩] := by
  unfold readUnmaskedField at h
  split at h
  · cases h
  · rename_i hpurpose
    simp only [Fallible.read_bind] at h
    cases hextraction : db.tables.extraction? args.extractionId with
    | none =>
      rw [hextraction] at h
      cases h
    | some extraction =>
      simp only [hextraction, Fallible.bind_eq_returned] at h
      obtain ⟨_, _, hfield, _, _, hdistrict, _, _, hentry, hdone⟩ := h
      cases hfield
      cases hdistrict
      cases hdone
      have ⟨htables, hassignee, happended⟩ := onTables_append hentry
      have hconflicts : db'.tables.conflicts = db.tables.conflicts := by
        rw [htables]
        rfl
      refine ⟨fun hblank => hpurpose (.inr hblank), .own happended rfl,
        .apart _ hconflicts hassignee fun event hevent => ?_⟩
      rw [List.mem_singleton.mp hevent]
      rfl

theorem publishNewVersion_conflicts {tables tables' : Backend.Database} {request : PublishRequest}
    {stamps : PublishStamps} {record : Record}
    (h : publishNewVersion request stamps tables = (.returned record, tables')) :
    tables'.conflicts = tables.conflicts := by
  cases hgate : passesGate tables request with
  | false =>
    obtain ⟨reasons, hraised⟩ := publishNewVersion_of_blocked stamps hgate
    rw [hraised] at h
    cases h
  | true =>
    rw [publishNewVersion_of_passed hgate] at h
    rw [(writeVersion_returned h).2.2]
    rfl

theorem publish_did {request : PublishRequest} {stamps : PublishStamps} {record : Record}
    (h : onTables (publishNewVersion request stamps) db = (.returned record, db')) :
    Did db db' [⟨request.actor, "record.published".toList,
      some (record.recordGroupId ++ ':' :: (toString record.version).toList), none⟩] := by
  have ⟨hpublished, hassignee⟩ := onTables_returned h
  have happended := (publishNewVersion_returned hpublished).2.2.2
  refine ⟨.own happended rfl,
    .apart _ (publishNewVersion_conflicts hpublished) hassignee fun event hevent => ?_⟩
  rw [List.mem_singleton.mp hevent]
  rfl

theorem route_did (h : route signGet zone identity request db = (.returned response, db')) :
    Did db db' (effectEvents identity request response) := by
  cases request with
  | listConflicts state =>
    cases h
    exact .refl db
  | getConflict conflictId =>
    cases h
    exact .refl db
  | assignConflict conflictId assignee entry =>
    obtain ⟨_, after, hassign, hview⟩ := Fallible.bind_eq_returned.mp h
    have ⟨hdid, hrow⟩ := assign_returned hassign
    obtain ⟨view, hanswer⟩ := @viewOf_of_isSome zone after conflictId hrow
    cases hview
    rw [hanswer]
    exact hdid
  | transitionConflict conflictId newState resolution entry =>
    obtain ⟨_, after, hmoved, hview⟩ := Fallible.bind_eq_returned.mp h
    have ⟨hdid, hrow⟩ := transition_did hmoved
    obtain ⟨view, hanswer⟩ := @viewOf_of_isSome zone after conflictId hrow
    cases hview
    rw [hanswer]
    exact hdid
  | unmaskedRead args entry =>
    obtain ⟨field, after, hread, hdone⟩ := Fallible.bind_eq_returned.mp h
    cases hdone
    exact (readUnmaskedField_returned hread).2
  | publish request stamps =>
    obtain ⟨record, after, hpublished, hdone⟩ := Fallible.bind_eq_returned.mp h
    cases hdone
    exact publish_did hpublished
  | other permission program =>
    obtain ⟨status, after, hrun, hdone⟩ := Fallible.bind_eq_returned.mp h
    cases hdone
    have ⟨htables, hassignee⟩ := onTables_returned hrun
    obtain ⟨hconflicts, calls, happended, hforeign⟩ := (program identity).frame _ _ _ htables
    exact ⟨.foreign happended hforeign, .apart [] hconflicts hassignee (by simp)⟩

theorem effectEvents_of_status (h : response.status ≠ 200) :
    effectEvents identity request response = [] := by
  unfold effectEvents
  split <;> simp_all

theorem refuse_status (error : Error) (h : ∀ permission program, request ≠ .other permission program) :
    (refuse identity request error).status ≠ 200 := by
  unfold refuse
  split
  · exact absurd rfl (h _ _)
  all_goals simp

theorem effectEvents_refuse (error : Error) :
    effectEvents identity request (refuse identity request error) = [] := by
  by_cases hother : ∀ permission program, request ≠ .other permission program
  · exact effectEvents_of_status (refuse_status error hother)
  · push Not at hother
    obtain ⟨permission, program, rfl⟩ := hother
    rfl

theorem respond_cases (h : respond signGet zone identity request db = some (response, db')) :
    route signGet zone identity request db = (.returned response, db') ∨
      db' = db ∧ ((∃ error, response = refuse identity request error) ∨
        response = ⟨500, .internalServerError⟩) := by
  unfold respond at h
  cases hroute : route signGet zone identity request db with
  | mk exit after =>
    rw [hroute] at h
    split at h
    · rename_i hexit
      cases hexit
      cases h
      exact .inl rfl
    · cases h
    · cases h
      exact .inr ⟨rfl, .inl ⟨_, rfl⟩⟩
    · cases h
      exact .inr ⟨rfl, .inr rfl⟩

theorem respond_did (h : respond signGet zone identity request db = some (response, db')) :
    Did db db' (effectEvents identity request response) := by
  cases respond_cases h with
  | inl hroute => exact route_did hroute
  | inr hundone =>
    obtain ⟨rfl, ⟨error, rfl⟩ | rfl⟩ := hundone
    · rw [effectEvents_refuse]
      exact .refl db'
    · rw [effectEvents_of_status (by simp)]
      exact .refl db'

structure Given (request : Request) (response : Response) : Prop where
  unmasked : ∀ field, response.body = .unmasked field → response.status = 200 ∧
    ∃ args entry, request = .unmaskedRead args entry ∧ Ocr.strip args.purpose ≠ []
  published : ∀ groupId id version, response.body = .published groupId id version →
    response.status = 200 ∧ ∃ publication stamps, request = .publish publication stamps

theorem given_viewOf (db : Database) : Given request (viewOf zone conflictId db) := by
  unfold viewOf
  split <;> exact ⟨nofun, nofun⟩

theorem given_refuse (error : Error) : Given request (refuse identity request error) := by
  unfold refuse
  split <;> exact ⟨nofun, nofun⟩

theorem route_given (h : route signGet zone identity request db = (.returned response, db')) :
    Given request response := by
  cases request with
  | listConflicts state =>
    cases h
    exact ⟨nofun, nofun⟩
  | getConflict conflictId =>
    cases h
    exact given_viewOf db
  | assignConflict conflictId assignee entry =>
    obtain ⟨_, after, _, hview⟩ := Fallible.bind_eq_returned.mp h
    cases hview
    exact given_viewOf _
  | transitionConflict conflictId newState resolution entry =>
    obtain ⟨_, after, _, hview⟩ := Fallible.bind_eq_returned.mp h
    cases hview
    exact given_viewOf _
  | unmaskedRead args entry =>
    obtain ⟨field, after, hread, hdone⟩ := Fallible.bind_eq_returned.mp h
    cases hdone
    exact ⟨fun _ _ => ⟨rfl, args, entry, rfl, (readUnmaskedField_returned hread).1⟩, nofun⟩
  | publish publication stamps =>
    obtain ⟨record, after, _, hdone⟩ := Fallible.bind_eq_returned.mp h
    cases hdone
    exact ⟨nofun, fun _ _ _ _ => ⟨rfl, publication, stamps, rfl⟩⟩
  | other permission program =>
    obtain ⟨status, after, _, hdone⟩ := Fallible.bind_eq_returned.mp h
    cases hdone
    exact ⟨nofun, nofun⟩

theorem respond_given (h : respond signGet zone identity request db = some (response, db')) :
    Given request response := by
  cases respond_cases h with
  | inl hroute => exact route_given hroute
  | inr hundone =>
    obtain ⟨-, ⟨error, rfl⟩ | rfl⟩ := hundone
    · exact given_refuse error
    · exact ⟨nofun, nofun⟩

end Routes

/-! ## Runs -/

variable {provider : IdentityProvider} {signGet : Text → ℕ → Text} {zone : Zone}

/-- A request is answered after its permission check: without an identity nothing is done,
without the permission the route is not run. -/
def Checked (provider : IdentityProvider) (past : List Happening) (ticket : ℕ) (call : Call)
    (response : Response) : Prop :=
  provider.resolve call.header = none ∧ response = ⟨401, .noSuchIdentity call.header⟩ ∨
    ∃ identity, provider.resolve call.header = some identity ∧ .checked ticket call ∈ past ∧
      (identity.has call.request.permission = true ∨
        response = ⟨403, .lacksPermission identity.actor call.request.permission⟩)

def Happening.ticket : Happening → Option ℕ
  | .checked ticket _ | .answered ticket _ _ => some ticket
  | .opened _ _ _ => none

def Allowed (provider : IdentityProvider) (past : List Happening) : Happening → Prop
  | .checked ticket _ => ∀ happening ∈ past, happening.ticket ≠ some ticket
  | .answered ticket call response =>
      Checked provider past ticket call response ∧
        ∀ call' response', .answered ticket call' response' ∉ past
  | .opened _ _ _ => True

def officerOf (action : Text) : Role :=
  if action = "field.unmasked_read".toList then .auditor else .supervisor

structure Justified (provider : IdentityProvider) (call : Call) (response : Response) : Prop where
  disclosed : ∀ field, response.body = .unmasked field → response.status = 200 ∧
    ∃ args entry identity, call.request = .unmaskedRead args entry ∧
      Ocr.strip args.purpose ≠ [] ∧ provider.resolve call.header = some identity ∧
      .auditor ∈ identity.roles
  published : ∀ groupId id version, response.body = .published groupId id version →
    response.status = 200 ∧ ∃ request stamps identity, call.request = .publish request stamps ∧
      provider.resolve call.header = some identity ∧ .supervisor ∈ identity.roles
  changed : ∀ identity, provider.resolve call.header = some identity →
    ∀ event ∈ effectEvents identity call.request response, officerOf event.action ∈ identity.roles

section Step

variable {s s' : State} {db db' : Database} {ticket : ℕ} {call : Call} {response : Response}
  {identity : Identity} {a : Step}

theorem checked_did (h : checked identity call db = some db') :
    Did db db' [checkEvent identity call.request] := by
  unfold checked at h
  split at h
  · rename_i hentry
    cases h
    have happended := (auditAppend_returned hentry).2
    have hown : isOwnAction (recordPermissionCheck identity.actor call.request.permission
        (identity.has call.request.permission)).action = true := by
      cases identity.has call.request.permission <;> rfl
    have hconflicts := congrArg Backend.Database.conflicts (auditAppend_returned hentry).1
    refine ⟨.own happended hown, .apart _ hconflicts rfl fun event hevent => ?_⟩
    rw [List.mem_singleton.mp hevent, checkEvent]
    cases identity.has call.request.permission <;> rfl
  · cases h

theorem events_checked (h : provider.resolve call.header = some identity) :
    (Happening.checked ticket call).events provider = [checkEvent identity call.request] := by
  simp only [Happening.events, h, Option.toList_some, List.map_singleton]

theorem events_answered (h : provider.resolve call.header = some identity) :
    (Happening.answered ticket call response).events provider =
      effectEvents identity call.request response := by
  simp only [Happening.events, h, Option.toList_some, List.flatMap_singleton]

theorem officer_of_effect (hallowed : identity.has call.request.permission = true) {event : Event}
    (hevent : event ∈ effectEvents identity call.request response) :
    officerOf event.action ∈ identity.roles := by
  unfold effectEvents at hevent
  split at hevent
  · rename_i hrequest
    rw [hrequest] at hallowed
    rw [List.mem_singleton.mp hevent]
    exact Identity.has_conflictAssign.mp hallowed
  · rename_i hrequest
    rw [hrequest] at hallowed
    rw [List.mem_singleton.mp hevent]
    exact Identity.has_conflictTransition.mp hallowed
  · rename_i hrequest
    rw [hrequest] at hallowed
    rw [List.mem_singleton.mp hevent]
    exact Identity.has_recordReadUnmasked.mp hallowed
  · rename_i hrequest
    rw [hrequest] at hallowed
    rw [List.mem_singleton.mp hevent]
    exact Identity.has_recordPublish.mp hallowed
  · cases hevent

theorem justified_of_given (hidentity : provider.resolve call.header = some identity)
    (hallowed : identity.has call.request.permission = true) (h : Given call.request response) :
    Justified provider call response := by
  constructor
  · intro field hbody
    obtain ⟨hstatus, args, entry, hrequest, hpurpose⟩ := h.unmasked field hbody
    rw [hrequest] at hallowed
    exact ⟨hstatus, args, entry, identity, hrequest, hpurpose, hidentity,
      Identity.has_recordReadUnmasked.mp hallowed⟩
  · intro groupId id version hbody
    obtain ⟨hstatus, request, stamps, hrequest⟩ := h.published groupId id version hbody
    rw [hrequest] at hallowed
    exact ⟨hstatus, request, stamps, identity, hrequest, hidentity,
      Identity.has_recordPublish.mp hallowed⟩
  · intro other hother event hevent
    cases hidentity.symm.trans hother
    exact officer_of_effect hallowed hevent

theorem decision_did {tables : Backend.Database} {decided : Decision.Step}
    (h : Decision.step db.tables decided = some tables) : Did db (withTables tables db) [] := by
  rcases Decision.step_cases h with ⟨rows, rfl, -⟩ | ⟨extraction, outcome, -, hdecided⟩
  · exact ⟨.foreign (.refl _) (by simp), .apart [] rfl rfl (by simp)⟩
  · obtain ⟨mid, decision, heffect, -, -, htables⟩ := hdecided.tables
    have hforeign : ∀ args ∈ Decision.routedArgs extraction outcome ::
        Decision.processedCalls db.tables extraction.pageId, isOwnAction args.action = false := by
      intro args hargs
      cases hargs with
      | head => cases outcome <;> rfl
      | tail _ hprocessed =>
        rcases Decision.processedCalls_cases db.tables extraction.pageId with hnone | hone
        · rw [hnone] at hprocessed
          cases hprocessed
        · rw [hone] at hprocessed
          cases hprocessed with
          | head => rfl
          | tail _ hnone => cases hnone
    have hlogs : Logs db (withTables tables db) [] := .foreign hdecided.entries hforeign
    have hconflicts : tables.conflicts = mid.conflicts := by
      rw [htables]
      rfl
    refine ⟨hlogs, ?_⟩
    cases heffect with
    | conflict stamp hfresh =>
      refine .placed extraction stamp hfresh hconflicts rfl ?_
      obtain ⟨entries, hrows, hentries⟩ := hdecided.entries
      cases hentries with
      | cons hrecorded hrest =>
        refine ⟨_, ?_, hrecorded.action, hrecorded.subject⟩
        simp only [withTables, hrows]
        exact List.mem_append_right _ List.mem_cons_self
    | _ => exact .apart [] hconflicts rfl (by simp)

theorem foreign_did {program : ForeignProgram} {tables : Backend.Database}
    (h : commit program.run db.tables = some tables) : Did db (withTables tables db) [] := by
  rcases commit_eq_some h with rfl | ⟨status, hreturned⟩
  · exact .refl db
  · obtain ⟨hconflicts, calls, happended, hforeign⟩ := program.frame _ _ _ hreturned
    have hlogs : Logs db (withTables tables db) [] := .foreign happended hforeign
    exact ⟨hlogs, .apart [] hconflicts rfl (by simp)⟩

theorem arrive_cases (h : arrive provider call s = some s') :
    (provider.resolve call.header = none ∧ s' = State.add { s with arrived := s.arrived + 1 }
      [.answered s.arrived call ⟨401, .noSuchIdentity call.header⟩]) ∨
    ∃ identity db, provider.resolve call.header = some identity ∧
      Did s.db db [checkEvent identity call.request] ∧
      (identity.has call.request.permission = true ∧ s' = State.add
          { s with
            db := db, arrived := s.arrived + 1
            waiting := s.waiting ++ [⟨s.arrived, call, identity⟩] }
          [.checked s.arrived call] ∨
        s' = State.add { s with db := db, arrived := s.arrived + 1 } [.checked s.arrived call,
          .answered s.arrived call
            ⟨403, .lacksPermission identity.actor call.request.permission⟩]) := by
  unfold arrive at h
  cases hidentity : provider.resolve call.header with
  | none =>
    simp only [hidentity] at h
    cases h
    exact .inl ⟨rfl, rfl⟩
  | some identity =>
    simp only [hidentity] at h
    obtain ⟨db, hchecked, hnext⟩ := Option.map_eq_some_iff.mp h
    refine .inr ⟨identity, db, rfl, checked_did hchecked, ?_⟩
    by_cases hallowed : identity.has call.request.permission = true
    · rw [if_pos hallowed] at hnext
      exact .inl ⟨hallowed, hnext.symm⟩
    · rw [if_neg hallowed] at hnext
      exact .inr hnext.symm

theorem answer_cases (h : step provider signGet zone s (.answer ticket) = some s') :
    ∃ admitted ∈ s.waiting, ∃ response db,
      Did s.db db (effectEvents admitted.identity admitted.call.request response) ∧
      Given admitted.call.request response ∧
      s' = State.add
        { s with
          db := db
          waiting := s.waiting.filter fun other => other.ticket ≠ admitted.ticket }
        [.answered admitted.ticket admitted.call response] := by
  obtain ⟨admitted, hfound, h⟩ := Option.bind_eq_some_iff.mp h
  obtain ⟨⟨response, db⟩, hresponded, rfl⟩ := Option.map_eq_some_iff.mp h
  exact ⟨admitted, List.mem_of_find?_eq_some hfound, response, db, respond_did hresponded,
    respond_given hresponded, rfl⟩

end Step

structure Admitted.Waits (provider : IdentityProvider) (history : List Happening)
    (admitted : Admitted) : Prop where
  checked : .checked admitted.ticket admitted.call ∈ history
  identity : provider.resolve admitted.call.header = some admitted.identity
  allowed : admitted.identity.has admitted.call.request.permission = true
  unanswered : ∀ call response, .answered admitted.ticket call response ∉ history

structure Ticketed (provider : IdentityProvider) (s : State) : Prop where
  tickets : ∀ happening ∈ s.history, ∀ ticket ∈ happening.ticket, ticket < s.arrived
  waiting : ∀ admitted ∈ s.waiting, admitted.Waits provider s.history

/-- The own entries of the log are those that account for what happened. -/
structure Accounted (provider : IdentityProvider) (start : Database) (s : State) : Prop where
  logged : ownEvents s.db =
    ownEvents start ++ s.history.flatMap (Happening.events provider)
  allowed : Guarded (Allowed provider) s.history
  justified : ∀ ticket call response, .answered ticket call response ∈ s.history →
    Justified provider call response

section Accounts

variable {start : Database} {s s' : State} {a : Step} {ticket : ℕ} {happening : Happening}
  {happened : List Happening} {admitted : Admitted}

theorem Admitted.Waits.append (h : admitted.Waits provider s.history)
    (hhappened : ∀ happening ∈ happened, happening.ticket ≠ some admitted.ticket) :
    admitted.Waits provider (s.history ++ happened) where
  checked := List.mem_append_left _ h.checked
  identity := h.identity
  allowed := h.allowed
  unanswered call response hanswered := by
    cases List.mem_append.mp hanswered with
    | inl hold => exact h.unanswered call response hold
    | inr hnew => exact hhappened _ hnew rfl

theorem Ticketed.fresh (h : Ticketed provider s) (hmem : happening ∈ s.history) :
    happening.ticket ≠ some s.arrived := fun hticket =>
  lt_irrefl _ (h.tickets happening hmem s.arrived hticket)

theorem Ticketed.waiting_lt (h : Ticketed provider s) (hmem : admitted ∈ s.waiting) :
    admitted.ticket < s.arrived :=
  h.tickets _ (h.waiting admitted hmem).checked _ rfl

theorem Ticketed.add (h : Ticketed provider s) (hhappened : ∀ happening ∈ happened,
    happening.ticket = none) (db : Database) :
    Ticketed provider (State.add { s with db := db } happened) where
  tickets happening hmem ticket hticket := by
    cases List.mem_append.mp hmem with
    | inl hold => exact h.tickets happening hold ticket hticket
    | inr hnew =>
      rw [hhappened happening hnew] at hticket
      cases hticket
  waiting admitted hmem := (h.waiting admitted hmem).append fun happening hnew hticket => by
    rw [hhappened happening hnew] at hticket
    cases hticket

theorem Ticketed.arrives (h : Ticketed provider s) (happened : List Happening)
    (added : List Admitted)
    (hhappened : ∀ happening ∈ happened, happening.ticket = some s.arrived)
    (hadded : ∀ admitted ∈ added,
      admitted.Waits provider (s.history ++ happened)) (db : Database) :
    Ticketed provider (State.add
      { s with db := db, arrived := s.arrived + 1, waiting := s.waiting ++ added } happened) where
  tickets happening hmem ticket hticket := by
    cases List.mem_append.mp hmem with
    | inl hold => exact (h.tickets happening hold ticket hticket).trans (Nat.lt_succ_self _)
    | inr hnew =>
      rw [hhappened happening hnew] at hticket
      cases hticket
      exact Nat.lt_succ_self _
  waiting admitted hmem := by
    cases List.mem_append.mp hmem with
    | inl hold =>
      refine (h.waiting admitted hold).append fun happening hnew hticket => ?_
      rw [hhappened happening hnew] at hticket
      exact (h.waiting_lt hold).ne (Option.some.inj hticket).symm
    | inr hnew => exact hadded admitted hnew

theorem Ticketed.turnedAway (h : Ticketed provider s) (happened : List Happening)
    (hhappened : ∀ happening ∈ happened, happening.ticket = some s.arrived) (db : Database) :
    Ticketed provider (State.add { s with db := db, arrived := s.arrived + 1 } happened) := by
  have hnext := h.arrives happened [] hhappened (by simp) db
  rwa [List.append_nil] at hnext

theorem Ticketed.unanswered (h : Ticketed provider s) (call call' : Call) (response : Response) :
    .answered s.arrived call' response ∉ s.history ++ [.checked s.arrived call] := by
  intro hanswered
  cases List.mem_append.mp hanswered with
  | inl hold => exact h.fresh hold rfl
  | inr hnew => cases List.mem_singleton.mp hnew

theorem Ticketed.answers (h : Ticketed provider s) (hmem : admitted ∈ s.waiting)
    (response : Response) (db : Database) :
    Ticketed provider (State.add
      { s with
        db := db
        waiting := s.waiting.filter fun other => other.ticket ≠ admitted.ticket }
      [.answered admitted.ticket admitted.call response]) where
  tickets happening hhappened ticket hticket := by
    cases List.mem_append.mp hhappened with
    | inl hold => exact h.tickets happening hold ticket hticket
    | inr hnew =>
      rw [List.mem_singleton.mp hnew] at hticket
      cases hticket
      exact h.waiting_lt hmem
  waiting other hother := by
    have ⟨hwaits, hdiffers⟩ := List.mem_filter.mp hother
    refine (h.waiting other hwaits).append fun happening hnew hticket => ?_
    rw [List.mem_singleton.mp hnew] at hticket
    exact of_decide_eq_true hdiffers (Option.some.inj hticket).symm

theorem Accounted.add (h : Accounted provider start s) {events : List Event}
    (hdid : Did s.db s'.db events) (hhistory : s'.history = s.history ++ happened)
    (hevents : happened.flatMap (Happening.events provider) = events)
    (hallowed : GuardedFrom (Allowed provider) s.history happened)
    (hjustified : ∀ ticket call response, .answered ticket call response ∈ happened →
      Justified provider call response) : Accounted provider start s' where
  logged := by
    rw [hdid.logs.ownEvents, h.logged, hhistory, List.flatMap_append, hevents, List.append_assoc]
  allowed := by
    rw [hhistory]
    exact Guarded.guardedFrom_append.mpr ⟨h.allowed, hallowed⟩
  justified ticket call response hanswered := by
    rw [hhistory] at hanswered
    cases List.mem_append.mp hanswered with
    | inl hold => exact h.justified ticket call response hold
    | inr hnew => exact hjustified ticket call response hnew

theorem justified_refusal {call : Call} {response : Response} (hstatus : response.status ≠ 200)
    (hunmasked : ∀ field, response.body ≠ .unmasked field)
    (hpublished : ∀ groupId id version, response.body ≠ .published groupId id version) :
    Justified provider call response where
  disclosed field hbody := absurd hbody (hunmasked field)
  published _ _ _ hbody := absurd hbody (hpublished _ _ _)
  changed _ _ event hevent := by
    rw [effectEvents_of_status hstatus] at hevent
    cases hevent

/-- Whatever one step does, it is one thing, and happened with the entries of this. -/
theorem step_did (h : step provider signGet zone s a = some s') (hticketed : Ticketed provider s) :
    ∃ events happened, Did s.db s'.db events ∧ s'.history = s.history ++ happened ∧
      happened.flatMap (Happening.events provider) = events ∧
      GuardedFrom (Allowed provider) s.history happened ∧
      (∀ ticket call response, .answered ticket call response ∈ happened →
        Justified provider call response) ∧ Ticketed provider s' := by
  have hfresh : ∀ happening ∈ s.history, happening.ticket ≠ some s.arrived :=
    fun happening hmem => hticketed.fresh hmem
  cases a with
  | arrive call =>
    rcases arrive_cases h with ⟨hidentity, rfl⟩ |
      ⟨identity, db, hidentity, hdid, ⟨hallowed, rfl⟩ | rfl⟩
    · refine ⟨[], _, .refl _, rfl, ?_, ⟨⟨.inl ⟨hidentity, rfl⟩, ?_⟩, trivial⟩, ?_, ?_⟩
      · simp [Happening.events, hidentity]
      · exact fun call' response' hanswered => hfresh _ hanswered rfl
      · intro ticket call' response hmem
        cases List.mem_singleton.mp hmem
        exact justified_refusal (by simp) (by simp) (by simp)
      · exact hticketed.turnedAway _ (by simp [Happening.ticket]) s.db
    · refine ⟨_, _, hdid, rfl, ?_, ⟨hfresh, trivial⟩, ?_, ?_⟩
      · rw [List.flatMap_singleton, events_checked hidentity]
      · simp
      · refine hticketed.arrives _ _ (by simp [Happening.ticket]) ?_ db
        intro admitted hmem
        cases List.mem_singleton.mp hmem
        exact ⟨List.mem_append_right _ List.mem_cons_self, hidentity, hallowed,
          hticketed.unanswered call⟩
    · refine ⟨_, _, hdid, rfl, ?_, ⟨hfresh, ⟨.inr ⟨identity, hidentity, ?_, .inr rfl⟩,
        hticketed.unanswered call⟩, trivial⟩, ?_, ?_⟩
      · rw [List.flatMap_cons, List.flatMap_singleton, events_checked hidentity,
          events_answered hidentity, effectEvents_of_status (by simp), List.append_nil]
      · exact List.mem_append_right _ List.mem_cons_self
      · intro ticket call' response hmem
        rcases List.mem_pair.mp hmem with hcheck | hanswer
        · cases hcheck
        · cases hanswer
          exact justified_refusal (by simp) (by simp) (by simp)
      · exact hticketed.turnedAway _ (by simp [Happening.ticket]) db
  | answer ticket =>
    obtain ⟨admitted, hmem, response, db, hdid, hgiven, rfl⟩ := answer_cases h
    have hwaits := hticketed.waiting admitted hmem
    refine ⟨_, _, hdid, rfl, ?_, ⟨⟨.inr ⟨admitted.identity, hwaits.identity, hwaits.checked,
      .inl hwaits.allowed⟩, hwaits.unanswered⟩, trivial⟩, ?_, hticketed.answers hmem response db⟩
    · rw [List.flatMap_singleton, events_answered hwaits.identity]
    · intro ticket' call response' hanswered
      cases List.mem_singleton.mp hanswered
      exact justified_of_given hwaits.identity hwaits.allowed hgiven
  | openConflict records rule evidence origin stamp entry =>
    obtain ⟨tables, hopened, rfl⟩ := Option.map_eq_some_iff.mp h
    exact ⟨_, _, openConflict_did hopened, rfl, rfl, ⟨trivial, trivial⟩, by simp,
      hticketed.add (by simp [Happening.ticket]) _⟩
  | decision decided =>
    obtain ⟨tables, hdecided, rfl⟩ := Option.map_eq_some_iff.mp h
    exact ⟨_, [], decision_did hdecided, (List.append_nil _).symm, rfl, trivial, by simp,
      ⟨hticketed.tickets, hticketed.waiting⟩⟩
  | foreign program =>
    obtain ⟨tables, hrun, rfl⟩ := Option.map_eq_some_iff.mp h
    exact ⟨_, [], foreign_did hrun, (List.append_nil _).symm, rfl, trivial, by simp,
      ⟨hticketed.tickets, hticketed.waiting⟩⟩

theorem Accounted.step (h : Accounted provider start s) (hticketed : Ticketed provider s)
    (hstep : step provider signGet zone s a = some s') :
    Accounted provider start s' ∧ Ticketed provider s' := by
  obtain ⟨events, happened, hdid, hhistory, hevents, hallowed, hjustified, hnext⟩ :=
    step_did hstep hticketed
  exact ⟨h.add hdid hhistory hevents hallowed hjustified, hnext⟩

end Accounts

/-- Throughout every run, the log accounts for what the system checked and answered. -/
theorem log_accounts_for_answers (provider : IdentityProvider) (signGet : Text → ℕ → Text)
    (zone : Zone) (start : Database) (steps : List Step) :
    Runs.Throughout (step provider signGet zone) (Accounted provider start) { db := start }
      steps := by
  have hthroughout : Runs.Throughout (step provider signGet zone)
      (fun s => Accounted provider start s ∧ Ticketed provider s) { db := start } steps := by
    apply Runs.throughout_of_preserved
    · exact ⟨⟨(List.append_nil _).symm, .nil, by simp⟩, ⟨by simp, by simp⟩⟩
    · exact fun s a s' hs hstep => hs.1.step hs.2 hstep
  exact hthroughout.imp fun s hs => hs.1

end LandRecords.Api
