import LandRecords.Api.Accountability
import LandRecords.Base.LastEvent
import LandRecords.Publication.BlockedGroup

/-! The conflict register replayed from the audit log: the state of a conflict is where its last
entry moved it, and its assignee the last one that was logged. Whatever left the state `open`
was moved by a supervisor. -/
namespace LandRecords.Api

open Backend Audit Datetime Publication Text

/-! ## What an entry says of the register -/

/-- The id and the rule of the conflict that the entry opened. -/
def openedAs (event : Event) : Option (Text × Text) :=
  if event.action = "conflict.opened".toList then
    event.subject.bind fun id => event.purpose.map fun rule => (id, rule)
  else none

def transitionedAction (state : ConflictState) : Text := "conflict.transitioned.".toList ++ state.text

def movedTo (id : Text) (event : Event) : Option ConflictState :=
  if event.subject = some id then
    [.open, .underEnquiry, .resolved, .referred].find? fun state =>
      event.action = transitionedAction state
  else none

def assignedTo (id : Text) (event : Event) : Option Text :=
  if event.subject = some id ∧ event.action = "conflict.assigned".toList then event.purpose else none

def openedConflicts (events : List Event) : List (Text × Text) := events.filterMap openedAs

def conflictKey (row : Conflict) : Text × Text := (row.id, row.rule)

def isLogged (events : List Event) (row : Conflict) : Bool :=
  row.id ∈ (openedConflicts events).map Prod.fst

section Events

variable {event : Event} {id id' : Text}

theorem movedTo_of_apart (h : "conflict.".toList.isPrefixOf event.action = false) :
    movedTo id event = none := by
  unfold movedTo
  split
  · apply List.find?_eq_none.mpr
    intro state _ heq
    rw [of_decide_eq_true heq] at h
    cases state <;> cases h
  · rfl

theorem assignedTo_of_apart (h : "conflict.".toList.isPrefixOf event.action = false) :
    assignedTo id event = none := by
  apply if_neg
  intro hassigned
  rw [hassigned.2] at h
  cases h

theorem openedAs_of_apart (h : "conflict.".toList.isPrefixOf event.action = false) :
    openedAs event = none := by
  apply if_neg
  intro hopened
  rw [hopened] at h
  cases h

theorem movedTo_of_other (h : event.subject ≠ some id) : movedTo id event = none := if_neg h

theorem assignedTo_of_other (h : event.subject ≠ some id) : assignedTo id event = none :=
  if_neg fun hassigned => h hassigned.1

theorem movedTo_transitioned {actor : Text} {purpose : Option Text} (state : ConflictState) :
    movedTo id ⟨actor, transitionedAction state, some id, purpose⟩ = some state := by
  unfold movedTo
  rw [if_pos rfl]
  cases state <;> rfl

theorem movedTo_eq_some {state : ConflictState} (h : movedTo id event = some state) :
    event.subject = some id ∧ event.action = transitionedAction state := by
  unfold movedTo at h
  split at h
  · rename_i hsubject
    have hfound := List.find?_some h
    exact ⟨hsubject, of_decide_eq_true hfound⟩
  · cases h

theorem assignedTo_transitioned {actor : Text} {purpose : Option Text} (state : ConflictState) :
    assignedTo id ⟨actor, transitionedAction state, some id', purpose⟩ = none := by
  apply if_neg
  rintro ⟨-, haction⟩
  cases state <;> cases haction

theorem openedAs_transitioned {actor : Text} {purpose : Option Text} (state : ConflictState) :
    openedAs ⟨actor, transitionedAction state, some id, purpose⟩ = none := by
  apply if_neg
  intro haction
  cases state <;> cases haction

theorem ofText?_text {text : Text} {state : ConflictState}
    (h : ConflictState.ofText? text = some state) : state.text = text := by
  have hfound := List.find?_some h
  exact of_decide_eq_true hfound

end Events

/-! ## The register and the log -/

def conflictIds (db : Database) : List Text := db.tables.conflicts.map Conflict.id

def Placed (db : Database) (row : Conflict) : Prop :=
  ∃ extractionId, row.records = [extractionId] ∧ ∃ entry ∈ db.tables.audit.rows,
    entry.action = Decision.routedAction .conflict ∧ entry.subject = some extractionId

structure Replayed (db : Database) : Prop where
  keys : (conflictIds db).Nodup
  subjects : ∀ event ∈ ownEvents db, "conflict.".toList.isPrefixOf event.action = true →
    ∃ id ∈ conflictIds db, event.subject = some id
  opened : (db.tables.conflicts.filter (isLogged (ownEvents db))).map conflictKey =
    openedConflicts (ownEvents db)
  placed : ∀ row ∈ db.tables.conflicts, isLogged (ownEvents db) row = false → Placed db row
  state : ∀ row ∈ db.tables.conflicts,
    row.state = (lastValue (movedTo row.id) (ownEvents db)).getD .open
  assignee : ∀ id, db.assignee id = lastValue (assignedTo id) (ownEvents db)

section Replay

variable {db db' : Database} {events : List Event} {event : Event}

theorem openedConflicts_append (events more : List Event) :
    openedConflicts (events ++ more) = openedConflicts events ++ openedConflicts more :=
  List.filterMap_append

theorem openedConflicts_eq_nil (h : ∀ event ∈ events, openedAs event = none) :
    openedConflicts events = [] := List.filterMap_eq_nil_iff.mpr h

theorem openedAs_eq_some {key : Text × Text} (h : openedAs event = some key) :
    event.action = "conflict.opened".toList ∧ event.subject = some key.1 := by
  unfold openedAs at h
  split at h
  · rename_i haction
    obtain ⟨id, hid, hrule⟩ := Option.bind_eq_some_iff.mp h
    obtain ⟨rule, _, rfl⟩ := Option.map_eq_some_iff.mp hrule
    exact ⟨haction, hid⟩
  · cases h

theorem Replayed.mem_of_isLogged (h : Replayed db) {row : Conflict}
    (hlogged : isLogged (ownEvents db) row = true) : row.id ∈ conflictIds db := by
  obtain ⟨key, hkey, hid⟩ := List.mem_map.mp (of_decide_eq_true hlogged)
  obtain ⟨event, hevent, hopened⟩ := List.mem_filterMap.mp hkey
  have ⟨haction, hsubject⟩ := openedAs_eq_some hopened
  obtain ⟨id, hmem, hown⟩ := h.subjects event hevent (by rw [haction]; rfl)
  rw [← hid, Option.some.inj (hsubject.symm.trans hown)]
  exact hmem

theorem Replayed.lastValue_movedTo (h : Replayed db) {id : Text} (hfresh : id ∉ conflictIds db) :
    lastValue (movedTo id) (ownEvents db) = none := by
  apply lastValue_eq_none
  intro event hevent
  cases hown : "conflict.".toList.isPrefixOf event.action with
  | false => exact movedTo_of_apart hown
  | true =>
    obtain ⟨id', hmem, hsubject⟩ := h.subjects event hevent hown
    apply movedTo_of_other
    rw [hsubject]
    rintro ⟨⟩
    exact hfresh hmem

theorem Placed.grow (hlogs : Logs db db' events) {row : Conflict} (h : Placed db row) :
    Placed db' row := by
  obtain ⟨extractionId, hrecords, entry, hentry, hrouted⟩ := h
  obtain ⟨calls, ⟨entries, hrows, _⟩, _⟩ := hlogs
  refine ⟨extractionId, hrecords, entry, ?_, hrouted⟩
  rw [hrows]
  exact List.mem_append_left _ hentry

theorem Replayed.state_of_unmoved (h : Replayed db) {row : Conflict}
    (hrow : row ∈ db.tables.conflicts) (hevents : ∀ event ∈ events, movedTo row.id event = none) :
    row.state = (lastValue (movedTo row.id) (ownEvents db ++ events)).getD .open := by
  rw [lastValue_append, lastValue_eq_none hevents, Option.none_or]
  exact h.state row hrow

theorem Replayed.assignee_of_unassigned (h : Replayed db) {id : Text}
    (hassignee : db'.assignee = db.assignee) (hevents : ∀ event ∈ events, assignedTo id event = none) :
    db'.assignee id = lastValue (assignedTo id) (ownEvents db ++ events) := by
  rw [lastValue_append, lastValue_eq_none hevents, Option.none_or, hassignee]
  exact h.assignee id

theorem isLogged_append (hevents : ∀ event ∈ events, openedAs event = none) (log : List Event) :
    isLogged (log ++ events) = isLogged log := by
  funext row
  rw [isLogged, openedConflicts_append, openedConflicts_eq_nil hevents, List.append_nil]
  rfl

theorem Replayed.opened_append (h : Replayed db) (hevents : ∀ event ∈ events, openedAs event = none) :
    (db.tables.conflicts.filter (isLogged (ownEvents db ++ events))).map conflictKey =
      openedConflicts (ownEvents db ++ events) := by
  rw [isLogged_append hevents, openedConflicts_append, openedConflicts_eq_nil hevents,
    List.append_nil]
  exact h.opened

theorem Replayed.subjects_append (h : Replayed db) (hids : conflictIds db ⊆ conflictIds db')
    (hevents : ∀ event ∈ events, "conflict.".toList.isPrefixOf event.action = true →
      ∃ id ∈ conflictIds db', event.subject = some id) :
    ∀ event ∈ ownEvents db ++ events, "conflict.".toList.isPrefixOf event.action = true →
      ∃ id ∈ conflictIds db', event.subject = some id := by
  intro event hevent hown
  cases List.mem_append.mp hevent with
  | inl hold =>
    obtain ⟨id, hid, hsubject⟩ := h.subjects event hold hown
    exact ⟨id, hids hid, hsubject⟩
  | inr hnew => exact hevents event hnew hown

theorem Replayed.apart (h : Replayed db) (hlogs : Logs db db' events)
    (hconflicts : db'.tables.conflicts = db.tables.conflicts)
    (hassignee : db'.assignee = db.assignee)
    (hevents : ∀ event ∈ events, "conflict.".toList.isPrefixOf event.action = false) :
    Replayed db' := by
  have hlog := hlogs.ownEvents
  have hids : conflictIds db' = conflictIds db := congrArg (List.map Conflict.id) hconflicts
  have hlogged := isLogged_append (fun event hevent => openedAs_of_apart (hevents event hevent))
    (ownEvents db)
  constructor
  · rw [hids]
    exact h.keys
  · rw [hlog]
    refine h.subjects_append (fun _ hid => hids.symm ▸ hid) fun event hevent hown => ?_
    rw [hevents event hevent] at hown
    cases hown
  · rw [hlog, hconflicts]
    exact h.opened_append fun event hevent => openedAs_of_apart (hevents event hevent)
  · rw [hlog, hconflicts, hlogged]
    intro row hrow hnot
    exact (h.placed row hrow hnot).grow hlogs
  · rw [hlog, hconflicts]
    intro row hrow
    exact h.state_of_unmoved hrow fun event hevent => movedTo_of_apart (hevents event hevent)
  · rw [hlog]
    intro id
    exact h.assignee_of_unassigned hassignee fun event hevent =>
      assignedTo_of_apart (hevents event hevent)

theorem Replayed.state_of_new (h : Replayed db) {row : Conflict} (hfresh : row.id ∉ conflictIds db)
    (hstate : row.state = .open) (hevents : ∀ event ∈ events, movedTo row.id event = none) :
    row.state = (lastValue (movedTo row.id) (ownEvents db ++ events)).getD .open := by
  rw [lastValue_append, lastValue_eq_none hevents, Option.none_or, h.lastValue_movedTo hfresh]
  exact hstate

theorem conflictIds_append {row : Conflict}
    (hconflicts : db'.tables.conflicts = db.tables.conflicts ++ [row]) :
    conflictIds db' = conflictIds db ++ [row.id] := by
  rw [conflictIds, hconflicts, List.map_append]
  rfl

theorem Replayed.opens (h : Replayed db) {row : Conflict} {actor : Text}
    (hlogs : Logs db db' [⟨actor, "conflict.opened".toList, some row.id, some row.rule⟩])
    (hfresh : row.id ∉ conflictIds db) (hstate : row.state = .open)
    (hconflicts : db'.tables.conflicts = db.tables.conflicts ++ [row])
    (hassignee : db'.assignee = db.assignee) : Replayed db' := by
  have hlog := hlogs.ownEvents
  have hids := conflictIds_append hconflicts
  have hkeys : openedConflicts (ownEvents db') = openedConflicts (ownEvents db) ++ [conflictKey row] := by
    rw [hlog, openedConflicts_append]
    rfl
  have hlogged : ∀ old ∈ db.tables.conflicts,
      isLogged (ownEvents db') old = isLogged (ownEvents db) old := by
    intro old hold
    have hne : old.id ≠ row.id := fun hsame => hfresh (hsame ▸ List.mem_map_of_mem hold)
    apply decide_eq_decide.mpr
    rw [hkeys, List.map_append, List.mem_append, List.map_singleton, List.mem_singleton]
    exact or_iff_left hne
  have hnew : isLogged (ownEvents db') row = true := by
    apply decide_eq_true
    rw [hkeys, List.map_append]
    exact List.mem_append_right _ List.mem_cons_self
  have hunmoved : ∀ id, ∀ event ∈ [Event.mk actor "conflict.opened".toList (some row.id)
      (some row.rule)], movedTo id event = none := by
    intro id event hevent
    rw [List.mem_singleton.mp hevent]
    unfold movedTo
    split
    · rfl
    · rfl
  constructor
  · rw [hids]
    exact List.Nodup.append h.keys (List.nodup_singleton _) (List.disjoint_singleton.mpr hfresh)
  · rw [hlog]
    refine h.subjects_append (by rw [hids]; exact List.subset_append_left _ _) fun event hevent _ => ?_
    rw [List.mem_singleton.mp hevent, hids]
    exact ⟨row.id, List.mem_append_right _ List.mem_cons_self, rfl⟩
  · rw [hconflicts, List.filter_append, List.filter_congr hlogged,
      List.filter_cons_of_pos hnew, List.map_append, h.opened, hkeys]
    rfl
  · intro row' hrow' hnot
    rw [hconflicts] at hrow'
    cases List.mem_append.mp hrow' with
    | inl hold =>
      rw [hlogged row' hold] at hnot
      exact (h.placed row' hold hnot).grow hlogs
    | inr hlast =>
      rw [List.mem_singleton.mp hlast, hnew] at hnot
      cases hnot
  · rw [hlog, hconflicts]
    intro row' hrow'
    cases List.mem_append.mp hrow' with
    | inl hold => exact h.state_of_unmoved hold (hunmoved row'.id)
    | inr hlast =>
      rw [List.mem_singleton.mp hlast]
      exact h.state_of_new hfresh hstate (hunmoved row.id)
  · rw [hlog]
    intro id
    refine h.assignee_of_unassigned hassignee fun event hevent => ?_
    rw [List.mem_singleton.mp hevent]
    apply if_neg
    rintro ⟨-, haction⟩
    cases haction

theorem Replayed.places (h : Replayed db) {row : Conflict} (hlogs : Logs db db' [])
    (hfresh : row.id ∉ conflictIds db) (hstate : row.state = .open)
    (hconflicts : db'.tables.conflicts = db.tables.conflicts ++ [row])
    (hassignee : db'.assignee = db.assignee) (hplaced : Placed db' row) : Replayed db' := by
  have hlog : ownEvents db' = ownEvents db := hlogs.ownEvents.trans (List.append_nil _)
  have hids := conflictIds_append hconflicts
  have hnew : isLogged (ownEvents db) row = false := by
    by_contra hlogged
    exact hfresh (h.mem_of_isLogged ((Bool.not_eq_false _).mp hlogged))
  constructor
  · rw [hids]
    exact List.Nodup.append h.keys (List.nodup_singleton _) (List.disjoint_singleton.mpr hfresh)
  · rw [hlog, hids]
    intro event hevent hown
    obtain ⟨id, hid, hsubject⟩ := h.subjects event hevent hown
    exact ⟨id, List.mem_append_left _ hid, hsubject⟩
  · rw [hlog, hconflicts, List.filter_append, List.filter_singleton, hnew]
    exact (congrArg (List.map conflictKey) (List.append_nil _)).trans h.opened
  · rw [hlog, hconflicts]
    intro row' hrow' hnot
    cases List.mem_append.mp hrow' with
    | inl hold => exact (h.placed row' hold hnot).grow hlogs
    | inr hlast =>
      rw [List.mem_singleton.mp hlast]
      exact hplaced
  · rw [hlog, hconflicts]
    intro row' hrow'
    cases List.mem_append.mp hrow' with
    | inl hold => exact h.state row' hold
    | inr hlast =>
      rw [List.mem_singleton.mp hlast, h.lastValue_movedTo hfresh]
      exact hstate
  · rw [hlog, hassignee]
    exact h.assignee

theorem Replayed.assigns (h : Replayed db) {row : Conflict} {assignee actor : Text}
    (hlogs : Logs db db' [⟨actor, "conflict.assigned".toList, some row.id, some assignee⟩])
    (hrow : row ∈ db.tables.conflicts)
    (hconflicts : db'.tables.conflicts = db.tables.conflicts)
    (hassignee : db'.assignee = Function.update db.assignee row.id (some assignee)) :
    Replayed db' := by
  have hlog := hlogs.ownEvents
  have hids : conflictIds db' = conflictIds db := congrArg (List.map Conflict.id) hconflicts
  have hopens : ∀ event ∈ [Event.mk actor "conflict.assigned".toList (some row.id)
      (some assignee)], openedAs event = none := by
    intro event hevent
    rw [List.mem_singleton.mp hevent]
    rfl
  have hlogged := isLogged_append hopens (ownEvents db)
  constructor
  · rw [hids]
    exact h.keys
  · rw [hlog]
    refine h.subjects_append (fun _ hid => hids.symm ▸ hid) fun event hevent _ => ?_
    rw [List.mem_singleton.mp hevent, hids]
    exact ⟨row.id, List.mem_map_of_mem hrow, rfl⟩
  · rw [hlog, hconflicts]
    exact h.opened_append hopens
  · rw [hlog, hconflicts, hlogged]
    intro row' hrow' hnot
    exact (h.placed row' hrow' hnot).grow hlogs
  · rw [hlog, hconflicts]
    intro row' hrow'
    refine h.state_of_unmoved hrow' fun event hevent => ?_
    rw [List.mem_singleton.mp hevent]
    unfold movedTo
    split
    · rfl
    · rfl
  · rw [hlog, hassignee]
    intro id
    rw [lastValue_concat]
    by_cases hid : id = row.id
    · subst hid
      rw [Function.update_self, assignedTo, if_pos ⟨rfl, rfl⟩]
      rfl
    · rw [Function.update_of_ne hid, assignedTo_of_other fun hsame => hid (Option.some.inj hsame).symm,
        Option.none_or]
      exact h.assignee id

theorem map_conflictKey_setState (id : Text) (state : ConflictState) (rows : List Conflict)
    (events : List Event) :
    ((setState id state rows).filter (isLogged events)).map conflictKey =
      (rows.filter (isLogged events)).map conflictKey := by
  have hselects : (setState id state rows).filter (isLogged events) =
      setState id state (rows.filter (isLogged events)) := by
    apply Rows.filter_updateAt
    intro old
    rfl
  rw [hselects]
  apply Rows.map_updateAt
  intro old
  rfl

theorem placed_withState {row : Conflict} (h : Placed db row) (state : ConflictState) :
    Placed db { row with state := state } := h

theorem Replayed.moves (h : Replayed db) {row : Conflict} {actor newState : Text}
    {resolution : Option Text} {state : ConflictState}
    (hlogs : Logs db db'
      [⟨actor, "conflict.transitioned.".toList ++ newState, some row.id, resolution⟩])
    (hmoves : Moves db.tables row.id newState resolution row state)
    (hconflicts : db'.tables.conflicts = setState row.id state db.tables.conflicts)
    (hassignee : db'.assignee = db.assignee) : Replayed db' := by
  rw [← ofText?_text hmoves.2.1] at hlogs
  have hlog : ownEvents db' =
      ownEvents db ++ [⟨actor, transitionedAction state, some row.id, resolution⟩] := hlogs.ownEvents
  have hids : conflictIds db' = conflictIds db := by
    rw [conflictIds, hconflicts]
    exact map_id_setState _ _ _
  have hevent : ∀ {p : Event → Prop}, p ⟨actor, transitionedAction state, some row.id, resolution⟩ →
      ∀ event ∈ [Event.mk actor (transitionedAction state) (some row.id) resolution], p event := by
    intro p hp event hevent
    rw [List.mem_singleton.mp hevent]
    exact hp
  have hopens := @hevent (openedAs · = none) (openedAs_transitioned state)
  have hlogged := isLogged_append hopens (ownEvents db)
  have hunset : ∀ row' ∈ db'.tables.conflicts, ∃ old ∈ db.tables.conflicts,
      (if old.id = row.id then { old with state := state } else old) = row' := by
    intro row' hrow'
    rw [hconflicts] at hrow'
    exact List.mem_map.mp hrow'
  constructor
  · rw [hids]
    exact h.keys
  · rw [hlog]
    refine h.subjects_append (fun _ hid => hids.symm ▸ hid) (hevent fun _ => ?_)
    rw [hids]
    exact ⟨row.id, List.mem_map_of_mem (List.mem_of_find?_eq_some hmoves.1), rfl⟩
  · rw [hlog, hconflicts, map_conflictKey_setState]
    exact h.opened_append hopens
  · intro row' hrow' hnot
    obtain ⟨old, hold, rfl⟩ := hunset row' hrow'
    rw [hlog, hlogged] at hnot
    by_cases hid : old.id = row.id
    · rw [if_pos hid] at hnot ⊢
      exact (placed_withState (h.placed old hold hnot) state).grow hlogs
    · rw [if_neg hid] at hnot ⊢
      exact (h.placed old hold hnot).grow hlogs
  · rw [hlog]
    intro row' hrow'
    obtain ⟨old, hold, rfl⟩ := hunset row' hrow'
    by_cases hid : old.id = row.id
    · rw [if_pos hid, lastValue_concat]
      simp only [hid]
      rw [movedTo_transitioned state]
      rfl
    · rw [if_neg hid]
      refine h.state_of_unmoved hold (hevent ?_)
      exact movedTo_of_other fun hsame => hid (Option.some.inj hsame).symm
  · rw [hlog]
    intro id
    exact h.assignee_of_unassigned hassignee (hevent (assignedTo_transitioned state))

theorem Replayed.did (h : Replayed db) (hdid : Did db db' events) : Replayed db' := by
  have hlogs := hdid.logs
  cases hdid.effect with
  | apart _ hconflicts hassignee hevents => exact h.apart hlogs hconflicts hassignee hevents
  | opened row hfresh hstate hconflicts hassignee =>
    exact h.opens hlogs hfresh hstate hconflicts hassignee
  | placed extraction stamp hfresh hconflicts hassignee hentry =>
    exact h.places hlogs hfresh rfl hconflicts hassignee ⟨extraction.id, rfl, hentry⟩
  | assigned row assignee actor hrow hconflicts hassignee =>
    exact h.assigns hlogs (List.mem_of_find?_eq_some hrow) hconflicts hassignee
  | moved row newState actor resolution state hmoves hconflicts hassignee =>
    exact h.moves hlogs hmoves hconflicts hassignee

theorem replayed_empty : Replayed {} := by
  constructor
  · exact List.nodup_nil
  all_goals simp [ownEvents, openedConflicts, AuditTable.empty]

def Reasoned (db : Database) : Prop :=
  ∀ event ∈ ownEvents db, event.action = transitionedAction .resolved → isTruthy event.purpose = true

theorem Reasoned.did (h : Reasoned db) (hdid : Did db db' events) : Reasoned db' := by
  intro event hevent hresolved
  rw [hdid.logs.ownEvents] at hevent
  cases List.mem_append.mp hevent with
  | inl hold => exact h event hold hresolved
  | inr hnew =>
    cases hdid.effect with
    | apart _ _ _ hevents =>
      have hapart := hevents event hnew
      rw [hresolved] at hapart
      cases hapart
    | opened row =>
      rw [List.mem_singleton.mp hnew] at hresolved
      cases hresolved
    | placed => cases hnew
    | assigned row =>
      rw [List.mem_singleton.mp hnew] at hresolved
      cases hresolved
    | moved row newState actor resolution state hmoves =>
      rw [List.mem_singleton.mp hnew] at hresolved ⊢
      have htext : newState = ConflictState.resolved.text := List.append_cancel_left hresolved
      apply hmoves.2.2.2
      have hstate := hmoves.2.1
      rw [htext] at hstate
      exact (Option.some.inj hstate).symm

end Replay

/-! ## Who moved a conflict -/

def AnsweredSupervisor (provider : IdentityProvider) (s : State) (request : Request) : Prop :=
  ∃ ticket call body identity, .answered ticket call ⟨200, body⟩ ∈ s.history ∧
    call.request = request ∧ provider.resolve call.header = some identity ∧
    .supervisor ∈ identity.roles

section Officers

variable {provider : IdentityProvider} {signGet : Text → ℕ → Text} {zone : Zone} {s : State}
  {event : Event}

theorem Accounted.answer_of_event (h : Accounted provider {} s) (hevent : event ∈ ownEvents s.db)
    (hconflict : "conflict.".toList.isPrefixOf event.action = true)
    (hopened : event.action ≠ "conflict.opened".toList) :
    ∃ ticket call body identity, .answered ticket call ⟨200, body⟩ ∈ s.history ∧
      provider.resolve call.header = some identity ∧ officerOf event.action ∈ identity.roles ∧
      event ∈ effectEvents identity call.request ⟨200, body⟩ := by
  rw [h.logged] at hevent
  obtain ⟨happening, hhappened, hmem⟩ := List.mem_flatMap.mp hevent
  cases happening with
  | opened conflictId rule origin =>
    rw [List.mem_singleton.mp hmem] at hopened
    exact absurd rfl hopened
  | checked ticket call =>
    obtain ⟨identity, -, rfl⟩ := List.mem_map.mp hmem
    rw [checkEvent] at hconflict
    cases hallowed : identity.has call.request.permission <;> rw [hallowed] at hconflict <;>
      cases hconflict
  | answered ticket call response =>
    obtain ⟨identity, hidentity, heffect⟩ := List.mem_flatMap.mp hmem
    have hidentity := Option.mem_toList.mp hidentity
    have hstatus : response.status = 200 := by
      by_contra hother
      rw [effectEvents_of_status hother] at heffect
      cases heffect
    have hofficer := (h.justified _ _ _ hhappened).changed identity hidentity event heffect
    cases response with
    | mk status body =>
      cases hstatus
      exact ⟨ticket, call, body, identity, hhappened, hidentity, hofficer, heffect⟩

theorem mem_effectEvents {identity : Identity} {request : Request} {response : Response}
    (h : event ∈ effectEvents identity request response) :
    (∃ conflictId assignee entry, request = .assignConflict conflictId assignee entry ∧
      event = ⟨identity.actor, "conflict.assigned".toList, some conflictId, some assignee⟩) ∨
    (∃ conflictId newState resolution entry,
      request = .transitionConflict conflictId newState resolution entry ∧
      event = ⟨identity.actor, "conflict.transitioned.".toList ++ newState, some conflictId,
        resolution⟩) ∨
    "conflict.".toList.isPrefixOf event.action = false := by
  unfold effectEvents at h
  split at h
  · exact .inl ⟨_, _, _, rfl, List.mem_singleton.mp h⟩
  · exact .inr (.inl ⟨_, _, _, _, rfl, List.mem_singleton.mp h⟩)
  · rw [List.mem_singleton.mp h]
    exact .inr (.inr rfl)
  · rw [List.mem_singleton.mp h]
    exact .inr (.inr rfl)
  · cases h

theorem transitioned_conflict (state : ConflictState) :
    "conflict.".toList.isPrefixOf (transitionedAction state) = true ∧
      transitionedAction state ≠ "conflict.opened".toList ∧
      transitionedAction state ≠ "conflict.assigned".toList ∧
      officerOf (transitionedAction state) = .supervisor := by
  cases state <;> decide

theorem Accounted.supervisor_of_moved (h : Accounted provider {} s) {id : Text}
    {state : ConflictState} (hevent : event ∈ ownEvents s.db)
    (hmoved : movedTo id event = some state) : ∃ entry, AnsweredSupervisor provider s
      (.transitionConflict id state.text event.purpose entry) := by
  have ⟨hsubject, haction⟩ := movedTo_eq_some hmoved
  have ⟨hconflict, hopened, hassigned, hrole⟩ := transitioned_conflict state
  rw [← haction] at hconflict hopened hassigned hrole
  obtain ⟨ticket, call, body, identity, hanswered, hidentity, hofficer, heffect⟩ :=
    h.answer_of_event hevent hconflict hopened
  rcases mem_effectEvents heffect with ⟨_, _, _, _, rfl⟩ |
    ⟨conflictId, newState, resolution, entry, hrequest, rfl⟩ | hapart
  · exact absurd rfl hassigned
  · cases hsubject
    have htext : newState = state.text := List.append_cancel_left haction
    subst htext
    rw [hrole] at hofficer
    exact ⟨entry, ticket, call, body, identity, hanswered, hrequest, hidentity, hofficer⟩
  · rw [hapart] at hconflict
    cases hconflict

theorem Accounted.supervisor_of_assigned (h : Accounted provider {} s) {id assignee : Text}
    (hevent : event ∈ ownEvents s.db) (hassigned : assignedTo id event = some assignee) :
    ∃ entry, AnsweredSupervisor provider s (.assignConflict id assignee entry) := by
  unfold assignedTo at hassigned
  split at hassigned
  · rename_i hown
    have ⟨hsubject, haction⟩ := hown
    obtain ⟨ticket, call, body, identity, hanswered, hidentity, hofficer, heffect⟩ :=
      h.answer_of_event hevent (by rw [haction]; rfl) (by rw [haction]; decide)
    rw [haction] at hofficer
    rcases mem_effectEvents heffect with ⟨conflictId, given, entry, hrequest, rfl⟩ |
      ⟨_, _, _, _, _, rfl⟩ | hapart
    · cases hsubject
      cases hassigned
      exact ⟨entry, ticket, call, body, identity, hanswered, hrequest, hidentity, hofficer⟩
    · cases haction
    · rw [haction] at hapart
      cases hapart
  · cases hassigned

end Officers

/-- The register is the one that the log tells. Each entry that moved or assigned a conflict was
answered to a supervisor, and gave a reason where it resolved one. -/
structure RegisterTold (provider : IdentityProvider) (s : State) : Prop where
  replayed : Replayed s.db
  moved : ∀ event ∈ ownEvents s.db, ∀ id state, movedTo id event = some state → ∃ entry,
    AnsweredSupervisor provider s (.transitionConflict id state.text event.purpose entry)
  assigned : ∀ event ∈ ownEvents s.db, ∀ id assignee, assignedTo id event = some assignee →
    ∃ entry, AnsweredSupervisor provider s (.assignConflict id assignee entry)
  reasoned : Reasoned s.db

/-- Throughout every run from an empty database, the register is the one that the log tells. -/
theorem register_told (provider : IdentityProvider) (signGet : Text → ℕ → Text) (zone : Zone)
    (steps : List Step) :
    Runs.Throughout (step provider signGet zone) (RegisterTold provider) { db := {} } steps := by
  have hthroughout : Runs.Throughout (step provider signGet zone)
      (fun s => (Accounted provider {} s ∧ Ticketed provider s) ∧ Replayed s.db ∧ Reasoned s.db)
      { db := {} } steps := by
    apply Runs.throughout_of_preserved
    · have hnone : ownEvents {} = [] := rfl
      refine ⟨⟨⟨rfl, .nil, by simp⟩, ⟨by simp, by simp⟩⟩, replayed_empty, ?_⟩
      rw [Reasoned, hnone]
      simp
    · intro s a s' hs hstep
      obtain ⟨events, happened, hdid, -⟩ := step_did hstep hs.1.2
      exact ⟨hs.1.1.step hs.1.2 hstep, hs.2.1.did hdid, hs.2.2.did hdid⟩
  exact hthroughout.imp fun s hs => ⟨hs.2.1,
    fun _ hevent _ _ hmoved => hs.1.1.supervisor_of_moved hevent hmoved,
    fun _ hevent _ _ hassigned => hs.1.1.supervisor_of_assigned hevent hassigned, hs.2.2⟩

def sampleStamp (id : String) : Stamp := ⟨id.toList, newYear 2026⟩

def sampleCall (actor : String) (request : Request) (check : String) : Step :=
  .arrive ⟨actor.toList, sampleStamp check, request⟩

def samplePublish (row entry : String) : Request :=
  .publish ⟨some "g1".toList, none, [], none, none, none⟩
    ⟨sampleStamp row, "g1".toList, sampleStamp entry⟩

def sampleResolve (resolution : Option Text) (entry : String) : Request :=
  .transitionConflict "c1".toList "resolved".toList resolution (sampleStamp entry)

/-- A conflict blocks the next version until a supervisor gives a reason. The first publication is
answered after two other requests have arrived. -/
def sampleDispute : List Step :=
  [sampleCall "supervisor1" (samplePublish "r1" "e1") "p1",
    sampleCall "supervisor1" (samplePublish "r2" "e3") "p2",
    sampleCall "auditor1" (sampleResolve (some "checked".toList) "e4") "p3",
    .answer 0,
    .openConflict ["r1".toList] "area-mismatch".toList [] .validator (sampleStamp "c1")
      (sampleStamp "e2"),
    .answer 1,
    sampleCall "supervisor1" (sampleResolve none "e5") "p4",
    sampleCall "supervisor1" (sampleResolve (some "checked".toList) "e6") "p5",
    .answer 4,
    .answer 3,
    sampleCall "supervisor1" (samplePublish "r2" "e7") "p6",
    .answer 5]

def answered : Happening → Option (ℕ × ℕ)
  | .answered ticket _ response => some (ticket, response.status)
  | _ => none

example : (Runs.run (step defaultMockIdentityProvider (fun key _ => key) utc) { db := {} }
    sampleDispute).map (fun s => s.history.filterMap answered) =
      some [(2, 403), (0, 200), (1, 409), (4, 200), (3, 422), (5, 200)] := by decide +kernel

end LandRecords.Api
