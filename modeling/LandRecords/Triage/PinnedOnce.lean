import LandRecords.Base.Rows
import LandRecords.Triage.Routing

/-! However routings race, a page keeps the first envelope that was committed for it,
and its messages carry that one. -/
namespace LandRecords.Triage

open Datetime Outbox ReadCommitted Text

variable {v : Commits} {txn : Txn Locals Write}

def Write.envelope? : Write → Option WorkEnvelope
  | .addEnvelope row => some row
  | .addMessage _ => none

def Write.message? : Write → Option LaneMessage
  | .addEnvelope _ => none
  | .addMessage row => some row

theorem view_eq (txn : Txn Locals Write) (db : Routes) :
    view routings txn db =
      { envelopes := db.envelopes ++ txn.writes.filterMap Write.envelope?
        messages := db.messages ++ txn.writes.filterMap Write.message? } := by
  obtain ⟨locals, writes⟩ := txn
  induction writes generalizing db with
  | nil => simp [view]
  | cons write writes ih =>
    refine (ih (write.apply db)).trans ?_
    cases write with
    | addEnvelope row => simp [List.filterMap_cons, Write.apply, Write.envelope?, Write.message?]
    | addMessage row => simp [List.filterMap_cons, Write.apply, Write.envelope?, Write.message?]

structure Progress (v : Commits) (txn : Txn Locals Write) : Prop where
  pinned : PinnedOnce (view routings txn v.committed)
  envelope : ∀ envelope zone lanes queued, txn.locals.phase = .pinned envelope zone lanes queued →
    envelope ∈ (view routings txn v.committed).envelopes ∧
      envelope.pageId = txn.locals.routing.pageId

section Statements

variable {routing : Routing} {now : Instant} {db : Routes} {phase : Phase} {write : Option Write}

theorem findByPage_some {pageId : Text} {envelope : WorkEnvelope}
    (h : findByPage db pageId = some (some envelope)) :
    envelope ∈ db.envelopes ∧ envelope.pageId = pageId := by
  unfold findByPage at h
  split at h
  · cases h
  · rename_i found hfound
    cases h
    have hmem : envelope ∈ db.envelopes.filter fun row => row.pageId = pageId :=
      hfound ▸ List.mem_singleton_self _
    obtain ⟨hrow, hpage⟩ := List.mem_filter.mp hmem
    exact ⟨hrow, of_decide_eq_true hpage⟩
  · cases h

theorem routeStatement_next (h : routeStatement routing now db phase = .next phase' write) :
    (write = none ∧ ((∀ envelope zone lanes queued, phase' ≠ .pinned envelope zone lanes queued) ∨
      ∃ envelope, phase' = pinnedWith routing envelope routing.zone ∧ envelope ∈ db.envelopes ∧
        envelope.pageId = routing.pageId)) ∨
    (∃ envelope, write = some (.addEnvelope envelope) ∧ phase' = pinnedWith routing envelope utc ∧
      envelope.pageId = routing.pageId ∧
      routing.pageId ∉ db.envelopes.map WorkEnvelope.pageId) ∨
    ∃ envelope zone lane lanes queued, phase = .pinned envelope zone (lane :: lanes) queued ∧
      phase' = .pinned envelope zone lanes (queued ++ [lane]) ∧
      write = some (.addMessage (laneMessage routing envelope zone lane now)) := by
  cases phase with
  | received =>
    simp only [routeStatement] at h
    split at h
    · cases h
    · cases h
      exact .inl ⟨rfl, .inl (fun _ _ _ _ => nofun)⟩
    · rename_i envelope hfound
      cases h
      obtain ⟨hmem, hpage⟩ := findByPage_some hfound
      exact .inl ⟨rfl, .inr ⟨envelope, rfl, hmem, hpage⟩⟩
  | unpinned =>
    simp only [routeStatement] at h
    split at h
    · cases h
    · split at h
      · cases h
      · rename_i existing hfound
        cases h
        obtain ⟨hmem, hpage⟩ := findByPage_some hfound
        exact .inl ⟨rfl, .inr ⟨existing, rfl, hmem, hpage⟩⟩
      · split at h
        · cases h
        · cases h
          exact .inl ⟨rfl, .inl (fun _ _ _ _ => nofun)⟩
  | resolved modelVersions =>
    simp only [routeStatement] at h
    split at h
    · cases h
      exact .inl ⟨rfl, .inl (fun _ _ _ _ => nofun)⟩
    · split at h
      · cases h
        exact .inl ⟨rfl, .inl (fun _ _ _ _ => nofun)⟩
      · rename_i hnew
        cases h
        exact .inr (.inl ⟨_, rfl, rfl, rfl, hnew⟩)
  | lost =>
    simp only [routeStatement] at h
    split at h
    · rename_i winner hfound
      cases h
      obtain ⟨hmem, hpage⟩ := findByPage_some hfound
      exact .inl ⟨rfl, .inr ⟨winner, rfl, hmem, hpage⟩⟩
    · cases h
  | pinned envelope zone lanes queued =>
    cases lanes with
    | nil => cases h
    | cons lane lanes =>
      cases h
      exact .inr (.inr ⟨envelope, zone, lane, lanes, queued, rfl, rfl, rfl⟩)

theorem Locals.statement_next {locals locals' : Locals}
    (h : locals.statement now db = .next locals' write) :
    routeStatement locals.routing now db locals.phase = .next locals'.phase write ∧
      locals' = ⟨locals.routing, locals'.phase⟩ := by
  unfold Locals.statement at h
  split at h
  · cases h
  · cases h
  · rename_i phase update hroute
    cases h
    exact ⟨hroute, rfl⟩

theorem view_append (locals : Locals) (writes : List Write) (write : Write) :
    view routings ⟨locals, writes ++ [write]⟩ db =
      write.apply (view routings ⟨locals, writes⟩ db) := List.foldl_append ..

theorem PinnedOnce.addEnvelope (h : PinnedOnce db) {envelope : WorkEnvelope}
    (hnew : envelope.pageId ∉ db.envelopes.map WorkEnvelope.pageId) :
    PinnedOnce ((Write.addEnvelope envelope).apply db) := by
  refine ⟨Rows.nodup_append_row h.once hnew, fun message hmessage => ?_⟩
  obtain ⟨carried, hcarried, hcarries⟩ := h.carries message hmessage
  exact ⟨carried, List.mem_append_left _ hcarried, hcarries⟩

theorem PinnedOnce.addMessage (h : PinnedOnce db) {envelope : WorkEnvelope}
    (henvelope : envelope ∈ db.envelopes) (hpage : envelope.pageId = routing.pageId) {zone : Zone}
    {lane : Text} :
    PinnedOnce ((Write.addMessage (laneMessage routing envelope zone lane now)).apply db) := by
  refine ⟨h.once, fun message hmessage => ?_⟩
  rcases List.mem_append.mp hmessage with hold | hnew
  · exact h.carries message hold
  · rw [List.mem_singleton.mp hnew]
    exact ⟨envelope, henvelope, hpage.symm, zone, rfl⟩

theorem Progress.next (h : Progress v txn) {locals : Locals}
    (hnext : txn.locals.statement v.now (view routings txn v.committed) = .next locals write) :
    Progress v ⟨locals, txn.writes ++ write.toList⟩ := by
  obtain ⟨hroute, hlocals⟩ := Locals.statement_next hnext
  obtain ⟨rfl, hread⟩ | ⟨envelope, rfl, hphase, hpage, hnew⟩ |
    ⟨envelope, zone, lane, lanes, queued, hbefore, hphase, rfl⟩ := routeStatement_next hroute
  · rw [Option.toList_none, List.append_nil]
    refine ⟨h.pinned, fun envelope zone lanes queued hpinned => ?_⟩
    rcases hread with hother | ⟨found, hphase, hmem, hpage⟩
    · exact absurd hpinned (hother envelope zone lanes queued)
    · obtain ⟨rfl, -⟩ := Phase.pinned.inj (hphase.symm.trans hpinned)
      rw [hlocals]
      exact ⟨hmem, hpage⟩
  · rw [Option.toList_some]
    refine ⟨?_, fun other zone lanes queued hpinned => ?_⟩
    · rw [view_append]
      exact h.pinned.addEnvelope (hpage ▸ hnew)
    · obtain ⟨rfl, -⟩ := Phase.pinned.inj (hphase.symm.trans hpinned)
      rw [hlocals, view_append]
      exact ⟨List.mem_append_right _ (List.mem_singleton_self _), hpage⟩
  · rw [Option.toList_some]
    obtain ⟨hmem, hpage⟩ := h.envelope _ _ _ _ hbefore
    refine ⟨?_, fun other zone' lanes' queued' hpinned => ?_⟩
    · rw [view_append]
      exact h.pinned.addMessage hmem hpage
    · obtain ⟨rfl, -⟩ := Phase.pinned.inj (hphase.symm.trans hpinned)
      rw [hlocals, view_append]
      exact ⟨hmem, hpage⟩

theorem own_disjoint {other : Txn Locals Write} (hapart : Apart routings txn other) {pageId : Text}
    (hmine : pageId ∈ (txn.writes.filterMap Write.envelope?).map WorkEnvelope.pageId)
    (htheirs : pageId ∈ (other.writes.filterMap Write.envelope?).map WorkEnvelope.pageId) :
    False := by
  obtain ⟨mine, hmineRow, rfl⟩ := List.mem_map.mp hmine
  obtain ⟨theirs, htheirsRow, hsame⟩ := List.mem_map.mp htheirs
  obtain ⟨write, hwrite, hrow⟩ := List.mem_filterMap.mp hmineRow
  obtain ⟨held, hheld, hheldRow⟩ := List.mem_filterMap.mp htheirsRow
  have hclash := hapart write hwrite held hheld
  cases write with
  | addMessage row => cases hrow
  | addEnvelope row =>
    cases held with
    | addMessage row => cases hheldRow
    | addEnvelope heldRow =>
      cases hrow
      cases hheldRow
      have hfree := List.any_eq_false.mp hclash (.envelopeOf mine.pageId) (by simp [Write.keys])
      exact hfree (by simp [Write.keys, hsame])

/-- The commit of another routing cannot be for the page of an envelope that an open one
has added. -/
theorem Progress.publish {other : Txn Locals Write} (h : Progress v txn) (hother : Progress v other)
    (hapart : Apart routings txn other) : Progress (publish routings txn v) other := by
  have hviews : view routings other (view routings txn v.committed) =
      { envelopes := v.committed.envelopes ++ txn.writes.filterMap Write.envelope? ++
          other.writes.filterMap Write.envelope?
        messages := v.committed.messages ++ txn.writes.filterMap Write.message? ++
          other.writes.filterMap Write.message? } := by
    rw [view_eq, view_eq]
  have hmine := h.pinned
  have htheirs := hother.pinned
  rw [view_eq] at hmine htheirs
  refine ⟨?_, fun envelope zone lanes queued hphase => ?_⟩
  · change PinnedOnce (view routings other (view routings txn v.committed))
    rw [hviews]
    constructor
    · have honce := htheirs.once
      rw [List.map_append] at honce ⊢
      apply List.Nodup.append hmine.once honce.of_append_right
      intro pageId hseen hnew
      rw [List.map_append] at hseen
      rcases List.mem_append.mp hseen with hcommitted | hown
      · exact List.disjoint_of_nodup_append honce hcommitted hnew
      · exact own_disjoint hapart hown hnew
    · intro message hmessage
      rcases List.mem_append.mp hmessage with hseen | hnew
      · obtain ⟨envelope, hmem, hcarries⟩ := hmine.carries message hseen
        exact ⟨envelope, List.mem_append_left _ hmem, hcarries⟩
      · obtain ⟨envelope, hmem, hcarries⟩ := htheirs.carries message (List.mem_append_right _ hnew)
        refine ⟨envelope, ?_, hcarries⟩
        rcases List.mem_append.mp hmem with hcommitted | hown
        · exact List.mem_append_left _ (List.mem_append_left _ hcommitted)
        · exact List.mem_append_right _ hown
  · obtain ⟨hmem, hpage⟩ := hother.envelope envelope zone lanes queued hphase
    refine ⟨?_, hpage⟩
    change envelope ∈ (view routings other (view routings txn v.committed)).envelopes
    rw [view_eq] at hmem
    rw [hviews]
    rcases List.mem_append.mp hmem with hold | hnew
    · exact List.mem_append_left _ (List.mem_append_left _ hold)
    · exact List.mem_append_right _ hnew

theorem routings_guarantee : Guarantee routings (fun v => PinnedOnce v.committed) Progress
    fun _ _ => True where
  symm write held := any_key_comm write.keys held.keys
  begins v routing hpinned := ⟨hpinned, fun _ _ _ _ h => nomatch h⟩
  reads v txn locals hpinned h hnext := by
    have hprogress := h.next hnext
    rwa [Option.toList_none, List.append_nil] at hprogress
  writes v txn locals write hpinned h hnext hvalid := h.next hnext
  commits v txn hpinned h hdone _ := ⟨h.pinned, fun other hother hapart => h.publish hother hapart⟩
  advances v now hnow hpinned := ⟨hpinned, fun other hother => ⟨hother.pinned, hother.envelope⟩⟩

end Statements

/-- Throughout a run of routings a page has one envelope, which no step changes, and its
messages carry that one. -/
theorem routings_pinnedOnce {db : Routes} (h : PinnedOnce db) (now : Instant)
    (steps : List (ReadCommitted.Step Routing Instant)) :
    Runs.Throughout (step routings) (fun s => PinnedOnce s.shared.committed)
        { shared := { committed := db, now := now } } steps ∧
      Runs.AllMoves (step routings)
        (fun s t => s.shared.committed.envelopes <+: t.shared.committed.envelopes)
        { shared := { committed := db, now := now } } steps := by
  constructor
  · exact routings_guarantee.throughout (P := fun v => PinnedOnce v.committed)
      (Invariant.start h) (fun _ hpinned => hpinned) steps
  · apply allMoves_committed fun before after : Routes => before.envelopes <+: after.envelopes
    · exact fun _ => List.prefix_rfl
    · intro txn db
      rw [view_eq]
      exact List.prefix_append ..

def routeRegister (id version : String) : Routing where
  documentId := "d1".toList
  pageId := "p1".toList
  docType := some "ror".toList
  pageRole := some "tabular_register".toList
  configVersion := some ("c" ++ version).toList
  resolved := some (requiredModelKeys.map fun key => (key, version.toList))
  zone := utc
  envelopeId := ("w" ++ id).toList
  messageId := fun _ => ("n" ++ id).toList
  outboxId := fun _ => ("o" ++ id).toList

def bothRoute : List (ReadCommitted.Step Routing Instant) :=
  [.begin (routeRegister "1" "1"), .begin (routeRegister "2" "2"), .execute 0, .execute 1,
    .execute 0, .execute 1, .execute 0, .execute 0, .commit 0, .execute 1, .execute 1, .execute 1,
    .commit 1]

theorem routings_pinnedOnce_race :
    PinnedOnce {} ∧
      Runs.Throughout (step routings) (fun s => PinnedOnce s.shared.committed)
          { shared := { committed := {}, now := newYear 1 } } bothRoute ∧
        Runs.AllMoves (step routings)
          (fun s t => s.shared.committed.envelopes <+: t.shared.committed.envelopes)
          { shared := { committed := {}, now := newYear 1 } } bothRoute :=
  have hempty : PinnedOnce {} := ⟨List.nodup_nil, fun _ h => nomatch h⟩
  ⟨hempty, routings_pinnedOnce hempty (newYear 1) bothRoute⟩

/-- The loser sends the envelope of the winner. -/
example : (Runs.run (step routings) { shared := { committed := {}, now := newYear 1 } }
    bothRoute).map (fun s => s.shared.committed.messages.map fun message =>
      message.envelope.workEnvelope.map ContractEnvelope.configVersion) =
    some [some "c1".toList, some "c1".toList] := by
  decide +kernel

end LandRecords.Triage
