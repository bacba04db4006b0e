import LandRecords.Publication.BlockedGroup
import Mathlib

/-! Versions of record groups over whole runs: their numbers, the columns they inherit, and the
audit entry of each. -/
namespace LandRecords.Publication

open Backend Audit Datetime Text

/-! ## One call -/

section Call

variable {db db' : Database} {request : PublishRequest} {stamps : PublishStamps} {record : Record}

theorem publishNewVersion_returned
    (h : publishNewVersion request stamps db = (.returned record, db')) :
    record = nextVersion request (previousVersion db request.recordGroupId) stamps ∧
      (record.recordGroupId, record.version) ∉
        db.records.map (fun row => (row.recordGroupId, row.version)) ∧
      db'.records = db.records ++ [record] ∧
      Appended db db' [recordPublish request.actor record.recordGroupId record.version
        (districtOf db request.batchId)] := by
  cases hgate : passesGate db request with
  | false =>
    have ⟨reasons, hraised⟩ := publishNewVersion_of_blocked stamps hgate
    rw [hraised] at h
    cases h
  | true =>
    rw [publishNewVersion_of_passed hgate] at h
    have ⟨hrecord, hfresh, hdb'⟩ := writeVersion_returned h
    refine ⟨hrecord, hfresh, congrArg Database.records hdb', ?_⟩
    simp only [writeVersion, Fallible.bind_eq_returned, addRecord, addRow_returned] at h
    obtain ⟨_, _, ⟨_, rfl⟩, _, _, hdistrict, _, _, hentry, h⟩ := h
    cases hdistrict
    cases h
    exact (auditAppend_returned hentry).2

end Call

/-! ## The versions of a group -/

def lastSupplied {β : Type} (argument : PublishRequest → Option β)
    (requests : List PublishRequest) : Option β :=
  (requests.filterMap argument).getLast?

theorem lastSupplied_concat {β : Type} (argument : PublishRequest → Option β)
    (requests : List PublishRequest) (request : PublishRequest) :
    lastSupplied argument (requests ++ [request]) =
      (argument request).or (lastSupplied argument requests) := by
  cases hsupplied : argument request with
  | none => simp [lastSupplied, List.filterMap_append, hsupplied]
  | some value => simp [lastSupplied, List.filterMap_append, hsupplied]

def Inherits {β : Type} (column : Record → Option β) (argument : PublishRequest → Option β)
    (rows : List Record) (requests : List PublishRequest) : Prop :=
  ∀ row ∈ rows, column row = lastSupplied argument (requests.take row.version)

/-- The rows of a group after some successful publications of it. -/
structure GroupVersions (rows : List Record) (requests : List PublishRequest) : Prop where
  versions : rows.map Record.version = List.range' 1 requests.length
  parcelRef : Inherits Record.parcelRef PublishRequest.parcelRef rows requests
  ulpin : Inherits Record.ulpin PublishRequest.ulpin rows requests
  lgdCodes : Inherits Record.lgdCodes PublishRequest.lgdCodes rows requests

section Group

variable {β : Type} {column : Record → Option β} {argument : PublishRequest → Option β}
  {rows : List Record} {requests : List PublishRequest} {record : Record}
  {request : PublishRequest}

theorem mem_versions (h : rows.map Record.version = List.range' 1 requests.length) {n : ℕ} :
    (∃ row ∈ rows, row.version = n) ↔ 1 ≤ n ∧ n ≤ requests.length := by
  rw [← List.mem_map, h, List.mem_range'_1]
  omega

/-- The greatest version is the number of publications. -/
theorem greatest_version (h : rows.map Record.version = List.range' 1 requests.length)
    {previous : Record} (hmem : previous ∈ rows)
    (hgreatest : ∀ row ∈ rows, row.version ≤ previous.version) :
    previous.version = requests.length := by
  have hbounds := (mem_versions h).mp ⟨previous, hmem, rfl⟩
  have ⟨last, hlast, hversion⟩ := (@mem_versions _ _ h requests.length).mpr (by omega)
  have hle := hgreatest last hlast
  omega

theorem Inherits.concat (h : Inherits column argument rows requests)
    (hversions : rows.map Record.version = List.range' 1 requests.length)
    (hversion : record.version = requests.length + 1)
    (hrecord : column record = (argument request).or (lastSupplied argument requests)) :
    Inherits column argument (rows ++ [record]) (requests ++ [request]) := by
  intro row hrow
  cases List.mem_append.mp hrow with
  | inl hold =>
    have hbounds := (mem_versions hversions).mp ⟨row, hold, rfl⟩
    rw [h row hold, List.take_append_of_le_length hbounds.2]
  | inr hnew =>
    rw [List.mem_singleton.mp hnew, hrecord, hversion, List.take_of_length_le (by simp),
      lastSupplied_concat]

theorem GroupVersions.concat (h : GroupVersions rows requests)
    (hversion : record.version = requests.length + 1)
    (hparcel : record.parcelRef =
      request.parcelRef.or (lastSupplied PublishRequest.parcelRef requests))
    (hulpin : record.ulpin = request.ulpin.or (lastSupplied PublishRequest.ulpin requests))
    (hlgd : record.lgdCodes =
      request.lgdCodes.or (lastSupplied PublishRequest.lgdCodes requests)) :
    GroupVersions (rows ++ [record]) (requests ++ [request]) := by
  constructor
  · rw [List.map_append, h.versions, List.length_append, List.length_singleton,
      List.range'_concat, List.map_singleton, hversion, Nat.one_mul, Nat.add_comm]
  · exact h.parcelRef.concat h.versions hversion hparcel
  · exact h.ulpin.concat h.versions hversion hulpin
  · exact h.lgdCodes.concat h.versions hversion hlgd

end Group

/-! ## Runs -/

structure OtherWrites where
  change : Database → Database
  records : ∀ db, (change db).records = db.records

inductive VersioningStep
  | publish (request : PublishRequest) (stamps : PublishStamps)
  | elsewhere (writes : OtherWrites)

structure Ledger where
  db : Database
  published : List (Text × PublishRequest) := []

namespace Ledger

/-- A call that raises is rolled back. -/
def step (ledger : Ledger) : VersioningStep → Ledger
  | .publish request stamps =>
      match Fallible.transaction (publishNewVersion request stamps) ledger.db with
      | (.returned record, after) =>
          ⟨after, ledger.published ++ [(record.recordGroupId, request)]⟩
      | (_, after) => { ledger with db := after }
  | .elsewhere writes => { ledger with db := writes.change ledger.db }

def run (ledger : Ledger) (steps : List VersioningStep) : Ledger := steps.foldl step ledger

variable (ledger : Ledger) (groupId : Text)

def rowsOf : List Record := ledger.db.records.filter fun row => row.recordGroupId = groupId

/-- The arguments of the successful publications of a group. -/
def requestsOf : List PublishRequest :=
  (ledger.published.filter fun entry => entry.1 = groupId).map Prod.snd

def Consistent : Prop := ∀ groupId, GroupVersions (ledger.rowsOf groupId) (ledger.requestsOf groupId)

variable {ledger} {request : PublishRequest} {stamps : PublishStamps}

theorem step_publish_cases (ledger : Ledger) (request : PublishRequest) (stamps : PublishStamps) :
    (∃ record after, publishNewVersion request stamps ledger.db = (.returned record, after) ∧
      ledger.step (.publish request stamps) =
        ⟨after, ledger.published ++ [(record.recordGroupId, request)]⟩) ∨
    ledger.step (.publish request stamps) = ledger := by
  cases hcall : publishNewVersion request stamps ledger.db with
  | mk exit after =>
    cases exit with
    | returned record =>
      left
      refine ⟨record, after, rfl, ?_⟩
      simp only [step, Fallible.transaction, hcall]
    | raised error =>
      right
      simp only [step, Fallible.transaction, hcall]
    | crashed =>
      right
      simp only [step, Fallible.transaction, hcall]

theorem rowsOf_append {after : Database} {record : Record}
    {published : List (Text × PublishRequest)} (h : after.records = ledger.db.records ++ [record]) :
    rowsOf ⟨after, published⟩ groupId =
      if record.recordGroupId = groupId then ledger.rowsOf groupId ++ [record]
      else ledger.rowsOf groupId := by
  simp only [rowsOf, h, List.filter_append]
  split_ifs with hgroup <;> simp [hgroup]

theorem requestsOf_append {after : Database} {entry : Text × PublishRequest} :
    requestsOf ⟨after, ledger.published ++ [entry]⟩ groupId =
      if entry.1 = groupId then ledger.requestsOf groupId ++ [entry.2]
      else ledger.requestsOf groupId := by
  simp only [requestsOf, List.filter_append, List.map_append]
  split_ifs with hgroup <;> simp [hgroup]

theorem requestsOf_eq_nil {groupId : Text} (h : ledger.Consistent)
    (hfresh : (groupId, 1) ∉ ledger.db.records.map fun row => (row.recordGroupId, row.version)) :
    ledger.requestsOf groupId = [] := by
  by_contra hne
  have hpos : 1 ≤ (ledger.requestsOf groupId).length := List.length_pos_of_ne_nil hne
  have ⟨first, hfirst, hversion⟩ := (mem_versions (h groupId).versions).mpr ⟨le_rfl, hpos⟩
  have ⟨hmem, hown⟩ := List.mem_filter.mp hfirst
  apply hfresh
  rw [← hversion, ← of_decide_eq_true hown]
  exact List.mem_map_of_mem hmem

theorem previousVersion_last (stamps : PublishStamps) (h : ledger.Consistent) {previous : Record}
    (hlast : previousVersion ledger.db request.recordGroupId = some previous) :
    previous ∈ ledger.rowsOf (groupOf request stamps) ∧
      previous.version = (ledger.requestsOf (groupOf request stamps)).length := by
  have ⟨_, _, hmem, hown, hgreatest⟩ := previousVersion_eq_some stamps hlast
  have hrow : previous ∈ ledger.rowsOf (groupOf request stamps) :=
    List.mem_filter.mpr ⟨hmem, decide_eq_true hown⟩
  refine ⟨hrow, greatest_version (h _).versions hrow fun row hrow => ?_⟩
  have ⟨hmem, hown⟩ := List.mem_filter.mp hrow
  exact hgreatest row hmem (of_decide_eq_true hown)

/-- The next version continues the versions of its group. -/
theorem nextVersion_continues (h : ledger.Consistent)
    (hfresh : (groupOf request stamps, (nextVersion request
        (previousVersion ledger.db request.recordGroupId) stamps).version) ∉
      ledger.db.records.map fun row => (row.recordGroupId, row.version)) :
    GroupVersions (ledger.rowsOf (groupOf request stamps) ++
        [nextVersion request (previousVersion ledger.db request.recordGroupId) stamps])
      (ledger.requestsOf (groupOf request stamps) ++ [request]) := by
  have hgroup := h (groupOf request stamps)
  cases hlast : previousVersion ledger.db request.recordGroupId with
  | none =>
    rw [hlast] at hfresh
    have hempty := requestsOf_eq_nil h hfresh
    rw [hempty] at hgroup ⊢
    exact hgroup.concat rfl rfl rfl rfl
  | some previous =>
    have ⟨hrow, hversion⟩ := previousVersion_last stamps h hlast
    have htake : (ledger.requestsOf (groupOf request stamps)).take previous.version =
        ledger.requestsOf (groupOf request stamps) := List.take_of_length_le hversion.ge
    have hparcel := hgroup.parcelRef previous hrow
    have hulpin := hgroup.ulpin previous hrow
    have hlgd := hgroup.lgdCodes previous hrow
    rw [htake] at hparcel hulpin hlgd
    apply hgroup.concat
    · exact congrArg (· + 1) hversion
    · rw [← hparcel]
      rfl
    · rw [← hulpin]
      rfl
    · rw [← hlgd]
      rfl

theorem consistent_publish (h : ledger.Consistent) {record : Record} {after : Database}
    (hcall : publishNewVersion request stamps ledger.db = (.returned record, after)) :
    (⟨after, ledger.published ++ [(record.recordGroupId, request)]⟩ : Ledger).Consistent := by
  have ⟨hrecord, hfresh, hrows, _⟩ := publishNewVersion_returned hcall
  intro groupId
  rw [rowsOf_append _ hrows, requestsOf_append]
  split_ifs with hgroup
  · subst hgroup hrecord
    exact nextVersion_continues h hfresh
  · exact h groupId

theorem consistent_step (h : ledger.Consistent) (a : VersioningStep) :
    (ledger.step a).Consistent := by
  cases a with
  | publish request stamps =>
    cases step_publish_cases ledger request stamps with
    | inl hpublished =>
      have ⟨record, after, hcall, hstep⟩ := hpublished
      rw [hstep]
      exact consistent_publish h hcall
    | inr hunchanged =>
      rw [hunchanged]
      exact h
  | elsewhere writes =>
    intro groupId
    have hgroup := h groupId
    unfold rowsOf at hgroup ⊢
    rw [step, writes.records]
    exact hgroup

theorem records_prefix_step (ledger : Ledger) (a : VersioningStep) :
    ledger.db.records <+: (ledger.step a).db.records := by
  cases a with
  | publish request stamps =>
    cases step_publish_cases ledger request stamps with
    | inl hpublished =>
      have ⟨record, after, hcall, hstep⟩ := hpublished
      rw [hstep, (publishNewVersion_returned hcall).2.2.1]
      exact List.prefix_append _ _
    | inr hunchanged => rw [hunchanged]
  | elsewhere writes => rw [step, writes.records]

theorem consistent_run (h : ledger.Consistent) (steps : List VersioningStep) :
    (ledger.run steps).Consistent := by
  induction steps generalizing ledger with
  | nil => exact h
  | cons a steps ih => exact ih (consistent_step h a)

theorem records_prefix_run (ledger : Ledger) (steps : List VersioningStep) :
    ledger.db.records <+: (ledger.run steps).db.records := by
  induction steps generalizing ledger with
  | nil => exact List.prefix_refl _
  | cons a steps ih => exact (records_prefix_step ledger a).trans (ih (ledger.step a))

theorem consistent_of_noRecords {db : Database} (h : db.records = []) : Consistent ⟨db, []⟩ := by
  intro groupId
  have hrows : rowsOf ⟨db, []⟩ groupId = [] := by simp [rowsOf, h]
  rw [hrows]
  exact ⟨rfl, by simp [Inherits], by simp [Inherits], by simp [Inherits]⟩

theorem run_append (ledger : Ledger) (front rest : List VersioningStep) :
    ledger.run (front ++ rest) = (ledger.run front).run rest := List.foldl_append

end Ledger

theorem publishNewVersion_audit {db db' : Database} {request : PublishRequest}
    {stamps : PublishStamps} {record : Record}
    (h : publishNewVersion request stamps db = (.returned record, db')) :
    ∃ entry, db'.audit.rows = db.audit.rows ++ [entry] ∧
      entry.action = "record.published".toList ∧
      entry.subject = some (record.recordGroupId ++ ':' :: (toString record.version).toList) := by
  have ⟨_, _, _, entries, hrows, hentries⟩ := publishNewVersion_returned h
  cases hentries with
  | cons hentry hnone =>
    cases hnone
    exact ⟨_, hrows, hentry.action, hentry.subject⟩

theorem publishNewVersion_blocked {db db' : Database} {request : PublishRequest}
    {stamps : PublishStamps} {reasons : List BlockReason}
    (h : publishNewVersion request stamps db = (.raised (.publishBlocked reasons), db')) :
    db' = db := by
  cases hgate : passesGate db request with
  | false =>
    have ⟨_, hraised⟩ := publishNewVersion_of_blocked stamps hgate
    rw [hraised] at h
    exact (Prod.mk.inj h).2.symm
  | true =>
    rw [publishNewVersion_of_passed hgate] at h
    have hraises : Fallible.RaisesOnly (· = Error.integrityError)
        (writeVersion request (previousVersion db request.recordGroupId) stamps) :=
      writeVersion_raisesOnly
    have hexit := hraises db trivial
    rw [h] at hexit
    cases hexit

theorem versions_of_run {db : Database} (hdb : db.records = []) (steps : List VersioningStep) :
    (∀ groupId, GroupVersions ((Ledger.run ⟨db, []⟩ steps).rowsOf groupId)
      ((Ledger.run ⟨db, []⟩ steps).requestsOf groupId)) ∧
    (∀ front rest, steps = front ++ rest →
      (Ledger.run ⟨db, []⟩ front).db.records <+: (Ledger.run ⟨db, []⟩ steps).db.records) ∧
    ∀ front request stamps rest, steps = front ++ .publish request stamps :: rest →
      (∀ record after, publishNewVersion request stamps (Ledger.run ⟨db, []⟩ front).db =
          (.returned record, after) →
        ∃ entry, after.audit.rows =
            (Ledger.run ⟨db, []⟩ front).db.audit.rows ++ [entry] ∧
          entry.action = "record.published".toList ∧
          entry.subject =
            some (record.recordGroupId ++ ':' :: (toString record.version).toList)) ∧
      ∀ reasons after, publishNewVersion request stamps (Ledger.run ⟨db, []⟩ front).db =
          (.raised (.publishBlocked reasons), after) →
        after = (Ledger.run ⟨db, []⟩ front).db := by
  refine ⟨Ledger.consistent_run (Ledger.consistent_of_noRecords hdb) steps, ?_, ?_⟩
  · intro front rest hsteps
    rw [hsteps, Ledger.run_append]
    exact Ledger.records_prefix_run _ rest
  · intro front request stamps rest _
    exact ⟨fun _ _ => publishNewVersion_audit, fun _ _ => publishNewVersion_blocked⟩

def sampleSteps : List VersioningStep :=
  [.publish ⟨some "g".toList, none, "officer".toList, some "12/3".toList, none, none⟩
      ⟨⟨"r1".toList, newYear 2024⟩, [], ⟨"a1".toList, newYear 2024⟩⟩,
    .publish ⟨some "g".toList, none, "officer".toList, none, some "12".toList, none⟩
      ⟨⟨"r2".toList, newYear 2025⟩, [], ⟨"a2".toList, newYear 2025⟩⟩]

theorem versions_of_run_sample :
    GroupVersions ((Ledger.run ⟨{}, []⟩ sampleSteps).rowsOf "g".toList)
        ((Ledger.run ⟨{}, []⟩ sampleSteps).requestsOf "g".toList) ∧
      ((Ledger.run ⟨{}, []⟩ sampleSteps).requestsOf "g".toList).length = 2 :=
  ⟨(versions_of_run rfl sampleSteps).1 "g".toList, by decide +kernel⟩

end LandRecords.Publication
