import LandRecords.Storage.FixitySweep

/-! Coverage of the fixity sweep: it reports exactly the damaged copies, unless an object is
missing, where it ends without a report. -/
namespace LandRecords.Storage

open Backend (Appended Stamp)
open Fallible
open Ingest (Content StoredDocument digestOf keyFor)

/-! ## One copy -/

section Rehash

variable {backing : LocalFsObjectStore} {key : Text} {disk : Disk}

theorem receive_of_no_fault {conditions : Conditions} (hfault : conditions.receive = none)
    (stream : UploadStream) (chunkSize : ℕ+) (index : ℕ) (remaining hashed : Content)
    (spooled : FileObject) (disk : Disk) :
    ∃ received, stream.receive chunkSize conditions index remaining hashed spooled disk =
      (.returned (hashed ++ remaining, received), disk) := by
  fun_induction stream.receive chunkSize conditions index remaining hashed spooled with
  | case1 index remaining hashed spooled reads interruption hreads =>
    rw [hfault] at hreads
    cases hreads
  | case2 index remaining hashed spooled hreads hdone =>
    have hpos := stream.granted_pos index chunkSize chunkSize.pos
    have hnil : remaining = [] := (List.take_eq_nil_iff.mp hdone).resolve_left hpos.ne'
    rw [hnil, List.append_nil]
    exact ⟨spooled, rfl⟩
  | case3 index remaining hashed spooled hreads hmore chunk ih =>
    have hjoined : chunk ++ remaining.drop (stream.granted index chunkSize) = remaining :=
      List.take_append_drop _ _
    have ⟨received, hreceived⟩ := ih
    refine ⟨received, ?_⟩
    rw [hreceived, List.append_assoc, hjoined]

theorem hashStream_of_no_fault {conditions : Conditions} (hfault : conditions.receive = none)
    (stream : UploadStream) (chunkSize : ℕ+) (disk : Disk) :
    ∃ spooled, hashStreamToSpooledTempfile stream chunkSize conditions disk =
      (.returned (digestOf stream.content, spooled), disk) := by
  have ⟨received, hreceived⟩ :=
    receive_of_no_fault hfault stream chunkSize 0 stream.content [] FileObject.empty disk
  rw [hashStreamToSpooledTempfile, bind_returned hreceived]
  exact ⟨_, rfl⟩

theorem rehash_of_held {bytes : Content} (h : disk (backing.path key) = some bytes) :
    rehash backing key disk = (.returned (digestOf bytes), disk) := by
  have hopen : backing.openStream key disk = (.returned (FileObject.opened bytes), disk) := by
    simp only [LocalFsObjectStore.openStream, read_bind, h]
    rfl
  have ⟨spooled, hhash⟩ := @hashStream_of_no_fault { names := [] } rfl
    (fileStream (FileObject.opened bytes)) 1048576 disk
  rw [rehash, bind_returned hopen, bind_returned hhash]
  rfl

theorem rehash_of_missing (h : disk (backing.path key) = none) :
    rehash backing key disk = (.raised (.keyError key), disk) := by
  have hopen : backing.openStream key disk = (.raised (.keyError key), disk) := by
    simp only [LocalFsObjectStore.openStream, read_bind, h]
    rfl
  rw [rehash, bind_raised hopen]

end Rehash

section Copy

variable {stamps : SweepStamps} {copy : Copy} {archive after : Archive}

def Copy.storedDigest (copy : Copy) (disk : Disk) : Option Text :=
  (disk (copy.backing.path copy.document.storageUri)).map digestOf

def Copy.damaged (copy : Copy) (disk : Disk) : Bool :=
  decide (copy.storedDigest disk ≠ some copy.document.sha256)

def Copy.outcome (copy : Copy) (disk : Disk) : CheckOutcome :=
  if copy.damaged disk then .mismatch else .matched

theorem sweepCopy_of_missing (h : copy.storedDigest archive.disk = none) :
    sweepCopy stamps copy archive =
      (.raised (.store (.keyError copy.document.storageUri)), archive) := by
  have hrehash : onDisk (rehash copy.backing copy.document.storageUri) archive =
      (.raised (.store (.keyError copy.document.storageUri)), archive) :=
    within_raised (rehash_of_missing (Option.map_eq_none_iff.mp h))
  rw [sweepCopy, bind_raised hrehash]

theorem addCheck_returned {check : FixityCheck} {u : Unit} :
    addCheck check archive = (.returned u, after) ↔
      check.id ∉ archive.fixityChecks.map FixityCheck.id ∧
        { archive with fixityChecks := archive.fixityChecks ++ [check] } = after := by
  unfold addCheck
  split_ifs with htaken
  · simp [htaken]
  · simp [htaken]

structure Checked (copies : List Copy) (before after : Archive) (alerts : List FixityAlert) :
    Prop where
  disk : after.disk = before.disk
  checks : ∃ checks, after.fixityChecks = before.fixityChecks ++ checks ∧
    checks.map (fun check => (check.documentId, check.store, check.outcome)) =
      copies.map fun copy => (copy.document.id, copy.label, copy.outcome before.disk)
  alerts : alerts.map (fun alert => (alert.documentId, alert.store)) =
    (copies.filter fun copy => copy.damaged before.disk).map fun copy =>
      (copy.document.id, copy.label)
  entries : Appended before.db after.db
    ((copies.filter fun copy => copy.damaged before.disk).map mismatchEntry)

theorem sweepCopy_returned {alert : Option FixityAlert}
    (h : sweepCopy stamps copy archive = (.returned alert, after)) :
    (copy.storedDigest archive.disk).isSome ∧ Checked [copy] archive after alert.toList := by
  cases hstored : archive.disk (copy.backing.path copy.document.storageUri) with
  | none =>
    rw [sweepCopy_of_missing (Option.map_eq_none_iff.mpr hstored)] at h
    cases h
  | some bytes =>
    have hdigest : copy.storedDigest archive.disk = some (digestOf bytes) :=
      congrArg (Option.map digestOf) hstored
    refine ⟨by rw [hdigest]; rfl, ?_⟩
    have hrehash : onDisk (rehash copy.backing copy.document.storageUri) archive =
        (.returned (digestOf bytes), archive) :=
      within_returned.mpr ⟨_, rehash_of_held hstored, rfl⟩
    rw [sweepCopy, bind_returned hrehash] at h
    have ⟨_, middle, hadd, h⟩ := bind_eq_returned.mp h
    have ⟨_, hmiddle⟩ := addCheck_returned.mp hadd
    subst hmiddle
    by_cases heq : digestOf bytes = copy.document.sha256
    · have hintact : copy.damaged archive.disk = false := by simp [Copy.damaged, hdigest, heq]
      rw [if_pos heq] at h
      cases h
      constructor
      · rfl
      · exact ⟨_, rfl, by simp [fixityCheck, heq, Copy.outcome, hintact]⟩
      · simp [hintact]
      · simp [hintact, Appended.refl]
    · have hdamaged : copy.damaged archive.disk = true := by simp [Copy.damaged, hdigest, heq]
      rw [if_neg heq] at h
      have ⟨_, last, hentry, h⟩ := bind_eq_returned.mp h
      cases h
      have ⟨db, happend, hlast⟩ := within_returned.mp hentry
      subst hlast
      constructor
      · rfl
      · exact ⟨_, rfl, by simp [fixityCheck, heq, Copy.outcome, hdamaged]⟩
      · simp [hdamaged]
      · simpa [hdamaged] using (Backend.auditAppend_returned happend).2

abbrev GoesOn {α : Type} (disk : Disk) (sweep : Sweep α) : Prop :=
  Triple (fun archive => archive.disk = disk) sweep (fun _ archive => archive.disk = disk)
    (fun error _ => error = .database .integrityError) fun _ => False

theorem addCheck_goesOn (disk : Disk) (check : FixityCheck) : GoesOn disk (addCheck check) := by
  intro archive harchive
  unfold addCheck
  split_ifs with htaken
  · rfl
  · exact harchive

theorem auditAppend_goesOn (disk : Disk) (stamp : Stamp) (args : Audit.AppendArgs) :
    GoesOn disk (inSession (Backend.auditAppend stamp args)) := by
  intro archive harchive
  have hexit := Backend.auditAppend_raisesOnly stamp args archive.db trivial
  unfold inSession within
  cases hcall : Backend.auditAppend stamp args archive.db with
  | mk exit db =>
    rw [hcall] at hexit
    cases exit with
    | returned u => exact harchive
    | raised error => exact congrArg SweepError.database hexit
    | crashed => exact hexit

theorem sweepCopy_goesOn {disk : Disk} (h : (copy.storedDigest disk).isSome) :
    GoesOn disk (sweepCopy stamps copy) := by
  have hrehash : GoesOn disk (onDisk (rehash copy.backing copy.document.storageUri)) := by
    intro archive harchive
    have ⟨digest, hdigest⟩ := Option.isSome_iff_exists.mp h
    have ⟨bytes, hstored, _⟩ := Option.map_eq_some_iff.mp hdigest
    subst harchive
    have hcall : onDisk (rehash copy.backing copy.document.storageUri) archive =
        (.returned (digestOf bytes), archive) :=
      within_returned.mpr ⟨_, rehash_of_held hstored, rfl⟩
    rw [hcall]
  apply triple_bind hrehash
  intro digest
  apply triple_bind (addCheck_goesOn disk _)
  intro _
  split_ifs with heq
  · exact triple_pure fun _ harchive => harchive
  · apply triple_bind (auditAppend_goesOn disk _ _)
    intro _
    exact triple_pure fun _ harchive => harchive

end Copy

/-! ## The loop -/

section Loop

variable {stamps : SweepStamps} {copies rest : List Copy} {archive middle after : Archive}
  {alerts later : List FixityAlert}

theorem Checked.append (h : Checked copies archive middle alerts)
    (hlater : Checked rest middle after later) :
    Checked (copies ++ rest) archive after (alerts ++ later) := by
  have ⟨checks, hrows, hchecks⟩ := h.checks
  have ⟨checks', hrows', hchecks'⟩ := hlater.checks
  have hfirst := h.alerts
  have hsecond := hlater.alerts
  have hentries := hlater.entries
  rw [h.disk] at hchecks' hsecond hentries
  constructor
  · rw [hlater.disk, h.disk]
  · refine ⟨checks ++ checks', ?_, ?_⟩
    · rw [hrows', hrows, List.append_assoc]
    · rw [List.map_append, List.map_append, hchecks, hchecks']
  · rw [List.map_append, List.filter_append, List.map_append, hfirst, hsecond]
  · rw [List.filter_append, List.map_append]
    exact h.entries.trans hentries

theorem sweepCopies_returned (h : sweepCopies stamps copies archive = (.returned alerts, after)) :
    (∀ copy ∈ copies, (copy.storedDigest archive.disk).isSome) ∧
      Checked copies archive after alerts := by
  induction copies generalizing archive alerts with
  | nil =>
    cases h
    exact ⟨by simp, rfl, ⟨[], by simp, rfl⟩, rfl, Appended.refl _⟩
  | cons copy rest ih =>
    have ⟨alert, middle, hcopy, h⟩ := bind_eq_returned.mp h
    have ⟨later, last, hrest, h⟩ := bind_eq_returned.mp h
    cases h
    have ⟨hheld, hchecked⟩ := sweepCopy_returned hcopy
    have ⟨hothers, hlater⟩ := ih hrest
    rw [hchecked.disk] at hothers
    exact ⟨List.forall_mem_cons.mpr ⟨hheld, hothers⟩, hchecked.append hlater⟩

theorem sweepCopies_goesOn {disk : Disk}
    (h : ∀ copy ∈ copies, (copy.storedDigest disk).isSome) :
    GoesOn disk (sweepCopies stamps copies) := by
  induction copies with
  | nil => exact triple_pure fun _ harchive => harchive
  | cons copy rest ih =>
    rw [List.forall_mem_cons] at h
    apply triple_bind (sweepCopy_goesOn h.1)
    intro alert
    apply triple_bind (ih h.2)
    intro later
    exact triple_pure fun _ harchive => harchive

end Loop

/-! ## The sweep -/

section Sweep

variable {environ : Environ} {stamps : SweepStamps} {documentIds : Option (List Text)}
  {primaryStore secondaryStore : Option LocalFsObjectStore} {store secondStore : LocalFsObjectStore}
  {archive : Archive}

theorem runSweep_eq (hstores : sweepStores environ primaryStore secondaryStore =
    .ok (store, secondStore)) :
    runSweep environ stamps documentIds primaryStore secondaryStore archive =
      sweepCopies stamps (copiesOf store secondStore (sweptDocuments documentIds archive))
        archive := by
  unfold runSweep
  rw [hstores]
  rfl

/-- The sweep returns, has checked both copies of every document and reports the damaged ones. -/
def SweepCovers (environ : Environ) (stamps : SweepStamps) (documentIds : Option (List Text))
    (primaryStore secondaryStore : Option LocalFsObjectStore)
    (store secondStore : LocalFsObjectStore) (archive : Archive) : Prop :=
  ∃ alerts after,
    runSweep environ stamps documentIds primaryStore secondaryStore archive =
      (.returned alerts, after) ∧
    Checked (copiesOf store secondStore (sweptDocuments documentIds archive)) archive after alerts

/-- Both stores have the object of every document that is swept. -/
def BothPresent (documentIds : Option (List Text)) (store secondStore : LocalFsObjectStore)
    (archive : Archive) : Prop :=
  ∀ document ∈ sweptDocuments documentIds archive,
    (archive.disk (store.path document.storageUri)).isSome ∧
      (archive.disk (secondStore.path document.storageUri)).isSome

theorem bothPresent_iff : BothPresent documentIds store secondStore archive ↔
    ∀ copy ∈ copiesOf store secondStore (sweptDocuments documentIds archive),
      (copy.storedDigest archive.disk).isSome := by
  rw [copiesOf, List.forall_mem_flatMap]
  simp [BothPresent, Copy.storedDigest]

theorem sweep_covers_iff
    (hstores : sweepStores environ primaryStore secondaryStore = .ok (store, secondStore))
    (hids : ∀ after, runSweep environ stamps documentIds primaryStore secondaryStore archive ≠
      (.raised (.database .integrityError), after)) :
    SweepCovers environ stamps documentIds primaryStore secondaryStore store secondStore archive ↔
      BothPresent documentIds store secondStore archive := by
  unfold SweepCovers
  rw [bothPresent_iff]
  simp only [runSweep_eq hstores] at hids ⊢
  constructor
  · intro ⟨alerts, after, hreturned, _⟩
    exact (sweepCopies_returned hreturned).1
  · intro hheld
    have hgoesOn := @sweepCopies_goesOn stamps _ _ hheld archive rfl
    cases hsweep : sweepCopies stamps
        (copiesOf store secondStore (sweptDocuments documentIds archive)) archive with
    | mk exit after =>
      rw [hsweep] at hgoesOn
      cases exit with
      | returned alerts => exact ⟨alerts, after, rfl, (sweepCopies_returned hsweep).2⟩
      | raised error =>
        rw [hsweep, show error = .database .integrityError from hgoesOn] at hids
        exact absurd rfl (hids after)
      | crashed => exact hgoesOn.elim

end Sweep

/-! ## Two documents, one of them damaged -/

def sampleDocument (id : String) (content : Content) : StoredDocument where
  id := id.toList
  batchId := "batch".toList
  sha256 := digestOf content
  storageUri := keyFor (digestOf content)
  mime := "application/pdf".toList
  pageCount := 1

def samplePrimary : LocalFsObjectStore := ⟨["primary".toList]⟩

def sampleSecondary : LocalFsObjectStore := ⟨["secondary".toList]⟩

def stored (store : LocalFsObjectStore) (content : Content) : Disk → Disk :=
  place (store.path (keyFor (digestOf content))) content

def sampleStamps : SweepStamps where
  check id label := ⟨'c' :: id ++ label.value, Datetime.newYear 2026⟩
  entry id label := ⟨'a' :: id ++ label.value, Datetime.newYear 2026⟩

def sampleArchive (disk : Disk) : Archive where
  documents := [sampleDocument "d1" [1], sampleDocument "d2" [2]]
  disk := disk

def sampleSweep (disk : Disk) : Exit SweepError (List FixityAlert) × Archive :=
  runSweep (fun _ => none) sampleStamps none (some samplePrimary) (some sampleSecondary)
    (sampleArchive disk)

def damagedDisk : Disk :=
  stored samplePrimary [1] (place (sampleSecondary.path (keyFor (digestOf [1]))) [9]
    (stored samplePrimary [2] (stored sampleSecondary [2] fun _ => none)))

theorem sweep_covers_sample :
    SweepCovers (fun _ => none) sampleStamps none (some samplePrimary) (some sampleSecondary)
      samplePrimary sampleSecondary (sampleArchive damagedDisk) := by
  have hreturned : (sampleSweep damagedDisk).1 =
      .returned [⟨"d1".toList, .secondary, digestOf [1], digestOf [9]⟩] := by decide +kernel
  have hids : ∀ after, sampleSweep damagedDisk ≠ (.raised (.database .integrityError), after) := by
    intro after hraised
    rw [hraised] at hreturned
    cases hreturned
  apply (sweep_covers_iff rfl hids).mpr
  unfold BothPresent
  decide +kernel

def missingDisk : Disk :=
  stored samplePrimary [1] (stored samplePrimary [2] (stored sampleSecondary [2] fun _ => none))

theorem missing_object_ends_sweep :
    (sampleSweep missingDisk).1 = .raised (.store (.keyError (keyFor (digestOf [1])))) ∧
      ¬ SweepCovers (fun _ => none) sampleStamps none (some samplePrimary) (some sampleSecondary)
        samplePrimary sampleSecondary (sampleArchive missingDisk) := by
  have hraised : (sampleSweep missingDisk).1 =
      .raised (.store (.keyError (keyFor (digestOf [1])))) := by decide +kernel
  refine ⟨hraised, ?_⟩
  intro ⟨alerts, after, hreturned, _⟩
  rw [sampleSweep, hreturned] at hraised
  cases hraised

end LandRecords.Storage
