import LandRecords.Decision.ExactlyOnce

/-! When a page is reported processed. Every decision looks whether all fields of
its page have a routing outcome, which is written before a field is decided. -/
namespace LandRecords.Decision

open Backend Audit Datetime Text

def processedEntries (db : Database) (pageId : Text) : List AuditEntry :=
  db.audit.rows.filter fun entry => entry.action = pageProcessed ∧ entry.subject = some pageId

def Complete (db : Database) (pageId : Text) : Prop :=
  ∀ extraction ∈ db.extractions, extraction.pageId = pageId → decisionsFor db extraction.id ≠ []

/-- A step that reports a page reports one whose fields are decided. -/
def ReportsComplete (db db' : Database) : Prop :=
  ∀ pageId, (processedEntries db pageId).length < (processedEntries db' pageId).length →
    Complete db' pageId

def ReportedOnce (db : Database) : Prop := ∀ pageId, (processedEntries db pageId).length ≤ 1

/-- A field that completes the outcomes of its unreported page is the last one
to be decided. -/
def DecidedLast (db : Database) : Step → Prop
  | .route extractionId .. => ∀ extraction outcome, Routable db extractionId extraction outcome →
      alreadyProcessed db extraction.pageId (districtForPage db extraction.pageId) = false →
      isTerminal db extraction.pageId = true →
      ∀ other ∈ db.extractions, other.pageId = extraction.pageId → other.id ≠ extractionId →
        decisionsFor db other.id ≠ []
  | _ => True

def Unreported (db : Database) : Prop := ∀ entry ∈ db.audit.rows, entry.action ≠ pageProcessed

/-- The shard that `_already_processed` looks in. -/
def processedShard (db : Database) (pageId : Text) : Int :=
  match pageShardKey (districtForPage db pageId) with
  | some shardKey => shardFor shardKey
  | none => shardFor pageId

structure Reported (db : Database) : Prop where
  shard : ∀ entry ∈ db.audit.rows, entry.action = pageProcessed → ∀ pageId,
    entry.subject = some pageId → entry.shardId = processedShard db pageId
  once : ReportedOnce db

section Reports

variable {db db' : Database} {extraction : Extraction} {outcome : RoutingOutcome} {pageId : Text}

theorem alreadyProcessed_eq_false (h : Reported db) :
    alreadyProcessed db pageId (districtForPage db pageId) = false ↔
      processedEntries db pageId = [] := by
  unfold alreadyProcessed processedEntries
  rw [List.any_eq_false, List.filter_eq_nil_iff]
  apply forall_congr'
  intro entry
  apply forall_congr'
  intro hentry
  rw [decide_eq_true_iff, decide_eq_true_iff]
  apply not_congr
  constructor
  · exact fun hboth => hboth.2
  · exact fun hboth => ⟨h.shard entry hentry hboth.1 pageId hboth.2, hboth⟩

theorem recordPageProcessed_resolvedShard (db : Database) (pageId : Text) :
    (recordPageProcessed pageId (districtForPage db pageId)).resolvedShard =
      processedShard db pageId := by
  have hempty : shardFor "system:decision-engine".toList = shardFor [] := by decide +kernel
  unfold AppendArgs.resolvedShard processedShard recordPageProcessed
  cases pageShardKey (districtForPage db pageId) with
  | some shardKey => rfl
  | none =>
    cases pageId with
    | nil => exact hempty
    | cons c rest => rfl

theorem processedCalls_eq_nil (h : Reported db) : processedCalls db pageId = [] ↔
    ¬ (processedEntries db pageId = [] ∧ isTerminal db pageId = true) := by
  rw [← alreadyProcessed_eq_false h, processedCalls]
  cases alreadyProcessed db pageId (districtForPage db pageId) with
  | true => simp
  | false => simp

theorem Decided.processedEntries_length (h : Decided db extraction outcome db') (pageId : Text) :
    (processedEntries db' pageId).length = (processedEntries db pageId).length +
      if pageId = extraction.pageId then (processedCalls db pageId).length else 0 := by
  have hgrown := h.entries.filter_map
    (p := fun entry => entry.action = pageProcessed ∧ entry.subject = some pageId)
    (q := fun args => args.action = pageProcessed ∧ args.subject = some pageId)
    (f := fun _ => ()) (g := fun _ => ())
    (fun entry args h => by rw [h.action, h.subject]) fun entry args h => rfl
  have hlength := congrArg List.length hgrown
  rw [List.length_map, List.length_append, List.length_map, List.length_map] at hlength
  unfold processedEntries
  rw [hlength]
  congr 1
  simp only [List.filter_cons, routedArgs_action, routedAction_ne_pageProcessed, false_and,
    decide_false, Bool.false_eq_true, if_false]
  by_cases hpage : pageId = extraction.pageId
  · subst hpage
    rw [if_pos rfl]
    rcases processedCalls_cases db extraction.pageId with hcalls | hcalls
    · rw [hcalls]
      rfl
    · simp [hcalls]
  · rw [if_neg hpage]
    rcases processedCalls_cases db extraction.pageId with hcalls | hcalls
    · rw [hcalls]
      rfl
    · simp [hcalls, Ne.symm hpage]

theorem processedCalls_length_le (db : Database) (pageId : Text) :
    (processedCalls db pageId).length ≤ 1 := by
  unfold processedCalls
  split <;> simp

theorem Decided.reported (h : Decided db extraction outcome db') (hr : Reported db) :
    Reported db' := by
  obtain ⟨mid, decision, heffect, -, -, htables⟩ := h.tables
  have hshard : ∀ pageId, processedShard db' pageId = processedShard db pageId := by
    intro pageId
    have hsame : SamePages db db' := by
      rw [htables]
      exact heffect.samePages
    rw [processedShard, hsame.districtForPage]
    rfl
  constructor
  · intro entry hentry haction pageId hsubject
    rw [hshard]
    rcases h.entries.mem hentry with hold | ⟨args, hargs, hcall⟩
    · exact hr.shard entry hold haction pageId hsubject
    · rw [hcall.action] at haction
      rw [hcall.subject] at hsubject
      rw [hcall.shardId]
      rcases List.mem_cons.mp hargs with rfl | hcalls
      · exact absurd haction (routedAction_ne_pageProcessed outcome)
      · rcases processedCalls_cases db extraction.pageId with hnone | hone
        · rw [hnone] at hcalls
          cases hcalls
        · rw [hone, List.mem_singleton] at hcalls
          subst hcalls
          obtain rfl := Option.some.inj hsubject
          exact recordPageProcessed_resolvedShard db extraction.pageId
  · intro pageId
    rw [h.processedEntries_length pageId]
    split
    · have hcalls := processedCalls_length_le db pageId
      cases hentries : processedEntries db pageId with
      | nil => simpa using hcalls
      | cons entry rest =>
        have honce := hr.once pageId
        have hnil : processedCalls db pageId = [] :=
          (processedCalls_eq_nil hr).mpr fun hboth => by simp [hentries] at hboth
        rw [hnil]
        rwa [hentries] at honce
    · exact hr.once pageId

theorem Decided.reportsComplete_iff (h : Decided db extraction outcome db') :
    ReportsComplete db db' ↔ (processedCalls db extraction.pageId ≠ [] →
      ∀ other ∈ db.extractions, other.pageId = extraction.pageId → other.id ≠ extraction.id →
        Decision.decisionsFor db other.id ≠ []) := by
  have hrows := h.extractions
  have hdecided : ∀ id, Decision.decisionsFor db' id ≠ [] ↔
      (id ≠ extraction.id → Decision.decisionsFor db id ≠ []) := by
    intro id
    have houtcomes := congrArg (· = []) (h.decisionsFor id)
    simp only [List.map_eq_nil_iff, List.append_eq_nil_iff, eq_iff_iff] at houtcomes
    rw [Ne, houtcomes]
    by_cases hid : id = extraction.id
    · simp [hid]
    · simp [hid]
  unfold ReportsComplete Complete
  simp only [h.processedEntries_length, hrows, hdecided]
  constructor
  · intro hcomplete hcalls
    apply hcomplete extraction.pageId
    rw [if_pos rfl]
    exact Nat.lt_add_of_pos_right (List.length_pos_iff.mpr hcalls)
  · intro hlast pageId hgrown
    by_cases hpage : pageId = extraction.pageId
    · subst hpage
      rw [if_pos rfl] at hgrown
      exact hlast (List.length_pos_iff.mp (Nat.pos_of_lt_add_right hgrown))
    · rw [if_neg hpage] at hgrown
      exact absurd hgrown (Nat.lt_irrefl _)

end Reports

theorem reported_step {db db' : Database} {a : Step} (h : Reported db)
    (hstep : step db a = some db') : Reported db' := by
  rcases step_cases hstep with ⟨rows, rfl, -⟩ | ⟨extraction, outcome, -, hdecided⟩
  · exact ⟨h.shard, h.once⟩
  · exact hdecided.reported h

theorem reportsComplete_of_audit {db db' : Database} (h : db'.audit = db.audit) :
    ReportsComplete db db' := by
  intro pageId hgrown
  rw [processedEntries, processedEntries, h] at hgrown
  exact absurd hgrown (Nat.lt_irrefl _)

/-- A step reports only complete pages exactly when the field it decides is the
last one of the page that it reports. -/
theorem reportsComplete_iff_decidedLast {db db' : Database} {a : Step} (h : Reported db)
    (hstep : step db a = some db') : ReportsComplete db db' ↔ DecidedLast db a := by
  cases a with
  | insertExtraction row =>
    simp only [step] at hstep
    split at hstep
    · cases hstep
    · cases hstep
      exact iff_of_true (reportsComplete_of_audit rfl) trivial
  | setRoutingOutcome extractionId outcome =>
    cases hstep
    exact iff_of_true (reportsComplete_of_audit rfl) trivial
  | route extractionId noveltyClusterId envelopeId stamps =>
    rcases step_route hstep with ⟨rfl, hnone⟩ | ⟨extraction, outcome, hroutable, hdecided⟩
    · exact iff_of_true (reportsComplete_of_audit rfl)
        fun row other hroutable => absurd hroutable (hnone row other)
    · have hid := Database.extraction?_id hroutable.1
      subst hid
      rw [hdecided.reportsComplete_iff]
      constructor
      · intro hlast row other hrow hunreported hterminal
        obtain rfl := Option.some.inj (hroutable.1.symm.trans hrow.1)
        apply hlast
        simp [processedCalls, hunreported, hterminal]
      · intro hlast hcalls
        have hboth := not_not.mp (mt (processedCalls_eq_nil h).mpr hcalls)
        exact hlast extraction outcome hroutable ((alreadyProcessed_eq_false h).mpr hboth.1) hboth.2

theorem Unreported.reported {db : Database} (h : Unreported db) : Reported db := by
  constructor
  · intro entry hentry haction
    exact absurd haction (h entry hentry)
  · intro pageId
    have hnone : processedEntries db pageId = [] := by
      apply List.filter_eq_nil_iff.mpr
      intro entry hentry hreport
      exact h entry hentry (of_decide_eq_true hreport).1
    rw [hnone]
    exact Nat.zero_le _

/-- Pages are reported once, and complete exactly when each report comes with the
decision of the page's last field. -/
theorem pages_reported_complete_iff {db : Database} (h : Unreported db) (steps : List Step) :
    (Runs.AllMoves step ReportsComplete db steps ∧ Runs.Throughout step ReportedOnce db steps) ↔
      Runs.AllSteps step DecidedLast db steps := by
  have honce : Runs.Throughout step Reported db steps :=
    Runs.throughout_of_preserved h.reported fun _ _ _ hdb hstep => reported_step hdb hstep
  have hmoves : Runs.AllMoves step ReportsComplete db steps ↔
      Runs.AllSteps step DecidedLast db steps :=
    Runs.allMoves_iff_allSteps h.reported (fun _ _ _ hdb hstep => reported_step hdb hstep)
      fun _ _ _ hdb hstep => reportsComplete_iff_decidedLast hdb hstep
  rw [hmoves]
  exact and_iff_left (honce.imp fun _ hdb => hdb.once)

theorem unreported_empty : Unreported {} := by
  intro entry hentry
  exact absurd hentry (List.not_mem_nil)

def otherField : Extraction := { sampleConflict with id := "e2".toList }

instance decidableDecidedLast (db : Database) : ∀ a, Decidable (DecidedLast db a)
  | .insertExtraction _ => inferInstanceAs (Decidable True)
  | .setRoutingOutcome _ _ => inferInstanceAs (Decidable True)
  | .route extractionId _ _ _ =>
      decidable_of_iff (∀ extraction ∈ db.extraction? extractionId,
        ∀ outcome ∈ extraction.routingOutcome, decisionsFor db extractionId = [] →
          alreadyProcessed db extraction.pageId (districtForPage db extraction.pageId) = false →
            isTerminal db extraction.pageId = true → ∀ other ∈ db.extractions,
              other.pageId = extraction.pageId → other.id ≠ extractionId →
                decisionsFor db other.id ≠ [])
        ⟨fun h extraction outcome hroutable => h extraction hroutable.1 outcome hroutable.2.1
            hroutable.2.2,
          fun h extraction hfound outcome houtcome hundecided =>
            h extraction outcome ⟨hfound, houtcome, hundecided⟩⟩

def otherStamps : RouteStamps where
  cutoffFrom := newYear 2
  effect := ⟨"c2".toList, newYear 2⟩
  auditSampleId := "s2".toList
  decision := ⟨"d2".toList, newYear 2⟩
  routedEntry := ⟨"a3".toList, newYear 2⟩
  processedEntry := ⟨"a4".toList, newYear 2⟩

def outcomeLast : List Step :=
  [.insertExtraction sampleConflict, .insertExtraction { otherField with routingOutcome := none },
    .route sampleConflict.id none none sampleStamps,
    .setRoutingOutcome otherField.id (some .conflict),
    .route otherField.id none none otherStamps]

theorem pages_reported_outcomeLast : Runs.AllMoves step ReportsComplete {} outcomeLast ∧
    Runs.Throughout step ReportedOnce {} outcomeLast :=
  (pages_reported_complete_iff unreported_empty outcomeLast).mpr (by decide +kernel)

example : (Runs.run step {} outcomeLast).map (fun db => (processedEntries db otherField.pageId).length) =
    some 1 := by decide +kernel

def outcomesFirst : List Step :=
  [.insertExtraction sampleConflict, .insertExtraction otherField] ++
    [.route sampleConflict.id none none sampleStamps]

theorem outcomesFirst_reports_undecided : ¬ (Runs.AllMoves step ReportsComplete {} outcomesFirst ∧
    Runs.Throughout step ReportedOnce {} outcomesFirst) := by
  rintro ⟨hmoves, -⟩
  have hreports : (Runs.run step {} [.insertExtraction sampleConflict,
      .insertExtraction otherField]).any (fun db =>
        (step db (.route sampleConflict.id none none sampleStamps)).any fun db' =>
          (processedEntries db otherField.pageId).length <
            (processedEntries db' otherField.pageId).length ∧
          otherField ∈ db'.extractions ∧ decisionsFor db' otherField.id = []) = true := by
    decide +kernel
  obtain ⟨db, hrun, hdb⟩ := (Option.any_eq_true _ _).mp hreports
  obtain ⟨db', hstep, hdb'⟩ := (Option.any_eq_true _ _).mp hdb
  obtain ⟨hgrown, hmem, hundecided⟩ := of_decide_eq_true hdb'
  exact hmoves.at_run hrun hstep otherField.pageId hgrown otherField hmem rfl hundecided

end LandRecords.Decision
