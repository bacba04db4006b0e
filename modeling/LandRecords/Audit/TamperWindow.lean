import LandRecords.Audit.Verify

/-! The tamper window of a shard. A history of appends and rolls is altered in one shard from
some entry on: the window names the first roll whose head was that entry or a later one. -/
namespace LandRecords.Audit

open Datetime Text

/-! ## Histories with rolls -/

inductive AuditStep where
  | append (call : AppendCall)
  | roll (id : Text) (rolledAt : Instant) (configVersion : Option Text)

def AuditStep.appendedAt : AuditStep → Option Instant
  | .append call => some call.now
  | .roll .. => none

def AuditStep.rolledAt : AuditStep → Option Instant
  | .append _ => none
  | .roll _ rolledAt _ => some rolledAt

def AuditDatabase.step (db : AuditDatabase) : AuditStep → AuditDatabase
  | .append call => { db with entries := db.entries.call call }
  | .roll id rolledAt configVersion => (performRoll db id rolledAt configVersion).2

/-- The database after a history from the empty database. -/
def rolledHistory (steps : List AuditStep) : AuditDatabase :=
  steps.foldl AuditDatabase.step ⟨.empty, []⟩

/-- The clock goes forward from append to append, and from roll to roll. -/
structure Timed (steps : List AuditStep) : Prop where
  appends : (steps.filterMap AuditStep.appendedAt).Pairwise (· < ·)
  rolls : (steps.filterMap AuditStep.rolledAt).Pairwise (· < ·)

structure Recorded (steps : List AuditStep) (db : AuditDatabase) : Prop where
  appended : ∀ shardId, (chainFormat utc).Appended AuditEntry.chainKey (db.entries.shard shardId)
  increasing : ∀ shardId,
    (db.entries.shard shardId).Pairwise fun a b => a.atInstant < b.atInstant
  instants : ∀ entry ∈ db.entries.rows,
    entry.atInstant ∈ steps.filterMap AuditStep.appendedAt
  heads : ∀ roll ∈ db.roots, ∀ shardId, ∀ headHash ∈ roll.recordedHead shardId,
    ∃ entry ∈ db.entries.shard shardId, entry.hash = headHash
  rolls : db.roots.map ChainRoot.rolledAt = steps.filterMap AuditStep.rolledAt

theorem AuditTable.call_eq (table : AuditTable) (call : AppendCall) :
    table.call call = table ∨ (table.call call).rows = table.rows ++ [call.entry table] := by
  unfold AuditTable.call append
  dsimp only
  split
  · rename_i happend
    split at happend
    · cases happend
    · cases happend
      exact .inr rfl
  · exact .inl rfl

theorem AuditTable.call_shard (table : AuditTable) (call : AppendCall) (shardId : Int) :
    (table.call call).shard shardId = table.shard shardId ∨
      call.args.resolvedShard = shardId ∧
        (table.call call).shard shardId = table.shard shardId ++ [call.entry table] := by
  rcases table.call_eq call with hsame | hrows
  · rw [hsame]
    exact .inl rfl
  · have hentry : (call.entry table).shardId = call.args.resolvedShard := rfl
    rw [AuditTable.shard, hrows, List.filter_append]
    by_cases hshard : call.args.resolvedShard = shardId
    · rw [List.filter_cons_of_pos (by simp [hentry, hshard])]
      exact .inr ⟨hshard, rfl⟩
    · rw [List.filter_cons_of_neg (by simp [hentry, hshard]), List.filter_nil, List.append_nil]
      exact .inl rfl

theorem recordedHead_currentShardHeads {table : AuditTable} {roll : ChainRoot} {shardId : Int}
    {headHash : Text} (hheads : roll.shardHeads = currentShardHeads table)
    (h : headHash ∈ roll.recordedHead shardId) :
    ∃ entry ∈ table.shard shardId, entry.hash = headHash := by
  unfold ChainRoot.recordedHead at h
  rw [hheads] at h
  obtain ⟨head, hfound, hhash⟩ := Option.bind_eq_some_iff.mp h
  have hshard : head.shardId = shardId := by simpa using List.find?_some hfound
  obtain ⟨_, -, rfl⟩ := List.mem_map.mp (List.mem_of_find?_eq_some hfound)
  obtain rfl := hshard
  obtain ⟨entry, hlatest, rfl⟩ := Option.map_eq_some_iff.mp hhash
  exact ⟨entry, latest_mem hlatest, rfl⟩

theorem Recorded.step {steps : List AuditStep} {db : AuditDatabase} {s : AuditStep}
    (h : Recorded steps db) (htimed : Timed (steps ++ [s])) :
    Recorded (steps ++ [s]) (db.step s) := by
  cases s with
  | roll id rolledAt configVersion =>
    refine ⟨h.appended, h.increasing, ?_, ?_, ?_⟩
    · simpa [AuditDatabase.step, performRoll, AuditStep.appendedAt] using h.instants
    · intro roll hroll shardId headHash hhead
      rcases List.mem_append.mp hroll with hold | hnew
      · exact h.heads roll hold shardId headHash hhead
      · rw [List.mem_singleton.mp hnew] at hhead
        exact recordedHead_currentShardHeads rfl hhead
    · simp [AuditDatabase.step, performRoll, AuditStep.rolledAt, h.rolls]
  | append call =>
    have hlater : ∀ entry ∈ db.entries.rows, entry.atInstant < call.now := by
      intro entry hentry
      have happends := htimed.appends
      rw [List.filterMap_append] at happends
      exact (List.pairwise_append.mp happends).2.2 _ (h.instants entry hentry) _
        (by simp [AuditStep.appendedAt])
    have hmono : ∀ shardId, ∀ entry ∈ db.entries.shard shardId,
        entry ∈ (db.entries.call call).shard shardId := by
      intro shardId entry hentry
      rcases db.entries.call_shard call shardId with hsame | ⟨-, hgrown⟩
      · rwa [hsame]
      · rw [hgrown]
        exact List.mem_append_left _ hentry
    refine ⟨?_, ?_, ?_, ?_, ?_⟩
    · intro shardId
      rcases db.entries.call_shard call shardId with hsame | ⟨rfl, hgrown⟩
      · exact hsame ▸ h.appended shardId
      · exact hgrown ▸ .concat (h.appended _) ⟨rfl, rfl⟩
    · intro shardId
      rcases db.entries.call_shard call shardId with hsame | ⟨-, hgrown⟩
      · exact hsame ▸ h.increasing shardId
      · refine hgrown ▸ List.pairwise_append.mpr
          ⟨h.increasing shardId, List.pairwise_singleton _ _, fun a ha b hb => ?_⟩
        rw [List.mem_singleton.mp hb]
        exact hlater a (List.mem_of_mem_filter ha)
    · intro entry hentry
      have hold : entry ∈ db.entries.rows ∨ entry = call.entry db.entries := by
        rcases db.entries.call_eq call with hsame | hrows
        · exact .inl (hsame ▸ hentry)
        · have hmem : entry ∈ db.entries.rows ++ [call.entry db.entries] := hrows ▸ hentry
          simpa using hmem
      rw [List.filterMap_append]
      rcases hold with hold | rfl
      · exact List.mem_append_left _ (h.instants entry hold)
      · exact List.mem_append_right _ (by simp [AuditStep.appendedAt, AppendCall.entry, newEntry])
    · intro roll hroll shardId headHash hhead
      obtain ⟨entry, hentry, hhash⟩ := h.heads roll hroll shardId headHash hhead
      exact ⟨entry, hmono shardId entry hentry, hhash⟩
    · rw [List.filterMap_append]
      simpa [AuditDatabase.step, List.filterMap_cons, AuditStep.rolledAt] using h.rolls

theorem Timed.of_concat {steps : List AuditStep} {s : AuditStep} (h : Timed (steps ++ [s])) :
    Timed steps := by
  have happends := h.appends
  have hrolls := h.rolls
  rw [List.filterMap_append] at happends hrolls
  exact ⟨(List.pairwise_append.mp happends).1, (List.pairwise_append.mp hrolls).1⟩

theorem recorded_rolledHistory {steps : List AuditStep} (h : Timed steps) :
    Recorded steps (rolledHistory steps) := by
  induction steps using List.reverseRecOn with
  | nil => exact ⟨fun _ => .nil, fun _ => .nil, by simp [rolledHistory, AuditTable.empty],
      by simp [rolledHistory], rfl⟩
  | append_singleton steps s ih =>
    rw [rolledHistory, List.foldl_concat]
    exact (ih h.of_concat).step h

theorem Recorded.linked {steps : List AuditStep} {db : AuditDatabase} (h : Recorded steps db)
    (shardId : Int) : (chainFormat utc).Linked none (db.entries.shard shardId) := by
  apply (h.appended shardId).linked
  exact (h.increasing shardId).imp fun hlt => Prod.Lex.toLex_lt_toLex.mpr (.inl hlt)

/-! ## The window of an alteration -/

def AuditEntry.content (entry : AuditEntry) : AuditEntry :=
  { entry with prevHash := none, hash := [] }

/-- What a shard holds in place of `entry :: later` after an alteration of `entry`, everything
from the link `p` on recomputed in one zone. -/
inductive Rewritten (zone : Zone) (p : Option Text) (entry : AuditEntry)
    (later : List AuditEntry) : List AuditEntry → Prop where
  | altered {entry' : AuditEntry} {later' : List AuditEntry}
      (material : entryMaterial zone p entry' ≠ entryMaterial utc p entry)
      (content : later'.map AuditEntry.content = later.map AuditEntry.content)
      (linked : (chainFormat zone).Linked p (entry' :: later')) :
      Rewritten zone p entry later (entry' :: later')
  | removed {later' : List AuditEntry}
      (content : later'.map AuditEntry.content = later.map AuditEntry.content)
      (linked : (chainFormat zone).Linked p later') : Rewritten zone p entry later later'
  | truncated : Rewritten zone p entry later []

/-- The roll recorded one of these entries as the head of the shard. -/
def ChainRoot.HeadAmong (roll : ChainRoot) (shardId : Int) (entries : List AuditEntry) : Prop :=
  ∃ entry ∈ entries, roll.recordedHead shardId = some entry.hash

/-- The last of the rolls that recorded a head for the shard. -/
def lastRecorded (shardId : Int) (rolls : List ChainRoot) : Option ChainRoot :=
  (rolls.filter fun roll => (roll.recordedHead shardId).isSome).getLast?

/-- The window that ends at `roll`. -/
def tamperWindow (zone : Zone) (shardId : Int) (lastAgreeing : Option ChainRoot)
    (roll : ChainRoot) : TamperWindow where
  shardId := shardId
  lastAgreeingRootId := lastAgreeing.map ChainRoot.id
  lastAgreeingRolledAt := lastAgreeing.map fun agreeing => isoformat zone agreeing.rolledAt
  earliestDisagreeingRootId := roll.id
  earliestDisagreeingRolledAt := isoformat zone roll.rolledAt
  detail := tamperDetail zone shardId lastAgreeing roll

theorem Rewritten.linked {zone : Zone} {p : Option Text} {entry : AuditEntry}
    {later suffix : List AuditEntry} (h : Rewritten zone p entry later suffix) :
    (chainFormat zone).Linked p suffix := by
  cases h with
  | altered _ _ linked => exact linked
  | removed _ linked => exact linked
  | truncated => trivial

/-- The first row of the rewritten part is hashed from another string than the altered entry. -/
theorem Rewritten.parted {zone : Zone} {p : Option Text} {entry : AuditEntry}
    {later suffix : List AuditEntry} (h : Rewritten zone p entry later suffix)
    (hlater : ∀ next ∈ later, entry.atInstant < next.atInstant) :
    ∀ first ∈ suffix.head?, entryMaterial zone p first ≠ entryMaterial utc p entry := by
  intro first hfirst
  cases h with
  | altered material =>
    obtain rfl := Option.some.inj hfirst
    exact material
  | removed content =>
    intro hmaterial
    have hat : first.atInstant = entry.atInstant := (hashMaterial_atIso hmaterial).1
    have hmem : first.content ∈ later.map AuditEntry.content := by
      rw [← content]
      exact List.mem_map_of_mem (List.mem_of_head? hfirst)
    obtain ⟨next, hnext, hcontent⟩ := List.mem_map.mp hmem
    have hsame := congrArg AuditEntry.atInstant hcontent
    change next.atInstant = first.atInstant at hsame
    have hgt := hlater next hnext
    rw [hsame, hat] at hgt
    exact lt_irrefl _ hgt
  | truncated => simp at hfirst

theorem Rewritten.hash_notMem {zone : Zone} {kept : List AuditEntry} {entry : AuditEntry}
    {later suffix : List AuditEntry}
    (h : Rewritten zone ((chainFormat utc).tip none kept) entry later suffix)
    (hlinked : (chainFormat utc).Linked none (kept ++ entry :: later))
    (hlater : ∀ next ∈ later, entry.atInstant < next.atInstant)
    (hfree : CollisionFree Sha256.hexdigest
      ((chainFormat utc).materials none (kept ++ entry :: later) ++
        (chainFormat zone).materials ((chainFormat utc).tip none kept) suffix)) :
    ∀ lost ∈ entry :: later, ∀ left ∈ kept ++ suffix, left.hash ≠ lost.hash := by
  -- each row carries the zone that it is hashed in
  have hutc : zonedFormat.Linked none
      (kept.map (fun e => (utc, e)) ++ (utc, entry) :: later.map fun e => (utc, e)) := by
    rw [← List.map_cons, ← List.map_append]
    exact (ChainFormat.linked_comap _).mp hlinked
  have htip : zonedFormat.tip none (kept.map fun e => (utc, e)) =
      (chainFormat utc).tip none kept := (ChainFormat.tip_comap _ _ _).symm
  have hrewritten : zonedFormat.Linked none
      (kept.map (fun e => (utc, e)) ++ suffix.map fun e => (zone, e)) := by
    rw [ChainFormat.linked_append, htip]
    exact ⟨(ChainFormat.linked_append.mp hutc).1, (ChainFormat.linked_comap _).mp h.linked⟩
  have hcollision : CollisionFree zonedFormat.hash
      (zonedFormat.materials none
          (kept.map (fun e => (utc, e)) ++ (utc, entry) :: later.map fun e => (utc, e)) ++
        zonedFormat.materials none
          (kept.map (fun e => (utc, e)) ++ suffix.map fun e => (zone, e))) := by
    apply CollisionFree.mono hfree
    intro m hm
    rw [← List.map_cons, ← List.map_append, ChainFormat.materials_append, htip,
      ← ChainFormat.materials_comap, ← ChainFormat.materials_comap, ← ChainFormat.materials_comap]
      at hm
    change m ∈ (chainFormat utc).materials none (kept ++ entry :: later) ++
      ((chainFormat utc).materials none kept ++ (chainFormat zone).materials _ suffix) at hm
    rw [ChainFormat.materials_append] at hm ⊢
    simp only [List.mem_append] at hm ⊢
    tauto
  intro lost hlost left hleft hhash
  have hgone := hutc.digest_notMem_of_parted hrewritten hcollision ?_ (utc, lost) ?_
  · apply hgone
    rcases List.mem_append.mp hleft with hkept | hsuffix
    · exact List.mem_map.mpr ⟨(utc, left), by simp [hkept], hhash⟩
    · exact List.mem_map.mpr ⟨(zone, left), by simp [hsuffix], hhash⟩
  · intro first hfirst
    rw [List.head?_map] at hfirst
    obtain ⟨row, hrow, rfl⟩ := Option.map_eq_some_iff.mp hfirst
    rw [htip]
    exact h.parted hlater row hrow
  · simpa using hlost

theorem firstDisagreement_append {zone : Zone} {table : AuditTable} {shardId : Int}
    {before rest : List ChainRoot}
    (hbefore : ∀ roll ∈ before, ∀ headHash ∈ roll.recordedHead shardId,
      ∃ entry ∈ table.shard shardId, entry.hash = headHash)
    (lastAgreeing : Option ChainRoot) :
    firstDisagreement zone table shardId lastAgreeing (before ++ rest) =
      firstDisagreement zone table shardId
        ((lastRecorded shardId before).or lastAgreeing) rest := by
  induction before generalizing lastAgreeing with
  | nil => rfl
  | cons roll before ih =>
    rw [List.forall_mem_cons] at hbefore
    rw [List.cons_append, firstDisagreement]
    cases hhead : roll.recordedHead shardId with
    | none =>
      have hskip : lastRecorded shardId (roll :: before) = lastRecorded shardId before := by
        rw [lastRecorded, List.filter_cons_of_neg (by simp [hhead]), lastRecorded]
      rw [hskip]
      exact ih hbefore.2 lastAgreeing
    | some headHash =>
      have hpresent : (table.shard shardId).any (fun entry => entry.hash = headHash) = true := by
        simpa using hbefore.1 headHash hhead
      have hlast : (lastRecorded shardId (roll :: before)).or lastAgreeing =
          (lastRecorded shardId before).or (some roll) := by
        rw [lastRecorded, List.filter_cons_of_pos (by simp [hhead]), lastRecorded,
          List.getLast?_cons]
        cases (before.filter fun roll => (roll.recordedHead shardId).isSome).getLast? <;> rfl
      rw [hlast]
      simp only [hpresent, if_true]
      exact ih hbefore.2 (some roll)

theorem firstDisagreement_of_gone {zone : Zone} {table : AuditTable} {shardId : Int}
    {roll : ChainRoot} {rest : List ChainRoot} {headHash : Text}
    (hhead : roll.recordedHead shardId = some headHash)
    (hgone : ∀ entry ∈ table.shard shardId, entry.hash ≠ headHash)
    (lastAgreeing : Option ChainRoot) :
    firstDisagreement zone table shardId lastAgreeing (roll :: rest) =
      some (tamperWindow zone shardId lastAgreeing roll) := by
  rw [firstDisagreement, hhead]
  have habsent : (table.shard shardId).any (fun entry => entry.hash = headHash) = false := by
    simpa using hgone
  simp only [habsent, Bool.false_eq_true, if_false]
  rfl

/-- Nothing is reported along a history with steady clocks. After one shard is rewritten from an
entry on, its window ends at the first roll that recorded this entry or a later one as the head,
and starts at the last roll before that recorded any. -/
theorem boundTamperWindow_rolledHistory {zone : Zone} {steps : List AuditStep}
    (htimed : Timed steps) :
    (∀ shardId, boundTamperWindow zone (rolledHistory steps) shardId = none) ∧
    ∀ (writer : Zone) (shardId : Int) (kept later suffix : List AuditEntry) (entry : AuditEntry)
      (forged : AuditTable),
      (rolledHistory steps).entries.shard shardId = kept ++ entry :: later →
      Rewritten writer ((chainFormat utc).tip none kept) entry later suffix →
      (forged.shard shardId).Perm (kept ++ suffix) →
      CollisionFree Sha256.hexdigest ((chainFormat utc).materials none (kept ++ entry :: later) ++
        (chainFormat writer).materials ((chainFormat utc).tip none kept) suffix) →
      (∀ before roll after, (rolledHistory steps).roots = before ++ roll :: after →
        roll.HeadAmong shardId (entry :: later) →
        (∀ earlier ∈ before, ¬ earlier.HeadAmong shardId (entry :: later)) →
        boundTamperWindow zone ⟨forged, (rolledHistory steps).roots⟩ shardId =
          some (tamperWindow zone shardId (lastRecorded shardId before) roll)) ∧
      (boundTamperWindow zone ⟨forged, (rolledHistory steps).roots⟩ shardId = none ↔
        ∀ roll ∈ (rolledHistory steps).roots, ¬ roll.HeadAmong shardId (entry :: later)) := by
  have hrecorded := recorded_rolledHistory htimed
  refine ⟨fun shardId => ?_, ?_⟩
  · rw [boundTamperWindow_eq_none_iff]
    intro roll hroll
    exact hrecorded.heads roll hroll shardId
  intro writer shardId kept later suffix entry forged hshard hrewritten hforged hfree
  have hincreasing := hrecorded.increasing shardId
  have hlinked := hrecorded.linked shardId
  rw [hshard] at hincreasing hlinked
  have hlater : ∀ next ∈ later, entry.atInstant < next.atInstant :=
    (List.pairwise_cons.mp (List.pairwise_append.mp hincreasing).2.1).1
  have hgone := hrewritten.hash_notMem hlinked hlater hfree
  -- a recorded head is still there exactly when it is none of the altered entry and the later ones
  have hhead : ∀ roll ∈ (rolledHistory steps).roots, ∀ headHash ∈ roll.recordedHead shardId,
      ((∃ e ∈ forged.shard shardId, e.hash = headHash) ↔
        ¬ roll.HeadAmong shardId (entry :: later)) := by
    intro roll hroll headHash hheadHash
    constructor
    · rintro ⟨e, he, rfl⟩ ⟨lost, hlost, hsame⟩
      have hequal : e.hash = lost.hash := Option.some.inj (hheadHash.symm.trans hsame)
      exact hgone lost hlost e (hforged.mem_iff.mp he) hequal
    · intro hnone
      obtain ⟨e, he, rfl⟩ := hrecorded.heads roll hroll shardId headHash hheadHash
      rw [hshard] at he
      rcases List.mem_append.mp he with hkept | hlost
      · exact ⟨e, hforged.mem_iff.mpr (List.mem_append_left _ hkept), rfl⟩
      · exact absurd ⟨e, hlost, hheadHash⟩ hnone
  constructor
  · intro before roll after hroots hroll hbefore
    have horder : orderBy ChainRoot.rolledAt (rolledHistory steps).roots =
        (rolledHistory steps).roots := by
      apply orderBy_of_increasing
      rw [← List.pairwise_map, hrecorded.rolls]
      exact htimed.rolls
    obtain ⟨lost, hlost, hlostHash⟩ := hroll
    rw [boundTamperWindow, horder, hroots, firstDisagreement_append]
    · rw [firstDisagreement_of_gone hlostHash]
      · rw [Option.or_none]
      · intro e he
        exact hgone lost hlost e (hforged.mem_iff.mp he)
    · intro earlier hearlier headHash hheadHash
      have hmem : earlier ∈ (rolledHistory steps).roots := by simp [hroots, hearlier]
      exact (hhead earlier hmem headHash hheadHash).mpr (hbefore earlier hearlier)
  · rw [boundTamperWindow_eq_none_iff]
    constructor
    · rintro hall roll hroll ⟨lost, hlost, hlostHash⟩
      have hpresent := hall roll hroll lost.hash hlostHash
      exact (hhead roll hroll lost.hash hlostHash).mp hpresent ⟨lost, hlost, hlostHash⟩
    · intro hnone roll hroll headHash hheadHash
      exact (hhead roll hroll headHash hheadHash).mpr (hnone roll hroll)

def rolledPages : List AuditStep :=
  [.append (pageIngested "a" 1), .roll "r1".toList (newYear 2) none,
    .append (pageIngested "b" 3), .roll "r2".toList (newYear 4) none]

/-- With the second page removed again, the window lies between the two rolls. -/
theorem boundTamperWindow_secondPage_removed :
    boundTamperWindow utc (rolledHistory rolledPages) 1 = none ∧
      ∃ first second, (rolledHistory rolledPages).roots = [first, second] ∧
        boundTamperWindow utc ⟨history [pageIngested "a" 1], [first, second]⟩ 1 =
          some (tamperWindow utc 1 (some first) second) := by
  have htimed : Timed rolledPages := ⟨by decide +kernel, by decide +kernel⟩
  have hwindow := @boundTamperWindow_rolledHistory utc _ htimed
  have hshard : (rolledHistory rolledPages).entries.shard 1 = [(pageIngested "a" 1).entry .empty] ++
      (pageIngested "b" 3).entry (history [pageIngested "a" 1]) :: [] := by decide +kernel
  have hnodup : (((chainFormat utc).materials none ([(pageIngested "a" 1).entry .empty] ++
      (pageIngested "b" 3).entry (history [pageIngested "a" 1]) :: [])).map
        Sha256.hexdigest).Nodup := by decide +kernel
  have hremoved := (hwindow.2 utc 1 _ _ [] _ (history [pageIngested "a" 1]) hshard .truncated
    (List.Perm.of_eq (by decide +kernel))
    ((collisionFree_of_nodup hnodup).mono (by simp [ChainFormat.materials]))).1
  refine ⟨hwindow.1 1, _, _, rfl, ?_⟩
  apply hremoved [_] _ [] rfl
  · exact ⟨_, List.mem_singleton_self _, by decide +kernel⟩
  · rintro earlier hearlier ⟨lost, hlost, hhash⟩
    rw [List.mem_singleton.mp hearlier, List.mem_singleton.mp hlost] at hhash
    revert hhash
    decide +kernel

end LandRecords.Audit
