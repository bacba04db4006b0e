import LandRecords.Audit.History

/-! What `verify_shard` detects and what it accepts: alterations of one stored
entry, histories under any clock, and sessions in any time zone. -/
namespace LandRecords.Audit

open Datetime Text

/-- `None` and the empty string count as the same column value. -/
def ChangesColumn (entry entry' : AuditEntry) : Prop :=
  entry'.actor ≠ entry.actor ∨ entry'.action ≠ entry.action ∨
    orEmpty entry'.subject ≠ orEmpty entry.subject ∨
    orEmpty entry'.purpose ≠ orEmpty entry.purpose ∨
    orEmpty entry'.valueHash ≠ orEmpty entry.valueHash ∨
    entry'.atInstant ≠ entry.atInstant ∨ orEmpty entry'.prevHash ≠ orEmpty entry.prevHash

/-- The columns between the link and the instant, as they are joined. -/
def joinedFields (entry : AuditEntry) : Text :=
  join "|".toList [entry.actor, entry.action, orEmpty entry.subject, orEmpty entry.purpose,
    orEmpty entry.valueHash]

theorem storedMaterial_eq (zone : Zone) (entry : AuditEntry) :
    storedMaterial zone entry = orEmpty entry.prevHash ++ "|".toList ++ joinedFields entry ++
      "|".toList ++ isoformat zone entry.atInstant := by
  simp [storedMaterial, entryMaterial, hashMaterial, joinedFields, join]

/-- The ends of the string are recovered; between them only the joined fields are. -/
theorem storedMaterial_eq_iff {zone : Zone} {entry entry' : AuditEntry}
    (hprev : entry'.prevHash = entry.prevHash) :
    storedMaterial zone entry' = storedMaterial zone entry ↔
      entry'.atInstant = entry.atInstant ∧ joinedFields entry' = joinedFields entry := by
  constructor
  · intro h
    have hat : entry'.atInstant = entry.atInstant := (hashMaterial_atIso h).1
    refine ⟨hat, ?_⟩
    rw [storedMaterial_eq, storedMaterial_eq, hprev, hat] at h
    exact List.append_cancel_left (List.append_cancel_right (List.append_cancel_right h))
  · rintro ⟨hat, hfields⟩
    rw [storedMaterial_eq, storedMaterial_eq, hprev, hat, hfields]

/-- `altered` is `table` with one row rewritten in place, its primary key kept. -/
structure Alteration (table altered : AuditTable) (entry entry' : AuditEntry) : Prop where
  rows : ∃ left right, table.rows = left ++ entry :: right ∧ altered.rows = left ++ entry' :: right
  primaryKey : entry'.primaryKey = entry.primaryKey

theorem Alteration.walk {table altered : AuditTable} {entry entry' : AuditEntry}
    (h : Alteration table altered entry entry') :
    ∃ pre post, table.walk entry.shardId = pre ++ entry :: post ∧
      (altered.shard entry.shardId).Perm (pre ++ entry' :: post) := by
  obtain ⟨⟨left, right, hrows, haltered⟩, hkey⟩ := h
  have hshard : entry'.shardId = entry.shardId := congrArg Prod.snd hkey
  have hmem : entry ∈ table.walk entry.shardId := by
    rw [AuditTable.walk, mem_orderBy]
    exact List.mem_filter.mpr ⟨by rw [hrows]; simp, by simp⟩
  obtain ⟨pre, post, hwalk⟩ := List.append_of_mem hmem
  refine ⟨pre, post, hwalk, ?_⟩
  have hperm := orderBy_perm AuditEntry.chainKey (table.shard entry.shardId)
  rw [← AuditTable.walk, hwalk, AuditTable.shard, hrows, List.filter_append,
    List.filter_cons_of_pos (by simp)] at hperm
  rw [AuditTable.shard, haltered, List.filter_append, List.filter_cons_of_pos (by simp [hshard])]
  have hrest := List.Perm.cons_inv (List.perm_middle.symm.trans (hperm.trans List.perm_middle))
  exact List.perm_middle.trans ((hrest.symm.cons entry').trans List.perm_middle.symm)

theorem Alteration.unchanged_of_accepted {zone : Zone} {table altered : AuditTable}
    {entry entry' : AuditEntry} {raiseOnMismatch : Bool}
    (h : Alteration table altered entry entry')
    (haccepted : verifyShard zone table entry.shardId raiseOnMismatch = .ok true)
    (hhash : entry'.hash = entry.hash ∨ (table.walk entry.shardId).getLast? ≠ some entry)
    (hfree : CollisionFree Sha256.hexdigest
      (verifyMaterials zone table entry.shardId ++ verifyMaterials zone altered entry.shardId))
    (haltered : verifyShard zone altered entry.shardId raiseOnMismatch = .ok true) :
    entry'.prevHash = entry.prevHash ∧ entry'.hash = entry.hash ∧
      entry'.atInstant = entry.atInstant ∧ joinedFields entry' = joinedFields entry := by
  obtain ⟨pre, post, hwalk, hperm⟩ := h.walk
  rw [verifyShard_iff] at haccepted haltered
  unfold verifyMaterials at hfree
  rw [hwalk] at haccepted hfree hhash
  have hlast : post = [] → entry'.hash = entry.hash := by
    rintro rfl
    rw [List.getLast?_concat] at hhash
    exact hhash.resolve_right (by simp)
  have hwalkPerm := (orderBy_perm AuditEntry.chainKey _).trans hperm
  obtain ⟨-, hprev, hdigest, hmaterial⟩ := haccepted.replace haltered hwalkPerm hfree hlast
  change entry'.prevHash = entry.prevHash at hprev
  have hstored : storedMaterial zone entry' = storedMaterial zone entry := by
    rw [storedMaterial, hprev]
    exact hmaterial
  exact ⟨hprev, hdigest, (storedMaterial_eq_iff hprev).mp hstored⟩

theorem Alteration.accepted_of_unchanged {zone : Zone} {table altered : AuditTable}
    {entry entry' : AuditEntry} {raiseOnMismatch : Bool}
    (h : Alteration table altered entry entry')
    (haccepted : verifyShard zone table entry.shardId raiseOnMismatch = .ok true)
    (hprev : entry'.prevHash = entry.prevHash) (hdigest : entry'.hash = entry.hash)
    (hmaterial : storedMaterial zone entry' = storedMaterial zone entry) :
    verifyShard zone altered entry.shardId raiseOnMismatch = .ok true := by
  obtain ⟨pre, post, hwalk, hperm⟩ := h.walk
  rw [verifyShard_iff] at haccepted ⊢
  rw [hwalk] at haccepted
  have hkey : entry'.chainKey = entry.chainKey := by
    rw [AuditEntry.chainKey, AuditEntry.chainKey, ((storedMaterial_eq_iff hprev).mp hmaterial).1]
    exact congrArg (fun k => toLex (entry.atInstant, k)) (congrArg Prod.fst h.primaryKey)
  -- the row keeps its place in the walk
  have hsorted := orderBy_sorted AuditEntry.chainKey (table.shard entry.shardId)
  rw [← AuditTable.walk, hwalk] at hsorted
  have hwalk' : pre ++ entry' :: post = altered.walk entry.shardId := by
    apply eq_orderBy (altered.nodup_chainKey entry.shardId) hperm.symm
    simp only [List.pairwise_append, List.pairwise_cons, List.mem_cons, forall_eq_or_imp,
      hkey] at hsorted ⊢
    exact hsorted
  rw [← hwalk', ChainFormat.linked_append]
  obtain ⟨hpre, hentry, hentryHash, hpost⟩ := ChainFormat.linked_append.mp haccepted
  refine ⟨hpre, hprev.trans hentry, ?_, ?_⟩
  · have hlink : (chainFormat zone).tip none pre = entry.prevHash := hentry.symm
    have hlink' : (chainFormat zone).tip none pre = entry'.prevHash := hlink.trans hprev.symm
    calc (chainFormat zone).digest entry' = (chainFormat zone).digest entry := hdigest
      _ = (chainFormat zone).hash (storedMaterial zone entry) := by rw [hentryHash, hlink]; rfl
      _ = (chainFormat zone).hash (storedMaterial zone entry') := by rw [hmaterial]
      _ = (chainFormat zone).hash ((chainFormat zone).material _ entry') := by rw [hlink']; rfl
  · rw [show (chainFormat zone).digest entry' = (chainFormat zone).digest entry from hdigest]
    exact hpost

/-- The hashed fields up to the last one are free of the separator. -/
def SeparatorFree (entry : AuditEntry) : Prop :=
  ∀ text ∈ [entry.actor, entry.action, orEmpty entry.subject, orEmpty entry.purpose], '|' ∉ text

theorem joinedFields_inj {entry entry' : AuditEntry} (hclean : SeparatorFree entry)
    (hclean' : SeparatorFree entry') (h : joinedFields entry' = joinedFields entry) :
    entry'.actor = entry.actor ∧ entry'.action = entry.action ∧
      orEmpty entry'.subject = orEmpty entry.subject ∧
      orEmpty entry'.purpose = orEmpty entry.purpose ∧
      orEmpty entry'.valueHash = orEmpty entry.valueHash := by
  simp only [SeparatorFree, List.forall_mem_cons, List.not_mem_nil, IsEmpty.forall_iff,
    implies_true, and_true] at hclean hclean'
  have ⟨hactor, haction, hsubject, hpurpose⟩ := hclean
  have ⟨hactor', haction', hsubject', hpurpose'⟩ := hclean'
  have h₁ := join_cons_inj hactor' hactor (by simp) (by simp) h
  have h₂ := join_cons_inj haction' haction (by simp) (by simp) h₁.2
  have h₃ := join_cons_inj hsubject' hsubject (by simp) (by simp) h₂.2
  have h₄ := join_cons_inj hpurpose' hpurpose (by simp) (by simp) h₃.2
  exact ⟨h₁.1, h₂.1, h₃.1, h₄.1, h₄.2⟩

theorem changes_of_separatorFree {entry entry' : AuditEntry} (hclean : SeparatorFree entry)
    (hclean' : SeparatorFree entry') (hchange : ChangesColumn entry entry') :
    entry'.prevHash ≠ entry.prevHash ∨ entry'.hash ≠ entry.hash ∨
      entry'.atInstant ≠ entry.atInstant ∨ joinedFields entry' ≠ joinedFields entry := by
  by_contra hsame
  push Not at hsame
  have ⟨hprev, _, hinstant, hjoined⟩ := hsame
  have hfields := joinedFields_inj hclean hclean' hjoined
  unfold ChangesColumn at hchange
  rw [hprev, hinstant, hfields.1, hfields.2.1, hfields.2.2.1, hfields.2.2.2.1,
    hfields.2.2.2.2] at hchange
  simp at hchange

/-- An alteration is noticed exactly when it changes the link, the hash, the
instant or the joined fields: the separator does not keep the fields apart. Where no field has
one, every changed column is noticed. -/
theorem verifyShard_rejects_alteration_iff {zone : Zone} {table altered : AuditTable}
    {entry entry' : AuditEntry} {raiseOnMismatch : Bool}
    (haltered : Alteration table altered entry entry')
    (haccepted : verifyShard zone table entry.shardId raiseOnMismatch = .ok true)
    (hhash : entry'.hash = entry.hash ∨ (table.walk entry.shardId).getLast? ≠ some entry)
    (hfree : CollisionFree Sha256.hexdigest
      (verifyMaterials zone table entry.shardId ++ verifyMaterials zone altered entry.shardId)) :
    (verifyShard zone altered entry.shardId raiseOnMismatch ≠ .ok true ↔
      entry'.prevHash ≠ entry.prevHash ∨ entry'.hash ≠ entry.hash ∨
        entry'.atInstant ≠ entry.atInstant ∨ joinedFields entry' ≠ joinedFields entry) ∧
    (SeparatorFree entry → SeparatorFree entry' → ChangesColumn entry entry' →
      verifyShard zone altered entry.shardId raiseOnMismatch ≠ .ok true) := by
  have hunnoticed : verifyShard zone altered entry.shardId raiseOnMismatch = .ok true ↔
      entry'.prevHash = entry.prevHash ∧ entry'.hash = entry.hash ∧
        entry'.atInstant = entry.atInstant ∧ joinedFields entry' = joinedFields entry :=
    ⟨haltered.unchanged_of_accepted haccepted hhash hfree, fun ⟨hprev, hdigest, hfields⟩ =>
      haltered.accepted_of_unchanged haccepted hprev hdigest
        ((storedMaterial_eq_iff hprev).mpr hfields)⟩
  have hnoticed : verifyShard zone altered entry.shardId raiseOnMismatch ≠ .ok true ↔
      entry'.prevHash ≠ entry.prevHash ∨ entry'.hash ≠ entry.hash ∨
        entry'.atInstant ≠ entry.atInstant ∨ joinedFields entry' ≠ joinedFields entry := by
    rw [Ne, hunnoticed]
    tauto
  exact ⟨hnoticed, fun hclean hclean' hchange =>
    hnoticed.mpr (changes_of_separatorFree hclean hclean' hchange)⟩

def unmaskedRead : AppendCall where
  id := "entry-1".toList
  now := newYear 0
  args :=
    { actor := "officer-7".toList
      action := "field.unmasked_read".toList
      subject := some "record-1:2:owner".toList
      purpose := some "dispute|closed".toList
      shardId := some 1 }

/-- The table with the one row of `unmaskedRead`, rewritten. -/
def rewritten (change : AuditEntry → AuditEntry) : AuditTable where
  rows := [change (unmaskedRead.entry .empty)]
  unique := List.nodup_singleton _

def renameActor (entry : AuditEntry) : AuditEntry := { entry with actor := "officer-8".toList }

def moveSeparator (entry : AuditEntry) : AuditEntry :=
  { entry with
    subject := some "record-1:2:owner|dispute".toList
    purpose := some "closed".toList }

theorem rewritten_alteration (change : AuditEntry → AuditEntry)
    (hkey : ∀ entry, (change entry).primaryKey = entry.primaryKey) :
    Alteration (history [unmaskedRead]) (rewritten change) (unmaskedRead.entry .empty)
      (change (unmaskedRead.entry .empty)) where
  rows := ⟨[], [], rfl, rfl⟩
  primaryKey := hkey _

theorem renamed_actor_rejected : verifyShard utc (rewritten renameActor) 1 ≠ .ok true := by
  have haltered := rewritten_alteration renameActor (fun _ => rfl)
  have hhash : ∀ entry, (renameActor entry).hash = entry.hash := fun _ => rfl
  have haccepted : verifyShard utc (history [unmaskedRead]) 1 = .ok true := by decide +kernel
  have hnodup : ((verifyMaterials utc (history [unmaskedRead]) 1 ++
      verifyMaterials utc (rewritten renameActor) 1).map Sha256.hexdigest).Nodup := by
    decide +kernel
  have hactor : joinedFields (renameActor (unmaskedRead.entry .empty)) ≠
      joinedFields (unmaskedRead.entry .empty) := by decide +kernel
  exact (verifyShard_rejects_alteration_iff haltered haccepted (Or.inl (hhash _))
    (collisionFree_of_nodup hnodup)).1.mpr (Or.inr (Or.inr (Or.inr hactor)))

/-- Moving a separator from the purpose to the subject changes both columns and
nothing of what is hashed. -/
theorem moved_separator_unnoticed :
    Alteration (history [unmaskedRead]) (rewritten moveSeparator) (unmaskedRead.entry .empty)
        (moveSeparator (unmaskedRead.entry .empty)) ∧
      ChangesColumn (unmaskedRead.entry .empty) (moveSeparator (unmaskedRead.entry .empty)) ∧
      (moveSeparator (unmaskedRead.entry .empty)).hash = (unmaskedRead.entry .empty).hash ∧
      CollisionFree Sha256.hexdigest (verifyMaterials utc (history [unmaskedRead]) 1 ++
        verifyMaterials utc (rewritten moveSeparator) 1) ∧
      verifyShard utc (history [unmaskedRead]) 1 = .ok true ∧
      verifyShard utc (rewritten moveSeparator) 1 = .ok true := by
  have hhash : ∀ entry, (moveSeparator entry).hash = entry.hash := fun _ => rfl
  have hsame : verifyMaterials utc (rewritten moveSeparator) 1 =
      verifyMaterials utc (history [unmaskedRead]) 1 := by decide +kernel
  have hnodup : ((verifyMaterials utc (history [unmaskedRead]) 1).map
      Sha256.hexdigest).Nodup := by decide +kernel
  refine ⟨rewritten_alteration moveSeparator (fun _ => rfl), ?_, hhash _, ?_, ?_, ?_⟩
  · exact Or.inr (Or.inr (Or.inl (by decide)))
  · rw [hsame]
    exact (collisionFree_of_nodup hnodup).mono (by simp)
  · decide +kernel
  · decide +kernel

def SingleLine (entries : List AuditEntry) : Prop :=
  ∀ left entry right, entries = left ++ entry :: right →
    entry.prevHash = left.getLast?.map AuditEntry.hash

/-- After every prefix of the calls the shard verifies and its links form one line. -/
def VerifiesThroughout (shardId : Int) (calls : List AppendCall) : Prop :=
  ∀ before, before <+: calls →
    (∀ raiseOnMismatch, verifyShard utc (history before) shardId raiseOnMismatch = .ok true) ∧
      SingleLine ((history before).shard shardId)

theorem singleLine_of_linked {zone : Zone} {entries : List AuditEntry}
    (h : (chainFormat zone).Linked none entries) : SingleLine entries := by
  rintro left entry right rfl
  have hlink := (ChainFormat.linked_append.mp h).2.1
  rw [ChainFormat.tip_eq_getLast?] at hlink
  exact hlink

theorem exists_initial_history {shardId : Int} {calls : List AppendCall} {left : List AuditEntry}
    (hids : (calls.map AppendCall.id).Nodup) (h : left <+: (history calls).shard shardId) :
    ∃ before, before <+: calls ∧ (history before).shard shardId = left := by
  induction calls using List.reverseRecOn with
  | nil => exact ⟨[], List.prefix_refl _, (List.prefix_nil.mp h).symm⟩
  | append_singleton calls call ih =>
    have hcalls : (calls.map AppendCall.id).Nodup := by
      rw [List.map_append, List.nodup_append] at hids
      exact hids.1
    by_cases hfull : left = (history (calls ++ [call])).shard shardId
    · exact ⟨_, List.prefix_refl _, hfull.symm⟩
    · have hshort : left <+: (history calls).shard shardId := by
        rw [history_shard shardId hids] at h hfull
        split at h
        · rename_i hshard
          rw [if_pos hshard] at hfull
          exact (List.prefix_concat_iff.mp h).resolve_left hfull
        · exact h
      obtain ⟨before, hbefore, hshard⟩ := ih hcalls hshort
      exact ⟨before, hbefore.trans (List.prefix_append _ _), hshard⟩

/-- A shard verifies throughout a run of calls when, and without a SHA-256
collision only when, the clock readings and ids came in increasing order. -/
theorem verifiesThroughout_iff_inOrder {shardId : Int} {calls : List AppendCall}
    (hids : (calls.map AppendCall.id).Nodup) :
    (InOrder shardId calls → VerifiesThroughout shardId calls) ∧
      (CollisionFree Sha256.hexdigest (appendMaterials calls shardId) →
        (VerifiesThroughout shardId calls ↔ InOrder shardId calls)) := by
  have hsufficient : InOrder shardId calls → VerifiesThroughout shardId calls := by
    intro horder before hinitial
    have hbefore := hids.sublist (hinitial.sublist.map AppendCall.id)
    obtain ⟨hwalk, hlinked⟩ := (horder.of_initial hinitial).walk hbefore
    refine ⟨fun raiseOnMismatch => ?_, singleLine_of_linked hlinked⟩
    rw [verifyShard_iff, hwalk]
    exact hlinked
  refine ⟨hsufficient, fun hfree => ⟨fun hverifies => ?_, hsufficient⟩⟩
  rw [inOrder_iff hids]
  apply (history_appended shardId hids).increasing (AuditTable.nodup_chainKey _ _) hfree
  intro left hleft
  obtain ⟨before, hbefore, rfl⟩ := exists_initial_history hids hleft
  exact verifyShard_iff.mp ((hverifies before hbefore).1 true)

theorem steady_clock_verifies :
    VerifiesThroughout 1 [pageIngested "a" 5, pageIngested "c" 7, pageIngested "b" 9] := by
  have horder : InOrder 1 [pageIngested "a" 5, pageIngested "c" 7, pageIngested "b" 9] := by
    decide +kernel
  exact (verifiesThroughout_iff_inOrder (by decide)).1 horder

/-- A clock that steps back: the shard no longer verifies, and its second and
third entries are chained from the same one. -/
theorem clock_step_back_rejected :
    verifyShard utc (history [pageIngested "a" 9, pageIngested "b" 5, pageIngested "c" 7]) 1
        false = .ok false ∧
      ¬ SingleLine ((history [pageIngested "a" 9, pageIngested "b" 5,
        pageIngested "c" 7]).shard 1) := by
  constructor
  · decide +kernel
  · intro hline
    have hprev := hline [(pageIngested "a" 9).entry .empty,
      (pageIngested "b" 5).entry (history [pageIngested "a" 9])]
      ((pageIngested "c" 7).entry (history [pageIngested "a" 9, pageIngested "b" 5])) [] rfl
    revert hprev
    decide +kernel

/-- A session verifies the rows it reloads when, and without a SHA-256 collision
only when, its zone is at UTC at every stored instant. -/
theorem verifyShard_iff_offset_zero {zone : Zone} {shardId : Int} {calls : List AppendCall}
    {raiseOnMismatch : Bool} (hids : (calls.map AppendCall.id).Nodup)
    (horder : InOrder shardId calls) :
    ((∀ entry ∈ (history calls).shard shardId,
        isoformat zone entry.atInstant = isoformat utc entry.atInstant) ↔
      ∀ entry ∈ (history calls).shard shardId, zone.offset entry.atInstant = 0) ∧
    ((∀ entry ∈ (history calls).shard shardId, zone.offset entry.atInstant = 0) →
      verifyShard zone (history calls) shardId raiseOnMismatch = .ok true) ∧
    (CollisionFree Sha256.hexdigest (verifyMaterials zone (history calls) shardId ++
        verifyMaterials utc (history calls) shardId) →
      (verifyShard zone (history calls) shardId raiseOnMismatch = .ok true ↔
        ∀ entry ∈ (history calls).shard shardId, zone.offset entry.atInstant = 0)) := by
  obtain ⟨hwalk, hlinked⟩ := horder.walk hids
  have haccepts : (∀ entry ∈ (history calls).shard shardId, zone.offset entry.atInstant = 0) →
      verifyShard zone (history calls) shardId raiseOnMismatch = .ok true := by
    intro hzero
    rw [verifyShard_iff, hwalk]
    exact linked_congr (fun entry hentry => (hzero entry hentry).symm) hlinked
  refine ⟨⟨?_, ?_⟩, haccepts, fun hfree => ⟨?_, haccepts⟩⟩
  · intro htext entry hentry
    exact (isoformat_inj (htext entry hentry)).2
  · intro hzero entry hentry
    exact isoformat_congr (hzero entry hentry)
  · intro haccepted
    rw [verifyShard_iff, hwalk] at haccepted
    unfold verifyMaterials at hfree
    rw [hwalk] at hfree
    exact offset_eq_of_linked haccepted hlinked hfree

def indiaStandardTime : Zone := ⟨fun _ => 19800, by simp⟩

theorem india_session_rejects :
    verifyShard indiaStandardTime (history [pageIngested "a" 5]) 1 ≠ .ok true := by
  have hnodup : ((verifyMaterials indiaStandardTime (history [pageIngested "a" 5]) 1 ++
      verifyMaterials utc (history [pageIngested "a" 5]) 1).map
        Sha256.hexdigest).Nodup := by decide +kernel
  have hoffset : ¬ ∀ entry ∈ (history [pageIngested "a" 5]).shard 1,
      indiaStandardTime.offset entry.atInstant = 0 := by decide +kernel
  have horder : InOrder 1 [pageIngested "a" 5] := by decide +kernel
  intro haccepted
  exact hoffset (((verifyShard_iff_offset_zero (by decide) horder).2.2
    (collisionFree_of_nodup hnodup)).mp haccepted)

theorem offset_session_rejected :
    verifyShard indiaStandardTime (history [pageIngested "a" 5]) 1 false = .ok false ∧
      isoformat indiaStandardTime (pageIngested "a" 5).now ≠
        isoformat utc (pageIngested "a" 5).now := by
  constructor
  · decide +kernel
  · decide +kernel

end LandRecords.Audit
