import LandRecords.Audit.Chain

/-! The audit chain as a hash chain, and the tables that sequences of `append`
calls produce. A shard's rows are always chained from the greatest key; they
verify exactly when the calls came in key order. -/
namespace LandRecords.Audit

open Datetime Text

private theorem separator_notMem_orEmpty {p : Option Text}
    (h : ∀ d ∈ p, d ∈ Set.range Sha256.hexdigest) : '|' ∉ orEmpty p := by
  cases p with
  | none => simp
  | some d =>
    obtain ⟨m, rfl⟩ := h d rfl
    intro hmem
    exact absurd (Sha256.hexdigest_mem hmem) (by decide)

theorem eq_of_orEmpty_eq {p q : Option Text}
    (hp : ∀ d ∈ p, d ∈ Set.range Sha256.hexdigest)
    (hq : ∀ d ∈ q, d ∈ Set.range Sha256.hexdigest) (h : orEmpty p = orEmpty q) : p = q := by
  cases p with
  | none =>
    cases q with
    | none => rfl
    | some d =>
      obtain ⟨m, rfl⟩ := hq d rfl
      exact absurd h.symm (Sha256.hexdigest_ne_nil m)
  | some d =>
    cases q with
    | none =>
      obtain ⟨m, rfl⟩ := hp d rfl
      exact absurd h (Sha256.hexdigest_ne_nil m)
    | some e => rw [show d = e from h]

theorem hashMaterial_prevHash {p q : Option Text} {actor action atIso actor' action' atIso' : Text}
    {subject purpose valueHash subject' purpose' valueHash' : Option Text}
    (hp : ∀ d ∈ p, d ∈ Set.range Sha256.hexdigest)
    (hq : ∀ d ∈ q, d ∈ Set.range Sha256.hexdigest)
    (h : hashMaterial p actor action subject purpose valueHash atIso =
      hashMaterial q actor' action' subject' purpose' valueHash' atIso') : p = q := by
  apply eq_of_orEmpty_eq hp hq
  exact (join_cons_inj (separator_notMem_orEmpty hp) (separator_notMem_orEmpty hq)
    (by simp) (by simp) h).1

private theorem separator_notMem_isoformat (zone : Zone) (t : Instant) :
    '|' ∉ isoformat zone t := fun h => absurd (isoformat_subset zone t h) (by decide)

theorem hashMaterial_atIso {y z : Zone} {s t : Instant} {p q : Option Text}
    {actor action actor' action' : Text}
    {subject purpose valueHash subject' purpose' valueHash' : Option Text}
    (h : hashMaterial p actor action subject purpose valueHash (isoformat y s) =
      hashMaterial q actor' action' subject' purpose' valueHash' (isoformat z t)) :
    s = t ∧ y.offset s = z.offset t := by
  have hcut := fun (r : Option Text) (a b : Text) (u v w : Option Text) (c : Text) =>
    join_concat "|".toList [orEmpty r, a, b, orEmpty u, orEmpty v, orEmpty w] c (by simp)
  have hparts := (hcut ..).symm.trans (h.trans (hcut ..))
  simp only [List.append_assoc] at hparts
  exact isoformat_inj (cut_last_inj (separator_notMem_isoformat y s)
    (separator_notMem_isoformat z t) hparts).2

def zonedFormat : ChainFormat (Zone × AuditEntry) Text Text where
  prev row := row.2.prevHash
  digest row := row.2.hash
  material p row := entryMaterial row.1 p row.2
  hash := Sha256.hexdigest
  material_prev := hashMaterial_prevHash

def chainFormat (zone : Zone) : ChainFormat AuditEntry Text Text :=
  zonedFormat.comap fun entry => (zone, entry)

theorem verifyEntries_iff (zone : Zone) (shardId : Int) (raiseOnMismatch : Bool)
    (prevHash : Option Text) (entries : List AuditEntry) :
    verifyEntries zone shardId raiseOnMismatch prevHash entries = .ok true ↔
      (chainFormat zone).Linked prevHash entries := by
  induction entries generalizing prevHash with
  | nil => simp [verifyEntries, ChainFormat.Linked]
  | cons entry rest ih =>
    simp only [verifyEntries, ChainFormat.Linked]
    split
    · rename_i hmismatch
      constructor
      · intro h
        split at h <;> simp at h
      · rintro ⟨hprev, hhash, -⟩
        rcases hmismatch with hne | hne
        · exact absurd hprev hne
        · exact absurd hhash hne
    · rename_i hmatch
      push Not at hmatch
      rw [ih]
      exact ⟨fun h => ⟨hmatch.1, hmatch.2, h⟩, fun h => h.2.2⟩

theorem verifyShard_iff {zone : Zone} {table : AuditTable} {shardId : Int}
    {raiseOnMismatch : Bool} :
    verifyShard zone table shardId raiseOnMismatch = .ok true ↔
      (chainFormat zone).Linked none (table.walk shardId) :=
  verifyEntries_iff zone shardId raiseOnMismatch none _

def storedMaterial (zone : Zone) (entry : AuditEntry) : Text :=
  entryMaterial zone entry.prevHash entry

/-- The strings that `verify_shard` hashes along a shard. -/
def verifyMaterials (zone : Zone) (table : AuditTable) (shardId : Int) : List Text :=
  (chainFormat zone).materials none (table.walk shardId)

/-- The primary key keeps the ids of a shard apart, so its walk order is total. -/
theorem AuditTable.nodup_chainKey (table : AuditTable) (shardId : Int) :
    ((table.shard shardId).map AuditEntry.chainKey).Nodup := by
  have hshard := table.unique.sublist
    ((List.filter_sublist (l := table.rows) (p := fun entry => entry.shardId = shardId)).map
      AuditEntry.primaryKey)
  refine List.Nodup.map_on ?_ (List.Nodup.of_map _ hshard)
  intro a ha b hb hkey
  have hsame : a.primaryKey = b.primaryKey := by
    have hids := congrArg (fun k => (ofLex k).2) hkey
    have ha' := (List.mem_filter.mp ha).2
    have hb' := (List.mem_filter.mp hb).2
    simp only [decide_eq_true_eq] at ha' hb'
    exact Prod.ext hids (ha'.trans hb'.symm)
  exact List.inj_on_of_nodup_map hshard ha hb hsame

/-- One `append` call with the row id and the clock reading it draws. -/
structure AppendCall where
  id : Text
  now : Instant
  args : AppendArgs

def AppendCall.chainKey (call : AppendCall) : Instant ×ₗ Text := toLex (call.now, call.id)

/-- A refused call leaves the table as it was. -/
def AuditTable.call (table : AuditTable) (call : AppendCall) : AuditTable :=
  match append table call.id call.now call.args with
  | .ok (_, appended) => appended
  | .error _ => table

/-- The table after a sequence of calls from the empty table. -/
def history (calls : List AppendCall) : AuditTable := calls.foldl AuditTable.call .empty

def callsTo (shardId : Int) (calls : List AppendCall) : List AppendCall :=
  calls.filter fun call => call.args.resolvedShard = shardId

def AppendCall.entry (table : AuditTable) (call : AppendCall) : AuditEntry :=
  newEntry call.id call.now call.args
    (latest AuditEntry.chainKey (table.shard call.args.resolvedShard))

theorem append_ok {table : AuditTable} {call : AppendCall}
    (hfresh : call.id ∉ table.rows.map AuditEntry.id) :
    ∃ unique, append table call.id call.now call.args =
      .ok (call.entry table, ⟨table.rows ++ [call.entry table], unique⟩) := by
  have huntaken : (call.entry table).primaryKey ∉ table.rows.map AuditEntry.primaryKey := by
    intro htaken
    obtain ⟨row, hrow, hkey⟩ := List.mem_map.mp htaken
    exact hfresh (List.mem_map.mpr ⟨row, hrow, congrArg Prod.fst hkey⟩)
  exact ⟨_, dif_neg huntaken⟩

theorem AuditTable.call_rows {table : AuditTable} {call : AppendCall}
    (hfresh : call.id ∉ table.rows.map AuditEntry.id) :
    (table.call call).rows = table.rows ++ [call.entry table] := by
  obtain ⟨unique, happend⟩ := append_ok hfresh
  rw [AuditTable.call, happend]

theorem history_concat (calls : List AppendCall) (call : AppendCall) :
    history (calls ++ [call]) = (history calls).call call := by
  simp [history, List.foldl_append]

theorem history_ids {calls : List AppendCall} (hids : (calls.map AppendCall.id).Nodup) :
    (history calls).rows.map AuditEntry.id = calls.map AppendCall.id := by
  induction calls using List.reverseRecOn with
  | nil => rfl
  | append_singleton calls call ih =>
    rw [List.map_append, List.nodup_append] at hids
    have hcalls := ih hids.1
    have hfresh : call.id ∉ (history calls).rows.map AuditEntry.id := by
      rw [hcalls]
      intro hmem
      exact hids.2.2 _ hmem _ (by simp) rfl
    rw [history_concat, AuditTable.call_rows hfresh, List.map_append, hcalls, List.map_append]
    rfl

theorem history_rows {calls : List AppendCall} {call : AppendCall}
    (hids : ((calls ++ [call]).map AppendCall.id).Nodup) :
    (history (calls ++ [call])).rows = (history calls).rows ++ [call.entry (history calls)] := by
  rw [List.map_append, List.nodup_append] at hids
  rw [history_concat]
  apply AuditTable.call_rows
  rw [history_ids hids.1]
  intro hmem
  exact hids.2.2 _ hmem _ (by simp) rfl

theorem history_shard {calls : List AppendCall} {call : AppendCall} (shardId : Int)
    (hids : ((calls ++ [call]).map AppendCall.id).Nodup) :
    (history (calls ++ [call])).shard shardId =
      if call.args.resolvedShard = shardId then
        (history calls).shard shardId ++ [call.entry (history calls)]
      else (history calls).shard shardId := by
  have hentry : (call.entry (history calls)).shardId = call.args.resolvedShard := rfl
  rw [AuditTable.shard, history_rows hids, List.filter_append]
  split
  · rename_i hshard
    rw [List.filter_cons_of_pos (by simp [hentry, hshard]), List.filter_nil]
    rfl
  · rename_i hshard
    rw [List.filter_cons_of_neg (by simp [hentry, hshard]), List.filter_nil, List.append_nil]
    rfl

theorem history_shard_of_elsewhere {calls later : List AppendCall} {shardId : Int}
    (hids : ((calls ++ later).map AppendCall.id).Nodup)
    (helsewhere : ∀ call ∈ later, call.args.resolvedShard ≠ shardId) :
    (history (calls ++ later)).shard shardId = (history calls).shard shardId := by
  induction later using List.reverseRecOn with
  | nil => rw [List.append_nil]
  | append_singleton later call ih =>
    rw [← List.append_assoc] at hids ⊢
    have hlater : ((calls ++ later).map AppendCall.id).Nodup := by
      rw [List.map_append, List.nodup_append] at hids
      exact hids.1
    rw [history_shard shardId hids, if_neg (helsewhere call (by simp))]
    exact ih hlater fun earlier hmem => helsewhere earlier (List.mem_append_left _ hmem)

theorem history_shard_initial {calls later : List AppendCall} (shardId : Int)
    (hids : ((calls ++ later).map AppendCall.id).Nodup) :
    (history calls).shard shardId <+: (history (calls ++ later)).shard shardId := by
  induction later using List.reverseRecOn with
  | nil => exact ⟨[], by rw [List.append_nil, List.append_nil]⟩
  | append_singleton later call ih =>
    rw [← List.append_assoc] at hids ⊢
    have hlater : ((calls ++ later).map AppendCall.id).Nodup := by
      rw [List.map_append, List.nodup_append] at hids
      exact hids.1
    rw [history_shard shardId hids]
    split
    · exact (ih hlater).trans (List.prefix_append _ _)
    · exact ih hlater

theorem history_chainKeys {calls : List AppendCall} (shardId : Int)
    (hids : (calls.map AppendCall.id).Nodup) :
    ((history calls).shard shardId).map AuditEntry.chainKey =
      (callsTo shardId calls).map AppendCall.chainKey := by
  induction calls using List.reverseRecOn with
  | nil => rfl
  | append_singleton calls call ih =>
    have hcalls : (calls.map AppendCall.id).Nodup := by
      rw [List.map_append, List.nodup_append] at hids
      exact hids.1
    rw [history_shard shardId hids, callsTo, List.filter_append]
    split
    · rename_i hshard
      rw [List.map_append, ih hcalls, List.filter_cons_of_pos (by simp [hshard]), List.map_append]
      rfl
    · rename_i hshard
      rw [ih hcalls, List.filter_cons_of_neg (by simp [hshard]), List.filter_nil, List.append_nil]
      rfl

/-- The calls on a shard came in the order of their clock readings and ids. -/
def InOrder (shardId : Int) (calls : List AppendCall) : Prop :=
  (callsTo shardId calls).Pairwise fun a b => a.chainKey < b.chainKey

instance (shardId : Int) (calls : List AppendCall) : Decidable (InOrder shardId calls) :=
  inferInstanceAs (Decidable (List.Pairwise _ _))

theorem inOrder_iff {calls : List AppendCall} {shardId : Int}
    (hids : (calls.map AppendCall.id).Nodup) :
    InOrder shardId calls ↔
      ((history calls).shard shardId).Pairwise fun a b => a.chainKey < b.chainKey := by
  have hkeys := history_chainKeys shardId hids
  rw [InOrder, ← List.pairwise_map (f := AppendCall.chainKey) (R := fun a b => a < b), ← hkeys,
    List.pairwise_map]

/-- Each row of a shard is chained from the row with the greatest key before it. -/
theorem history_appended {calls : List AppendCall} (shardId : Int)
    (hids : (calls.map AppendCall.id).Nodup) :
    (chainFormat utc).Appended AuditEntry.chainKey ((history calls).shard shardId) := by
  induction calls using List.reverseRecOn with
  | nil => exact .nil
  | append_singleton calls call ih =>
    have hcalls : (calls.map AppendCall.id).Nodup := by
      rw [List.map_append, List.nodup_append] at hids
      exact hids.1
    rw [history_shard shardId hids]
    split
    · rename_i hshard
      subst hshard
      exact .concat (ih hcalls) ⟨rfl, rfl⟩
    · exact ih hcalls

theorem InOrder.of_initial {shardId : Int} {before calls : List AppendCall}
    (h : InOrder shardId calls) (hinitial : before <+: calls) : InOrder shardId before :=
  h.sublist (hinitial.filter _).sublist

/-- In key order the walk meets the rows in the order of the calls. -/
theorem InOrder.walk {shardId : Int} {calls : List AppendCall}
    (hids : (calls.map AppendCall.id).Nodup) (h : InOrder shardId calls) :
    (history calls).walk shardId = (history calls).shard shardId ∧
      (chainFormat utc).Linked none ((history calls).shard shardId) := by
  have hincreasing := (inOrder_iff hids).mp h
  exact ⟨orderBy_of_increasing hincreasing, (history_appended shardId hids).linked hincreasing⟩

theorem offset_eq_of_linked {y z : Zone} {p : Option Text} {entries : List AuditEntry}
    (hy : (chainFormat y).Linked p entries) (hz : (chainFormat z).Linked p entries)
    (hfree : CollisionFree Sha256.hexdigest
      ((chainFormat y).materials p entries ++ (chainFormat z).materials p entries)) :
    ∀ entry ∈ entries, y.offset entry.atInstant = z.offset entry.atInstant := by
  induction entries generalizing p with
  | nil => simp
  | cons first rest ih =>
    obtain ⟨-, hyhash, hyrest⟩ := hy
    obtain ⟨-, hzhash, hzrest⟩ := hz
    rw [List.forall_mem_cons]
    constructor
    · have hmaterial := hfree (by simp [ChainFormat.materials]) (by simp [ChainFormat.materials])
        (hyhash.symm.trans hzhash)
      exact (hashMaterial_atIso hmaterial).2
    · apply ih hyrest hzrest
      apply hfree.mono
      intro m hm
      simp only [ChainFormat.materials, List.mem_append, List.mem_cons] at hm ⊢
      tauto

theorem isoformat_congr {y z : Zone} {t : Instant} (h : y.offset t = z.offset t) :
    isoformat y t = isoformat z t := by
  simp only [isoformat, Zone.wall, h]

theorem linked_congr {y z : Zone} {p : Option Text} {entries : List AuditEntry}
    (h : ∀ entry ∈ entries, y.offset entry.atInstant = z.offset entry.atInstant)
    (hy : (chainFormat y).Linked p entries) : (chainFormat z).Linked p entries := by
  induction entries generalizing p with
  | nil => trivial
  | cons first rest ih =>
    rw [List.forall_mem_cons] at h
    obtain ⟨hprev, hhash, hrest⟩ := hy
    refine ⟨hprev, ?_, ih h.2 hrest⟩
    change first.hash = Sha256.hexdigest (entryMaterial z p first)
    rw [entryMaterial, ← isoformat_congr h.1]
    exact hhash

/-- The strings hashed by the calls of a history on a shard. -/
def appendMaterials (calls : List AppendCall) (shardId : Int) : List Text :=
  (chainFormat utc).ownMaterials ((history calls).shard shardId)

def pageIngested (id : String) (seconds : Fin 60) : AppendCall where
  id := id.toList
  now := newYear seconds
  args :=
    { actor := "system:ingest".toList
      action := "page.ingested".toList
      subject := some "page-1".toList
      shardId := some 1 }

end LandRecords.Audit
