import LandRecords.Base.Runs
import LandRecords.Config.Versions
import Mathlib

/-! The lineage of a key. Rows are linked in the order of their writes and read in
the order of their dates, and the two orders agree when every write is dated after
the rows before it. -/
namespace LandRecords.Config

open Backend Audit Datetime Text

def configStep (db : Database) (call : ConfigWrite × ConfigStamps) : Option Database :=
  commit (writeConfigVersion call.1 call.2) db

def LinksTo (row next : ConfigVersion) : Prop := row.supersededBy = some next.id

/-- The key has one head, at the end of one chain through its rows. The head is
served once every row is effective, and no row is served after its successor
became effective. -/
structure Lineage (db : Database) (scope key : Text) : Prop where
  head : ∃ head, ((versionsOf db scope key).filter fun row => row.supersededBy = none) = [head] ∧
    (∃ chain : List ConfigVersion, chain.Perm (versionsOf db scope key) ∧ chain.IsChain LinksTo ∧
      chain.getLast? = some head) ∧
    ∀ asOf, (∀ row ∈ versionsOf db scope key, row.effectiveFrom ≤ asOf) →
      getEffectiveConfig scope key asOf db = (.returned head, db)
  inForce : ∀ asOf row successor, getEffectiveConfig scope key asOf db = (.returned row, db) →
    successor ∈ versionsOf db scope key → LinksTo row successor → asOf < successor.effectiveFrom

def Lineages (db : Database) : Prop :=
  ∀ scope key, versionsOf db scope key ≠ [] → Lineage db scope key

/-- An accepted write is dated after every row of its key. -/
def DatedLast (db : Database) (call : ConfigWrite × ConfigStamps) : Prop :=
  call.1.author ≠ call.1.approver →
    ∀ row ∈ versionsOf db call.1.scope call.1.key, row.effectiveFrom < call.1.effectiveFrom

structure Linked (rows : List ConfigVersion) : Prop where
  chain : rows.IsChain LinksTo
  last : ∀ row, rows.getLast? = some row → row.supersededBy = none

structure Versioned (db : Database) : Prop where
  ids : (db.configVersions.map ConfigVersion.id).Nodup
  dates : (db.configVersions.map fun row => (row.scope, row.key, row.effectiveFrom)).Nodup
  linked : ∀ scope key, Linked (versionsOf db scope key)

def Ordered (db : Database) : Prop :=
  ∀ scope key, (versionsOf db scope key).Pairwise fun a b => a.effectiveFrom < b.effectiveFrom

section Rows

variable {rows : List ConfigVersion}

theorem Linked.open_rows (h : Linked rows) :
    (rows.filter fun row => row.supersededBy = none) = rows.getLast?.toList := by
  obtain ⟨hchain, hlast⟩ := h
  induction rows with
  | nil => rfl
  | cons row rest ih =>
    cases rest with
    | nil => simp [hlast row rfl]
    | cons next rest =>
      obtain ⟨hlink, hrest⟩ := List.isChain_cons_cons.mp hchain
      have hclosed : row.supersededBy ≠ none := by
        rw [hlink]
        exact Option.some_ne_none _
      rw [List.filter_cons_of_neg (by simpa using hclosed), List.getLast?_cons_cons]
      apply ih hrest
      intro last hlastRow
      exact hlast last (by rw [List.getLast?_cons_cons]; exact hlastRow)

theorem Linked.next (h : Linked rows) {row : ConfigVersion} (hrow : row ∈ rows)
    {newId : Text} (hlink : row.supersededBy = some newId) :
    ∃ before next after, rows = before ++ row :: next :: after ∧ next.id = newId := by
  obtain ⟨before, after, rfl⟩ := List.append_of_mem hrow
  cases after with
  | nil =>
    have hnone := h.last row (by simp)
    rw [hnone] at hlink
    cases hlink
  | cons next after =>
    have hnext : LinksTo row next := (List.isChain_append_cons_cons.mp h.chain).2.1
    refine ⟨before, next, after, rfl, ?_⟩
    rw [LinksTo, hlink] at hnext
    exact (Option.some.inj hnext).symm

end Rows

section Reads

variable {db : Database} {scope key : Text} {asOf : Instant} {row : ConfigVersion}

theorem getEffectiveConfig_returned :
    getEffectiveConfig scope key asOf db = (.returned row, db) ↔
      effectiveRow db scope key asOf = some row := by
  rw [getEffectiveConfig, Fallible.read_bind]
  cases effectiveRow db scope key asOf with
  | none => simp [Fallible.raise_apply]
  | some found => simp [Fallible.pure_apply]

theorem effectiveRow_mem (h : effectiveRow db scope key asOf = some row) :
    row ∈ versionsOf db scope key ∧ row.effectiveFrom ≤ asOf := by
  obtain ⟨hmem, hdate⟩ := List.mem_filter.mp (latest_mem h)
  exact ⟨hmem, of_decide_eq_true hdate⟩

theorem effectiveRow_greatest (h : effectiveRow db scope key asOf = some row)
    {other : ConfigVersion} (hother : other ∈ versionsOf db scope key)
    (hdate : other.effectiveFrom ≤ asOf) : other.effectiveFrom ≤ row.effectiveFrom :=
  latest_greatest h (List.mem_filter.mpr ⟨hother, decide_eq_true hdate⟩)

theorem Versioned.eq_of_date (h : Versioned db) {other : ConfigVersion}
    (hrow : row ∈ versionsOf db scope key) (hother : other ∈ versionsOf db scope key)
    (hdate : row.effectiveFrom = other.effectiveFrom) : row = other := by
  obtain ⟨hrowMem, hrowKey⟩ := List.mem_filter.mp hrow
  obtain ⟨hotherMem, hotherKey⟩ := List.mem_filter.mp hother
  obtain ⟨hscope, hkey⟩ := of_decide_eq_true hrowKey
  obtain ⟨hscope', hkey'⟩ := of_decide_eq_true hotherKey
  apply List.inj_on_of_nodup_map h.dates hrowMem hotherMem
  rw [hscope, hkey, hdate, hscope', hkey']

theorem Versioned.eq_of_id (h : Versioned db) {other : ConfigVersion}
    (hrow : row ∈ versionsOf db scope key) (hother : other ∈ versionsOf db scope key)
    (hid : row.id = other.id) : row = other :=
  List.inj_on_of_nodup_map h.ids (List.mem_of_mem_filter hrow) (List.mem_of_mem_filter hother) hid

theorem Versioned.effectiveRow_own (h : Versioned db) (hrow : row ∈ versionsOf db scope key) :
    effectiveRow db scope key row.effectiveFrom = some row := by
  cases hfound : effectiveRow db scope key row.effectiveFrom with
  | none =>
    have hempty := latest_eq_none.mp hfound
    rw [List.filter_eq_nil_iff] at hempty
    exact absurd (decide_eq_true (le_refl _)) (hempty row hrow)
  | some found =>
    obtain ⟨hmem, hdate⟩ := effectiveRow_mem hfound
    have hgreatest := effectiveRow_greatest hfound hrow (le_refl _)
    rw [h.eq_of_date hmem hrow (le_antisymm hdate hgreatest)]

/-- The lineage of a key is in order exactly when its rows were written in the order
of their dates. -/
theorem Versioned.lineage_iff (h : Versioned db) (hrows : versionsOf db scope key ≠ []) :
    Lineage db scope key ↔
      (versionsOf db scope key).Pairwise fun a b => a.effectiveFrom < b.effectiveFrom := by
  have hlinked := h.linked scope key
  constructor
  · intro hlineage
    have htrans : IsTrans ConfigVersion fun a b => a.effectiveFrom < b.effectiveFrom :=
      ⟨fun _ _ _ => lt_trans⟩
    rw [← List.isChain_iff_pairwise, List.isChain_iff_forall_rel_of_append_cons_cons]
    intro row next before after hsplit
    have hrow : row ∈ versionsOf db scope key := by simp [hsplit]
    have hnext : next ∈ versionsOf db scope key := by simp [hsplit]
    have hlink : LinksTo row next := by
      have hchain := hlinked.chain
      rw [hsplit] at hchain
      exact (List.isChain_append_cons_cons.mp hchain).2.1
    exact hlineage.inForce row.effectiveFrom row next
      (getEffectiveConfig_returned.mpr (h.effectiveRow_own hrow)) hnext hlink
  · intro hordered
    constructor
    · obtain ⟨head, hhead⟩ := Option.isSome_iff_exists.mp (List.getLast?_isSome.mpr hrows)
      refine ⟨head, ?_, ⟨_, List.Perm.refl _, hlinked.chain, hhead⟩, ?_⟩
      · rw [hlinked.open_rows, hhead]
        rfl
      · intro asOf hall
        rw [getEffectiveConfig_returned, effectiveRow,
          List.filter_eq_self.mpr fun row hrow => decide_eq_true (hall row hrow),
          latest_of_increasing hordered, hhead]
    · intro asOf row successor hserved hsuccessor hlink
      rw [getEffectiveConfig_returned] at hserved
      by_contra hdate
      obtain ⟨hrow, -⟩ := effectiveRow_mem hserved
      have hbefore := effectiveRow_greatest hserved hsuccessor (not_lt.mp hdate)
      obtain ⟨before, next, after, hsplit, hid⟩ := hlinked.next hrow hlink
      have hnext : next = successor := h.eq_of_id (by simp [hsplit]) hsuccessor hid
      rw [hsplit, hnext] at hordered
      have hlater := (List.pairwise_cons.mp (List.pairwise_append.mp hordered).2.1).1 successor
        List.mem_cons_self
      exact absurd hlater (not_lt_of_ge hbefore)

end Reads

section Writes

variable {db db' : Database} {scope key : Text} {priorId newId : Text}

theorem supersede_of_notMem {rows : List ConfigVersion}
    (h : priorId ∉ rows.map ConfigVersion.id) : supersede priorId newId rows = rows :=
  Rows.updateAt_of_notMem h

theorem map_supersede {β : Type} {column : ConfigVersion → β} (rows : List ConfigVersion)
    (hcolumn : ∀ row : ConfigVersion, column { row with supersededBy := some newId } = column row) :
    (supersede priorId newId rows).map column = rows.map column :=
  Rows.map_updateAt hcolumn rows

theorem versionsOf_withSuperseded : versionsOf (withSuperseded priorId newId db) scope key =
    supersede priorId newId (versionsOf db scope key) := by
  apply Rows.filter_updateAt
  intro row
  rfl

theorem versionsOf_withVersion (row : ConfigVersion) :
    versionsOf (withVersion row db) scope key =
      versionsOf db scope key ++ if row.scope = scope ∧ row.key = key then [row] else [] := by
  unfold versionsOf withVersion
  rw [List.filter_append]
  congr 1
  by_cases hown : row.scope = scope ∧ row.key = key
  · simp [hown]
  · simp [hown]

theorem Linked.concat {rows : List ConfigVersion} {last row : ConfigVersion}
    (h : Linked (rows ++ [last])) (hopen : row.supersededBy = none) :
    Linked (rows ++ [{ last with supersededBy := some row.id }] ++ [row]) := by
  constructor
  · rw [List.append_assoc, List.singleton_append, List.isChain_append_cons_cons]
    refine ⟨?_, rfl, List.isChain_singleton _⟩
    have hchain := h.chain
    rw [List.isChain_append] at hchain ⊢
    refine ⟨hchain.1, List.isChain_singleton _, ?_⟩
    intro before hbefore next hnext
    obtain rfl := Option.some.inj hnext
    exact hchain.2.2 before hbefore last rfl
  · intro final hfinal
    rw [List.getLast?_concat] at hfinal
    obtain rfl := Option.some.inj hfinal
    exact hopen

theorem Linked.priorHead (h : Linked (versionsOf db scope key)) :
    priorHead db scope key = (versionsOf db scope key).getLast? := by
  rw [Config.priorHead, h.open_rows]
  cases (versionsOf db scope key).getLast? with
  | none => rfl
  | some last => rfl

theorem Versioned.written_own (h : Versioned db) (row : ConfigVersion)
    (hopen : row.supersededBy = none) (hfresh : row.id ∉ db.configVersions.map ConfigVersion.id) :
    Linked (versionsOf (linkHead (priorHead db row.scope row.key) row.id (withVersion row db))
      row.scope row.key) := by
  have hlinked := h.linked row.scope row.key
  rw [hlinked.priorHead]
  cases hrows : (versionsOf db row.scope row.key).getLast? with
  | none =>
    rw [linkHead, versionsOf_withVersion, List.getLast?_eq_none_iff.mp hrows, if_pos ⟨rfl, rfl⟩]
    refine ⟨List.isChain_singleton _, fun last hlast => ?_⟩
    obtain rfl := Option.some.inj hlast
    exact hopen
  | some last =>
    obtain ⟨init, hsplit⟩ := List.getLast?_eq_some_iff.mp hrows
    have hlast : last ∈ db.configVersions := by
      have hmem : last ∈ versionsOf db row.scope row.key := by simp [hsplit]
      exact List.mem_of_mem_filter hmem
    have hother : row.id ≠ last.id := by
      intro hid
      exact hfresh (hid ▸ List.mem_map_of_mem hlast)
    have hinit : last.id ∉ init.map ConfigVersion.id := by
      have hids : ((versionsOf db row.scope row.key).map ConfigVersion.id).Nodup :=
        h.ids.sublist (List.filter_sublist.map _)
      rw [hsplit, List.map_append, List.map_singleton, List.nodup_append] at hids
      intro hmem
      exact hids.2.2 _ hmem _ (List.mem_singleton_self _) rfl
    rw [linkHead, versionsOf_withSuperseded, versionsOf_withVersion, if_pos ⟨rfl, rfl⟩, hsplit]
    have hwritten : supersede last.id row.id (init ++ [last] ++ [row]) =
        init ++ [{ last with supersededBy := some row.id }] ++ [row] := by
      have hunchanged : supersede last.id row.id init = init := supersede_of_notMem hinit
      unfold supersede at hunchanged ⊢
      rw [List.map_append, List.map_append, hunchanged, List.map_singleton, List.map_singleton,
        if_pos rfl, if_neg hother]
    rw [hwritten]
    rw [hsplit] at hlinked
    exact hlinked.concat hopen

theorem Versioned.written_other (h : Versioned db) (row : ConfigVersion)
    (hother : ¬ (row.scope = scope ∧ row.key = key)) :
    versionsOf (linkHead (priorHead db row.scope row.key) row.id (withVersion row db)) scope key =
      versionsOf db scope key := by
  have hadded : versionsOf (withVersion row db) scope key = versionsOf db scope key := by
    rw [versionsOf_withVersion, if_neg hother, List.append_nil]
  cases hprior : priorHead db row.scope row.key with
  | none => exact hadded
  | some prior =>
    rw [linkHead, versionsOf_withSuperseded, hadded]
    apply supersede_of_notMem
    intro hmem
    obtain ⟨same, hsame, hid⟩ := List.mem_map.mp hmem
    have hpriorRow := List.mem_of_mem_filter (latest_mem hprior)
    have heq := List.inj_on_of_nodup_map h.ids (List.mem_of_mem_filter hsame)
      (List.mem_of_mem_filter hpriorRow) hid
    obtain ⟨hscope, hkey⟩ := of_decide_eq_true (List.mem_filter.mp hsame).2
    obtain ⟨hscope', hkey'⟩ := of_decide_eq_true (List.mem_filter.mp hpriorRow).2
    rw [heq] at hscope hkey
    exact hother ⟨hscope'.symm.trans hscope, hkey'.symm.trans hkey⟩

theorem map_versionsOf_written {β : Type} {column : ConfigVersion → β}
    (hcolumn : ∀ row newId, column { row with supersededBy := some newId } = column row)
    (prior : Option ConfigVersion) (row : ConfigVersion) :
    (versionsOf (linkHead prior newId (withVersion row db)) scope key).map column =
      (versionsOf db scope key ++ if row.scope = scope ∧ row.key = key then [row] else []).map
        column := by
  rw [← versionsOf_withVersion]
  cases prior with
  | none => rfl
  | some prior =>
    rw [linkHead, versionsOf_withSuperseded]
    exact map_supersede _ fun row => hcolumn row newId

theorem map_written {β : Type} {column : ConfigVersion → β}
    (hcolumn : ∀ row newId, column { row with supersededBy := some newId } = column row)
    (prior : Option ConfigVersion) (row : ConfigVersion) :
    (linkHead prior newId (withVersion row db)).configVersions.map column =
      db.configVersions.map column ++ [column row] := by
  have hadded : (withVersion row db).configVersions.map column =
      db.configVersions.map column ++ [column row] := by
    simp [withVersion]
  cases prior with
  | none => exact hadded
  | some prior => exact (map_supersede _ fun row => hcolumn row newId).trans hadded

end Writes

section Steps

variable {db db' : Database} {write : ConfigWrite} {stamps : ConfigStamps}

theorem configVersions_written
    (h : writeConfigVersion write stamps db = (.returned (newVersion write stamps.id), db'))
    (scope key : Text) :
    db'.configVersions = (linkHead (priorHead db write.scope write.key) stamps.id
        (withVersion (newVersion write stamps.id) db)).configVersions ∧
      versionsOf db' scope key = versionsOf (linkHead (priorHead db write.scope write.key) stamps.id
        (withVersion (newVersion write stamps.id) db)) scope key := by
  obtain ⟨-, -, -, -, -, hdb'⟩ := writeConfigVersion_returned h
  rw [hdb']
  exact ⟨rfl, rfl⟩

theorem Versioned.written (h : Versioned db)
    (hwrite : writeConfigVersion write stamps db = (.returned (newVersion write stamps.id), db')) :
    Versioned db' := by
  obtain ⟨-, -, hid, hdate, -, -⟩ := writeConfigVersion_returned hwrite
  have htable := (configVersions_written hwrite [] []).1
  constructor
  · rw [htable, map_written (fun _ _ => rfl)]
    exact List.Nodup.append h.ids (List.nodup_singleton _) (List.disjoint_singleton.mpr hid)
  · rw [htable, map_written (fun _ _ => rfl)]
    exact List.Nodup.append h.dates (List.nodup_singleton _) (List.disjoint_singleton.mpr hdate)
  · intro scope key
    rw [(configVersions_written hwrite scope key).2]
    by_cases hown : write.scope = scope ∧ write.key = key
    · obtain ⟨rfl, rfl⟩ := hown
      exact h.written_own (newVersion write stamps.id) rfl hid
    · have hother : versionsOf (linkHead (priorHead db write.scope write.key) stamps.id
          (withVersion (newVersion write stamps.id) db)) scope key = versionsOf db scope key :=
        h.written_other (newVersion write stamps.id) hown
      rw [hother]
      exact h.linked scope key

/-- A write keeps the rows of every key in the order of their dates exactly when it
is dated last. -/
theorem Ordered.written_iff (h : Ordered db)
    (hwrite : writeConfigVersion write stamps db = (.returned (newVersion write stamps.id), db')) :
    Ordered db' ↔ ∀ row ∈ versionsOf db write.scope write.key,
      row.effectiveFrom < write.effectiveFrom := by
  have hrows : ∀ scope key, (versionsOf db' scope key).Pairwise
        (fun a b => a.effectiveFrom < b.effectiveFrom) ↔
      (versionsOf db scope key ++ if write.scope = scope ∧ write.key = key then
        [newVersion write stamps.id] else []).Pairwise
          fun a b => a.effectiveFrom < b.effectiveFrom := by
    intro scope key
    have hdates : ∀ rows : List ConfigVersion,
        rows.Pairwise (fun a b => a.effectiveFrom < b.effectiveFrom) ↔
          (rows.map ConfigVersion.effectiveFrom).Pairwise (· < ·) :=
      fun rows => List.pairwise_map.symm
    rw [hdates, hdates, (configVersions_written hwrite scope key).2,
      map_versionsOf_written (fun _ _ => rfl)]
    rfl
  constructor
  · intro hordered
    have hown := (hrows write.scope write.key).mp (hordered write.scope write.key)
    rw [if_pos ⟨rfl, rfl⟩, List.pairwise_append] at hown
    exact fun row hrow => hown.2.2 row hrow _ (List.mem_singleton_self _)
  · intro hlater scope key
    rw [hrows scope key]
    split
    · rename_i hown
      obtain ⟨rfl, rfl⟩ := hown
      rw [List.pairwise_append]
      refine ⟨h _ _, List.pairwise_singleton _ _, fun row hrow next hnext => ?_⟩
      rw [List.mem_singleton.mp hnext]
      exact hlater row hrow
    · rw [List.append_nil]
      exact h scope key

theorem lineages_iff_ordered (h : Versioned db) : Lineages db ↔ Ordered db := by
  constructor
  · intro hlineages scope key
    by_cases hrows : versionsOf db scope key = []
    · rw [hrows]
      exact List.Pairwise.nil
    · exact (h.lineage_iff hrows).mp (hlineages scope key hrows)
  · intro hordered scope key hrows
    exact (h.lineage_iff hrows).mpr (hordered scope key)

end Steps

/-- No configuration has been written yet. -/
def Unconfigured (db : Database) : Prop := db.configVersions = []

theorem versionsOf_of_unconfigured {db : Database} (h : Unconfigured db) (scope key : Text) :
    versionsOf db scope key = [] := by
  rw [versionsOf, h]
  rfl

/-- The lineage of every key is in order throughout a run exactly when each write is
dated after the rows of its key. -/
theorem lineages_iff_datedLast {db : Database} (h : Unconfigured db)
    (calls : List (ConfigWrite × ConfigStamps)) :
    Runs.Throughout configStep Lineages db calls ↔ Runs.AllSteps configStep DatedLast db calls := by
  apply Runs.throughout_iff_of_exact (I := Versioned) (C := Ordered)
  · refine ⟨?_, ?_, fun scope key => ?_⟩
    · rw [h]
      exact List.nodup_nil
    · rw [h]
      exact List.nodup_nil
    · rw [versionsOf_of_unconfigured h]
      exact ⟨List.isChain_nil, fun row hrow => nomatch hrow⟩
  · intro scope key
    rw [versionsOf_of_unconfigured h]
    exact List.Pairwise.nil
  · intro s a t hs hordered hcall
    rcases writeConfigVersion_cases hcall with ⟨rfl, hsame⟩ | ⟨hdistinct, hwrite⟩
    · exact ⟨hs, iff_of_true hordered fun hdistinct => absurd hsame hdistinct⟩
    · refine ⟨hs.written hwrite, (hordered.written_iff hwrite).trans ?_⟩
      exact ⟨fun hlater _ => hlater, fun hlater => hlater hdistinct⟩
  · exact fun s hs => lineages_iff_ordered hs

def sampleWrite (effectiveFrom : Instant) : ConfigWrite where
  scope := "district".toList
  key := "review.sample".toList
  value := []
  effectiveFrom := effectiveFrom
  author := "alice".toList
  approver := "bob".toList

def sampleConfigStamps (id : Text) : ConfigStamps where
  id := id
  authored := ⟨id ++ "-a".toList, newYear 9⟩
  approved := ⟨id ++ "-b".toList, newYear 9⟩
  message := ⟨id ++ "-m".toList, newYear 9⟩

def backDated : List (ConfigWrite × ConfigStamps) :=
  [(sampleWrite (newYear 5), sampleConfigStamps "v1".toList),
    (sampleWrite (newYear 3), sampleConfigStamps "v2".toList)]

theorem unconfigured_empty : Unconfigured {} := rfl

theorem lineages_iff_backDated : Runs.Throughout configStep Lineages {} backDated ↔
    Runs.AllSteps configStep DatedLast {} backDated :=
  lineages_iff_datedLast unconfigured_empty backDated

theorem backDated_serves_superseded : ¬ Runs.Throughout configStep Lineages {} backDated := by
  intro h
  have hserved : (Runs.run configStep {} backDated).any (fun db =>
      (effectiveRow db "district".toList "review.sample".toList (newYear 5)).any fun row =>
        (versionsOf db "district".toList "review.sample".toList).any fun successor =>
          row.supersededBy = some successor.id ∧ successor.effectiveFrom ≤ newYear 5) = true := by
    decide +kernel
  obtain ⟨db, hrun, hdb⟩ := (Option.any_eq_true _ _).mp hserved
  obtain ⟨row, hrow, hsuccessors⟩ := (Option.any_eq_true _ _).mp hdb
  obtain ⟨successor, hsuccessor, hboth⟩ := List.any_eq_true.mp hsuccessors
  obtain ⟨hlink, hdate⟩ := of_decide_eq_true hboth
  have hlineage := h.at_run hrun "district".toList "review.sample".toList
    (List.ne_nil_of_mem hsuccessor)
  exact absurd (hlineage.inForce _ row successor (getEffectiveConfig_returned.mpr hrow) hsuccessor
    hlink) (not_lt_of_ge hdate)

end LandRecords.Config
