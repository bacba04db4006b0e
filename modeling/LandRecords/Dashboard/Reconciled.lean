import LandRecords.Base.Pivot
import LandRecords.Base.Rows
import LandRecords.Dashboard.PageActivity
import Mathlib

/-! The figures of the dashboard reconcile with the audit log: a row for each district and day that
the log has activity for, with the numbers of its entries, which add up over adjacent windows. -/
namespace LandRecords.Dashboard

open Audit Datetime Text Pivot

/-! ## The figures of a log -/

def ActivityCount.action : ActivityCount → Text
  | .pagesIngested => "page.ingested".toList
  | .pagesProcessed => "page.processed".toList
  | .recordsPublished => "record.published".toList

def PageActivityArgs.AsksFor (args : PageActivityArgs) (entry : AuditEntry) : Prop :=
  (∀ district ∈ args.district, entry.district = some district) ∧
    (∀ bound ∈ args.sinceBound, bound ≤ (entry.atInstant.val : Int)) ∧
    ∀ bound ∈ args.untilBound, (entry.atInstant.val : Int) < bound

instance (args : PageActivityArgs) (entry : AuditEntry) : Decidable (args.AsksFor entry) :=
  inferInstanceAs (Decidable (_ ∧ _ ∧ _))

variable (session : Session) (table : AuditTable) (args : PageActivityArgs)

def figure (district : Option Text) (day : Day) (count : ActivityCount) : Nat :=
  table.rows.countP fun entry => args.AsksFor entry ∧ entry.action = count.action ∧
    entry.district = district ∧ session.dayOf entry = day

def Observed (district : Option Text) (day : Day) : Prop :=
  ∃ entry ∈ table.rows, args.AsksFor entry ∧
    (∃ count : ActivityCount, entry.action = count.action) ∧
    entry.district = district ∧ session.dayOf entry = day

def figures (district : Option Text) (day : Day) : ActivityRow where
  district := district
  date := dateText day
  pagesIngested := figure session table args district day .pagesIngested
  pagesProcessed := figure session table args district day .pagesProcessed
  recordsPublished := figure session table args district day .recordsPublished

def rowsFor (rows : List ActivityRow) (district : Option Text) (day : Day) : List ActivityRow :=
  rows.filter fun row => row.district = district ∧ row.date = dateText day

/-- One row for each district and day observed, with its figures, and no other row. -/
structure Reconciles (rows : List ActivityRow) : Prop where
  rowFor : ∀ district day, Observed session table args district day →
    rowsFor rows district day = [figures session table args district day]
  observed : ∀ row ∈ rows, ∃ day, Observed session table args row.district day ∧
    row.date = dateText day

def reported (rows : List ActivityRow) (district : Option Text) (day : Day)
    (count : ActivityCount) : Nat :=
  ((rowsFor rows district day).map (·.count count)).sum

variable {session table args} {rows : List ActivityRow}

theorem dateText_day_inj {a b : Day} (h : dateText a = dateText b) : a = b :=
  Subtype.ext (dateText_inj a.property b.property h)

theorem figures_count (district : Option Text) (day : Day) (count : ActivityCount) :
    (figures session table args district day).count count =
      figure session table args district day count := by
  cases count <;> rfl

theorem Reconciles.reported_eq (h : Reconciles session table args rows) (district : Option Text)
    (day : Day) (count : ActivityCount) :
    reported rows district day count = figure session table args district day count := by
  by_cases hobserved : Observed session table args district day
  · rw [reported, h.rowFor district day hobserved, List.map_singleton, List.sum_singleton,
      figures_count]
  · have hnone : rowsFor rows district day = [] := by
      rw [rowsFor, List.filter_eq_nil_iff]
      intro row hrow hfor
      obtain ⟨hdistrict, hdate⟩ := of_decide_eq_true hfor
      obtain ⟨other, hother, hdateOther⟩ := h.observed row hrow
      rw [hdistrict, dateText_day_inj (hdateOther.symm.trans hdate)] at hother
      exact hobserved hother
    rw [reported, hnone, List.map_nil, List.sum_nil, figure, eq_comm, List.countP_eq_zero]
    intro entry hentry hcounted
    obtain ⟨hasked, haction, hplace⟩ := of_decide_eq_true hcounted
    exact hobserved ⟨entry, hentry, hasked, ⟨count, haction⟩, hplace⟩

theorem asksFor_before {t : Int} (huntil : ∀ bound ∈ args.untilBound, t ≤ bound)
    (entry : AuditEntry) : { args with untilBound := some t }.AsksFor entry ↔
      args.AsksFor entry ∧ (entry.atInstant.val : Int) < t := by
  constructor
  · intro hasked
    obtain ⟨hdistrict, hfrom, hbefore⟩ := hasked
    have hlt := hbefore t rfl
    exact ⟨⟨hdistrict, hfrom, fun bound hbound => hlt.trans_le (huntil bound hbound)⟩, hlt⟩
  · intro hasked
    obtain ⟨⟨hdistrict, hfrom, -⟩, hlt⟩ := hasked
    exact ⟨hdistrict, hfrom, fun bound hbound => Option.some.inj hbound ▸ hlt⟩

theorem asksFor_from {t : Int} (hsince : ∀ bound ∈ args.sinceBound, bound ≤ t)
    (entry : AuditEntry) : { args with sinceBound := some t }.AsksFor entry ↔
      args.AsksFor entry ∧ ¬ (entry.atInstant.val : Int) < t := by
  rw [not_lt]
  constructor
  · intro hasked
    obtain ⟨hdistrict, hfrom, hbefore⟩ := hasked
    have hle := hfrom t rfl
    exact ⟨⟨hdistrict, fun bound hbound => (hsince bound hbound).trans hle, hbefore⟩, hle⟩
  · intro hasked
    obtain ⟨⟨hdistrict, -, hbefore⟩, hle⟩ := hasked
    exact ⟨hdistrict, fun bound hbound => Option.some.inj hbound ▸ hle, hbefore⟩

theorem figure_split {t : Int} (hsince : ∀ bound ∈ args.sinceBound, bound ≤ t)
    (huntil : ∀ bound ∈ args.untilBound, t ≤ bound) (district : Option Text) (day : Day)
    (count : ActivityCount) :
    figure session table args district day count =
      figure session table { args with untilBound := some t } district day count +
        figure session table { args with sinceBound := some t } district day count := by
  unfold figure
  rw [List.countP_eq_countP_filter_add table.rows _
    fun entry => decide ((entry.atInstant.val : Int) < t)]
  congr 1
  · rw [List.countP_filter]
    apply List.countP_congr
    intro entry _
    simp only [asksFor_before huntil, Bool.and_eq_true, decide_eq_true_eq]
    tauto
  · rw [List.countP_filter]
    apply List.countP_congr
    intro entry _
    simp only [asksFor_from hsince, Bool.and_eq_true, Bool.not_eq_true', decide_eq_false_iff_not,
      decide_eq_true_eq]
    tauto

/-! ## The query and its pivot -/

def ActivityGroup.key (group : ActivityGroup) : Option Text × Day × Text :=
  (group.district, group.day, group.action)

theorem activityGroups_counted (session : Session) (table : AuditTable) (args : PageActivityArgs) :
    GroupedCount session.groupKey (table.rows.filter args.selects) ActivityGroup.key
      ActivityGroup.n (session.activityGroups table args) := by
  apply GroupedCount.perm _ (session.arrange_perm _)
  apply groupedCount_groupsOf
  · intro group
    rfl
  · intro group
    rfl

def countOf (action : Text) : ActivityCount :=
  (pageActivityActions.lookup action).getD .pagesIngested

theorem countOf_action (count : ActivityCount) : countOf count.action = count := by
  cases count <;> rfl

theorem item_action (count : ActivityCount) :
    Dict.item pageActivityActions count.action = .ok count := by
  cases count <;> rfl

theorem mem_pageActivityActions {action : Text} :
    action ∈ pageActivityActions.map Prod.fst ↔ ∃ count : ActivityCount, action = count.action := by
  have hactions : pageActivityActions.map Prod.fst = [ActivityCount.action .pagesIngested,
      ActivityCount.action .pagesProcessed, ActivityCount.action .recordsPublished] := rfl
  rw [hactions]
  simp only [List.mem_cons, List.not_mem_nil, or_false]
  constructor
  · intro hmem
    rcases hmem with hingested | hprocessed | hpublished
    · exact ⟨.pagesIngested, hingested⟩
    · exact ⟨.pagesProcessed, hprocessed⟩
    · exact ⟨.recordsPublished, hpublished⟩
  · intro hmem
    obtain ⟨count, haction⟩ := hmem
    cases count with
    | pagesIngested => exact .inl haction
    | pagesProcessed => exact .inr (.inl haction)
    | recordsPublished => exact .inr (.inr haction)

theorem selects_iff {entry : AuditEntry} : args.selects entry = true ↔
    args.AsksFor entry ∧ ∃ count : ActivityCount, entry.action = count.action := by
  unfold PageActivityArgs.selects PageActivityArgs.AsksFor
  rw [← mem_pageActivityActions]
  simp only [Bool.and_eq_true, List.contains_iff_mem, Option.all_eq_true, decide_eq_true_eq,
    Option.mem_def]
  tauto

def rowColumns : Columns ActivityRow ActivityCount Nat where
  get := ActivityRow.count
  set := ActivityRow.setCount
  get_set_self := by
    intro count n row
    cases count <;> rfl
  get_set_other := by
    intro count other n row hother
    cases count <;> cases other <;> first | rfl | exact absurd rfl hother

def placeOf (key : Option Text × Day × Text) : Option Text × Text := (key.1, dateText key.2.1)

def columnOf (key : Option Text × Day × Text) : ActivityCount := countOf key.2.2

def emptyRow (place : Option Text × Text) : ActivityRow where
  district := place.1
  date := place.2

def pivotRows (session : Session) (table : AuditTable) (args : PageActivityArgs) : ActivityRows :=
  rowColumns.pivot (placeOf ∘ ActivityGroup.key) (columnOf ∘ ActivityGroup.key) ActivityGroup.n
    emptyRow (session.activityGroups table args)

variable (session table args)

theorem getPageActivity_eq : getPageActivity session table args =
    .ok (orderBy ActivityRow.sortKey ((pivotRows session table args).map Prod.snd)) := by
  have hpivot : (session.activityGroups table args).foldlM session.pivotGroup [] =
      .ok (pivotRows session table args) := by
    apply Raised.foldlM_eq_ok
    intro group hgroup buckets
    obtain ⟨entry, hentry, hkey⟩ := List.mem_map.mp
      (((activityGroups_counted session table args).complete _).mp (List.mem_map_of_mem hgroup))
    obtain ⟨-, count, haction⟩ := selects_iff.mp (List.mem_filter.mp hentry).2
    have hgroupAction : group.action = count.action :=
      (congrArg (fun key => key.2.2) hkey).symm.trans haction
    have hcolumn : columnOf group.key = count := by
      rw [columnOf, ActivityGroup.key, hgroupAction, countOf_action]
    unfold Session.pivotGroup
    rw [hgroupAction, item_action, session.readDay_dayStr]
    simp only [Function.comp_apply, hcolumn]
    rfl
  unfold getPageActivity
  rw [hpivot]
  rfl

def ActivityRow.place (row : ActivityRow) : Option Text × Text := (row.district, row.date)

variable {session table args}

theorem pivotRows_place : ∀ bucket ∈ pivotRows session table args, bucket.2.place = bucket.1 := by
  apply Grouping.forall_bucketsOf
  · intro place
    rfl
  · intro group bucket hplace
    rw [← hplace]
    cases h : (columnOf ∘ ActivityGroup.key) group <;> rfl

theorem map_place_pivotRows : ((pivotRows session table args).map Prod.snd).map ActivityRow.place =
    (pivotRows session table args).map Prod.fst := by
  rw [List.map_map]
  exact List.map_congr_left pivotRows_place

theorem nodup_place_pivotRows :
    (((pivotRows session table args).map Prod.snd).map ActivityRow.place).Nodup := by
  rw [map_place_pivotRows]
  exact Grouping.bucketsOf_keys_nodup

theorem mem_pivotRows_keys {district : Option Text} {date : Text} :
    (district, date) ∈ (pivotRows session table args).map Prod.fst ↔
      ∃ day, Observed session table args district day ∧ date = dateText day := by
  rw [pivotRows, Columns.mem_pivot_keys _ (activityGroups_counted session table args)]
  constructor
  · intro hplace
    obtain ⟨entry, hentry, hplace⟩ := hplace
    obtain ⟨hdistrict, hdate⟩ := Prod.mk.inj hplace
    obtain ⟨hmem, hselected⟩ := List.mem_filter.mp hentry
    obtain ⟨hasked, haction⟩ := selects_iff.mp hselected
    exact ⟨session.dayOf entry, ⟨entry, hmem, hasked, haction, hdistrict, rfl⟩, hdate.symm⟩
  · intro hobserved
    obtain ⟨day, ⟨entry, hmem, hasked, haction, hdistrict, hday⟩, hdate⟩ := hobserved
    subst hdistrict hday hdate
    exact ⟨entry, List.mem_filter.mpr ⟨hmem, selects_iff.mpr ⟨hasked, haction⟩⟩, rfl⟩

/-- The district, the date and the count tell the groups of the query apart. -/
theorem groupKey_inj {a b : AuditEntry} (ha : args.selects a = true) (hb : args.selects b = true)
    (hplace : placeOf (session.groupKey a) = placeOf (session.groupKey b))
    (hcolumn : columnOf (session.groupKey a) = columnOf (session.groupKey b)) :
    session.groupKey a = session.groupKey b := by
  obtain ⟨-, count, haction⟩ := selects_iff.mp ha
  obtain ⟨-, other, hother⟩ := selects_iff.mp hb
  obtain ⟨hdistrict, hdate⟩ := Prod.mk.inj hplace
  have hcounts : countOf a.action = countOf b.action := hcolumn
  rw [haction, hother, countOf_action, countOf_action] at hcounts
  have hactions : a.action = b.action := by rw [haction, hother, hcounts]
  exact Prod.ext hdistrict (Prod.ext (dateText_day_inj hdate) hactions)

theorem pivotRows_count {bucket : (Option Text × Text) × ActivityRow}
    (hbucket : bucket ∈ pivotRows session table args) {district : Option Text} {day : Day}
    (hplace : bucket.1 = (district, dateText day)) (count : ActivityCount) :
    bucket.2.count count = figure session table args district day count := by
  have hinj : ∀ a ∈ (table.rows.filter args.selects).map session.groupKey,
      ∀ b ∈ (table.rows.filter args.selects).map session.groupKey,
        placeOf a = placeOf b → columnOf a = columnOf b → a = b := by
    intro a ha b hb
    obtain ⟨first, hfirst, hkey⟩ := List.mem_map.mp ha
    obtain ⟨second, hsecond, hotherKey⟩ := List.mem_map.mp hb
    subst hkey hotherKey
    exact groupKey_inj (List.mem_filter.mp hfirst).2 (List.mem_filter.mp hsecond).2
  have hzero : rowColumns.get (emptyRow bucket.1) count = 0 := by
    cases count <;> rfl
  have hget := rowColumns.get_pivot (activityGroups_counted session table args) hinj hbucket hzero
  apply hget.trans
  rw [hplace, List.countP_filter]
  apply List.countP_congr
  intro entry _
  rw [Bool.and_eq_true, Bool.and_eq_true, beq_iff_eq, beq_iff_eq, selects_iff, decide_eq_true_eq]
  constructor
  · intro hcounted
    obtain ⟨⟨hkey, hcolumn⟩, hasked, other, haction⟩ := hcounted
    obtain ⟨hdistrict, hdate⟩ := Prod.mk.inj hkey
    have hsame : countOf entry.action = count := hcolumn
    rw [haction, countOf_action] at hsame
    exact ⟨hasked, hsame ▸ haction, hdistrict, dateText_day_inj hdate⟩
  · intro hcounted
    obtain ⟨hasked, haction, hdistrict, hday⟩ := hcounted
    have hcolumn : countOf entry.action = count := by rw [haction, countOf_action]
    subst hdistrict hday
    exact ⟨⟨rfl, hcolumn⟩, hasked, count, haction⟩

theorem ActivityRow.ext_count {a b : ActivityRow} (hplace : a.place = b.place)
    (hcount : ∀ count, a.count count = b.count count) : a = b := by
  obtain ⟨hdistrict, hdate⟩ := Prod.mk.inj hplace
  have hingested := hcount .pagesIngested
  have hprocessed := hcount .pagesProcessed
  have hpublished := hcount .recordsPublished
  cases a
  cases b
  simp_all [ActivityRow.count]

theorem reconciles_pivotRows : Reconciles session table args
    (orderBy ActivityRow.sortKey ((pivotRows session table args).map Prod.snd)) := by
  have hperm := orderBy_perm ActivityRow.sortKey ((pivotRows session table args).map Prod.snd)
  have hdistinct := (hperm.map ActivityRow.place).nodup_iff.mpr nodup_place_pivotRows
  constructor
  · intro district day hobserved
    obtain ⟨bucket, hbucket, hkey⟩ :=
      List.mem_map.mp (mem_pivotRows_keys.mpr ⟨day, hobserved, rfl⟩)
    have hplace : bucket.2.place = (district, dateText day) :=
      (pivotRows_place bucket hbucket).trans hkey
    have hrow : bucket.2 = figures session table args district day := by
      apply ActivityRow.ext_count hplace
      intro count
      rw [figures_count]
      exact pivotRows_count hbucket hkey count
    have hmem := hperm.mem_iff.mpr (List.mem_map_of_mem (f := Prod.snd) hbucket)
    have hown := Rows.filter_key hdistinct hmem
    rw [rowsFor, ← hrow, ← hown]
    apply List.filter_congr
    intro row _
    rw [hplace]
    simp [ActivityRow.place, eq_comm]
  · intro row hrow
    obtain ⟨bucket, hbucket, hsame⟩ := List.mem_map.mp (hperm.mem_iff.mp hrow)
    apply mem_pivotRows_keys.mp
    rw [← map_place_pivotRows, ← hsame]
    exact List.mem_map_of_mem (List.mem_map_of_mem hbucket)

/-- The rows of any log, for any district and window, are its figures, and the figures of a window
are the sums of those of its two parts. -/
theorem getPageActivity_reconciles (session : Session) (table : AuditTable)
    (args : PageActivityArgs) :
    ∃ rows, getPageActivity session table args = .ok rows ∧ Reconciles session table args rows ∧
      ∀ t : Int, (∀ bound ∈ args.sinceBound, bound ≤ t) → (∀ bound ∈ args.untilBound, t ≤ bound) →
        ∃ earlier later,
          getPageActivity session table { args with untilBound := some t } = .ok earlier ∧
          getPageActivity session table { args with sinceBound := some t } = .ok later ∧
          ∀ district day count, reported rows district day count =
            reported earlier district day count + reported later district day count := by
  refine ⟨_, getPageActivity_eq session table args, reconciles_pivotRows, ?_⟩
  intro t hsince huntil
  refine ⟨_, _, getPageActivity_eq session table _, getPageActivity_eq session table _, ?_⟩
  intro district day count
  rw [reconciles_pivotRows.reported_eq, reconciles_pivotRows.reported_eq,
    reconciles_pivotRows.reported_eq]
  exact figure_split hsince huntil district day count

/-! ## The order of the rows -/

theorem Reconciles.mem_iff (h : Reconciles session table args rows) {row : ActivityRow} :
    row ∈ rows ↔ ∃ district day, Observed session table args district day ∧
      row = figures session table args district day := by
  constructor
  · intro hrow
    obtain ⟨day, hobserved, hdate⟩ := h.observed row hrow
    have hown : row ∈ rowsFor rows row.district day :=
      List.mem_filter.mpr ⟨hrow, decide_eq_true ⟨rfl, hdate⟩⟩
    rw [h.rowFor row.district day hobserved, List.mem_singleton] at hown
    exact ⟨row.district, day, hobserved, hown⟩
  · intro hfigures
    obtain ⟨district, day, hobserved, hrow⟩ := hfigures
    have hown : row ∈ rowsFor rows district day := by
      rw [h.rowFor district day hobserved, hrow]
      exact List.mem_singleton_self _
    exact List.mem_of_mem_filter hown

def ActivityRow.reportKey (row : ActivityRow) : (Text ×ₗ Text) ×ₗ Bool :=
  toLex (row.sortKey, row.district.isNone)

theorem reportKey_inj {a b : ActivityRow} (h : a.reportKey = b.reportKey) : a.place = b.place := by
  obtain ⟨hsort, hmissing⟩ := Prod.mk.inj (toLex.injective h)
  obtain ⟨hdate, hdistrict⟩ := Prod.mk.inj (toLex.injective hsort)
  refine Prod.ext ?_ hdate
  change a.district = b.district
  cases ha : a.district <;> cases hb : b.district <;>
    simp_all [orEmpty]

def MissingLast (a b : Option Text × Text) : Prop := a.2 = b.2 → a.1 = none → b.1 = none

theorem pivotRows_missingLast : ((pivotRows session table args).map Prod.snd).Pairwise
    fun a b => MissingLast a.place b.place := by
  have hgroups : (session.activityGroups table args).Pairwise fun a b =>
      MissingLast (placeOf a.key) (placeOf b.key) :=
    (session.missingLast _).imp fun hlast hdate => hlast (dateText_day_inj hdate)
  have hkeys : ((pivotRows session table args).map Prod.fst).Pairwise MissingLast :=
    Grouping.bucketsOf_keys_pairwise hgroups
  rw [← map_place_pivotRows] at hkeys
  exact List.pairwise_map.mp hkeys

/-- The sort is stable, so that it leaves the missing district last. -/
theorem orderBy_sortKey_pivotRows :
    orderBy ActivityRow.sortKey ((pivotRows session table args).map Prod.snd) =
      orderBy ActivityRow.reportKey ((pivotRows session table args).map Prod.snd) := by
  apply orderBy_congr
  apply pivotRows_missingLast.imp
  intro a b hlast
  unfold ActivityRow.reportKey
  rw [Prod.Lex.toLex_le_toLex']
  constructor
  · intro hle
    refine ⟨hle, fun hsame => Bool.le_iff_imp.mpr fun hmissing => ?_⟩
    have hdate := (Prod.mk.inj (toLex.injective hsame)).1
    exact Option.isNone_iff_eq_none.mpr (hlast hdate (Option.isNone_iff_eq_none.mp hmissing))
  · intro hle
    exact hle.1

/-- The report is a function of the log, the arguments and the time zone: neither the collation of
the database nor its plan nor the driver has a part in it. -/
theorem getPageActivity_determined {first second : Session}
    (hzone : first.timeZone = second.timeZone) (table : AuditTable) (args : PageActivityArgs) :
    getPageActivity first table args = getPageActivity second table args := by
  have hday : first.dayOf = second.dayOf := by
    funext entry
    apply Subtype.ext
    simp only [Session.dayOf, hzone]
  have hrow : ∀ row, row ∈ (pivotRows first table args).map Prod.snd ↔
      row ∈ (pivotRows second table args).map Prod.snd := by
    intro row
    rw [← mem_orderBy ActivityRow.sortKey, reconciles_pivotRows.mem_iff,
      ← mem_orderBy ActivityRow.sortKey, reconciles_pivotRows.mem_iff]
    simp only [Observed, figures, figure, hday]
  have hfirst : ((pivotRows first table args).map Prod.snd).Nodup := nodup_place_pivotRows.of_map
  have hsecond : ((pivotRows second table args).map Prod.snd).Nodup := nodup_place_pivotRows.of_map
  have hperm := (List.perm_ext_iff_of_nodup hfirst hsecond).mpr hrow
  have hdistinct : (((pivotRows second table args).map Prod.snd).map ActivityRow.reportKey).Nodup :=
    hsecond.map_on fun a ha b hb hkey =>
      List.inj_on_of_nodup_map nodup_place_pivotRows ha hb (reportKey_inj hkey)
  rw [getPageActivity_eq, getPageActivity_eq, orderBy_sortKey_pivotRows, orderBy_sortKey_pivotRows]
  congr 1
  exact eq_orderBy hdistinct ((orderBy_perm _ _).trans hperm) (orderBy_sorted _ _)

def loggedAt (action : String) (district : Option Text) (seconds : Fin 60) : AuditEntry where
  id := action.toList
  shardId := seconds.val
  prevHash := none
  hash := []
  actor := "system".toList
  action := action.toList
  subject := none
  purpose := none
  valueHash := none
  atInstant := newYear seconds
  district := district

def sampleLog : AuditTable where
  rows := [loggedAt "page.ingested" none 1, loggedAt "page.ingested" (some "sitapur".toList) 2,
    loggedAt "page.ingested" (some "agra".toList) 3, loggedAt "record.published" none 4]
  unique := by decide +kernel

example : getPageActivity (.byCodePoints utc) sampleLog { untilBound := some (newYear 4).val } =
    .ok [{ district := none, date := "2026-01-01".toList, pagesIngested := 1 },
      { district := some "agra".toList, date := "2026-01-01".toList, pagesIngested := 1 },
      { district := some "sitapur".toList, date := "2026-01-01".toList, pagesIngested := 1 }] := by
  decide +kernel

def reversedTexts : Session :=
  { Session.collating OrderDual.toDual utc with
    readDay := fun day => .other (dateText day)
    readDay_dayStr := fun _ => rfl }

theorem getPageActivity_reversedTexts :
    getPageActivity (.byCodePoints utc) sampleLog { untilBound := some (newYear 4).val } =
      getPageActivity reversedTexts sampleLog { untilBound := some (newYear 4).val } :=
  getPageActivity_determined rfl sampleLog _

end LandRecords.Dashboard
