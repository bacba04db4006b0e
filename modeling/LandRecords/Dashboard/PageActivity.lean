import LandRecords.Audit.Chain
import LandRecords.Base.Grouping
import LandRecords.Base.Payload
import Mathlib

/-! The figures of the dashboard: `get_page_activity` counts three actions of the audit log by
district and day in one grouped query, and pivots the groups into rows. -/
namespace LandRecords.Dashboard

open Audit Datetime Text

inductive ActivityCount
  | pagesIngested | pagesProcessed | recordsPublished
deriving DecidableEq

/-- `PAGE_ACTIVITY_ACTIONS`. -/
def pageActivityActions : List (Text × ActivityCount) :=
  [("page.ingested".toList, .pagesIngested), ("page.processed".toList, .pagesProcessed),
    ("record.published".toList, .recordsPublished)]

structure ActivityRow where
  district : Option Text
  date : Text
  pagesIngested : Nat := 0
  pagesProcessed : Nat := 0
  recordsPublished : Nat := 0
deriving DecidableEq

/-- `row[count]`. -/
def ActivityRow.count (row : ActivityRow) : ActivityCount → Nat
  | .pagesIngested => row.pagesIngested
  | .pagesProcessed => row.pagesProcessed
  | .recordsPublished => row.recordsPublished

/-- `row[count] = n`. -/
def ActivityRow.setCount (count : ActivityCount) (n : Nat) (row : ActivityRow) : ActivityRow :=
  match count with
  | .pagesIngested => { row with pagesIngested := n }
  | .pagesProcessed => { row with pagesProcessed := n }
  | .recordsPublished => { row with recordsPublished := n }

def ActivityRow.sortKey (row : ActivityRow) : Text ×ₗ Text := toLex (row.date, orEmpty row.district)

/-- Days since 0001-01-01. -/
abbrev Day := { day : Nat // day < calendarDays }

inductive DayValue
  | date (day : Day)
  | other (value : Text)

def DayValue.dayStr : DayValue → Text
  | .date day => dateText day
  | .other value => value

structure ActivityGroup where
  district : Option Text
  day : Day
  action : Text
  n : Nat

/-- A database session. Its time zone decides the day of an instant, and its collation the order of
the districts in `ORDER BY`, which puts the missing one last; groups of one district and day come
in any order. A driver without a type for dates hands over their ISO text. -/
structure Session where
  timeZone : Zone
  readDay : Day → DayValue
  readDay_dayStr : ∀ day, (readDay day).dayStr = dateText day
  arrange : List ActivityGroup → List ActivityGroup
  arrange_perm : ∀ groups, (arrange groups).Perm groups
  byDay : ∀ groups, (arrange groups).Pairwise fun a b => a.day ≤ b.day
  missingLast : ∀ groups, (arrange groups).Pairwise fun a b =>
    a.day = b.day → a.district = none → b.district = none

section Collation

variable {α : Type} (rank : Text → α)

/-- The order of `ORDER BY` where the collation ranks the districts. -/
def ActivityGroup.queryKey (group : ActivityGroup) : Day ×ₗ WithTop α :=
  toLex (group.day, group.district.elim ⊤ fun district => ↑(rank district))

def Session.collating [LinearOrder α] (timeZone : Zone) : Session where
  timeZone := timeZone
  readDay := .date
  readDay_dayStr := fun _ => rfl
  arrange := orderBy (ActivityGroup.queryKey rank)
  arrange_perm := orderBy_perm _
  byDay := by
    intro groups
    apply (orderBy_sorted (ActivityGroup.queryKey rank) groups).imp
    intro a b hle
    exact (Prod.Lex.toLex_le_toLex'.mp hle).1
  missingLast := by
    intro groups
    apply (orderBy_sorted (ActivityGroup.queryKey rank) groups).imp
    intro a b hle hday hmissing
    have htop := (Prod.Lex.toLex_le_toLex'.mp hle).2 hday
    cases hdistrict : b.district with
    | none => rfl
    | some district => simp [hmissing, hdistrict] at htop

end Collation

def Session.byCodePoints (timeZone : Zone) : Session := .collating id timeZone

/-- `date(at)`. -/
def Session.dayOf (session : Session) (entry : AuditEntry) : Day :=
  ⟨session.timeZone.wall entry.atInstant / microsPerDay,
    Nat.div_lt_of_lt_mul (Nat.mul_comm .. ▸ session.timeZone.wall_lt entry.atInstant)⟩

/-- The keyword arguments of `get_page_activity`. A bound is the instant of a datetime, in
microseconds since 0001-01-01T00:00:00 UTC; that of a datetime east of UTC can be negative. -/
structure PageActivityArgs where
  district : Option Text := none
  sinceBound : Option Int := none
  untilBound : Option Int := none

/-- The conditions of the query. No comparison with a missing district is true. -/
def PageActivityArgs.selects (args : PageActivityArgs) (entry : AuditEntry) : Bool :=
  (pageActivityActions.map Prod.fst).contains entry.action &&
    args.district.all (fun district => entry.district = some district) &&
    args.sinceBound.all (fun bound => bound ≤ (entry.atInstant.val : Int)) &&
    args.untilBound.all (fun bound => (entry.atInstant.val : Int) < bound)

/-- The columns of `GROUP BY`. -/
def Session.groupKey (session : Session) (entry : AuditEntry) : Option Text × Day × Text :=
  (entry.district, session.dayOf entry, entry.action)

/-- The one query of `get_page_activity`. -/
def Session.activityGroups (session : Session) (table : AuditTable) (args : PageActivityArgs) :
    List ActivityGroup :=
  session.arrange
    ((Grouping.groupsOf session.groupKey (table.rows.filter args.selects)).map fun (key, entries) =>
      ⟨key.1, key.2.1, key.2.2, entries.length⟩)

abbrev ActivityRows := List ((Option Text × Text) × ActivityRow)

def Session.pivotGroup (session : Session) (rows : ActivityRows) (group : ActivityGroup) :
    Except Raised ActivityRows := do
  let dayStr := (session.readDay group.day).dayStr
  let count ← Dict.item pageActivityActions group.action
  return Grouping.alter (group.district, dayStr) { district := group.district, date := dayStr }
    (ActivityRow.setCount count group.n) rows

def getPageActivity (session : Session) (table : AuditTable) (args : PageActivityArgs) :
    Except Raised (List ActivityRow) := do
  let rows ← (session.activityGroups table args).foldlM session.pivotGroup []
  return orderBy ActivityRow.sortKey (rows.map Prod.snd)

end LandRecords.Dashboard
