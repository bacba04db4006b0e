import LandRecords.Base.Text
import Mathlib

/-! Aware datetimes: instants at microsecond precision, the proleptic Gregorian
calendar, and the ISO 8601 text of an instant read in a zone. The text
determines both the instant and the offset it was read at. -/
namespace LandRecords.Datetime

def microsPerSecond : Nat := 1000000
def microsPerDay : Nat := 86400 * microsPerSecond

def calendarDays : Nat := 3652059

/-- Microseconds since 0001-01-01T00:00:00 UTC. A day is kept free at both ends
of the calendar, so that an instant has a local date in every zone. -/
abbrev Instant :=
  { micros : Nat // microsPerDay ≤ micros ∧ micros + microsPerDay ≤ calendarDays * microsPerDay }

/-- The offset in seconds that a zone applies at each instant, less than a day
either way. -/
structure Zone where
  offset : Instant → Int
  bounded : ∀ t, -86400 < offset t ∧ offset t < 86400

def utc : Zone := ⟨fun _ => 0, by simp⟩

/-- The wall clock of the zone, in microseconds since 0001-01-01T00:00:00. -/
def Zone.wall (zone : Zone) (t : Instant) : Nat :=
  (t.val + zone.offset t * microsPerSecond : Int).toNat

theorem Zone.wall_eq (zone : Zone) (t : Instant) :
    (zone.wall t : Int) = t.val + zone.offset t * microsPerSecond := by
  have hbound := zone.bounded t
  have hlow := t.property.1
  unfold Zone.wall
  simp only [microsPerDay, microsPerSecond] at *
  omega

theorem Zone.wall_lt (zone : Zone) (t : Instant) :
    zone.wall t < calendarDays * microsPerDay := by
  have hwall := zone.wall_eq t
  have hbound := zone.bounded t
  have hhigh := t.property.2
  simp only [microsPerDay, microsPerSecond, calendarDays] at *
  omega

/-- Years before the one that contains the given day, counted in cycles of 400,
100, 4 and 1 years, and the day of the year. The fourth century of a cycle and
the fourth year of an olympiad are a day longer. -/
def splitYear (day : Nat) : Nat × Nat :=
  let cycle := day / 146097
  let century := min (day % 146097 / 36524) 3
  let inCentury := day % 146097 - 36524 * century
  let olympiad := inCentury / 1461
  let year := min (inCentury % 1461 / 365) 3
  (400 * cycle + 100 * century + 4 * olympiad + year, inCentury % 1461 - 365 * year)

def daysBefore (years : Nat) : Nat := 365 * years + years / 4 - years / 100 + years / 400

private theorem daysBefore_cycle {cycle century olympiad year : Nat}
    (hcentury : century ≤ 3) (holympiad : olympiad ≤ 24) (hyear : year ≤ 3) :
    daysBefore (400 * cycle + 100 * century + 4 * olympiad + year) =
      146097 * cycle + 36524 * century + 1461 * olympiad + 365 * year := by
  unfold daysBefore
  have hfour : (400 * cycle + 100 * century + 4 * olympiad + year) / 4 =
      100 * cycle + 25 * century + olympiad := by omega
  have hhundred : (400 * cycle + 100 * century + 4 * olympiad + year) / 100 =
      4 * cycle + century := by omega
  have hcycle : (400 * cycle + 100 * century + 4 * olympiad + year) / 400 = cycle := by omega
  rw [hfour, hhundred, hcycle]
  omega

theorem splitYear_day (day : Nat) : daysBefore (splitYear day).1 + (splitYear day).2 = day := by
  simp only [splitYear]
  rw [daysBefore_cycle (by omega) (by omega) (by omega)]
  omega

theorem splitYear_le (day : Nat) : (splitYear day).2 ≤ 365 := by
  simp only [splitYear]
  omega

theorem splitYear_lt {day : Nat} (h : day < calendarDays) : (splitYear day).1 < 9999 := by
  simp only [splitYear, calendarDays] at *
  omega

def isLeap (year : Nat) : Bool := year % 4 == 0 && (year % 100 != 0 || year % 400 == 0)

def monthLengths (leap : Bool) : List Nat :=
  [31, if leap then 29 else 28, 31, 30, 31, 30, 31, 31, 30, 31, 30, 31]

/-- Months passed and day within the month, for a day counted from the first of
the months listed. -/
def splitMonth : List Nat → Nat → Nat × Nat
  | [], day => (0, day)
  | length :: rest, day =>
      if day < length then (0, day)
      else ((splitMonth rest (day - length)).1 + 1, (splitMonth rest (day - length)).2)

theorem splitMonth_day (lengths : List Nat) (day : Nat) :
    (lengths.take (splitMonth lengths day).1).sum + (splitMonth lengths day).2 = day := by
  induction lengths generalizing day with
  | nil => simp [splitMonth]
  | cons length rest ih =>
    simp only [splitMonth]
    split
    · simp
    · have hrest := ih (day - length)
      simp only [List.take_succ_cons, List.sum_cons]
      omega

theorem splitMonth_bounds {lengths : List Nat} {day : Nat} (hday : day < lengths.sum)
    (hlengths : ∀ length ∈ lengths, length ≤ 31) :
    (splitMonth lengths day).1 < lengths.length ∧ (splitMonth lengths day).2 < 31 := by
  induction lengths generalizing day with
  | nil => simp at hday
  | cons length rest ih =>
    rw [List.forall_mem_cons] at hlengths
    rw [List.sum_cons] at hday
    simp only [splitMonth, List.length_cons]
    split
    · omega
    · have hshort : day - length < rest.sum := by omega
      have hrest := ih hshort hlengths.2
      omega

theorem splitYear_lt_year (day : Nat) :
    (splitYear day).2 < (monthLengths (isLeap ((splitYear day).1 + 1))).sum := by
  have hle := splitYear_le day
  cases hleap : isLeap ((splitYear day).1 + 1) with
  | true => simp only [monthLengths, if_true, List.sum_cons, List.sum_nil]; omega
  | false =>
    -- a 366th day needs the longer last year of an olympiad
    simp only [monthLengths, Bool.false_eq_true, if_false, List.sum_cons, List.sum_nil]
    simp only [isLeap, splitYear, Bool.and_eq_false_iff, Bool.or_eq_false_iff, beq_eq_false_iff_ne,
      bne_eq_false_iff_eq] at hleap
    simp only [splitYear]
    omega

def dateText (day : Nat) : Text :=
  let years := splitYear day
  let months := splitMonth (monthLengths (isLeap (years.1 + 1))) years.2
  Text.numeral 10 4 (years.1 + 1) ++ '-' :: Text.numeral 10 2 (months.1 + 1) ++
    '-' :: Text.numeral 10 2 (months.2 + 1)

def clockText (second : Nat) : Text :=
  Text.numeral 10 2 (second / 3600) ++ ':' :: Text.numeral 10 2 (second / 60 % 60) ++
    ':' :: Text.numeral 10 2 (second % 60)

/-- The fraction of a second is left out when it is zero. -/
def fractionText (micros : Nat) : Text :=
  if micros = 0 then [] else '.' :: Text.numeral 10 6 micros

/-- `+HH:MM`, followed by `:SS` when the offset is not a whole minute. -/
def offsetText (offset : Int) : Text :=
  (if 0 ≤ offset then '+' else '-') ::
    (Text.numeral 10 2 (offset.natAbs / 3600) ++ ':' :: Text.numeral 10 2 (offset.natAbs / 60 % 60) ++
      if offset.natAbs % 60 = 0 then [] else ':' :: Text.numeral 10 2 (offset.natAbs % 60))

/-- `isoformat()` of the aware datetime that reads the instant in the zone. -/
def isoformat (zone : Zone) (t : Instant) : Text :=
  let wall := zone.wall t
  dateText (wall / microsPerDay) ++ 'T' :: clockText (wall % microsPerDay / microsPerSecond) ++
    (fractionText (wall % microsPerSecond) ++ offsetText (zone.offset t))

/-- For the numerals of seconds. -/
instance neZeroSixty : NeZero 60 := ⟨by decide⟩

def newYear (seconds : Fin 60) : Instant :=
  ⟨63902854800000000 + 1000000 * seconds.val, by
    simp only [microsPerDay, microsPerSecond, calendarDays]
    omega⟩

example : isoformat utc (newYear 5) = "2026-01-01T09:00:05+00:00".toList := by decide +kernel

private theorem numeral_two_inj {m n : Nat} (hm : m < 100) (hn : n < 100)
    (h : Text.numeral 10 2 m = Text.numeral 10 2 n) : m = n :=
  Text.numeral_inj (by decide) (by decide) hm hn h

private theorem append_cons_inj {a b x y : Text} {c : Char} (hlength : a.length = b.length)
    (h : a ++ c :: x = b ++ c :: y) : a = b ∧ x = y := by
  obtain ⟨hab, htail⟩ := List.append_inj h hlength
  exact ⟨hab, (List.cons.inj htail).2⟩

@[simp] theorem length_dateText (day : Nat) : (dateText day).length = 10 := by
  simp [dateText]

@[simp] theorem length_clockText (second : Nat) : (clockText second).length = 8 := by
  simp [clockText]

theorem dateText_inj {d e : Nat} (hd : d < calendarDays) (he : e < calendarDays)
    (h : dateText d = dateText e) : d = e := by
  obtain ⟨hyearMonth, hday⟩ := append_cons_inj (by simp) h
  obtain ⟨hyear, hmonth⟩ := append_cons_inj (by simp) hyearMonth
  have hyears := Text.numeral_inj (by decide) (by decide)
    (Nat.lt_of_le_of_lt (splitYear_lt hd) (by decide))
    (Nat.lt_of_le_of_lt (splitYear_lt he) (by decide)) hyear
  have hyear' : (splitYear d).1 = (splitYear e).1 := Nat.succ.inj hyears
  have hlengths : ∀ leap, ∀ length ∈ monthLengths leap, length ≤ 31 := by decide
  have hcount : ∀ leap, (monthLengths leap).length = 12 := by decide
  obtain ⟨hdm, hdd⟩ := splitMonth_bounds (splitYear_lt_year d) (hlengths _)
  obtain ⟨hem, hed⟩ := splitMonth_bounds (splitYear_lt_year e) (hlengths _)
  rw [hcount] at hdm hem
  have hmonths := numeral_two_inj (by omega) (by omega) hmonth
  have hdays := numeral_two_inj (by omega) (by omega) hday
  have hdy := splitMonth_day (monthLengths (isLeap ((splitYear d).1 + 1))) (splitYear d).2
  have hey := splitMonth_day (monthLengths (isLeap ((splitYear e).1 + 1))) (splitYear e).2
  rw [Nat.succ.inj hmonths, Nat.succ.inj hdays, hyear'] at hdy
  rw [← splitYear_day d, ← splitYear_day e, hyear', ← hdy, hey]

theorem clockText_inj {m n : Nat} (hm : m < 86400) (hn : n < 86400)
    (h : clockText m = clockText n) : m = n := by
  obtain ⟨hhourMinute, hsecond⟩ := append_cons_inj (by simp) h
  obtain ⟨hhour, hminute⟩ := append_cons_inj (by simp) hhourMinute
  have hhours := numeral_two_inj (by omega) (by omega) hhour
  have hminutes := numeral_two_inj (by omega) (by omega) hminute
  have hseconds := numeral_two_inj (by omega) (by omega) hsecond
  omega

theorem offsetText_inj {o p : Int} (ho : -86400 < o ∧ o < 86400) (hp : -86400 < p ∧ p < 86400)
    (h : offsetText o = offsetText p) : o = p := by
  obtain ⟨hsign, hrest⟩ := List.cons.inj h
  simp only [List.append_assoc, List.cons_append] at hrest
  obtain ⟨hhour, hminuteSecond⟩ := append_cons_inj (by simp) hrest
  obtain ⟨hminute, hsecond⟩ := List.append_inj hminuteSecond (by simp)
  have hhours := numeral_two_inj (by omega) (by omega) hhour
  have hminutes := numeral_two_inj (by omega) (by omega) hminute
  have hseconds : o.natAbs % 60 = p.natAbs % 60 := by
    split at hsecond <;> split at hsecond
    · omega
    · simp at hsecond
    · simp at hsecond
    · exact numeral_two_inj (by omega) (by omega) (List.cons.inj hsecond).2
  have habs : o.natAbs = p.natAbs := by omega
  split at hsign <;> split at hsign
  · omega
  · exact absurd hsign (by decide)
  · exact absurd hsign (by decide)
  · omega

theorem fraction_offset_inj {m n : Nat} {o p : Int} (hm : m < microsPerSecond)
    (hn : n < microsPerSecond) (ho : -86400 < o ∧ o < 86400) (hp : -86400 < p ∧ p < 86400)
    (h : fractionText m ++ offsetText o = fractionText n ++ offsetText p) : m = n ∧ o = p := by
  have hpoint : ∀ (q : Int) (x : Text), offsetText q ≠ '.' :: x := by
    intro q x hq
    have hhead := (List.cons.inj hq).1
    split at hhead <;> exact absurd hhead (by decide)
  unfold fractionText at h
  split at h <;> split at h
  · exact ⟨by omega, offsetText_inj ho hp h⟩
  · exact absurd h (hpoint _ _)
  · exact absurd h.symm (hpoint _ _)
  · obtain ⟨hmicros, hoffset⟩ := List.append_inj (List.cons.inj h).2 (by simp)
    exact ⟨Text.numeral_inj (by decide) (by decide) hm hn hmicros, offsetText_inj ho hp hoffset⟩

theorem isoformat_inj {y z : Zone} {s t : Instant} (h : isoformat y s = isoformat z t) :
    s = t ∧ y.offset s = z.offset t := by
  have hylt := y.wall_lt s
  have hzlt := z.wall_lt t
  obtain ⟨hdateClock, hfraction⟩ := List.append_inj h (by simp)
  obtain ⟨hdate, hclock⟩ := append_cons_inj (by simp) hdateClock
  have hdays := dateText_inj (Nat.div_lt_of_lt_mul (by rwa [Nat.mul_comm]))
    (Nat.div_lt_of_lt_mul (by rwa [Nat.mul_comm])) hdate
  obtain ⟨hmicros, hoffset⟩ := fraction_offset_inj (Nat.mod_lt _ (by decide))
    (Nat.mod_lt _ (by decide)) (y.bounded s) (z.bounded t) hfraction
  simp only [microsPerDay, microsPerSecond] at *
  have hseconds := clockText_inj (by omega) (by omega) hclock
  have hs := y.wall_eq s
  have ht := z.wall_eq t
  refine ⟨Subtype.ext ?_, hoffset⟩
  simp only [microsPerSecond] at hs ht
  omega

def isoCharacters : Text := "0123456789abcdef-T:.+".toList

private theorem numeral_iso (width n : Nat) : Text.numeral 10 width n ⊆ isoCharacters := by
  have hsplit : isoCharacters = Text.digits ++ "-T:.+".toList := rfl
  intro c hc
  rw [hsplit]
  exact List.mem_append_left _ (Text.numeral_mem (by decide) (by decide) hc)

private theorem offsetText_iso (offset : Int) : offsetText offset ⊆ isoCharacters := by
  unfold offsetText
  refine List.cons_subset.mpr ⟨by split <;> decide, ?_⟩
  simp only [List.append_subset, List.cons_subset, numeral_iso, true_and]
  refine ⟨by decide, ?_⟩
  split
  · exact List.nil_subset _
  · exact List.cons_subset.mpr ⟨by decide, numeral_iso _ _⟩

theorem isoformat_subset (zone : Zone) (t : Instant) : isoformat zone t ⊆ isoCharacters := by
  simp only [isoformat, dateText, clockText, List.append_subset, List.cons_subset, numeral_iso,
    offsetText_iso, and_true, true_and]
  refine ⟨by decide, ?_⟩
  unfold fractionText
  split
  · exact List.nil_subset _
  · exact List.cons_subset.mpr ⟨by decide, numeral_iso _ _⟩

end LandRecords.Datetime
