import LandRecords.Base.Numeric

/-! Payloads as the services exchange them: nested lists and dictionaries of texts
and numbers, a boolean being one of the numbers. -/
namespace LandRecords

inductive Value (ν : Type) where
  | none
  | number (value : ν)
  | text (value : Text)
  | list (items : List (Value ν))
  | dict (entries : List (Text × Value ν))

abbrev Dict (ν : Type) := List (Text × Value ν)

/-- The builtin conversions between values and texts, left open: `str` of a list or
a dictionary, and `float` of a text. -/
structure Conversions (ν : Type) where
  repr : Value ν → Text
  parse : Text → Except Raised ν

namespace Value

variable {ν : Type} [Numeric ν]

/-- `bool(value)`. -/
def truthy : Value ν → Bool
  | .none => false
  | .number n => !Numeric.eq n Numeric.zero
  | .text t => !t.isEmpty
  | .list items => !items.isEmpty
  | .dict entries => !entries.isEmpty

/-- `a or b`. -/
def orElse (a b : Value ν) : Value ν := if a.truthy then a else b

mutual

/-- `a == b`. -/
def same : Value ν → Value ν → Bool
  | .none, .none => true
  | .number a, .number b => Numeric.eq a b
  | .text s, .text t => s == t
  | .list xs, .list ys => sameItems xs ys
  | .dict xs, .dict ys => xs.length == ys.length && sameEntries xs ys
  | _, _ => false

def sameItems : List (Value ν) → List (Value ν) → Bool
  | [], [] => true
  | x :: xs, y :: ys => same x y && sameItems xs ys
  | _, _ => false

def sameEntries : List (Text × Value ν) → List (Text × Value ν) → Bool
  | [], _ => true
  | x :: xs, ys => sameEntry x ys && sameEntries xs ys

def sameEntry : Text × Value ν → List (Text × Value ν) → Bool
  | (key, x), ys =>
      match ys.lookup key with
      | some y => same x y
      | Option.none => false

end

/-- `value in container`. -/
def isIn (value : Value ν) : Value ν → Except Raised Bool
  | .list items => .ok (items.any (same value))
  | .text t =>
      match value with
      | .text s => .ok (t.contains s)
      | _ => .error .typeError
  | .dict entries =>
      match value with
      | .list _ | .dict _ => .error .typeError
      | .text s => .ok (entries.lookup s).isSome
      | _ => .ok false
  | .none | .number _ => .error .typeError

def iterate : Value ν → Except Raised (List (Value ν))
  | .list items => .ok items
  | .dict entries => .ok (entries.map fun entry => .text entry.1)
  | .text t => .ok (t.map fun c => .text [c])
  | .none | .number _ => .error .typeError

/-- The entries of a dictionary: no other value has a `get`. -/
def asDict : Value ν → Except Raised (List (Text × Value ν))
  | .dict entries => .ok entries
  | _ => .error .attributeError

/-- `str(value)`. -/
def str (conversions : Conversions ν) : Value ν → Text
  | .text t => t
  | .number n => Numeric.render n
  | value => conversions.repr value

/-- `float(value)`. -/
def float (conversions : Conversions ν) : Value ν → Except Raised ν
  | .number n => Numeric.float n
  | .text t => conversions.parse t
  | _ => .error .typeError

end Value

namespace Dict

section Entries

variable {α : Type}

/-- `d[key] = value`. -/
def set (key : Text) (value : α) : List (Text × α) → List (Text × α)
  | [] => [(key, value)]
  | entry :: rest => if entry.1 = key then (key, value) :: rest else entry :: set key value rest

/-- `d[key]`. -/
def item (d : List (Text × α)) (key : Text) : Except Raised α :=
  match d.lookup key with
  | some value => .ok value
  | none => .error .keyError

variable {d : List (Text × α)} {key other : Text} {value : α}

theorem lookup_set_self : (set key value d).lookup key = some value := by
  induction d with
  | nil => simp [set]
  | cons entry rest ih =>
    unfold set
    split
    · simp
    · rename_i hne
      simp [List.lookup, beq_eq_false_iff_ne.mpr (Ne.symm hne), ih]

theorem lookup_set_other (hne : other ≠ key) : (set key value d).lookup other = d.lookup other := by
  induction d with
  | nil => simp [set, List.lookup, beq_eq_false_iff_ne.mpr hne]
  | cons entry rest ih =>
    unfold set
    split
    · rename_i hkey
      simp [List.lookup, hkey, beq_eq_false_iff_ne.mpr hne]
    · by_cases hentry : other = entry.1
      · simp [List.lookup, hentry]
      · simp [List.lookup, beq_eq_false_iff_ne.mpr hentry, ih]

end Entries

variable {ν : Type} (d : Dict ν)

/-- `d.get(key, default)`. -/
def getD (key : Text) (default : Value ν) : Value ν := (d.lookup key).getD default

/-- `d.get(key)`. -/
def get (key : Text) : Value ν := getD d key .none

variable {d} {key other : Text} {value : Value ν}

@[simp] theorem get_set_self : get (set key value d) key = value := by
  simp [get, getD, lookup_set_self]

theorem get_set_other (hne : other ≠ key) : get (set key value d) other = get d other := by
  simp [get, getD, lookup_set_other hne]

end Dict

end LandRecords
