import Mathlib

/-! The last value that a log of events gives for something. -/
namespace LandRecords

variable {E V : Type*} {value : E → Option V}

def lastValue (value : E → Option V) (events : List E) : Option V :=
  (events.filterMap value).getLast?

@[simp] theorem lastValue_nil : lastValue value [] = none := rfl

theorem lastValue_append (events more : List E) :
    lastValue value (events ++ more) = (lastValue value more).or (lastValue value events) := by
  rw [lastValue, List.filterMap_append, List.getLast?_append]
  rfl

theorem lastValue_singleton (event : E) : lastValue value [event] = value event := by
  cases hvalue : value event with
  | none => simp [lastValue, hvalue]
  | some v => simp [lastValue, hvalue]

theorem lastValue_concat (events : List E) (event : E) :
    lastValue value (events ++ [event]) = (value event).or (lastValue value events) := by
  rw [lastValue_append, lastValue_singleton]

theorem lastValue_eq_none {events : List E} (h : ∀ event ∈ events, value event = none) :
    lastValue value events = none := by
  rw [lastValue, List.filterMap_eq_nil_iff.mpr h]
  rfl

theorem lastValue_mem {events : List E} {v : V} (h : lastValue value events = some v) :
    ∃ event ∈ events, value event = some v :=
  List.mem_filterMap.mp (List.mem_of_getLast? h)

end LandRecords
