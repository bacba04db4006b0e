import Mathlib

/-! Binary file objects with a position, and what reading one in pieces to its end amounts
to, whatever the length of the pieces. -/
namespace LandRecords

structure FileObject where
  bytes : List UInt8
  position : ℕ
  position_le : position ≤ bytes.length

namespace FileObject

def empty : FileObject := ⟨[], 0, Nat.le_refl _⟩

def opened (bytes : List UInt8) : FileObject := ⟨bytes, 0, Nat.zero_le _⟩

def rest (file : FileObject) : List UInt8 := file.bytes.drop file.position

def rewind (file : FileObject) : FileObject := opened file.bytes

def advance (count : ℕ) (file : FileObject) : FileObject :=
  ⟨file.bytes, min (file.position + count) file.bytes.length, Nat.min_le_right _ _⟩

/-- `read(count)`: as many bytes, or as there are. -/
def read (count : ℕ) (file : FileObject) : List UInt8 × FileObject :=
  (file.rest.take count, file.advance count)

/-- `write(chunk)`, over what is there from the position on. -/
def write (chunk : List UInt8) (file : FileObject) : FileObject where
  bytes := file.bytes.take file.position ++ chunk ++ file.bytes.drop (file.position + chunk.length)
  position := file.position + chunk.length
  position_le := by
    have := file.position_le
    simp only [List.length_append, List.length_take, List.length_drop]
    omega

@[simp] theorem rest_opened (bytes : List UInt8) : (opened bytes).rest = bytes := rfl

@[simp] theorem rewind_bytes (file : FileObject) : file.rewind.bytes = file.bytes := rfl

@[simp] theorem rest_rewind (file : FileObject) : file.rewind.rest = file.bytes := rfl

@[simp] theorem rest_advance (count : ℕ) (file : FileObject) :
    (file.advance count).rest = file.rest.drop count := by
  have := file.position_le
  simp only [rest, advance, List.drop_drop]
  by_cases hle : file.position + count ≤ file.bytes.length
  · rw [Nat.min_eq_left hle]
  · rw [Nat.min_eq_right (by omega), List.drop_eq_nil_of_le (Nat.le_refl _),
      List.drop_eq_nil_of_le (by omega)]

theorem bytes_write_of_rest (chunk : List UInt8) {file : FileObject} (hend : file.rest = []) :
    (file.write chunk).bytes = file.bytes ++ chunk := by
  have hle : file.bytes.length ≤ file.position := List.drop_eq_nil_iff.mp hend
  simp only [write]
  rw [List.take_of_length_le hle, List.drop_eq_nil_of_le (by omega), List.append_nil]

theorem rest_write_of_rest (chunk : List UInt8) {file : FileObject} (hend : file.rest = []) :
    (file.write chunk).rest = [] := by
  have hle : file.bytes.length ≤ file.position := List.drop_eq_nil_iff.mp hend
  rw [rest, bytes_write_of_rest chunk hend]
  apply List.drop_eq_nil_of_le
  simp only [List.length_append, write]
  omega

theorem length_rest_advance_lt {count : ℕ+} {file : FileObject}
    (h : file.rest.take count ≠ []) : (file.advance count).rest.length < file.rest.length := by
  have hpos := count.pos
  have hne : file.rest ≠ [] := fun hnil => h (by rw [hnil, List.take_nil])
  have hlength := List.length_pos_iff.mpr hne
  rw [rest_advance, List.length_drop]
  omega

def sameRest (chunkSize : ℕ+) (existing other : FileObject) : Bool :=
  let a := (existing.read chunkSize).1
  let b := (other.read chunkSize).1
  if a ≠ b then false
  else if _h : a = [] then true
  else sameRest chunkSize (existing.read chunkSize).2 (other.read chunkSize).2
termination_by existing.rest.length
decreasing_by exact length_rest_advance_lt _h

theorem sameRest_iff (chunkSize : ℕ+) (existing other : FileObject) :
    sameRest chunkSize existing other = true ↔ existing.rest = other.rest := by
  fun_induction sameRest chunkSize existing other with
  | case1 existing other a b hne =>
    refine iff_of_false Bool.false_ne_true fun heq => hne ?_
    simp only [a, b, read, heq]
  | case2 existing other a b heq hnil =>
    have hempty : ∀ bytes : List UInt8, bytes.take chunkSize = [] → bytes = [] := by
      intro bytes htake
      exact (List.take_eq_nil_iff.mp htake).resolve_left chunkSize.pos.ne'
    have hequal : a = b := not_not.mp heq
    refine iff_of_true rfl ?_
    rw [hempty existing.rest hnil, hempty other.rest (hequal.symm.trans hnil)]
  | case3 existing other a b heq hne ih =>
    have hequal : existing.rest.take chunkSize = other.rest.take chunkSize := not_not.mp heq
    rw [ih]
    simp only [read, rest_advance]
    constructor
    · intro hdrop
      rw [← List.take_append_drop chunkSize existing.rest, hequal, hdrop, List.take_append_drop]
    · intro hrest
      rw [hrest]

end FileObject

end LandRecords
