import Mathlib

/-! Text as a sequence of code points, with the few renderings that hashed
strings are put together from: separator joins, fixed-width decimals and
hexadecimal digits. Each comes with the law that recovers its parts. -/
namespace LandRecords

abbrev Text := List Char

/-- Named, so that every decision on texts rests on the same proof. -/
instance Text.lawfulBEq : LawfulBEq Text := inferInstance

namespace Text

/-- `sep.join(parts)`. -/
def join (sep : Text) : List Text → Text
  | [] => []
  | [part] => part
  | part :: next :: rest => part ++ sep ++ join sep (next :: rest)

/-- `value or ""` for an optional string. -/
def orEmpty (value : Option Text) : Text := value.getD []

/-- `str.lower` on the letters that have an ASCII lower case. -/
def lower (text : Text) : Text := text.map Char.toLower

/-- `part in text`. -/
def contains (text part : Text) : Bool := text.tails.any fun rest => part.isPrefixOf rest

@[simp] theorem orEmpty_none : orEmpty none = [] := rfl
@[simp] theorem orEmpty_some (value : Text) : orEmpty (some value) = value := rfl

theorem cut_first_inj {sep : Char} {a b x y : Text} (ha : sep ∉ a) (hb : sep ∉ b)
    (h : a ++ sep :: x = b ++ sep :: y) : a = b ∧ x = y := by
  induction a generalizing b with
  | nil =>
    cases b with
    | nil => exact ⟨rfl, (List.cons.inj h).2⟩
    | cons d b => exact absurd (List.cons.inj h).1 (by rintro rfl; simp at hb)
  | cons c a ih =>
    cases b with
    | nil => exact absurd (List.cons.inj h).1 (by rintro rfl; simp at ha)
    | cons d b =>
      obtain ⟨hcd, htail⟩ := List.cons.inj h
      obtain ⟨hab, hxy⟩ := ih (fun hmem => ha (List.mem_cons_of_mem _ hmem))
        (fun hmem => hb (List.mem_cons_of_mem _ hmem)) htail
      exact ⟨by rw [hcd, hab], hxy⟩

theorem cut_last_inj {sep : Char} {a b x y : Text} (ha : sep ∉ a) (hb : sep ∉ b)
    (h : x ++ sep :: a = y ++ sep :: b) : x = y ∧ a = b := by
  have hrev := congrArg List.reverse h
  simp only [List.reverse_append, List.reverse_cons, List.append_assoc,
    List.singleton_append] at hrev
  obtain ⟨hab, hxy⟩ := cut_first_inj (by simpa using ha) (by simpa using hb) hrev
  exact ⟨List.reverse_injective hxy, List.reverse_injective hab⟩

theorem join_cons_inj {sep : Char} {a b : Text} {rest rest' : List Text}
    (ha : sep ∉ a) (hb : sep ∉ b) (hr : rest ≠ []) (hr' : rest' ≠ [])
    (h : join [sep] (a :: rest) = join [sep] (b :: rest')) :
    a = b ∧ join [sep] rest = join [sep] rest' := by
  obtain ⟨r, rs, rfl⟩ := List.exists_cons_of_ne_nil hr
  obtain ⟨r', rs', rfl⟩ := List.exists_cons_of_ne_nil hr'
  simp only [join, List.append_assoc, List.singleton_append] at h
  exact cut_first_inj ha hb h

theorem join_concat (sep : Text) (parts : List Text) (last : Text) (h : parts ≠ []) :
    join sep (parts ++ [last]) = join sep parts ++ sep ++ last := by
  induction parts with
  | nil => exact absurd rfl h
  | cons part rest ih =>
    cases rest with
    | nil => simp [join]
    | cons next rest =>
      simp only [List.cons_append, join, List.append_assoc] at ih ⊢
      rw [ih (by simp)]

theorem infix_join {sep part : Text} {parts : List Text} (h : part ∈ parts) :
    part <:+: join sep parts := by
  induction parts with
  | nil => simp at h
  | cons first rest ih =>
    cases rest with
    | nil =>
      obtain rfl := List.mem_singleton.mp h
      exact List.infix_rfl
    | cons next rest =>
      rw [join]
      rcases List.mem_cons.mp h with rfl | hmem
      · exact ⟨[], sep ++ join sep (next :: rest), by simp⟩
      · exact (ih hmem).trans (List.suffix_append _ _).isInfix

def digits : Text := "0123456789abcdef".toList

def digit (n : Nat) : Char := digits.getD n '0'

theorem digit_inj {m n : Nat} (hm : m < 16) (hn : n < 16) (h : digit m = digit n) : m = n := by
  have all : ∀ i ∈ List.range 16, ∀ j ∈ List.range 16, digit i = digit j → i = j := by decide
  exact all m (List.mem_range.mpr hm) n (List.mem_range.mpr hn) h

theorem digit_mem {n : Nat} (hn : n < 16) : digit n ∈ digits := by
  have all : ∀ i ∈ List.range 16, digit i ∈ digits := by decide
  exact all n (List.mem_range.mpr hn)

/-- Zero-padded numeral of a fixed width: `%0<width>d` for a number that fits,
and the hexadecimal rendering of a machine word. -/
def numeral (base : Nat) : Nat → Nat → Text
  | 0, _ => []
  | width + 1, n => numeral base width (n / base) ++ [digit (n % base)]

@[simp] theorem length_numeral (base width n : Nat) : (numeral base width n).length = width := by
  induction width generalizing n with
  | zero => rfl
  | succ width ih => simp [numeral, ih]

theorem numeral_inj {base width m n : Nat} (hbase : 0 < base) (hle : base ≤ 16)
    (hm : m < base ^ width) (hn : n < base ^ width)
    (h : numeral base width m = numeral base width n) : m = n := by
  induction width generalizing m n with
  | zero =>
    rw [Nat.pow_zero] at hm hn
    omega
  | succ width ih =>
    obtain ⟨hhigh, hlow⟩ := List.append_inj' h rfl
    have hmlast := Nat.mod_lt m hbase
    have hnlast := Nat.mod_lt n hbase
    have hlast := digit_inj (by omega) (by omega) (List.singleton_inj.mp hlow)
    rw [Nat.pow_succ] at hm hn
    have hrest := ih (Nat.div_lt_of_lt_mul (by rwa [Nat.mul_comm]))
      (Nat.div_lt_of_lt_mul (by rwa [Nat.mul_comm])) hhigh
    calc m = base * (m / base) + m % base := (Nat.div_add_mod m base).symm
      _ = base * (n / base) + n % base := by rw [hrest, hlast]
      _ = n := Nat.div_add_mod n base

theorem numeral_mem {base width n : Nat} {c : Char} (hbase : 0 < base) (hle : base ≤ 16)
    (h : c ∈ numeral base width n) : c ∈ digits := by
  induction width generalizing n with
  | zero => simp [numeral] at h
  | succ width ih =>
    rcases List.mem_append.mp h with hhigh | hlow
    · exact ih hhigh
    · rw [List.mem_singleton.mp hlow]
      have hlast := Nat.mod_lt n hbase
      exact digit_mem (by omega)

end Text

end LandRecords
