import LandRecords.Base.Text
import Mathlib

/-! Patterns matched with backtracking. The alternatives of a pattern are tried in their order and
the longest repetition first, and the first way is taken in which the rest of the match succeeds. -/
namespace LandRecords

inductive Pattern where
  | char (accepts : Char → Bool)
  | empty
  | seq (first second : Pattern)
  | alt (first second : Pattern)
  /-- The body, or else nothing. -/
  | opt (body : Pattern)
  /-- As many accepted characters as possible. -/
  | many (accepts : Char → Bool)
  /-- A group whose text is reported. -/
  | group (body : Pattern)

namespace Pattern

variable {β : Type}

def runMany (accepts : Char → Bool) (k : Text → Option β) : Text → Option β
  | [] => k []
  | c :: text =>
      if accepts c then (runMany accepts k text).or (k (c :: text)) else k (c :: text)

/-- Matches at the start of the text. What is left and the groups go to the rest of the match, and
where that fails the next way is tried. -/
def run : Pattern → Text → (Text → List Text → Option β) → Option β
  | char _, [], _ => none
  | char accepts, c :: text, k => if accepts c then k text [] else none
  | empty, text, k => k text []
  | seq first second, text, k =>
      first.run text fun rest groups =>
        second.run rest fun rest' groups' => k rest' (groups ++ groups')
  | alt first second, text, k => (first.run text k).or (second.run text k)
  | opt body, text, k => (body.run text k).or (k text [])
  | many accepts, text, k => runMany accepts (fun rest => k rest []) text
  | group body, text, k =>
      body.run text fun rest groups => k rest (text.take (text.length - rest.length) :: groups)

def search (p : Pattern) (text : Text) : Option (List Text) :=
  text.tails.findSome? fun rest => p.run rest fun _ groups => some groups

def word (same : Char → Char → Bool) : Text → Pattern
  | [] => empty
  | c :: rest => seq (char (same c)) (word same rest)

def oneOf : List Pattern → Pattern
  | [] => char fun _ => false
  | [p] => p
  | p :: q :: rest => alt p (oneOf (q :: rest))

def some1 (accepts : Char → Bool) : Pattern := seq (char accepts) (many accepts)

/-! ### What a match comes to -/

variable {accepts : Char → Bool} {text : Text} {k : Text → List Text → Option β}

theorem run_seq (first second : Pattern) : (seq first second).run text k =
    first.run text fun rest groups =>
      second.run rest fun rest' groups' => k rest' (groups ++ groups') := rfl

theorem run_opt (body : Pattern) : (opt body).run text k = (body.run text k).or (k text []) := rfl

theorem run_many (h : ∀ c rest, accepts c = true → k (rest.dropWhile accepts) [] = none →
    k (c :: rest) [] = none) : (many accepts).run text k = k (text.dropWhile accepts) [] := by
  rw [run]
  induction text with
  | nil => rfl
  | cons c text ih =>
    rw [runMany]
    by_cases hc : accepts c = true
    · rw [if_pos hc, ih, List.dropWhile_cons_of_pos hc]
      cases hrest : k (text.dropWhile accepts) [] with
      | none => rw [Option.none_or, h c text hc hrest]
      | some b => rfl
    · rw [if_neg hc, List.dropWhile_cons_of_neg hc]

theorem run_oneOf (patterns : List Pattern) :
    (oneOf patterns).run text k = patterns.findSome? fun p => p.run text k := by
  induction patterns with
  | nil => cases text <;> rfl
  | cons p patterns ih =>
    cases patterns with
    | nil =>
      rw [oneOf, List.findSome?_cons, List.findSome?_nil]
      cases p.run text k <;> rfl
    | cons q patterns =>
      rw [oneOf, run, ih]
      conv_rhs => rw [List.findSome?_cons]
      cases p.run text k <;> rfl

def dropWord (same : Char → Char → Bool) : Text → Text → Option Text
  | [], text => some text
  | _ :: _, [] => none
  | c :: word, d :: text => if same c d then dropWord same word text else none

theorem run_word (same : Char → Char → Bool) (letters : Text) :
    (word same letters).run text k = (dropWord same letters text).bind fun rest => k rest [] := by
  induction letters generalizing text k with
  | nil => rfl
  | cons c letters ih =>
    rw [word, run_seq]
    cases text with
    | nil => rfl
    | cons d text =>
      rw [run, dropWord]
      by_cases hsame : same c d = true
      · rw [if_pos hsame, if_pos hsame, ih]
        rfl
      · rw [if_neg hsame, if_neg hsame]
        rfl

end Pattern

end LandRecords
