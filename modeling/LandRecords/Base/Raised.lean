import LandRecords.Base.Text
import Mathlib

/-! Programs that return or raise an exception, and the checks that stand in
front of a value: what a returned run has passed can be read back from it. -/
namespace LandRecords

inductive Raised where
  | valueError (message : Text)
  | overflowError
  | zeroDivisionError
  | typeError
  | attributeError
  | keyError
  | indexError
deriving DecidableEq

namespace Raised

variable {ε α β : Type}

/-- `if not condition: raise error`. -/
def require (condition : Bool) (error : Raised) : Except Raised Unit :=
  if condition then .ok () else .error error

def checked (check : Except Raised Unit) (build : check = .ok () → α) : Except Raised α :=
  match check, build with
  | .ok (), build => .ok (build rfl)
  | .error e, _ => .error e

@[simp] theorem pure_eq (a : α) : (pure a : Except ε α) = .ok a := rfl

@[simp] theorem ok_bind (a : α) (f : α → Except ε β) : (Except.ok a >>= f) = f a := rfl

@[simp] theorem error_bind (e : ε) (f : α → Except ε β) :
    (Except.error e >>= f) = .error e := rfl

@[simp] theorem map_ok (f : α → β) (a : α) : (Except.ok a : Except ε α).map f = .ok (f a) := rfl

@[simp] theorem map_error (f : α → β) (e : ε) :
    (Except.error e : Except ε α).map f = .error e := rfl

@[simp] theorem require_true (error : Raised) : require true error = .ok () := rfl

theorem bind_congr_ok {m : Except ε α} {f g : α → Except ε β} (h : ∀ a, m = .ok a → f a = g a) :
    (m >>= f) = (m >>= g) := by
  cases m with
  | ok a => exact h a rfl
  | error e => rfl

theorem bind_eq_ok {m : Except ε α} {f : α → Except ε β} {b : β} :
    (m >>= f) = .ok b ↔ ∃ a, m = .ok a ∧ f a = .ok b := by
  cases m with
  | ok a => simp
  | error e => simp

theorem map_eq_ok {m : Except ε α} {f : α → β} {b : β} :
    m.map f = .ok b ↔ ∃ a, m = .ok a ∧ f a = b := by
  cases m with
  | ok a => simp
  | error e => simp

theorem mapM_eq_ok {f : α → Except ε β} {as : List α} {bs : List β} :
    as.mapM f = .ok bs ↔ List.Forall₂ (fun a b => f a = .ok b) as bs := by
  induction as generalizing bs with
  | nil => cases bs <;> simp
  | cons a as ih =>
    rw [List.mapM_cons, bind_eq_ok]
    constructor
    · rintro ⟨b, hb, h⟩
      obtain ⟨rest, hrest, h⟩ := bind_eq_ok.mp h
      cases h
      exact .cons hb (ih.mp hrest)
    · intro h
      cases h with
      | cons hb hrest =>
        refine ⟨_, hb, ?_⟩
        rw [ih.mpr hrest]
        rfl

theorem exists_mapM_eq_ok {f : α → Except ε β} {as : List α} (h : ∀ a ∈ as, ∃ b, f a = .ok b) :
    ∃ bs, as.mapM f = .ok bs := by
  induction as with
  | nil => exact ⟨[], rfl⟩
  | cons a as ih =>
    obtain ⟨b, hb⟩ := h a List.mem_cons_self
    obtain ⟨bs, hbs⟩ := ih fun a ha => h a (List.mem_cons_of_mem _ ha)
    exact ⟨b :: bs, mapM_eq_ok.mpr (.cons hb (mapM_eq_ok.mp hbs))⟩

theorem foldlM_eq_ok {f : β → α → Except ε β} {g : β → α → β} {as : List α} {b : β}
    (h : ∀ a ∈ as, ∀ b, f b a = .ok (g b a)) : as.foldlM f b = .ok (as.foldl g b) := by
  induction as generalizing b with
  | nil => rfl
  | cons a as ih =>
    rw [List.foldlM_cons, h a List.mem_cons_self, ok_bind]
    exact ih fun a ha => h a (List.mem_cons_of_mem _ ha)

theorem require_eq_ok {condition : Bool} {error : Raised} :
    require condition error = .ok () ↔ condition = true := by
  cases condition with
  | true => simp
  | false => simp [require]

theorem checked_eq {check : Except Raised Unit} {build : check = .ok () → α} (h : check = .ok ()) :
    checked check build = .ok (build h) := by
  subst h
  rfl

end Raised

end LandRecords
