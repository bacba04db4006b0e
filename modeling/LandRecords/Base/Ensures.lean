import LandRecords.Base.Raised

/-! Programs that return a value with a property, and how such programs are put together. -/
namespace LandRecords.Raised

variable {ε α β : Type} {m : Except ε α} {f : α → Except ε β} {P P' : α → Prop} {Q : β → Prop}

def Ensures (m : Except ε α) (P : α → Prop) : Prop := ∃ a, m = .ok a ∧ P a

theorem Ensures.ok {a : α} (h : P a) : Ensures (.ok a : Except ε α) P := ⟨a, rfl, h⟩

theorem Ensures.imp (h : Ensures m P) (himp : ∀ a, P a → P' a) : Ensures m P' := by
  obtain ⟨a, ha, hpost⟩ := h
  exact ⟨a, ha, himp a hpost⟩

theorem Ensures.bind (h : Ensures m P) (hf : ∀ a, P a → Ensures (f a) Q) : Ensures (m >>= f) Q := by
  obtain ⟨a, rfl, ha⟩ := h
  exact hf a ha

theorem mapM_eq_error {as : List α} {e : ε} (hall : ∀ a ∈ as, (∃ b, f a = .ok b) ∨ f a = .error e)
    (hraised : ∃ a ∈ as, f a = .error e) : as.mapM f = .error e := by
  induction as with
  | nil =>
    obtain ⟨a, ha, _⟩ := hraised
    cases ha
  | cons a rest ih =>
    rw [List.mapM_cons]
    rcases hall a List.mem_cons_self with ⟨b, hb⟩ | herror
    · have hlater : ∃ later ∈ rest, f later = .error e := by
        obtain ⟨later, hlater, herror⟩ := hraised
        rcases List.mem_cons.mp hlater with rfl | hlater
        · rw [hb] at herror
          cases herror
        · exact ⟨later, hlater, herror⟩
      rw [hb, ok_bind, ih (fun later h => hall later (List.mem_cons_of_mem a h)) hlater]
      rfl
    · rw [herror]
      rfl

end LandRecords.Raised
