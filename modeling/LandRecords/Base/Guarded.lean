import Mathlib

/-! Traces each of whose events is allowed by the events before it. -/
namespace LandRecords

variable {E : Type*}

/-- `past` holds the events before the trace. -/
def GuardedFrom (ok : List E → E → Prop) : List E → List E → Prop
  | _, [] => True
  | past, event :: rest => ok past event ∧ GuardedFrom ok (past ++ [event]) rest

def Guarded (ok : List E → E → Prop) (trace : List E) : Prop := GuardedFrom ok [] trace

instance decidableGuardedFrom (ok : List E → E → Prop) [∀ past e, Decidable (ok past e)] :
    ∀ past trace, Decidable (GuardedFrom ok past trace)
  | _, [] => inferInstanceAs (Decidable True)
  | past, event :: rest =>
      haveI := decidableGuardedFrom ok (past ++ [event]) rest
      inferInstanceAs (Decidable (ok past event ∧ GuardedFrom ok (past ++ [event]) rest))

instance (ok : List E → E → Prop) [∀ past e, Decidable (ok past e)] (trace : List E) :
    Decidable (Guarded ok trace) :=
  decidableGuardedFrom ok [] trace

namespace Guarded

variable {ok ok' : List E → E → Prop} {trace : List E}

@[simp] theorem nil : Guarded ok [] := trivial

theorem guardedFrom_append {past front back : List E} :
    GuardedFrom ok past (front ++ back) ↔
      GuardedFrom ok past front ∧ GuardedFrom ok (past ++ front) back := by
  induction front generalizing past with
  | nil => simp [GuardedFrom]
  | cons event rest ih => simp [GuardedFrom, ih, and_assoc]

theorem imp_from {past : List E} (h : GuardedFrom ok past trace)
    (himp : ∀ past' event, past <+: past' → ok past' event → ok' past' event) :
    GuardedFrom ok' past trace := by
  induction trace generalizing past with
  | nil => trivial
  | cons event rest ih =>
    refine ⟨himp past event (List.prefix_refl _) h.1, ih h.2 fun past' other hpast => ?_⟩
    exact himp past' other ((List.prefix_append past [event]).trans hpast)

theorem concat {event : E} :
    Guarded ok (trace ++ [event]) ↔ Guarded ok trace ∧ ok trace event := by
  simp [Guarded, guardedFrom_append, GuardedFrom]

/-- A guarded trace allows every event after its own past. -/
theorem iff_forall_past :
    Guarded ok trace ↔ ∀ past event, past ++ [event] <+: trace → ok past event := by
  induction trace using List.reverseRecOn with
  | nil => simp
  | append_singleton past event ih =>
    rw [concat, ih]
    constructor
    · rintro ⟨hpast, hevent⟩ front other hfront
      rcases List.prefix_concat_iff.mp hfront with heq | hfront
      · obtain ⟨hfrontPast, hother⟩ := List.append_inj' heq rfl
        rw [hfrontPast, List.singleton_inj.mp hother]
        exact hevent
      · exact hpast front other hfront
    · intro hall
      exact ⟨fun front other hfront => hall front other
        (hfront.trans (List.prefix_append past [event])),
        hall past event (List.prefix_refl _)⟩

end Guarded

end LandRecords
