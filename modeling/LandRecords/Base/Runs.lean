import Mathlib

/-! Runs of a machine whose labelled steps may be disabled. A property holds
throughout a run when it holds in every state reached; a run is judged step by
step by a condition on the state before the step. -/
namespace LandRecords.Runs

variable {S A : Type*} (step : S → A → Option S)

def run : S → List A → Option S
  | s, [] => some s
  | s, a :: rest => (step s a).bind fun t => run t rest

/-- The property holds in the start state and in every state reached after it. -/
def Throughout (P : S → Prop) : S → List A → Prop
  | s, [] => P s
  | s, a :: rest => P s ∧ ∀ t ∈ step s a, Throughout P t rest

/-- The condition holds of every step that is taken. -/
def AllSteps (ok : S → A → Prop) : S → List A → Prop
  | _, [] => True
  | s, a :: rest => ∀ t ∈ step s a, ok s a ∧ AllSteps ok t rest

def AllMoves (R : S → S → Prop) : S → List A → Prop
  | _, [] => True
  | s, a :: rest => ∀ t ∈ step s a, R s t ∧ AllMoves R t rest

/-- A run of steps that meet the condition leads from the one state to the other. -/
def Leads (ok : S → A → Prop) (s t : S) : Prop :=
  ∃ as, run step s as = some t ∧ AllSteps step ok s as

/-- How many of the steps that are taken meet the condition. -/
def countSteps (counts : S → A → Bool) : S → List A → Nat
  | _, [] => 0
  | s, a :: rest =>
      match step s a with
      | none => 0
      | some t => (if counts s a then 1 else 0) + countSteps counts t rest

instance decidableThroughout (P : S → Prop) [DecidablePred P] :
    ∀ s as, Decidable (Throughout step P s as)
  | s, [] => inferInstanceAs (Decidable (P s))
  | s, _ :: rest =>
      haveI := fun t => decidableThroughout P t rest
      inferInstanceAs (Decidable (P s ∧ ∀ t ∈ step s _, Throughout step P t rest))

instance decidableAllSteps (ok : S → A → Prop) [∀ s a, Decidable (ok s a)] :
    ∀ s as, Decidable (AllSteps step ok s as)
  | _, [] => inferInstanceAs (Decidable True)
  | s, a :: rest =>
      haveI := fun t => decidableAllSteps ok t rest
      inferInstanceAs (Decidable (∀ t ∈ step s a, ok s a ∧ AllSteps step ok t rest))

variable {step} {P Q I : S → Prop} {ok : S → A → Prop}

theorem Throughout.here {s : S} {as : List A} (h : Throughout step P s as) : P s := by
  cases as with
  | nil => exact h
  | cons a rest => exact h.1

theorem Throughout.imp {s : S} {as : List A} (h : Throughout step P s as)
    (hPQ : ∀ t, P t → Q t) : Throughout step Q s as := by
  induction as generalizing s with
  | nil => exact hPQ s h
  | cons a rest ih => exact ⟨hPQ s h.1, fun t ht => ih (h.2 t ht)⟩

theorem run_append {s : S} {as bs : List A} :
    run step s (as ++ bs) = (run step s as).bind fun t => run step t bs := by
  induction as generalizing s with
  | nil => rfl
  | cons a rest ih =>
    simp only [List.cons_append, run, Option.bind_assoc, ih]

theorem run_seen {T : Type*} {step' : T → A → Option T} {seen : S → T}
    (h : ∀ s a, step' (seen s) a = (step s a).map seen) (s : S) (as : List A) :
    run step' (seen s) as = (run step s as).map seen := by
  induction as generalizing s with
  | nil => rfl
  | cons a rest ih =>
    change (step' (seen s) a).bind _ = ((step s a).bind _).map seen
    rw [h]
    cases step s a with
    | none => rfl
    | some t => exact ih t

theorem run_induction {H : List A → S → Prop} {s t : S} {as : List A} (hs : H [] s)
    (hstep : ∀ as a t u, run step s as = some t → H as t → step t a = some u → H (as ++ [a]) u)
    (hrun : run step s as = some t) : H as t := by
  induction as using List.reverseRecOn generalizing t with
  | nil => exact Option.some.inj hrun ▸ hs
  | append_singleton as a ih =>
    rw [run_append] at hrun
    obtain ⟨u, hu, hlast⟩ := Option.bind_eq_some_iff.mp hrun
    obtain ⟨v, hv, hend⟩ := Option.bind_eq_some_iff.mp hlast
    obtain rfl := Option.some.inj hend
    exact hstep as a u v hu (ih hu) hv

theorem Throughout.at_run {s t : S} {as : List A} (h : Throughout step P s as)
    (hrun : run step s as = some t) : P t := by
  induction as generalizing s with
  | nil => exact Option.some.inj hrun ▸ h
  | cons a rest ih =>
    obtain ⟨u, hu, hrest⟩ := Option.bind_eq_some_iff.mp hrun
    exact ih (h.2 u hu) hrest

theorem AllSteps.append {s t : S} {as bs : List A} (h : AllSteps step ok s as)
    (hrun : run step s as = some t) (ht : AllSteps step ok t bs) :
    AllSteps step ok s (as ++ bs) := by
  induction as generalizing s with
  | nil => exact Option.some.inj hrun ▸ ht
  | cons a rest ih =>
    obtain ⟨u, hu, hrest⟩ := Option.bind_eq_some_iff.mp hrun
    intro next hnext
    obtain rfl := Option.some.inj (hu.symm.trans hnext)
    exact ⟨(h u hu).1, ih (h u hu).2 hrest⟩

theorem AllSteps.of_prefix {s : S} {front as : List A} (h : AllSteps step ok s as)
    (hfront : front <+: as) : AllSteps step ok s front := by
  induction front generalizing s as with
  | nil => trivial
  | cons a front ih =>
    obtain ⟨rest, rfl, hrest⟩ := List.cons_prefix_iff.mp hfront
    exact fun t ht => ⟨(h t ht).1, ih (h t ht).2 hrest⟩

theorem Leads.refl (s : S) : Leads step ok s s := ⟨[], rfl, trivial⟩

theorem Leads.of_step {s t : S} {a : A} (h : step s a = some t) (hok : ok s a) :
    Leads step ok s t := by
  refine ⟨[a], ?_, fun _ _ => ⟨hok, trivial⟩⟩
  rw [run, h]
  rfl

theorem Leads.trans {s t u : S} (h : Leads step ok s t) (hrest : Leads step ok t u) :
    Leads step ok s u := by
  obtain ⟨as, hrun, hall⟩ := h
  obtain ⟨bs, hrunRest, hallRest⟩ := hrest
  refine ⟨as ++ bs, ?_, hall.append hrun hallRest⟩
  rw [run_append, hrun]
  exact hrunRest

theorem throughout_of_preserved {s : S} {as : List A} (hs : P s)
    (hstep : ∀ s a t, P s → step s a = some t → P t) : Throughout step P s as := by
  induction as generalizing s with
  | nil => exact hs
  | cons a rest ih => exact ⟨hs, fun t ht => ih (hstep s a t hs ht)⟩

theorem throughout_true {s : S} {as : List A} : Throughout step (fun _ => True) s as :=
  throughout_of_preserved trivial fun _ _ _ _ _ => trivial

/-- An invariant of the steps that meet a condition holds throughout a run of
such steps. -/
theorem throughout_of_invariant {s : S} {as : List A} (hs : I s)
    (hstep : ∀ s a t, I s → ok s a → step s a = some t → I t) (hok : AllSteps step ok s as) :
    Throughout step I s as := by
  induction as generalizing s with
  | nil => exact hs
  | cons a rest ih =>
    refine ⟨hs, fun t ht => ?_⟩
    have hhere := hok t ht
    exact ih (hstep s a t hs hhere.1 ht) hhere.2

theorem Leads.invariant {s t : S} (h : Leads step ok s t) (hs : I s)
    (hstep : ∀ s a t, I s → ok s a → step s a = some t → I t) : I t := by
  obtain ⟨as, hrun, hall⟩ := h
  exact (throughout_of_invariant hs hstep hall).at_run hrun

/-- A step condition that carries an invariant, and that the property enforces,
is exactly what the property asks of a run. -/
theorem throughout_iff_allSteps {s : S} {as : List A} (hs : I s)
    (hstep : ∀ s a t, I s → ok s a → step s a = some t → I t)
    (hholds : ∀ s, I s → Q s → P s)
    (hneeded : ∀ s a t, I s → step s a = some t → P t → ok s a)
    (hQ : Throughout step Q s as) : Throughout step P s as ↔ AllSteps step ok s as := by
  induction as generalizing s with
  | nil => exact iff_of_true (hholds s hs hQ) trivial
  | cons a rest ih =>
    constructor
    · intro hP t ht
      have hhere := hneeded s a t hs ht (hP.2 t ht).here
      exact ⟨hhere, (ih (hstep s a t hs hhere ht) (hQ.2 t ht)).mp (hP.2 t ht)⟩
    · intro hok
      refine ⟨hholds s hs hQ.1, fun t ht => ?_⟩
      have hhere := hok t ht
      exact (ih (hstep s a t hs hhere.1 ht) (hQ.2 t ht)).mpr hhere.2

/-- Where a property amounts to a condition on the state, and a step keeps that
condition exactly when it is judged good, the property holds throughout the runs
of good steps and in no others. -/
theorem throughout_iff_of_exact {C : S → Prop} {s : S} {as : List A} (hs : I s) (hC : C s)
    (hstep : ∀ s a t, I s → C s → step s a = some t → I t ∧ (C t ↔ ok s a))
    (hiff : ∀ s, I s → (P s ↔ C s)) : Throughout step P s as ↔ AllSteps step ok s as := by
  refine throughout_iff_allSteps (I := fun s => I s ∧ C s) ⟨hs, hC⟩ ?_ ?_ ?_ throughout_true
  · intro s a t hs hok ht
    have hkept := hstep s a t hs.1 hs.2 ht
    exact ⟨hkept.1, hkept.2.mpr hok⟩
  · intro s hs _
    exact (hiff s hs.1).mpr hs.2
  · intro s a t hs ht hP
    have hkept := hstep s a t hs.1 hs.2 ht
    exact hkept.2.mp ((hiff t hkept.1).mp hP)

theorem allSteps_of_forall {s : S} {as : List A} (h : ∀ s a, ok s a) : AllSteps step ok s as := by
  induction as generalizing s with
  | nil => trivial
  | cons a rest ih => exact fun t _ => ⟨h s a, ih⟩

theorem allMoves_of_forall {R : S → S → Prop} {s : S} {as : List A}
    (h : ∀ s a t, step s a = some t → R s t) : AllMoves step R s as := by
  induction as generalizing s with
  | nil => trivial
  | cons a rest ih => exact fun t ht => ⟨h s a t ht, ih⟩

theorem AllMoves.at_run {R : S → S → Prop} {s t u : S} {as rest : List A} {a : A}
    (h : AllMoves step R s (as ++ a :: rest)) (hrun : run step s as = some t)
    (hstep : step t a = some u) : R t u := by
  induction as generalizing s with
  | nil =>
    cases hrun
    exact (h u hstep).1
  | cons b front ih =>
    obtain ⟨v, hv, hfront⟩ := Option.bind_eq_some_iff.mp hrun
    exact ih (h v hv).2 hfront

/-- Where each step relates its states exactly under a condition, so does a run. -/
theorem allMoves_iff_allSteps {R : S → S → Prop} {s : S} {as : List A} (hs : I s)
    (hstep : ∀ s a t, I s → step s a = some t → I t)
    (hiff : ∀ s a t, I s → step s a = some t → (R s t ↔ ok s a)) :
    AllMoves step R s as ↔ AllSteps step ok s as := by
  induction as generalizing s with
  | nil => exact Iff.rfl
  | cons a rest ih =>
    apply forall_congr'
    intro t
    apply forall_congr'
    intro ht
    exact and_congr (hiff s a t hs ht) (ih (hstep s a t hs ht))

section Count

variable {counts : S → A → Bool} {Done : S → Prop}

theorem countSteps_eq_zero {s : S} {as : List A} (hs : Done s)
    (hkept : ∀ s a t, Done s → step s a = some t → Done t ∧ counts s a = false) :
    countSteps step counts s as = 0 := by
  induction as generalizing s with
  | nil => rfl
  | cons a rest ih =>
    cases ht : step s a with
    | none => simp only [countSteps, ht]
    | some t =>
      obtain ⟨hdone, hcounts⟩ := hkept s a t hs ht
      simp only [countSteps, ht, hcounts, ih hdone, Bool.false_eq_true, if_false]

theorem countSteps_le_one {s : S} {as : List A} (hs : I s)
    (hstep : ∀ s a t, I s → step s a = some t → I t)
    (hkept : ∀ s a t, I s → Done s → step s a = some t → Done t ∧ counts s a = false)
    (hdone : ∀ s a t, I s → counts s a = true → step s a = some t → Done t) :
    countSteps step counts s as ≤ 1 := by
  induction as generalizing s with
  | nil => exact Nat.zero_le _
  | cons a rest ih =>
    cases ht : step s a with
    | none => simp only [countSteps, ht, Nat.zero_le]
    | some t =>
      have hI := hstep s a t hs ht
      cases hcounts : counts s a with
      | false =>
        simp only [countSteps, ht, hcounts, Bool.false_eq_true, if_false, Nat.zero_add]
        exact ih hI
      | true =>
        have hboth : ∀ s a t, I s ∧ Done s → step s a = some t →
            (I t ∧ Done t) ∧ counts s a = false := by
          intro s a t hs ht
          obtain ⟨hdone, hcounts⟩ := hkept s a t hs.1 hs.2 ht
          exact ⟨⟨hstep s a t hs.1 ht, hdone⟩, hcounts⟩
        have hrest : countSteps step counts t rest = 0 := countSteps_eq_zero
          ⟨hI, hdone s a t hs hcounts ht⟩ hboth
        simp only [countSteps, ht, hcounts, hrest, if_true, Nat.add_zero, Nat.le_refl]

end Count

end LandRecords.Runs
