import Mathlib

/-! Programs over a state whose operations may return, raise or be cut off by a
crash of the process. Every operation is given its fault from outside, and an
operation that raises or crashes may have taken effect before. A triple speaks
about all three exits. -/
namespace LandRecords

inductive Exit (ε α : Type) where
  | returned (value : α)
  | raised (error : ε)
  | crashed
deriving DecidableEq

def Exit.getD {ε α : Type} (exit : Exit ε α) (default : α) : α :=
  match exit with
  | .returned value => value
  | .raised _ | .crashed => default

def Exit.isRaised {ε α : Type} : Exit ε α → Bool
  | .raised _ => true
  | .returned _ | .crashed => false

inductive Fault (ε : Type) where
  | none
  | raises (tookEffect : Bool) (error : ε)
  | crashes (tookEffect : Bool)
deriving DecidableEq

def Fault.tookEffect {ε : Type} : Fault ε → Bool
  | .none => true
  | .raises tookEffect _ | .crashes tookEffect => tookEffect

def Fault.isRaise {ε : Type} : Fault ε → Bool
  | .raises _ _ => true
  | .none | .crashes _ => false

def Fallible (W ε α : Type) : Type := W → Exit ε α × W

namespace Fallible

variable {W ε α β : Type}

instance : Monad (Fallible W ε) where
  pure a := fun w => (.returned a, w)
  bind m f := fun w =>
    match m w with
    | (.returned a, w') => f a w'
    | (.raised e, w') => (.raised e, w')
    | (.crashed, w') => (.crashed, w')

def raise (e : ε) : Fallible W ε α := fun w => (.raised e, w)

/-- `try: body` with `except Exception as e: handler(e)`. A crash is not caught. -/
def handle (body : Fallible W ε α) (handler : ε → Fallible W ε α) : Fallible W ε α := fun w =>
  match body w with
  | (.raised e, w') => handler e w'
  | other => other

def perform (fault : Fault ε) (effect : W → α × W) : Fallible W ε α := fun w =>
  match fault with
  | .none => (.returned (effect w).1, (effect w).2)
  | .raises tookEffect e => (.raised e, if tookEffect then (effect w).2 else w)
  | .crashes tookEffect => (.crashed, if tookEffect then (effect w).2 else w)

def read (query : W → α) : Fallible W ε α := fun w => (.returned (query w), w)

def write (update : W → W) : Fallible W ε Unit := fun w => (.returned (), update w)

def transaction (m : Fallible W ε α) : Fallible W ε α := fun w =>
  match m w with
  | (.returned a, w') => (.returned a, w')
  | (exit, _) => (exit, w)

def within {V ε' : Type} (part : W → V) (update : V → W → W) (wrap : ε' → ε)
    (m : Fallible V ε' α) : Fallible W ε α := fun w =>
  match m (part w) with
  | (.returned a, v) => (.returned a, update v w)
  | (.raised e, v) => (.raised (wrap e), update v w)
  | (.crashed, v) => (.crashed, update v w)

section Run

variable {m : Fallible W ε β} {f : β → Fallible W ε α} {w w' : W}

theorem within_returned {V ε' : Type} {part : W → V} {update : V → W → W} {wrap : ε' → ε}
    {m : Fallible V ε' α} {a : α} : within part update wrap m w = (.returned a, w') ↔
      ∃ v, m (part w) = (.returned a, v) ∧ update v w = w' := by
  unfold within
  cases hm : m (part w) with
  | mk exit v =>
    cases exit with
    | returned b => simp
    | raised e => simp
    | crashed => simp

theorem within_raised {V ε' : Type} {part : W → V} {update : V → W → W} {wrap : ε' → ε}
    {m : Fallible V ε' α} {e : ε'} {v : V} (h : m (part w) = (.raised e, v)) :
    within part update wrap m w = (.raised (wrap e), update v w) := by
  unfold within
  rw [h]

theorem bind_returned {b : β} (h : m w = (.returned b, w')) : (m >>= f) w = f b w' := by
  change (match m w with
    | (.returned a, w') => f a w'
    | (.raised e, w') => (.raised e, w')
    | (.crashed, w') => (.crashed, w')) = f b w'
  rw [h]

theorem bind_raised {e : ε} (h : m w = (.raised e, w')) : (m >>= f) w = (.raised e, w') := by
  change (match m w with
    | (.returned a, w') => f a w'
    | (.raised e, w') => (.raised e, w')
    | (.crashed, w') => (.crashed, w')) = (.raised e, w')
  rw [h]

theorem bind_crashed (h : m w = (.crashed, w')) : (m >>= f) w = (.crashed, w') := by
  change (match m w with
    | (.returned a, w') => f a w'
    | (.raised e, w') => (.raised e, w')
    | (.crashed, w') => (.crashed, w')) = (.crashed, w')
  rw [h]

theorem pure_apply (a : α) : (Pure.pure a : Fallible W ε α) w = (.returned a, w) := rfl

theorem raise_apply (e : ε) : (raise e : Fallible W ε α) w = (.raised e, w) := rfl

theorem read_bind (query : W → β) : (read query >>= f) w = f (query w) w := rfl

theorem write_bind (update : W → W) (f : Unit → Fallible W ε α) :
    (write update >>= f) w = f () (update w) := rfl

theorem bind_eq_returned {a : α} : (m >>= f) w = (.returned a, w') ↔
    ∃ b middle, m w = (.returned b, middle) ∧ f b middle = (.returned a, w') := by
  cases hb : m w with
  | mk exit middle =>
    cases exit with
    | returned b =>
      rw [bind_returned hb]
      simp
    | raised e =>
      rw [bind_raised hb]
      simp
    | crashed =>
      rw [bind_crashed hb]
      simp

theorem transaction_returned {a : β} :
    transaction m w = (.returned a, w') ↔ m w = (.returned a, w') := by
  unfold transaction
  cases hb : m w with
  | mk exit middle =>
    cases exit with
    | returned b => rfl
    | raised e => simp
    | crashed => simp

theorem transaction_world_of_not_returned (h : ∀ b, (m w).1 ≠ .returned b) :
    (transaction m w).2 = w := by
  unfold transaction
  cases hb : m w with
  | mk exit middle =>
    rw [hb] at h
    cases exit with
    | returned b => exact absurd rfl (h b)
    | raised e => rfl
    | crashed => rfl

theorem handle_raised {body : Fallible W ε α} {handler : ε → Fallible W ε α} {e : ε}
    (h : body w = (.raised e, w')) : handle body handler w = handler e w' := by
  unfold handle
  rw [h]

theorem handle_not_raised {body : Fallible W ε α} {handler : ε → Fallible W ε α}
    (h : (body w).1.isRaised = false) : handle body handler w = body w := by
  unfold handle
  cases hb : body w with
  | mk exit w' =>
    rw [hb] at h
    cases exit with
    | returned b => rfl
    | raised e => exact Bool.noConfusion h
    | crashed => rfl

theorem bind_world_of_not_returned (h : ∀ b, (m w).1 ≠ .returned b) :
    ((m >>= f) w).2 = (m w).2 := by
  cases hb : m w with
  | mk exit w' =>
    rw [hb] at h
    cases exit with
    | returned b => exact absurd rfl (h b)
    | raised e => rw [bind_raised hb]
    | crashed => rw [bind_crashed hb]

def ReadOnly (m : Fallible W ε α) : Prop := ∀ w, (m w).2 = w

theorem readOnly_pure (a : α) : ReadOnly (Pure.pure a : Fallible W ε α) := fun _ => rfl

theorem readOnly_bind (hm : ReadOnly m) (hf : ∀ b, ReadOnly (f b)) : ReadOnly (m >>= f) := by
  intro w
  cases hb : m w with
  | mk exit w' =>
    have hw := hm w
    rw [hb] at hw
    dsimp only at hw
    subst hw
    cases exit with
    | returned b =>
      rw [bind_returned hb]
      exact hf b w'
    | raised e => rw [bind_raised hb]
    | crashed => rw [bind_crashed hb]

end Run

/-- From a state in `P` the program returns in `Q`, raises in `E` or crashes in `C`. -/
def Triple (P : W → Prop) (m : Fallible W ε α) (Q : α → W → Prop) (E : ε → W → Prop)
    (C : W → Prop) : Prop :=
  ∀ w, P w →
    match m w with
    | (.returned a, w') => Q a w'
    | (.raised e, w') => E e w'
    | (.crashed, w') => C w'

/-- The program does not crash, and raises errors in `E` only. -/
abbrev RaisesOnly (E : ε → Prop) (m : Fallible W ε α) : Prop :=
  Triple (fun _ => True) m (fun _ _ => True) (fun e _ => E e) fun _ => False

/-- Whatever happens, `I` is kept. -/
abbrev Preserves (I : W → Prop) (m : Fallible W ε α) : Prop := Triple I m (fun _ => I) (fun _ => I) I

variable {P P' : W → Prop} {Q Q' : α → W → Prop} {E E' : ε → W → Prop} {C C' : W → Prop}

theorem Triple.imp {m : Fallible W ε α} (h : Triple P m Q E C) (hP : ∀ w, P' w → P w)
    (hQ : ∀ a w, Q a w → Q' a w) (hE : ∀ e w, E e w → E' e w) (hC : ∀ w, C w → C' w) :
    Triple P' m Q' E' C' := by
  intro w hw
  have hexit := h w (hP w hw)
  cases hm : m w with
  | mk exit w' =>
    rw [hm] at hexit
    cases exit with
    | returned a => exact hQ a w' hexit
    | raised e => exact hE e w' hexit
    | crashed => exact hC w' hexit

theorem Triple.of_returned {m : Fallible W ε α} (h : Triple P m Q E C) {w w' : W} {a : α}
    (hw : P w) (hrun : m w = (.returned a, w')) : Q a w' := by
  have hexit := h w hw
  rw [hrun] at hexit
  exact hexit

theorem Triple.returns {m : Fallible W ε α} (h : Triple P m Q (fun _ _ => False) fun _ => False)
    {w : W} (hw : P w) : ∃ a w', m w = (.returned a, w') ∧ Q a w' := by
  have hexit := h w hw
  cases hm : m w with
  | mk exit w' =>
    rw [hm] at hexit
    cases exit with
    | returned a => exact ⟨a, w', rfl, hexit⟩
    | raised e => exact hexit.elim
    | crashed => exact hexit.elim

theorem Triple.world {I : W → Prop} {m : Fallible W ε α}
    (h : Triple P m (fun _ => I) (fun _ => I) I) {w : W} (hw : P w) : I (m w).2 := by
  have hexit := h w hw
  cases hm : m w with
  | mk exit w' =>
    rw [hm] at hexit
    cases exit with
    | returned a => exact hexit
    | raised e => exact hexit
    | crashed => exact hexit

theorem Preserves.world {I : W → Prop} {m : Fallible W ε α} (h : Preserves I m) {w : W}
    (hw : I w) : I (m w).2 :=
  Triple.world h hw

theorem world_bind {I : W → Prop} {m : Fallible W ε β} {f : β → Fallible W ε α} {w : W}
    (hm : I (m w).2) (hf : ∀ b, Preserves I (f b)) : I ((m >>= f) w).2 := by
  cases hb : m w with
  | mk exit w' =>
    rw [hb] at hm
    cases exit with
    | returned b =>
      rw [bind_returned hb]
      exact (hf b).world hm
    | raised e =>
      rw [bind_raised hb]
      exact hm
    | crashed =>
      rw [bind_crashed hb]
      exact hm

theorem perform_world (fault : Fault ε) (effect : W → α × W) (w : W) :
    (perform fault effect w).2 = if fault.tookEffect then (effect w).2 else w := by
  cases fault with
  | none => rfl
  | raises tookEffect _ => rfl
  | crashes tookEffect => rfl

theorem perform_isRaised (fault : Fault ε) (effect : W → α × W) (w : W) :
    (perform fault effect w).1.isRaised = fault.isRaise := by
  cases fault with
  | none => rfl
  | raises _ _ => rfl
  | crashes _ => rfl

theorem bind_isRaised {m : Fallible W ε β} {f : β → Fallible W ε α} {w : W} :
    ((m >>= f) w).1.isRaised = true ↔ (m w).1.isRaised = true ∨
      ∃ b, (m w).1 = .returned b ∧ (f b (m w).2).1.isRaised = true := by
  cases hb : m w with
  | mk exit w' =>
    cases exit with
    | returned b =>
      rw [bind_returned hb]
      simp [Exit.isRaised]
    | raised e =>
      rw [bind_raised hb]
      simp [Exit.isRaised]
    | crashed =>
      rw [bind_crashed hb]
      simp [Exit.isRaised]

theorem bind_returned_iff {m : Fallible W ε β} {f : β → Fallible W ε α} {w : W} {a : α} :
    ((m >>= f) w).1 = .returned a ↔
      ∃ b, (m w).1 = .returned b ∧ (f b (m w).2).1 = .returned a := by
  cases hb : m w with
  | mk exit w' =>
    cases exit with
    | returned b =>
      rw [bind_returned hb]
      simp
    | raised e =>
      rw [bind_raised hb]
      simp
    | crashed =>
      rw [bind_crashed hb]
      simp

theorem perform_returned (fault : Fault ε) (effect : W → α × W) (w : W) (a : α) :
    (perform fault effect w).1 = .returned a ↔ fault = .none ∧ (effect w).1 = a := by
  cases fault with
  | none => simp [perform]
  | raises _ _ => simp [perform]
  | crashes _ => simp [perform]

theorem perform_bind (effect : W → β × W) (f : β → Fallible W ε α) (w : W) :
    (perform .none effect >>= f) w = f (effect w).1 (effect w).2 := rfl

theorem perform_bind_world {fault : Fault ε} (hfault : fault ≠ .none) (a : β)
    (f : β → Fallible W ε α) (w : W) : ((perform fault (fun w => (a, w)) >>= f) w).2 = w := by
  have hexit : ∀ b, (perform fault (fun w => (a, w)) w).1 ≠ .returned b := fun b h =>
    hfault ((perform_returned fault _ w b).mp h).1
  rw [bind_world_of_not_returned hexit, perform_world]
  split <;> rfl

theorem triple_pure {a : α} (h : ∀ w, P w → Q a w) :
    Triple P (Pure.pure a : Fallible W ε α) Q E C := h

theorem triple_raise {e : ε} (h : ∀ w, P w → E e w) :
    Triple P (raise e : Fallible W ε α) Q E C := h

theorem triple_bind {R : β → W → Prop} {m : Fallible W ε β} {f : β → Fallible W ε α}
    (hm : Triple P m R E C) (hf : ∀ b, Triple (R b) (f b) Q E C) : Triple P (m >>= f) Q E C := by
  intro w hw
  have hexit := hm w hw
  cases hb : m w with
  | mk exit w' =>
    rw [hb] at hexit
    cases exit with
    | returned b =>
      rw [bind_returned hb]
      exact hf b w' hexit
    | raised e =>
      rw [bind_raised hb]
      exact hexit
    | crashed =>
      rw [bind_crashed hb]
      exact hexit

theorem triple_pointwise {m : Fallible W ε α} (h : ∀ w, P w → Triple (· = w) m Q E C) :
    Triple P m Q E C :=
  fun w hw => h w hw w rfl

theorem triple_fact {p : Prop} {m : Fallible W ε α} (h : p → Triple P m Q E C) :
    Triple (fun w => p ∧ P w) m Q E C :=
  fun w hw => h hw.1 w hw.2

theorem triple_read_bind {query : W → β} {b : β} {f : β → Fallible W ε α}
    (hquery : ∀ w, P w → query w = b) (h : Triple P (f b) Q E C) :
    Triple P (read query >>= f) Q E C := by
  intro w hw
  rw [read_bind, hquery w hw]
  exact h w hw

theorem triple_bind_returned {m : Fallible W ε β} {f : β → Fallible W ε α} {w w' : W} {b : β}
    (h : m w = (.returned b, w')) (hf : Triple (· = w') (f b) Q E C) :
    Triple (· = w) (m >>= f) Q E C := by
  intro v hv
  subst hv
  rw [bind_returned h]
  exact hf w' rfl

theorem triple_bind_raised {m : Fallible W ε β} {f : β → Fallible W ε α} {w w' : W} {e : ε}
    (h : m w = (.raised e, w')) (hE : E e w') : Triple (· = w) (m >>= f) Q E C := by
  intro v hv
  subst hv
  rw [bind_raised h]
  exact hE

theorem raisesOnly_pure {E : ε → Prop} (a : α) :
    RaisesOnly E (Pure.pure a : Fallible W ε α) := triple_pure fun _ _ => trivial

theorem raisesOnly_bind {E : ε → Prop} {m : Fallible W ε β} {f : β → Fallible W ε α}
    (hm : RaisesOnly E m) (hf : ∀ b, RaisesOnly E (f b)) : RaisesOnly E (m >>= f) :=
  triple_bind hm hf

theorem raisesOnly_read {E : ε → Prop} (query : W → α) :
    RaisesOnly E (read query : Fallible W ε α) := fun _ _ => trivial

theorem raisesOnly_write {E : ε → Prop} (update : W → W) :
    RaisesOnly E (write update : Fallible W ε Unit) := fun _ _ => trivial

theorem RaisesOnly.returned {E : ε → Prop} {m : Fallible W ε α} (h : RaisesOnly E m) {w : W}
    (hnone : ∀ e, E e → (m w).1 ≠ .raised e) : ∃ a, (m w).1 = .returned a := by
  have hexit := h w trivial
  cases hm : m w with
  | mk exit w' =>
    rw [hm] at hexit hnone
    cases exit with
    | returned a => exact ⟨a, rfl⟩
    | raised e => exact absurd rfl (hnone e hexit)
    | crashed => exact hexit.elim

theorem RaisesOnly.bind_raise {E : ε → Prop} {m : Fallible W ε β} (h : RaisesOnly E m) {w w' : W}
    {e e' : ε} (hrun : (m >>= fun _ => (raise e : Fallible W ε α)) w = (.raised e', w')) :
    E e' ∨ (e' = e ∧ ∃ b, m w = (.returned b, w')) := by
  have hexit := h w trivial
  cases hm : m w with
  | mk exit after =>
    rw [hm] at hexit
    cases exit with
    | returned b =>
      rw [bind_returned hm] at hrun
      cases hrun
      exact .inr ⟨rfl, b, rfl⟩
    | raised e =>
      rw [bind_raised hm] at hrun
      cases hrun
      exact .inl hexit
    | crashed => exact hexit.elim

theorem triple_handle {body : Fallible W ε α} {handler : ε → Fallible W ε α}
    (hbody : Triple P body Q E' C) (hhandler : ∀ e, Triple (E' e) (handler e) Q E C) :
    Triple P (handle body handler) Q E C := by
  intro w hw
  have hexit := hbody w hw
  unfold handle
  cases hb : body w with
  | mk exit w' =>
    rw [hb] at hexit
    cases exit with
    | returned a => exact hexit
    | raised e => exact hhandler e w' hexit
    | crashed => exact hexit

theorem triple_within {V ε' : Type} {part : W → V} {update : V → W → W} {wrap : ε' → ε}
    {m : Fallible V ε' α} {R : V → Prop} {Q' : α → V → Prop} {E' : ε' → V → Prop} {C' : V → Prop}
    (hm : Triple R m Q' E' C') (hP : ∀ w, P w → R (part w))
    (hQ : ∀ w a v, P w → Q' a v → Q a (update v w))
    (hE : ∀ w e v, P w → E' e v → E (wrap e) (update v w))
    (hC : ∀ w v, P w → C' v → C (update v w)) : Triple P (within part update wrap m) Q E C := by
  intro w hw
  have hexit := hm (part w) (hP w hw)
  unfold within
  cases hrun : m (part w) with
  | mk exit v =>
    rw [hrun] at hexit
    cases exit with
    | returned a => exact hQ w a v hw hexit
    | raised e => exact hE w e v hw hexit
    | crashed => exact hC w v hw hexit

theorem triple_perform {fault : Fault ε} {effect : W → α × W}
    (hreturned : fault = .none → ∀ w, P w → Q (effect w).1 (effect w).2)
    (hraised : ∀ tookEffect e, fault = .raises tookEffect e → ∀ w, P w →
      E e (if tookEffect then (effect w).2 else w))
    (hcrashed : ∀ tookEffect, fault = .crashes tookEffect → ∀ w, P w →
      C (if tookEffect then (effect w).2 else w)) :
    Triple P (perform fault effect) Q E C := by
  intro w hw
  cases fault with
  | none => exact hreturned rfl w hw
  | raises tookEffect e => exact hraised tookEffect e rfl w hw
  | crashes tookEffect => exact hcrashed tookEffect rfl w hw

theorem triple_true {m : Fallible W ε α} :
    Triple P m (fun _ _ => True) (fun _ _ => True) fun _ => True := by
  intro w _
  cases m w with
  | mk exit w' =>
    cases exit with
    | returned a => trivial
    | raised e => trivial
    | crashed => trivial

theorem triple_perform_establishes {I : W → Prop} {fault : Fault ε} {effect : W → α × W}
    (hP : ∀ w, P w → I w) (heffect : ∀ w, P w → Q (effect w).1 (effect w).2)
    (hQ : ∀ a w, Q a w → I w) : Triple P (perform fault effect) Q (fun _ => I) I := by
  have hcut : ∀ (tookEffect : Bool) w, P w → I (if tookEffect then (effect w).2 else w) := by
    intro tookEffect w hw
    cases tookEffect with
    | false => exact hP w hw
    | true => exact hQ _ _ (heffect w hw)
  exact triple_perform (fun _ w hw => heffect w hw) (fun tookEffect _ _ w hw =>
    hcut tookEffect w hw) fun tookEffect _ w hw => hcut tookEffect w hw

theorem preserves_pure {I : W → Prop} (a : α) : Preserves I (Pure.pure a : Fallible W ε α) :=
  triple_pure fun _ hw => hw

theorem preserves_bind {I : W → Prop} {m : Fallible W ε β} {f : β → Fallible W ε α}
    (hm : Preserves I m) (hf : ∀ b, Preserves I (f b)) : Preserves I (m >>= f) :=
  triple_bind hm hf

theorem preserves_perform {I : W → Prop} {fault : Fault ε} {effect : W → α × W}
    (heffect : ∀ w, I w → I (effect w).2) : Preserves I (perform fault effect) :=
  triple_perform_establishes (fun _ hw => hw) heffect fun _ _ hw => hw

/-! ## Programs over what is seen of a state -/

section Seen

variable {V : Type} {seen : W → V}

def SeenAs (seen : W → V) (m : Fallible W ε α) (m' : Fallible V ε α) : Prop :=
  ∀ w, m' (seen w) = ((m w).1, seen (m w).2)

theorem seenAs_raise (e : ε) : SeenAs seen (raise e : Fallible W ε α) (raise e) := fun _ => rfl

theorem seenAs_bind {m : Fallible W ε β} {m' : Fallible V ε β} {f : β → Fallible W ε α}
    {f' : β → Fallible V ε α} (hm : SeenAs seen m m') (hf : ∀ b, SeenAs seen (f b) (f' b)) :
    SeenAs seen (m >>= f) (m' >>= f') := by
  intro w
  have hseen := hm w
  cases hb : m w with
  | mk exit middle =>
    rw [hb] at hseen
    cases exit with
    | returned b =>
      rw [bind_returned hb, bind_returned hseen]
      exact hf b middle
    | raised e => rw [bind_raised hb, bind_raised hseen]
    | crashed => rw [bind_crashed hb, bind_crashed hseen]

theorem seenAs_handle {body : Fallible W ε α} {body' : Fallible V ε α}
    {handler : ε → Fallible W ε α} {handler' : ε → Fallible V ε α}
    (hbody : SeenAs seen body body') (hhandler : ∀ e, SeenAs seen (handler e) (handler' e)) :
    SeenAs seen (handle body handler) (handle body' handler') := by
  intro w
  have hseen := hbody w
  unfold handle
  cases hb : body w with
  | mk exit middle =>
    rw [hb] at hseen
    rw [hseen]
    cases exit with
    | returned a => rfl
    | raised e => exact hhandler e middle
    | crashed => rfl

theorem seenAs_perform {fault : Fault ε} {effect : W → α × W} {effect' : V → α × V}
    (h : ∀ w, effect' (seen w) = ((effect w).1, seen (effect w).2)) :
    SeenAs seen (perform fault effect) (perform fault effect') := by
  intro w
  unfold perform
  cases fault with
  | none => rw [h]
  | raises tookEffect e =>
    rw [h]
    cases tookEffect <;> rfl
  | crashes tookEffect =>
    rw [h]
    cases tookEffect <;> rfl

end Seen

end Fallible

end LandRecords
