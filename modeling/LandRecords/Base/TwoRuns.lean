import LandRecords.Base.Fallible

/-! Two programs run side by side from related states. They end alike, unless one of them
raises an exception that is excused. -/
namespace LandRecords.Fallible

variable {W ε α β γ δ : Type}

inductive EndAlike (R : W → W → Prop) (excused : ε → Prop) (Q : α → β → Prop) :
    Exit ε α × W → Exit ε β × W → Prop
  | returned {a : α} {b : β} {v v' : W} (hvalues : Q a b) (hstates : R v v') :
      EndAlike R excused Q (.returned a, v) (.returned b, v')
  | raised {e : ε} {v v' : W} (hstates : R v v') : EndAlike R excused Q (.raised e, v) (.raised e, v')
  | crashed {v v' : W} (hstates : R v v') : EndAlike R excused Q (.crashed, v) (.crashed, v')
  | excusedLeft {e : ε} {v : W} {other : Exit ε β × W} (he : excused e) :
      EndAlike R excused Q (.raised e, v) other
  | excusedRight {e : ε} {v : W} {other : Exit ε α × W} (he : excused e) :
      EndAlike R excused Q other (.raised e, v)

def Alike (R : W → W → Prop) (excused : ε → Prop) (Q : α → β → Prop) (m : Fallible W ε α)
    (m' : Fallible W ε β) : Prop :=
  ∀ w w', R w w' → EndAlike R excused Q (m w) (m' w')

variable {R : W → W → Prop} {excused : ε → Prop} {Q : α → β → Prop} {P : γ → δ → Prop}

theorem alike_pure {a : α} {b : β} (h : Q a b) :
    Alike R excused Q (pure a : Fallible W ε α) (pure b) :=
  fun _ _ hR => .returned h hR

theorem alike_raise (e : ε) : Alike R excused Q (raise e : Fallible W ε α) (raise e) :=
  fun _ _ hR => .raised hR

theorem alike_read {query : W → α} {query' : W → β} (h : ∀ w w', R w w' → Q (query w) (query' w')) :
    Alike R excused Q (read query : Fallible W ε α) (read query') :=
  fun w w' hR => .returned (h w w' hR) hR

theorem alike_write {update update' : W → W} (h : ∀ w w', R w w' → R (update w) (update' w')) :
    Alike R excused Eq (write update : Fallible W ε Unit) (write update') :=
  fun w w' hR => .returned rfl (h w w' hR)

theorem alike_bind {m : Fallible W ε γ} {m' : Fallible W ε δ} {f : γ → Fallible W ε α}
    {f' : δ → Fallible W ε β} (hm : Alike R excused P m m')
    (hf : ∀ c d, P c d → Alike R excused Q (f c) (f' d)) :
    Alike R excused Q (m >>= f) (m' >>= f') := by
  intro w w' hR
  have hends := hm w w' hR
  cases hx : m w with
  | mk exit v =>
    cases hy : m' w' with
    | mk exit' v' =>
      rw [hx, hy] at hends
      cases hends with
      | returned hvalues hstates =>
        rw [bind_returned hx, bind_returned hy]
        exact hf _ _ hvalues _ _ hstates
      | raised hstates =>
        rw [bind_raised hx, bind_raised hy]
        exact .raised hstates
      | crashed hstates =>
        rw [bind_crashed hx, bind_crashed hy]
        exact .crashed hstates
      | excusedLeft he =>
        rw [bind_raised hx]
        exact .excusedLeft he
      | excusedRight he =>
        rw [bind_raised hy]
        exact .excusedRight he

theorem alike_read_bind {query : W → γ} {query' : W → δ} {f : γ → Fallible W ε α}
    {f' : δ → Fallible W ε β} (h : ∀ w w', R w w' → P (query w) (query' w'))
    (hf : ∀ c d, P c d → Alike R excused Q (f c) (f' d)) :
    Alike R excused Q (read query >>= f) (read query' >>= f') :=
  alike_bind (alike_read h) hf

end LandRecords.Fallible
