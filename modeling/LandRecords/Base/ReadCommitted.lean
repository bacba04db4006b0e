import LandRecords.Base.Runs
import Mathlib

/-! Transactions under READ COMMITTED. A statement sees the committed database with
the writes of its own transaction. A write waits while another open transaction
holds a clashing one, and a write that breaks a constraint ends its transaction. -/
namespace LandRecords.ReadCommitted

inductive Statement (L W : Type*) where
  /-- The program is at its end and commits. -/
  | done
  /-- The program raises, and is rolled back. -/
  | fail
  | next (locals : L) (write : Option W)

structure System (D R L W T : Type*) where
  init : R → L
  statement : L → T → D → Statement L W
  apply : W → D → D
  clash : W → W → Bool
  violates : W → D → Bool

structure Txn (L W : Type*) where
  locals : L
  writes : List W := []

structure Shared (D L T : Type*) where
  committed : D
  log : List L := []
  now : T

/-- The transactions are numbered in the order in which they began. One that has
ended is none. -/
structure State (D L W T : Type*) where
  shared : Shared D L T
  txns : List (Option (Txn L W)) := []

inductive Step (R T : Type*) where
  | begin (request : R)
  | execute (i : Nat)
  | commit (i : Nat)
  | rollback (i : Nat)
  | advance (now : T)

variable {D R L W T : Type*} (sys : System D R L W T)

namespace State

variable (s : State D L W T)

def txn? (i : Nat) : Option (Txn L W) := (s.txns[i]?).join

def setTxn (i : Nat) (txn : Option (Txn L W)) : State D L W T :=
  { s with txns := s.txns.set i txn }

end State

def view (txn : Txn L W) (committed : D) : D :=
  txn.writes.foldl (fun db write => sys.apply write db) committed

def blocked (s : State D L W T) (i : Nat) (write : W) : Bool :=
  (List.range s.txns.length).any fun j => j ≠ i &&
    (s.txn? j).any fun other => other.writes.any fun held => sys.clash write held

def publish (txn : Txn L W) (shared : Shared D L T) : Shared D L T :=
  { shared with
    committed := view sys txn shared.committed
    log := shared.log ++ [txn.locals] }

def Apart (txn other : Txn L W) : Prop :=
  ∀ write ∈ txn.writes, ∀ held ∈ other.writes, sys.clash write held = false

structure Invariant (G : Shared D L T → Prop) (J : Shared D L T → Txn L W → Prop)
    (s : State D L W T) : Prop where
  shared : G s.shared
  txns : ∀ i txn, s.txn? i = some txn → J s.shared txn
  apart : ∀ i j txn other, i ≠ j → s.txn? i = some txn → s.txn? j = some other →
    Apart sys txn other

section Transactions

variable {sys} {s : State D L W T} {i j : Nat} {txn : Txn L W}
  {G : Shared D L T → Prop} {J : Shared D L T → Txn L W → Prop}

theorem txn?_of_setTxn {replaced : Option (Txn L W)}
    (h : (s.setTxn i replaced).txn? j = some txn) :
    (j = i ∧ replaced = some txn) ∨ (j ≠ i ∧ s.txn? j = some txn) := by
  unfold State.txn? State.setTxn at h
  rw [List.getElem?_set] at h
  by_cases hij : i = j
  · rw [if_pos hij] at h
    split at h
    · exact .inl ⟨hij.symm, h⟩
    · cases h
  · rw [if_neg hij] at h
    exact .inr ⟨fun hji => hij hji.symm, h⟩

theorem txn?_of_begun {begun : Txn L W}
    (h : ({ s with txns := s.txns ++ [some begun] } : State D L W T).txn? j = some txn) :
    s.txn? j = some txn ∨ txn = begun := by
  unfold State.txn? at h ⊢
  rw [List.getElem?_append] at h
  split at h
  · exact .inl h
  · right
    rw [List.getElem?_singleton] at h
    split at h
    · exact (Option.some.inj h).symm
    · cases h

theorem clash_of_not_blocked {write held : W} {other : Txn L W} (h : blocked sys s i write = false)
    (hj : j ≠ i) (hother : s.txn? j = some other) (hheld : held ∈ other.writes) :
    sys.clash write held = false := by
  have hlength : j < s.txns.length := by
    by_contra hout
    rw [State.txn?, List.getElem?_eq_none (Nat.le_of_not_lt hout)] at hother
    cases hother
  have hfree := List.any_eq_false.mp h j (List.mem_range.mpr hlength)
  by_contra hclash
  apply hfree
  rw [hother, decide_eq_true hj, Bool.true_and]
  exact List.any_eq_true.mpr ⟨held, hheld, Bool.not_eq_false _ ▸ hclash⟩

theorem any_key_comm {K : Type*} [DecidableEq K] (keys held : List K) :
    (keys.any fun key => key ∈ held) = held.any fun key => key ∈ keys := by
  rw [Bool.eq_iff_iff]
  simp only [List.any_eq_true, decide_eq_true_eq]
  exact ⟨fun ⟨key, hkey, hheld⟩ => ⟨key, hheld, hkey⟩, fun ⟨key, hkey, hheld⟩ => ⟨key, hheld, hkey⟩⟩

theorem apart_setTxn (hsymm : ∀ write held, sys.clash write held = sys.clash held write)
    (h : ∀ i j txn other, i ≠ j → s.txn? i = some txn → s.txn? j = some other → Apart sys txn other)
    {k : Nat} {replaced : Option (Txn L W)}
    (hreplaced : ∀ txn, replaced = some txn → ∀ j other, j ≠ k → s.txn? j = some other →
      Apart sys txn other)
    (i j : Nat) (txn other : Txn L W) (hij : i ≠ j) (hi : (s.setTxn k replaced).txn? i = some txn)
    (hj : (s.setTxn k replaced).txn? j = some other) : Apart sys txn other := by
  rcases txn?_of_setTxn hi with ⟨rfl, htxn⟩ | ⟨hne, htxn⟩
  · rcases txn?_of_setTxn hj with ⟨rfl, -⟩ | ⟨hne, hother⟩
    · exact absurd rfl hij
    · exact hreplaced txn htxn j other hne hother
  · rcases txn?_of_setTxn hj with ⟨rfl, hother⟩ | ⟨-, hother⟩
    · intro write hwrite held hheld
      rw [hsymm]
      exact hreplaced other hother i txn hne htxn held hheld write hwrite
    · exact h i j txn other hij htxn hother

theorem Invariant.start {v : Shared D L T} (hG : G v) :
    Invariant sys G J { shared := v } := by
  have hnone : ∀ i, ({ shared := v } : State D L W T).txn? i = none := fun _ => rfl
  refine ⟨hG, fun i txn htxn => ?_, fun i j txn other _ hi => ?_⟩
  · rw [hnone i] at htxn
    cases htxn
  · rw [hnone i] at hi
    cases hi

end Transactions

variable [LE T] [DecidableLE T]

def step (s : State D L W T) : Step R T → Option (State D L W T)
  | .begin request => some { s with txns := s.txns ++ [some { locals := sys.init request }] }
  | .execute i =>
      (s.txn? i).bind fun txn =>
        match sys.statement txn.locals s.shared.now (view sys txn s.shared.committed) with
        | .done => none
        | .fail => some (s.setTxn i none)
        | .next locals none => some (s.setTxn i (some { txn with locals := locals }))
        | .next locals (some write) =>
            if blocked sys s i write then none
            else if sys.violates write (view sys txn s.shared.committed) then some (s.setTxn i none)
            else some (s.setTxn i (some ⟨locals, txn.writes ++ [write]⟩))
  | .commit i =>
      (s.txn? i).bind fun txn =>
        match sys.statement txn.locals s.shared.now (view sys txn s.shared.committed) with
        | .done => some { s.setTxn i none with shared := publish sys txn s.shared }
        | _ => none
  | .rollback i => (s.txn? i).map fun _ => s.setTxn i none
  | .advance now =>
      if s.shared.now ≤ now then some { s with shared := { s.shared with now := now } } else none

inductive Stepped (s : State D L W T) : Step R T → State D L W T → Prop
  | begun (request : R) :
      Stepped s (.begin request)
        { s with txns := s.txns ++ [some { locals := sys.init request }] }
  | read (i : Nat) (txn : Txn L W) (locals : L) (htxn : s.txn? i = some txn)
      (hnext : sys.statement txn.locals s.shared.now (view sys txn s.shared.committed) =
        .next locals none) :
      Stepped s (.execute i) (s.setTxn i (some { txn with locals := locals }))
  | wrote (i : Nat) (txn : Txn L W) (locals : L) (write : W) (htxn : s.txn? i = some txn)
      (hnext : sys.statement txn.locals s.shared.now (view sys txn s.shared.committed) =
        .next locals (some write)) (hfree : blocked sys s i write = false)
      (hvalid : sys.violates write (view sys txn s.shared.committed) = false) :
      Stepped s (.execute i) (s.setTxn i (some ⟨locals, txn.writes ++ [write]⟩))
  | ended (i : Nat) (a : Step R T) (ha : ∀ j, a ≠ .commit j) : Stepped s a (s.setTxn i none)
  | committed (i : Nat) (txn : Txn L W) (htxn : s.txn? i = some txn)
      (hdone : sys.statement txn.locals s.shared.now (view sys txn s.shared.committed) = .done) :
      Stepped s (.commit i) { s.setTxn i none with shared := publish sys txn s.shared }
  | advanced (now : T) (hnow : s.shared.now ≤ now) :
      Stepped s (.advance now) { s with shared := { s.shared with now := now } }

section Steps

variable {sys} {s t : State D L W T} {a : Step R T}

theorem step_cases (h : step sys s a = some t) : Stepped sys s a t := by
  cases a with
  | begin request =>
    cases h
    exact .begun request
  | execute i =>
    obtain ⟨txn, htxn, h⟩ := Option.bind_eq_some_iff.mp h
    cases hnext : sys.statement txn.locals s.shared.now (view sys txn s.shared.committed) with
    | done =>
      simp only [hnext] at h
      cases h
    | fail =>
      simp only [hnext] at h
      cases h
      exact .ended i _ fun j => nofun
    | next locals write =>
      simp only [hnext] at h
      cases write with
      | none =>
        cases h
        exact .read i txn locals htxn hnext
      | some write =>
        simp only [Option.ite_none_left_eq_some, Bool.not_eq_true] at h
        obtain ⟨hfree, h⟩ := h
        cases hvalid : sys.violates write (view sys txn s.shared.committed) with
        | true =>
          rw [hvalid, if_pos rfl] at h
          cases h
          exact .ended i _ fun j => nofun
        | false =>
          rw [hvalid, if_neg Bool.false_ne_true] at h
          cases h
          exact .wrote i txn locals write htxn hnext hfree hvalid
  | commit i =>
    obtain ⟨txn, htxn, h⟩ := Option.bind_eq_some_iff.mp h
    cases hnext : sys.statement txn.locals s.shared.now (view sys txn s.shared.committed) with
    | done =>
      simp only [hnext] at h
      cases h
      exact .committed i txn htxn hnext
    | fail =>
      simp only [hnext] at h
      cases h
    | next locals write =>
      simp only [hnext] at h
      cases h
  | rollback i =>
    obtain ⟨txn, -, rfl⟩ := Option.map_eq_some_iff.mp h
    exact .ended i _ fun j => nofun
  | advance now =>
    rw [step, Option.ite_none_right_eq_some] at h
    obtain ⟨hnow, h⟩ := h
    cases h
    exact .advanced now hnow

end Steps

structure Guarantee (G : Shared D L T → Prop) (J : Shared D L T → Txn L W → Prop)
    (ok : Shared D L T → Txn L W → Prop) : Prop where
  symm : ∀ write held, sys.clash write held = sys.clash held write
  begins : ∀ v request, G v → J v { locals := sys.init request }
  reads : ∀ v txn locals, G v → J v txn →
    sys.statement txn.locals v.now (view sys txn v.committed) = .next locals none →
    J v { txn with locals := locals }
  writes : ∀ v txn locals write, G v → J v txn →
    sys.statement txn.locals v.now (view sys txn v.committed) = .next locals (some write) →
    sys.violates write (view sys txn v.committed) = false →
    J v ⟨locals, txn.writes ++ [write]⟩
  commits : ∀ v txn, G v → J v txn →
    sys.statement txn.locals v.now (view sys txn v.committed) = .done → ok v txn →
    G (publish sys txn v) ∧ ∀ other, J v other → Apart sys txn other → J (publish sys txn v) other
  advances : ∀ (v : Shared D L T) now, v.now ≤ now → G v →
    G { v with now := now } ∧ ∀ other, J v other → J { v with now := now } other

def CommitsWhen (ok : Shared D L T → Txn L W → Prop) (s : State D L W T) : Step R T → Prop
  | .commit i => ∀ txn, s.txn? i = some txn → ok s.shared txn
  | _ => True

section Guarantees

variable {sys} {G P : Shared D L T → Prop} {J ok : Shared D L T → Txn L W → Prop}
  {s t : State D L W T} {a : Step R T}

theorem Guarantee.step (hg : Guarantee sys G J ok) (h : Invariant sys G J s)
    (hok : CommitsWhen ok s a) (hstep : ReadCommitted.step sys s a = some t) :
    Invariant sys G J t := by
  cases step_cases hstep with
  | begun request =>
    refine ⟨h.shared, fun i txn htxn => ?_, fun i j txn other hij hi hj => ?_⟩
    · rcases txn?_of_begun htxn with hold | rfl
      · exact h.txns i txn hold
      · exact hg.begins s.shared request h.shared
    · rcases txn?_of_begun hi with hi | rfl
      · rcases txn?_of_begun hj with hj | rfl
        · exact h.apart i j txn other hij hi hj
        · exact fun _ _ _ hheld => nomatch hheld
      · exact fun _ hwrite => nomatch hwrite
  | read i txn locals htxn hnext =>
    have hkept := hg.reads s.shared txn locals h.shared (h.txns i txn htxn) hnext
    refine ⟨h.shared, fun j other hother => ?_, ?_⟩
    · rcases txn?_of_setTxn hother with ⟨rfl, hsame⟩ | ⟨-, hother⟩
      · exact Option.some.inj hsame ▸ hkept
      · exact h.txns j other hother
    · apply apart_setTxn hg.symm h.apart
      intro replaced hreplaced j other hj hother
      obtain rfl := Option.some.inj hreplaced
      exact h.apart i j txn other (Ne.symm hj) htxn hother
  | wrote i txn locals write htxn hnext hfree hvalid =>
    have hkept := hg.writes s.shared txn locals write h.shared (h.txns i txn htxn) hnext hvalid
    refine ⟨h.shared, fun j other hother => ?_, ?_⟩
    · rcases txn?_of_setTxn hother with ⟨rfl, hsame⟩ | ⟨-, hother⟩
      · exact Option.some.inj hsame ▸ hkept
      · exact h.txns j other hother
    · apply apart_setTxn hg.symm h.apart
      intro replaced hreplaced j other hj hother
      obtain rfl := Option.some.inj hreplaced
      intro mine hmine held hheld
      rcases List.mem_append.mp hmine with hold | hnew
      · exact h.apart i j txn other (Ne.symm hj) htxn hother mine hold held hheld
      · rw [List.mem_singleton.mp hnew]
        exact clash_of_not_blocked hfree hj hother hheld
  | ended i _ ha =>
    refine ⟨h.shared, fun j other hother => ?_, ?_⟩
    · rcases txn?_of_setTxn hother with ⟨-, hnone⟩ | ⟨-, hother⟩
      · cases hnone
      · exact h.txns j other hother
    · apply apart_setTxn hg.symm h.apart
      exact fun replaced hreplaced => nomatch hreplaced
  | committed i txn htxn hdone =>
    obtain ⟨hG, hJ⟩ := hg.commits s.shared txn h.shared (h.txns i txn htxn) hdone (hok txn htxn)
    refine ⟨hG, fun j other hother => ?_, ?_⟩
    · rcases txn?_of_setTxn hother with ⟨-, hnone⟩ | ⟨hne, hother⟩
      · cases hnone
      · exact hJ other (h.txns j other hother) (h.apart i j txn other (Ne.symm hne) htxn hother)
    · apply apart_setTxn hg.symm h.apart
      exact fun replaced hreplaced => nomatch hreplaced
  | advanced now hnow =>
    obtain ⟨hG, hJ⟩ := hg.advances s.shared now hnow h.shared
    exact ⟨hG, fun i txn htxn => hJ txn (h.txns i txn htxn), h.apart⟩

/-- A property of the shared state holds throughout a run exactly when every commit
meets the condition, if such commits keep it and others break it. -/
theorem Guarantee.throughout_iff (hg : Guarantee sys G J ok) (h : Invariant sys G J s)
    (hholds : ∀ v, G v → P v)
    (hneeded : ∀ v txn, G v → J v txn →
      sys.statement txn.locals v.now (view sys txn v.committed) = .done →
      P (publish sys txn v) → ok v txn) (steps : List (Step R T)) :
    Runs.Throughout (ReadCommitted.step sys) (fun s => P s.shared) s steps ↔
      Runs.AllSteps (ReadCommitted.step sys) (CommitsWhen ok) s steps := by
  apply Runs.throughout_iff_allSteps (I := Invariant sys G J) (Q := fun _ => True) h
  · exact fun s a t hs hok hstep => hg.step hs hok hstep
  · exact fun s hs _ => hholds s.shared hs.shared
  · intro s a t hs hstep hP
    cases step_cases hstep with
    | committed i txn htxn hdone =>
      intro same hsame
      obtain rfl := Option.some.inj (hsame.symm.trans htxn)
      exact hneeded s.shared _ hs.shared (hs.txns i _ htxn) hdone hP
    | ended i _ ha =>
      unfold CommitsWhen
      split
      · rename_i j
        exact absurd rfl (ha j)
      · trivial
    | _ => trivial
  · exact Runs.throughout_true

omit [LE T] [DecidableLE T] in
theorem commitsWhen_true : CommitsWhen (fun _ _ => True) s a := by
  cases a with
  | commit i => exact fun _ _ => trivial
  | _ => trivial

theorem Guarantee.throughout (hg : Guarantee sys G J fun _ _ => True) (h : Invariant sys G J s)
    (hholds : ∀ v, G v → P v) (steps : List (Step R T)) :
    Runs.Throughout (ReadCommitted.step sys) (fun s => P s.shared) s steps := by
  have hinvariant : Runs.Throughout (ReadCommitted.step sys) (Invariant sys G J) s steps := by
    apply Runs.throughout_of_preserved h
    intro s a t hs hstep
    exact hg.step hs commitsWhen_true hstep
  exact hinvariant.imp fun s hs => hholds s.shared hs.shared

/-- What the writes of a transaction keep of the tables, every step keeps of those that
are committed. -/
theorem allMoves_committed (keeps : D → D → Prop) (hsame : ∀ db, keeps db db)
    (hview : ∀ txn db, keeps db (view sys txn db)) (steps : List (Step R T)) :
    Runs.AllMoves (ReadCommitted.step sys)
      (fun s t => keeps s.shared.committed t.shared.committed) s steps := by
  apply Runs.allMoves_of_forall
  intro s a t hstep
  cases step_cases hstep with
  | committed i txn htxn hdone => exact hview txn s.shared.committed
  | _ => exact hsame s.shared.committed

end Guarantees

end LandRecords.ReadCommitted
