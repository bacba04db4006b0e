import LandRecords.Base.Runs
import Mathlib

/-! Transactions that lock rows. A statement sees the committed database with the writes
of its own transaction; a write waits for the locks of its keys, an attempt to lock a row
skips a row that another transaction has locked, and locks are kept to the end. A call
reaches the world outside at once, whatever becomes of the transaction. -/
namespace LandRecords.RowLocks

inductive Statement (L W K E : Type*) where
  /-- The program is at its end and commits. -/
  | done
  /-- The program raises, and is rolled back. -/
  | fail
  | next (locals : L)
  | write (locals : L) (write : W)
  /-- An attempt to lock a row, and where the program is if it is locked already. -/
  | tryLock (key : K) (taken skipped : L)
  | call (locals : L) (effect : E)

def Statement.mapLocals {L L' W K E : Type*} (f : L → L') : Statement L W K E → Statement L' W K E
  | .done => .done
  | .fail => .fail
  | .next locals => .next (f locals)
  | .write locals update => .write (f locals) update
  | .tryLock key taken skipped => .tryLock key (f taken) (f skipped)
  | .call locals effect => .call (f locals) effect

def Statement.nexts {L W K E : Type*} : Statement L W K E → List L
  | .done | .fail => []
  | .next locals | .write locals _ | .call locals _ => [locals]
  | .tryLock _ taken skipped => [taken, skipped]

section MapLocals

variable {L L' W K E : Type*} {f : L → L'} {statement : Statement L W K E}

theorem Statement.nexts_mapLocals (f : L → L') (statement : Statement L W K E) :
    (statement.mapLocals f).nexts = statement.nexts.map f := by
  cases statement <;> rfl

theorem Statement.mapLocals_done (h : statement.mapLocals f = .done) : statement = .done := by
  cases statement with
  | done => rfl
  | _ => cases h

theorem Statement.mapLocals_fail (h : statement.mapLocals f = .fail) : statement = .fail := by
  cases statement with
  | fail => rfl
  | _ => cases h

theorem Statement.mapLocals_next {locals : L'} (h : statement.mapLocals f = .next locals) :
    ∃ inner, statement = .next inner ∧ f inner = locals := by
  cases statement with
  | next inner =>
    cases h
    exact ⟨inner, rfl, rfl⟩
  | _ => cases h

theorem Statement.mapLocals_write {locals : L'} {update : W}
    (h : statement.mapLocals f = .write locals update) :
    ∃ inner, statement = .write inner update ∧ f inner = locals := by
  cases statement with
  | write inner update =>
    cases h
    exact ⟨inner, rfl, rfl⟩
  | _ => cases h

theorem Statement.mapLocals_tryLock {key : K} {taken skipped : L'}
    (h : statement.mapLocals f = .tryLock key taken skipped) :
    ∃ innerTaken innerSkipped, statement = .tryLock key innerTaken innerSkipped ∧
      f innerTaken = taken ∧ f innerSkipped = skipped := by
  cases statement with
  | tryLock key innerTaken innerSkipped =>
    cases h
    exact ⟨innerTaken, innerSkipped, rfl, rfl, rfl⟩
  | _ => cases h

theorem Statement.mapLocals_call {locals : L'} {effect : E}
    (h : statement.mapLocals f = .call locals effect) :
    ∃ inner, statement = .call inner effect ∧ f inner = locals := by
  cases statement with
  | call inner effect =>
    cases h
    exact ⟨inner, rfl, rfl⟩
  | _ => cases h

end MapLocals

structure System (D R L W K E T : Type*) where
  init : R → L
  statement : L → T → D → Statement L W K E
  apply : W → D → D
  keys : W → List K
  violates : W → D → Bool

structure Txn (L W K : Type*) where
  locals : L
  writes : List W := []
  locks : List K := []

structure Shared (D L E T : Type*) where
  committed : D
  /-- The programs that have committed. -/
  log : List L := []
  effects : List E := []
  now : T

/-- The transactions are numbered in the order in which they began. One that has
ended is none. -/
structure State (D L W K E T : Type*) where
  shared : Shared D L E T
  txns : List (Option (Txn L W K)) := []

inductive Step (R T : Type*) where
  | begin (request : R)
  | execute (i : Nat)
  | commit (i : Nat)
  | rollback (i : Nat)
  /-- The call that is next raises, after it has reached the world outside or before. -/
  | fault (i : Nat) (reached : Bool)
  | advance (now : T)

variable {D R L W K E T : Type*} [DecidableEq K] (sys : System D R L W K E T)

namespace State

variable (s : State D L W K E T)

def txn? (i : Nat) : Option (Txn L W K) := (s.txns[i]?).join

def setTxn (i : Nat) (txn : Option (Txn L W K)) : State D L W K E T :=
  { s with txns := s.txns.set i txn }

def withEffect (effect : E) : State D L W K E T :=
  { s with shared := { s.shared with effects := s.shared.effects ++ [effect] } }

def heldElsewhere (i : Nat) (key : K) : Bool :=
  (List.range s.txns.length).any fun j => j ≠ i && (s.txn? j).any fun other => key ∈ other.locks

end State

def view (txn : Txn L W K) (committed : D) : D :=
  txn.writes.foldl (fun db write => sys.apply write db) committed

def publish (txn : Txn L W K) (shared : Shared D L E T) : Shared D L E T :=
  { shared with
    committed := view sys txn shared.committed
    log := shared.log ++ [txn.locals] }

def Apart (txn other : Txn L W K) : Prop :=
  ∀ write ∈ txn.writes, ∀ key ∈ sys.keys write, key ∉ other.locks

def nextStatement (txn : Txn L W K) (shared : Shared D L E T) : Statement L W K E :=
  sys.statement txn.locals shared.now (view sys txn shared.committed)

variable [LE T] [DecidableLE T]

def step (s : State D L W K E T) : Step R T → Option (State D L W K E T)
  | .begin request => some { s with txns := s.txns ++ [some { locals := sys.init request }] }
  | .execute i =>
      (s.txn? i).bind fun txn =>
        match nextStatement sys txn s.shared with
        | .done => none
        | .fail => some (s.setTxn i none)
        | .next locals => some (s.setTxn i (some { txn with locals := locals }))
        | .write locals write =>
            if (sys.keys write).any (s.heldElsewhere i) then none
            else if sys.violates write (view sys txn s.shared.committed) then some (s.setTxn i none)
            else some (s.setTxn i
              (some ⟨locals, txn.writes ++ [write], txn.locks ++ sys.keys write⟩))
        | .tryLock key taken skipped =>
            if s.heldElsewhere i key then some (s.setTxn i (some { txn with locals := skipped }))
            else some (s.setTxn i (some ⟨taken, txn.writes, txn.locks ++ [key]⟩))
        | .call locals effect =>
            some ((s.setTxn i (some { txn with locals := locals })).withEffect effect)
  | .commit i =>
      (s.txn? i).bind fun txn =>
        match nextStatement sys txn s.shared with
        | .done => some { s.setTxn i none with shared := publish sys txn s.shared }
        | _ => none
  | .rollback i => (s.txn? i).map fun _ => s.setTxn i none
  | .fault i reached =>
      (s.txn? i).bind fun txn =>
        match nextStatement sys txn s.shared with
        | .call _ effect =>
            some (if reached then (s.setTxn i none).withEffect effect else s.setTxn i none)
        | _ => none
  | .advance now =>
      if s.shared.now ≤ now then some { s with shared := { s.shared with now := now } } else none

inductive Stepped (s : State D L W K E T) : Step R T → State D L W K E T → Prop
  | begun (request : R) :
      Stepped s (.begin request)
        { s with txns := s.txns ++ [some { locals := sys.init request }] }
  | read (i : Nat) (txn : Txn L W K) (locals : L) (htxn : s.txn? i = some txn)
      (hnext : nextStatement sys txn s.shared = .next locals) :
      Stepped s (.execute i) (s.setTxn i (some { txn with locals := locals }))
  | wrote (i : Nat) (txn : Txn L W K) (locals : L) (write : W) (htxn : s.txn? i = some txn)
      (hnext : nextStatement sys txn s.shared = .write locals write)
      (hfree : ∀ key ∈ sys.keys write, s.heldElsewhere i key = false)
      (hvalid : sys.violates write (view sys txn s.shared.committed) = false) :
      Stepped s (.execute i)
        (s.setTxn i (some ⟨locals, txn.writes ++ [write], txn.locks ++ sys.keys write⟩))
  | locked (i : Nat) (txn : Txn L W K) (key : K) (taken skipped : L) (htxn : s.txn? i = some txn)
      (hnext : nextStatement sys txn s.shared = .tryLock key taken skipped)
      (hfree : s.heldElsewhere i key = false) :
      Stepped s (.execute i) (s.setTxn i (some ⟨taken, txn.writes, txn.locks ++ [key]⟩))
  | skipped (i : Nat) (txn : Txn L W K) (key : K) (taken skipped : L) (htxn : s.txn? i = some txn)
      (hnext : nextStatement sys txn s.shared = .tryLock key taken skipped)
      (hheld : s.heldElsewhere i key = true) :
      Stepped s (.execute i) (s.setTxn i (some { txn with locals := skipped }))
  | called (i : Nat) (txn : Txn L W K) (locals : L) (effect : E) (htxn : s.txn? i = some txn)
      (hnext : nextStatement sys txn s.shared = .call locals effect) :
      Stepped s (.execute i)
        ((s.setTxn i (some { txn with locals := locals })).withEffect effect)
  | raised (i : Nat) (txn : Txn L W K) (htxn : s.txn? i = some txn)
      (hnext : nextStatement sys txn s.shared = .fail) : Stepped s (.execute i) (s.setTxn i none)
  | violated (i : Nat) (txn : Txn L W K) (locals : L) (write : W) (htxn : s.txn? i = some txn)
      (hnext : nextStatement sys txn s.shared = .write locals write)
      (hinvalid : sys.violates write (view sys txn s.shared.committed) = true) :
      Stepped s (.execute i) (s.setTxn i none)
  | rolledBack (i : Nat) (txn : Txn L W K) (htxn : s.txn? i = some txn) :
      Stepped s (.rollback i) (s.setTxn i none)
  | faulted (i : Nat) (txn : Txn L W K) (locals : L) (effect : E) (reached : Bool)
      (htxn : s.txn? i = some txn) (hnext : nextStatement sys txn s.shared = .call locals effect) :
      Stepped s (.fault i reached)
        (if reached then (s.setTxn i none).withEffect effect else s.setTxn i none)
  | committed (i : Nat) (txn : Txn L W K) (htxn : s.txn? i = some txn)
      (hdone : nextStatement sys txn s.shared = .done) :
      Stepped s (.commit i) { s.setTxn i none with shared := publish sys txn s.shared }
  | advanced (now : T) (hnow : s.shared.now ≤ now) :
      Stepped s (.advance now) { s with shared := { s.shared with now := now } }

section Steps

variable {sys} {s t : State D L W K E T} {a : Step R T}

theorem execute_cases {i : Nat} {txn : Txn L W K} (htxn : s.txn? i = some txn)
    (h : step sys s (.execute i) = some t) : Stepped sys s (.execute i) t := by
  rw [step, htxn, Option.bind_some] at h
  cases hnext : nextStatement sys txn s.shared with
  | done =>
    simp only [hnext] at h
    cases h
  | fail =>
    simp only [hnext] at h
    cases h
    exact .raised i txn htxn hnext
  | next locals =>
    simp only [hnext] at h
    cases h
    exact .read i txn locals htxn hnext
  | write locals write =>
    simp only [hnext, Option.ite_none_left_eq_some, Bool.not_eq_true] at h
    obtain ⟨hfree, h⟩ := h
    split at h
    · rename_i hinvalid
      cases h
      exact .violated i txn locals write htxn hnext hinvalid
    · rename_i hvalid
      cases h
      refine .wrote i txn locals write htxn hnext (fun key hkey => ?_) (Bool.not_eq_true _ ▸ hvalid)
      exact Bool.not_eq_true _ ▸ List.any_eq_false.mp hfree key hkey
  | tryLock key taken skipped =>
    simp only [hnext] at h
    split at h
    · rename_i hheld
      cases h
      exact .skipped i txn key taken skipped htxn hnext hheld
    · rename_i hfree
      cases h
      exact .locked i txn key taken skipped htxn hnext (Bool.not_eq_true _ ▸ hfree)
  | call locals effect =>
    simp only [hnext] at h
    cases h
    exact .called i txn locals effect htxn hnext

theorem step_cases (h : step sys s a = some t) : Stepped sys s a t := by
  cases a with
  | begin request =>
    cases h
    exact .begun request
  | execute i =>
    cases htxn : s.txn? i with
    | none =>
      rw [step, htxn] at h
      cases h
    | some txn => exact execute_cases htxn h
  | commit i =>
    obtain ⟨txn, htxn, h⟩ := Option.bind_eq_some_iff.mp h
    cases hnext : nextStatement sys txn s.shared with
    | done =>
      simp only [hnext] at h
      cases h
      exact .committed i txn htxn hnext
    | _ =>
      simp only [hnext] at h
      cases h
  | rollback i =>
    obtain ⟨txn, htxn, rfl⟩ := Option.map_eq_some_iff.mp h
    exact .rolledBack i txn htxn
  | fault i reached =>
    obtain ⟨txn, htxn, h⟩ := Option.bind_eq_some_iff.mp h
    cases hnext : nextStatement sys txn s.shared with
    | call locals effect =>
      simp only [hnext] at h
      cases h
      exact .faulted i txn locals effect reached htxn hnext
    | _ =>
      simp only [hnext] at h
      cases h
  | advance now =>
    rw [step, Option.ite_none_right_eq_some] at h
    obtain ⟨hnow, h⟩ := h
    cases h
    exact .advanced now hnow

theorem step_commits (h : step sys s a = some t) :
    (t.shared.committed = s.shared.committed ∧ t.shared.log = s.shared.log) ∨
      ∃ i txn, a = .commit i ∧ s.txn? i = some txn ∧ nextStatement sys txn s.shared = .done ∧
        t.shared = publish sys txn s.shared := by
  cases step_cases h with
  | committed i txn htxn hdone => exact .inr ⟨i, txn, rfl, htxn, hdone, rfl⟩
  | faulted i txn locals effect reached htxn hnext =>
    cases reached with
    | false => exact .inl ⟨rfl, rfl⟩
    | true => exact .inl ⟨rfl, rfl⟩
  | _ => exact .inl ⟨rfl, rfl⟩

end Steps

section Transactions

variable {s : State D L W K E T} {i j : Nat} {txn : Txn L W K}

omit [LE T] [DecidableLE T] [DecidableEq K] in
theorem txn?_of_setTxn {replaced : Option (Txn L W K)} (h : (s.setTxn i replaced).txn? j = some txn) :
    (j = i ∧ replaced = some txn) ∨ (j ≠ i ∧ s.txn? j = some txn) := by
  unfold State.txn? State.setTxn at h
  rw [List.getElem?_set] at h
  by_cases hij : i = j
  · rw [if_pos hij] at h
    split at h
    · exact .inl ⟨hij.symm, h⟩
    · cases h
  · rw [if_neg hij] at h
    exact .inr ⟨fun hji => hij hji.symm, h⟩

omit [LE T] [DecidableLE T] [DecidableEq K] in
theorem txn?_setTxn_other {replaced : Option (Txn L W K)} (hij : j ≠ i) :
    (s.setTxn i replaced).txn? j = s.txn? j := by
  unfold State.txn? State.setTxn
  rw [List.getElem?_set_ne (Ne.symm hij)]

omit [LE T] [DecidableLE T] [DecidableEq K] in
theorem txn?_lt (h : s.txn? i = some txn) : i < s.txns.length := by
  by_contra hout
  rw [State.txn?, List.getElem?_eq_none (Nat.le_of_not_lt hout)] at h
  cases h

omit [LE T] [DecidableLE T] [DecidableEq K] in
theorem txn?_setTxn_self {replaced : Option (Txn L W K)} (h : s.txn? i = some txn) :
    (s.setTxn i replaced).txn? i = replaced := by
  unfold State.txn? State.setTxn
  rw [List.getElem?_set_self (txn?_lt h)]
  rfl

omit [LE T] [DecidableLE T] [DecidableEq K] in
theorem txn?_of_begun {begun : Txn L W K}
    (h : ({ s with txns := s.txns ++ [some begun] } : State D L W K E T).txn? j = some txn) :
    s.txn? j = some txn ∨ (txn = begun ∧ j = s.txns.length) := by
  unfold State.txn? at h ⊢
  rw [List.getElem?_append] at h
  split at h
  · exact .inl h
  · rename_i hout
    right
    rw [List.getElem?_singleton] at h
    split at h
    · exact ⟨(Option.some.inj h).symm, by omega⟩
    · cases h

omit [LE T] [DecidableLE T] [DecidableEq K] in
theorem txn?_begun_of {begun : Txn L W K} (h : s.txn? j = some txn) :
    ({ s with txns := s.txns ++ [some begun] } : State D L W K E T).txn? j = some txn := by
  have hlt := txn?_lt h
  unfold State.txn? at h ⊢
  rw [List.getElem?_append_left hlt]
  exact h

omit [LE T] [DecidableLE T] in
theorem heldElsewhere_iff {key : K} : s.heldElsewhere i key = true ↔
    ∃ j other, j ≠ i ∧ s.txn? j = some other ∧ key ∈ other.locks := by
  unfold State.heldElsewhere
  rw [List.any_eq_true]
  constructor
  · rintro ⟨j, -, hj⟩
    rw [Bool.and_eq_true, decide_eq_true_eq, Option.any_eq_true] at hj
    obtain ⟨hne, other, hother, hkey⟩ := hj
    exact ⟨j, other, hne, hother, of_decide_eq_true hkey⟩
  · rintro ⟨j, other, hne, hother, hkey⟩
    refine ⟨j, List.mem_range.mpr (txn?_lt hother), ?_⟩
    rw [Bool.and_eq_true, decide_eq_true_eq, Option.any_eq_true]
    exact ⟨hne, other, hother, decide_eq_true hkey⟩

end Transactions

structure Invariant (G : Shared D L E T → Prop) (J : Shared D L E T → Txn L W K → Prop)
    (s : State D L W K E T) : Prop where
  shared : G s.shared
  txns : ∀ i txn, s.txn? i = some txn → J s.shared txn
  held : ∀ i txn, s.txn? i = some txn → ∀ write ∈ txn.writes, sys.keys write ⊆ txn.locks
  apart : ∀ i j txn other, i ≠ j → s.txn? i = some txn → s.txn? j = some other →
    txn.locks.Disjoint other.locks

/-- What each statement keeps of the invariant. What the others know is kept by a call
and by the commit of writes to other rows. -/
structure Guarantee (G : Shared D L E T → Prop) (J : Shared D L E T → Txn L W K → Prop)
    (ok : Shared D L E T → Txn L W K → Prop) : Prop where
  begins : ∀ v request, G v → J v { locals := sys.init request }
  reads : ∀ v txn locals, G v → J v txn → nextStatement sys txn v = .next locals →
    J v { txn with locals := locals }
  writes : ∀ v txn locals write, G v → J v txn → nextStatement sys txn v = .write locals write →
    sys.violates write (view sys txn v.committed) = false →
    J v ⟨locals, txn.writes ++ [write], txn.locks ++ sys.keys write⟩
  locks : ∀ v txn key taken skipped, G v → J v txn →
    nextStatement sys txn v = .tryLock key taken skipped →
    J v ⟨taken, txn.writes, txn.locks ++ [key]⟩ ∧ J v { txn with locals := skipped }
  calls : ∀ v txn locals effect, G v → J v txn → nextStatement sys txn v = .call locals effect →
    G { v with effects := v.effects ++ [effect] } ∧
      J { v with effects := v.effects ++ [effect] } { txn with locals := locals } ∧
        ∀ other, J v other → J { v with effects := v.effects ++ [effect] } other
  commits : ∀ v txn, G v → J v txn → nextStatement sys txn v = .done → ok v txn →
    G (publish sys txn v) ∧ ∀ other, J v other → Apart sys txn other → J (publish sys txn v) other
  advances : ∀ (v : Shared D L E T) now, v.now ≤ now → G v →
    G { v with now := now } ∧ ∀ other, J v other → J { v with now := now } other

def CommitsWhen (ok : Shared D L E T → Txn L W K → Prop) (s : State D L W K E T) :
    Step R T → Prop
  | .commit i => ∀ txn, s.txn? i = some txn → ok s.shared txn
  | _ => True

instance {ok : Shared D L E T → Txn L W K → Prop} [∀ v txn, Decidable (ok v txn)]
    (s : State D L W K E T) : DecidablePred (CommitsWhen (R := R) ok s) := fun a =>
  match a with
  | .commit i => inferInstanceAs (Decidable (∀ txn ∈ s.txn? i, ok s.shared txn))
  | .begin _ | .execute _ | .rollback _ | .fault _ _ | .advance _ => .isTrue trivial

section Guarantees

variable {sys} {G : Shared D L E T → Prop} {J ok : Shared D L E T → Txn L W K → Prop}
  {s t : State D L W K E T} {a : Step R T}

omit [LE T] [DecidableLE T] [DecidableEq K] in
theorem Invariant.start {v : Shared D L E T} (hG : G v) :
    Invariant sys G J { shared := v } := by
  have hnone : ∀ i, ({ shared := v } : State D L W K E T).txn? i = none := fun _ => rfl
  refine ⟨hG, fun i txn htxn => ?_, fun i txn htxn => ?_, fun i j txn other _ hi => ?_⟩
  · rw [hnone i] at htxn
    cases htxn
  · rw [hnone i] at htxn
    cases htxn
  · rw [hnone i] at hi
    cases hi

omit [LE T] [DecidableLE T] in
theorem Invariant.heldElsewhere_own (h : Invariant sys G J s) {i : Nat} {txn : Txn L W K}
    (htxn : s.txn? i = some txn) {key : K} (hlock : key ∈ txn.locks) :
    s.heldElsewhere i key = false := by
  rw [← Bool.not_eq_true, heldElsewhere_iff]
  rintro ⟨j, other, hij, hother, hheld⟩
  exact h.apart i j txn other (Ne.symm hij) htxn hother hlock hheld

omit [LE T] [DecidableLE T] in
theorem Invariant.disjoint_of_free (h : Invariant sys G J s) {i j : Nat} {txn other : Txn L W K}
    (hij : j ≠ i) (htxn : s.txn? i = some txn) (hother : s.txn? j = some other) {keys : List K}
    (hfree : ∀ key ∈ keys, s.heldElsewhere i key = false) :
    (txn.locks ++ keys).Disjoint other.locks := by
  intro key hkey hlocked
  rcases List.mem_append.mp hkey with hold | hnew
  · exact h.apart i j txn other (Ne.symm hij) htxn hother hold hlocked
  · have hheld := heldElsewhere_iff.mpr ⟨j, other, hij, hother, hlocked⟩
    rw [hfree key hnew] at hheld
    cases hheld

omit [LE T] [DecidableLE T] [DecidableEq K] in
theorem Invariant.replace (h : Invariant sys G J s) {i : Nat} {replaced : Option (Txn L W K)}
    {v : Shared D L E T} (hG : G v)
    (hself : ∀ txn, replaced = some txn → J v txn ∧
      (∀ write ∈ txn.writes, sys.keys write ⊆ txn.locks) ∧
      ∀ j other, j ≠ i → s.txn? j = some other → txn.locks.Disjoint other.locks)
    (hothers : ∀ j other, j ≠ i → s.txn? j = some other → J v other) :
    Invariant sys G J { s.setTxn i replaced with shared := v } := by
  have htxns : ∀ j txn, ({ s.setTxn i replaced with shared := v } : State D L W K E T).txn? j =
      some txn → (j = i ∧ replaced = some txn) ∨ (j ≠ i ∧ s.txn? j = some txn) :=
    fun j txn htxn => txn?_of_setTxn htxn
  refine ⟨hG, fun j txn htxn => ?_, fun j txn htxn => ?_, fun j k txn other hjk hj hk => ?_⟩
  · rcases htxns j txn htxn with ⟨-, hsame⟩ | ⟨hne, hold⟩
    · exact (hself txn hsame).1
    · exact hothers j txn hne hold
  · rcases htxns j txn htxn with ⟨-, hsame⟩ | ⟨-, hold⟩
    · exact (hself txn hsame).2.1
    · exact h.held j txn hold
  · rcases htxns j txn hj with ⟨rfl, hsame⟩ | ⟨hj, hold⟩
    · rcases htxns k other hk with ⟨rfl, -⟩ | ⟨hk, hother⟩
      · exact absurd rfl hjk
      · exact (hself txn hsame).2.2 k other hk hother
    · rcases htxns k other hk with ⟨rfl, hsame⟩ | ⟨-, hother⟩
      · exact fun key hkey hlocked => (hself other hsame).2.2 j txn hj hold hlocked hkey
      · exact h.apart j k txn other hjk hold hother

theorem Guarantee.step (hg : Guarantee sys G J ok) (h : Invariant sys G J s)
    (hok : CommitsWhen ok s a) (hstep : RowLocks.step sys s a = some t) : Invariant sys G J t := by
  have hended : ∀ i, Invariant sys G J (s.setTxn i none) := fun i =>
    h.replace h.shared (fun _ hnone => nomatch hnone) fun j other _ hother => h.txns j other hother
  cases step_cases hstep with
  | begun request =>
    refine ⟨h.shared, fun i txn htxn => ?_, fun i txn htxn => ?_, fun i j txn other hij hi hj => ?_⟩
    · rcases txn?_of_begun htxn with hold | ⟨rfl, -⟩
      · exact h.txns i txn hold
      · exact hg.begins s.shared request h.shared
    · rcases txn?_of_begun htxn with hold | ⟨rfl, -⟩
      · exact h.held i txn hold
      · exact fun _ hwrite => nomatch hwrite
    · rcases txn?_of_begun hi with hi | ⟨rfl, -⟩
      · rcases txn?_of_begun hj with hj | ⟨rfl, -⟩
        · exact h.apart i j txn other hij hi hj
        · exact fun _ _ hkey => nomatch hkey
      · exact fun _ hkey => nomatch hkey
  | read i txn locals htxn hnext =>
    refine h.replace h.shared (fun replaced hsame => ?_) fun j other _ hother => h.txns j other hother
    obtain rfl := Option.some.inj hsame
    exact ⟨hg.reads s.shared txn locals h.shared (h.txns i txn htxn) hnext, h.held i txn htxn,
      fun j other hj hother => h.apart i j txn other (Ne.symm hj) htxn hother⟩
  | wrote i txn locals write htxn hnext hfree hvalid =>
    refine h.replace h.shared (fun replaced hsame => ?_) fun j other _ hother => h.txns j other hother
    obtain rfl := Option.some.inj hsame
    refine ⟨hg.writes s.shared txn locals write h.shared (h.txns i txn htxn) hnext hvalid,
      fun mine hmine => ?_, fun j other hj hother => h.disjoint_of_free hj htxn hother hfree⟩
    rcases List.mem_append.mp hmine with hold | hnew
    · exact List.Subset.trans (h.held i txn htxn mine hold) (List.subset_append_left _ _)
    · rw [List.mem_singleton.mp hnew]
      exact List.subset_append_right _ _
  | locked i txn key taken skipped htxn hnext hfree =>
    refine h.replace h.shared (fun replaced hsame => ?_) fun j other _ hother => h.txns j other hother
    obtain rfl := Option.some.inj hsame
    refine ⟨(hg.locks s.shared txn key taken skipped h.shared (h.txns i txn htxn) hnext).1,
      fun write hwrite =>
        List.Subset.trans (h.held i txn htxn write hwrite) (List.subset_append_left _ _),
      fun j other hj hother => h.disjoint_of_free hj htxn hother fun mine hmine => ?_⟩
    rw [List.mem_singleton.mp hmine]
    exact hfree
  | skipped i txn key taken skipped htxn hnext hheld =>
    refine h.replace h.shared (fun replaced hsame => ?_) fun j other _ hother => h.txns j other hother
    obtain rfl := Option.some.inj hsame
    exact ⟨(hg.locks s.shared txn key taken skipped h.shared (h.txns i txn htxn) hnext).2,
      h.held i txn htxn, fun j other hj hother => h.apart i j txn other (Ne.symm hj) htxn hother⟩
  | called i txn locals effect htxn hnext =>
    obtain ⟨hG, hself, hothers⟩ :=
      hg.calls s.shared txn locals effect h.shared (h.txns i txn htxn) hnext
    refine h.replace hG (fun replaced hsame => ?_) fun j other _ hother =>
      hothers other (h.txns j other hother)
    obtain rfl := Option.some.inj hsame
    exact ⟨hself, h.held i txn htxn,
      fun j other hj hother => h.apart i j txn other (Ne.symm hj) htxn hother⟩
  | raised i txn htxn hnext => exact hended i
  | violated i txn locals write htxn hnext hinvalid => exact hended i
  | rolledBack i txn htxn => exact hended i
  | faulted i txn locals effect reached htxn hnext =>
    cases reached with
    | false => exact hended i
    | true =>
      obtain ⟨hG, -, hothers⟩ :=
        hg.calls s.shared txn locals effect h.shared (h.txns i txn htxn) hnext
      exact h.replace hG (fun _ hnone => nomatch hnone) fun j other _ hother =>
        hothers other (h.txns j other hother)
  | committed i txn htxn hdone =>
    obtain ⟨hG, hothers⟩ := hg.commits s.shared txn h.shared (h.txns i txn htxn) hdone (hok txn htxn)
    refine h.replace hG (fun _ hnone => nomatch hnone) fun j other hj hother =>
      hothers other (h.txns j other hother) fun write hwrite key hkey => ?_
    exact h.apart i j txn other (Ne.symm hj) htxn hother (h.held i txn htxn write hwrite hkey)
  | advanced now hnow =>
    obtain ⟨hG, hJ⟩ := hg.advances s.shared now hnow h.shared
    exact ⟨hG, fun i txn htxn => hJ txn (h.txns i txn htxn), h.held, h.apart⟩

omit [LE T] [DecidableLE T] [DecidableEq K] in
theorem commitsWhen_true : CommitsWhen (fun _ _ => True) s a := by
  cases a with
  | commit i => exact fun _ _ => trivial
  | _ => trivial

theorem Guarantee.throughout (hg : Guarantee sys G J ok) (h : Invariant sys G J s)
    {steps : List (Step R T)} (hok : Runs.AllSteps (RowLocks.step sys) (CommitsWhen ok) s steps) :
    Runs.Throughout (RowLocks.step sys) (Invariant sys G J) s steps :=
  Runs.throughout_of_invariant h (fun _ _ _ hs hok hstep => hg.step hs hok hstep) hok

end Guarantees

end LandRecords.RowLocks
