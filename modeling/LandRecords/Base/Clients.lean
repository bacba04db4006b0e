import LandRecords.Base.Fallible
import LandRecords.Base.Runs

/-! Programs that ask a server, run side by side. A request may reach the server any number
of times before its answer arrives, and a program may be given up while it waits. A program
that does what the others rely on, and needs no more of them, can be judged alone. -/
namespace LandRecords.Clients

variable {Request : Type} {Answer : Request → Type} {ε α β Store Call F : Type}

inductive Program (Request : Type) (Answer : Request → Type) (ε α : Type)
  | ended (exit : Exit ε α)
  | ask (request : Request) (next : Answer request → Program Request Answer ε α)

namespace Program

def bind : Program Request Answer ε β → (β → Program Request Answer ε α) →
    Program Request Answer ε α
  | .ended (.returned value), f => f value
  | .ended (.raised error), _ => .ended (.raised error)
  | .ended .crashed, _ => .ended .crashed
  | .ask request next, f => .ask request fun answer => (next answer).bind f

instance : Monad (Program Request Answer ε) where
  pure value := .ended (.returned value)
  bind := bind

def raise (error : ε) : Program Request Answer ε α := .ended (.raised error)

def request (request : Request) : Program Request Answer ε (Answer request) :=
  .ask request fun answer => .ended (.returned answer)

end Program

structure System (Store Call : Type) (Request : Type) (Answer : Request → Type) (ε α F : Type) where
  serve : (request : Request) → Store → Answer request × Store
  program : Call → Program Request Answer ε α
  givenUp : F → Exit ε α

structure Client (Store Call : Type) (Request : Type) (Answer : Request → Type) (ε α : Type) where
  call : Call
  /-- What was stored when the call began. -/
  began : Store
  program : Program Request Answer ε α

structure State (Store Call : Type) (Request : Type) (Answer : Request → Type) (ε α : Type) where
  store : Store
  clients : List (Client Store Call Request Answer ε α) := []

inductive Step (Call F : Type)
  | begin (call : Call)
  /-- A request reaches the server, and its answer is lost. -/
  | reach (i : ℕ)
  | answer (i : ℕ)
  | giveUp (i : ℕ) (failure : F)

variable (sys : System Store Call Request Answer ε α F)

def begun (s : State Store Call Request Answer ε α) (call : Call) :
    State Store Call Request Answer ε α :=
  { s with clients := s.clients ++ [⟨call, s.store, sys.program call⟩] }

def step (s : State Store Call Request Answer ε α) : Step Call F →
    Option (State Store Call Request Answer ε α)
  | .begin call => some (begun sys s call)
  | .reach i =>
      match s.clients[i]? with
      | some ⟨_, _, .ask request _⟩ => some { s with store := (sys.serve request s.store).2 }
      | _ => none
  | .answer i =>
      match s.clients[i]? with
      | some ⟨call, began, .ask request next⟩ =>
          let (answer, store) := sys.serve request s.store
          some ⟨store, s.clients.set i ⟨call, began, next answer⟩⟩
      | _ => none
  | .giveUp i failure =>
      match s.clients[i]? with
      | some ⟨call, began, .ask _ _⟩ =>
          some { s with clients := s.clients.set i ⟨call, began, .ended (sys.givenUp failure)⟩ }
      | _ => none

/-- What a step does: a call begins, or a client that waits for an answer has its request
served with the answer lost, gets the answer, or is given up. -/
theorem step_cases {s t : State Store Call Request Answer ε α} {a : Step Call F}
    (h : step sys s a = some t) :
    (∃ call, a = .begin call ∧ t = begun sys s call) ∨
    ∃ i call began request next, s.clients[i]? = some ⟨call, began, .ask request next⟩ ∧
      (t = { s with store := (sys.serve request s.store).2 } ∨
        t = ⟨(sys.serve request s.store).2,
          s.clients.set i ⟨call, began, next (sys.serve request s.store).1⟩⟩ ∨
        ∃ failure, t = { s with
          clients := s.clients.set i ⟨call, began, .ended (sys.givenUp failure)⟩ }) := by
  cases a with
  | begin call => exact .inl ⟨call, rfl, (Option.some.inj h).symm⟩
  | reach i =>
    right
    simp only [step] at h
    split at h
    · rename_i call began request next hi
      exact ⟨i, call, began, request, next, hi, .inl (Option.some.inj h).symm⟩
    · cases h
  | answer i =>
    right
    simp only [step] at h
    split at h
    · rename_i call began request next hi
      exact ⟨i, call, began, request, next, hi, .inr (.inl (Option.some.inj h).symm)⟩
    · cases h
  | giveUp i failure =>
    right
    simp only [step] at h
    split at h
    · rename_i call began request next hi
      exact ⟨i, call, began, request, next, hi, .inr (.inr ⟨failure, (Option.some.inj h).symm⟩)⟩
    · cases h

section Rely

variable (serve : (request : Request) → Store → Answer request × Store)
  (rely : Store → Store → Prop)

def Stable (P : Store → Prop) : Prop := ∀ s t, P s → rely s t → P t

/-- Begun in a store in `P`, the program makes no move that the others do not rely on, and
it ends as it should, whatever moves of that kind the others make in between. -/
def Sound (Q : Exit ε α → Store → Prop) : Program Request Answer ε α → (Store → Prop) → Prop
  | .ended exit, P => ∀ s, P s → Q exit s
  | .ask request next, P => ∀ s, P s → rely s (serve request s).2 ∧
      ∃ P', Stable rely P' ∧ P' (serve request s).2 ∧ Sound Q (next (serve request s).1) P'

variable {serve rely} {Q Q' : Exit ε α → Store → Prop} {P P' : Store → Prop}

theorem Stable.and (h : Stable rely P) (h' : Stable rely P') :
    Stable rely fun s => P s ∧ P' s :=
  fun s t hboth hrely => ⟨h s t hboth.1 hrely, h' s t hboth.2 hrely⟩

theorem stable_fact (p : Prop) : Stable rely fun _ => p := fun _ _ h _ => h

theorem Sound.weaken {program : Program Request Answer ε α} (h : Sound serve rely Q program P)
    (hP : ∀ s, P' s → P s) : Sound serve rely Q program P' := by
  cases program with
  | ended exit => exact fun s hs => h s (hP s hs)
  | ask request next => exact fun s hs => h s (hP s hs)

theorem sound_fact {p : Prop} {program : Program Request Answer ε α}
    (h : p → Sound serve rely Q program P) : Sound serve rely Q program fun s => p ∧ P s := by
  by_cases hp : p
  · exact (h hp).weaken fun _ hs => hs.2
  · cases program with
    | ended exit => exact fun _ hs => absurd hs.1 hp
    | ask request next => exact fun _ hs => absurd hs.1 hp

theorem sound_ended {exit : Exit ε α} (h : ∀ s, P s → Q exit s) :
    Sound serve rely Q (.ended exit) P := h

theorem sound_pure {value : α} (h : ∀ s, P s → Q (.returned value) s) :
    Sound serve rely Q (pure value) P := h

theorem sound_raise {error : ε} (h : ∀ s, P s → Q (.raised error) s) :
    Sound serve rely Q (.raise error) P := h

def firstPart (R : β → Store → Prop) (Q : Exit ε α → Store → Prop) : Exit ε β → Store → Prop
  | .returned value => R value
  | .raised error => Q (.raised error)
  | .crashed => Q .crashed

theorem sound_bind {R : β → Store → Prop} {first : Program Request Answer ε β}
    {f : β → Program Request Answer ε α} (hfirst : Sound serve rely (firstPart R Q) first P)
    (hf : ∀ value, Sound serve rely Q (f value) (R value)) :
    Sound serve rely Q (first >>= f) P := by
  induction first generalizing P with
  | ended exit =>
    cases exit with
    | returned value => exact (hf value).weaken hfirst
    | raised error => exact hfirst
    | crashed => exact hfirst
  | ask request next ih =>
    intro s hs
    obtain ⟨hmove, P', hstable, hP', hrest⟩ := hfirst s hs
    exact ⟨hmove, P', hstable, hP', ih (serve request s).1 hrest⟩

theorem sound_request_bind {request : Request} {R : Answer request → Store → Prop}
    {f : Answer request → Program Request Answer ε α}
    (hstable : ∀ answer, Stable rely (R answer))
    (hserve : ∀ s, P s → rely s (serve request s).2 ∧ R (serve request s).1 (serve request s).2)
    (hf : ∀ answer, Sound serve rely Q (f answer) (R answer)) :
    Sound serve rely Q (Program.request request >>= f) P := fun s hs =>
  ⟨(hserve s hs).1, R (serve request s).1, hstable _, (hserve s hs).2, hf _⟩

end Rely

section Runs

variable (rely : Store → Store → Prop) (I : Store → Prop)
  (Q : Call → Store → Exit ε α → Store → Prop)

def Judged (store : Store) (client : Client Store Call Request Answer ε α) : Prop :=
  ∃ P, Stable rely P ∧ P store ∧
    Sound sys.serve rely (Q client.call client.began) client.program P

structure Invariant (s : State Store Call Request Answer ε α) : Prop where
  store : I s.store
  clients : ∀ client ∈ s.clients, Judged sys rely Q s.store client

def Admitted (admissible : Call → Prop) : State Store Call Request Answer ε α → Step Call F → Prop
  | _, .begin call => admissible call
  | _, _ => True

structure Discipline (admissible : Call → Prop) : Prop where
  refl : ∀ s, rely s s
  stable : Stable rely I
  begins : ∀ call began, admissible call → I began →
    ∃ P, Stable rely P ∧ P began ∧ Sound sys.serve rely (Q call began) (sys.program call) P
  givenUp : ∀ call began failure s, Q call began (sys.givenUp failure) s

variable {sys rely I Q} {admissible : Call → Prop} {s t : State Store Call Request Answer ε α}
  {a : Step Call F} {as : List (Step Call F)} {client : Client Store Call Request Answer ε α}

theorem admitted_of_forall (h : ∀ call, Step.begin call ∈ as → admissible call) :
    Runs.AllSteps (step sys) (Admitted admissible) s as := by
  induction as generalizing s with
  | nil => trivial
  | cons a rest ih =>
    intro t _
    refine ⟨?_, ih fun call hcall => h call (List.mem_cons_of_mem _ hcall)⟩
    cases a with
    | begin call => exact h call List.mem_cons_self
    | reach i => trivial
    | answer i => trivial
    | giveUp i failure => trivial

theorem Judged.after {store later : Store} (h : Judged sys rely Q store client)
    (hrely : rely store later) : Judged sys rely Q later client := by
  obtain ⟨P, hstable, hP, hsound⟩ := h
  exact ⟨P, hstable, hstable _ _ hP hrely, hsound⟩

theorem Judged.served {store : Store} {call : Call} {began : Store} {request : Request}
    {next : Answer request → Program Request Answer ε α}
    (h : Judged sys rely Q store ⟨call, began, .ask request next⟩) :
    rely store (sys.serve request store).2 ∧ Judged sys rely Q (sys.serve request store).2
      ⟨call, began, next (sys.serve request store).1⟩ := by
  obtain ⟨P, -, hP, hsound⟩ := h
  obtain ⟨hmove, P', hstable, hP', hrest⟩ := hsound store hP
  exact ⟨hmove, P', hstable, hP', hrest⟩

theorem Invariant.replaced {i : ℕ} {store : Store} (h : Invariant sys rely I Q s)
    (hI : Stable rely I) (hmove : rely s.store store) (hclient : Judged sys rely Q store client) :
    Invariant sys rely I Q ⟨store, s.clients.set i client⟩ := by
  refine ⟨hI _ _ h.store hmove, fun other hother => ?_⟩
  rcases List.mem_or_eq_of_mem_set hother with hmem | rfl
  · exact (h.clients other hmem).after hmove
  · exact hclient

theorem Discipline.step (h : Discipline sys rely I Q admissible) (hs : Invariant sys rely I Q s)
    (hok : Admitted admissible s a) (hstep : step sys s a = some t) :
    Invariant sys rely I Q t ∧ rely s.store t.store := by
  rcases step_cases sys hstep with ⟨call, rfl, rfl⟩ | ⟨i, call, began, request, next, hi, hcases⟩
  · refine ⟨⟨hs.store, fun client hclient => ?_⟩, h.refl _⟩
    rcases List.mem_append.mp hclient with hold | hnew
    · exact hs.clients client hold
    · rw [List.mem_singleton.mp hnew]
      exact h.begins call s.store hok hs.store
  · have hjudged := hs.clients _ (List.mem_of_getElem? hi)
    obtain ⟨hmove, hserved⟩ := hjudged.served
    rcases hcases with rfl | rfl | ⟨failure, rfl⟩
    · exact ⟨⟨h.stable _ _ hs.store hmove, fun client hclient =>
        (hs.clients client hclient).after hmove⟩, hmove⟩
    · exact ⟨hs.replaced h.stable hmove hserved, hmove⟩
    · refine ⟨hs.replaced h.stable (h.refl _) ?_, h.refl _⟩
      obtain ⟨P, hstable, hP, -⟩ := hjudged
      exact ⟨P, hstable, hP, sound_ended fun store _ => h.givenUp call began failure store⟩

theorem Discipline.run (h : Discipline sys rely I Q admissible) (hs : Invariant sys rely I Q s)
    (hok : Runs.AllSteps (Clients.step sys) (Admitted admissible) s as)
    (hrun : Runs.run (Clients.step sys) s as = some t) :
    Invariant sys rely I Q t ∧ Relation.ReflTransGen rely s.store t.store := by
  induction as generalizing s with
  | nil =>
    cases hrun
    exact ⟨hs, .refl⟩
  | cons a rest ih =>
    obtain ⟨middle, hmiddle, hrest⟩ := Option.bind_eq_some_iff.mp hrun
    obtain ⟨hadmitted, hlater⟩ := hok middle hmiddle
    obtain ⟨hkept, hmove⟩ := h.step hs hadmitted hmiddle
    obtain ⟨hend, hmoves⟩ := ih hkept hlater hrest
    exact ⟨hend, .head hmove hmoves⟩

theorem Invariant.ended (h : Invariant sys rely I Q s) {call : Call} {began : Store}
    {exit : Exit ε α} (hclient : ⟨call, began, .ended exit⟩ ∈ s.clients) :
    Q call began exit s.store := by
  obtain ⟨P, -, hP, hsound⟩ := h.clients _ hclient
  exact hsound s.store hP

end Runs

section Order

variable {sys} {s t : State Store Call Request Answer ε α} {a : Step Call F}
  {as : List (Step Call F)}

structure Follows (rely : Store → Store → Prop) (s t : State Store Call Request Answer ε α) :
    Prop where
  length : s.clients.length ≤ t.clients.length
  began : ∀ (i : ℕ) (client : Client Store Call Request Answer ε α), t.clients[i]? = some client →
    s.clients.length ≤ i → Relation.ReflTransGen rely s.store client.began
  ended : ∀ (i : ℕ) (client : Client Store Call Request Answer ε α) (exit : Exit ε α),
    s.clients[i]? = some client → client.program = .ended exit → t.clients[i]? = some client

theorem Follows.refl (rely : Store → Store → Prop) (s : State Store Call Request Answer ε α) :
    Follows rely s s := by
  refine ⟨Nat.le_refl _, fun i client hi hle => ?_, fun _ _ _ h _ => h⟩
  obtain ⟨hlt, -⟩ := List.getElem?_eq_some_iff.mp hi
  omega

theorem Follows.moved {rely : Store → Store → Prop} (h : Follows rely s t) {i : ℕ} {call : Call}
    {began store : Store} {request : Request} {next : Answer request → Program Request Answer ε α}
    (hi : t.clients[i]? = some ⟨call, began, .ask request next⟩)
    (program : Program Request Answer ε α) :
    Follows rely s ⟨store, t.clients.set i ⟨call, began, program⟩⟩ := by
  obtain ⟨hlt, -⟩ := List.getElem?_eq_some_iff.mp hi
  refine ⟨by rw [List.length_set]; exact h.length, fun j client hj hle => ?_,
    fun j client exit hj hended => ?_⟩
  · by_cases hij : i = j
    · subst hij
      rw [List.getElem?_set_self hlt] at hj
      cases hj
      exact h.began i ⟨call, began, .ask request next⟩ hi hle
    · rw [List.getElem?_set_ne hij] at hj
      exact h.began j client hj hle
  · have hkept := h.ended j client exit hj hended
    have hne : i ≠ j := by
      intro hij
      rw [hij, hkept] at hi
      cases hi
      cases hended
    rw [List.getElem?_set_ne hne]
    exact hkept

theorem Follows.step {rely : Store → Store → Prop} (h : Follows rely s t)
    (hmoves : Relation.ReflTransGen rely s.store t.store)
    {later : State Store Call Request Answer ε α} (hstep : step sys t a = some later) :
    Follows rely s later := by
  rcases step_cases sys hstep with ⟨call, rfl, rfl⟩ | ⟨i, call, began, request, next, hi, hcases⟩
  · refine ⟨?_, fun i client hi hle => ?_, fun i client exit hi hended => ?_⟩
    · have := h.length
      simp only [begun, List.length_append]
      omega
    · rcases Nat.lt_or_ge i t.clients.length with hlt | hge
      · exact h.began i client (by rwa [begun, List.getElem?_append_left hlt] at hi) hle
      · have hclient := List.mem_of_getElem? (by rwa [begun, List.getElem?_append_right hge] at hi)
        rw [List.mem_singleton.mp hclient]
        exact hmoves
    · have hkept := h.ended i client exit hi hended
      obtain ⟨hlt, -⟩ := List.getElem?_eq_some_iff.mp hkept
      rw [begun, List.getElem?_append_left hlt]
      exact hkept
  · rcases hcases with rfl | rfl | ⟨failure, rfl⟩
    · exact ⟨h.length, h.began, h.ended⟩
    · exact h.moved hi _
    · exact h.moved hi _

end Order

section Runs

variable {sys} {rely : Store → Store → Prop} {I : Store → Prop}
  {Q : Call → Store → Exit ε α → Store → Prop} {admissible : Call → Prop}
  {s t : State Store Call Request Answer ε α} {as : List (Step Call F)}

theorem Discipline.follows (h : Discipline sys rely I Q admissible)
    (hs : Invariant sys rely I Q s)
    (hok : Runs.AllSteps (Clients.step sys) (Admitted admissible) s as)
    (hrun : Runs.run (Clients.step sys) s as = some t) : Follows rely s t := by
  induction as using List.reverseRecOn generalizing t with
  | nil =>
    cases hrun
    exact Follows.refl rely s
  | append_singleton front a ih =>
    rw [Runs.run_append] at hrun
    obtain ⟨middle, hmiddle, hlast⟩ := Option.bind_eq_some_iff.mp hrun
    obtain ⟨last, hstep, hend⟩ := Option.bind_eq_some_iff.mp hlast
    cases hend
    have hfront := hok.of_prefix (List.prefix_append front [a])
    exact (ih hfront hmiddle).step (h.run hs hfront hmiddle).2 hstep

end Runs

section Seen

variable {V : Type}

def Client.seenBy (seen : Store → V) (client : Client Store Call Request Answer ε α) :
    Client V Call Request Answer ε α := ⟨client.call, seen client.began, client.program⟩

def State.seenBy (seen : Store → V) (s : State Store Call Request Answer ε α) :
    State V Call Request Answer ε α := ⟨seen s.store, s.clients.map (Client.seenBy seen)⟩

def ServesAs (seen : Store → V) (serve : (request : Request) → Store → Answer request × Store)
    (serve' : (request : Request) → V → Answer request × V) : Prop :=
  ∀ request s, serve' request (seen s) = ((serve request s).1, seen (serve request s).2)

variable {sys} {seen : Store → V} {serve' : (request : Request) → V → Answer request × V}

def System.servedBy (sys : System Store Call Request Answer ε α F)
    (serve' : (request : Request) → V → Answer request × V) : System V Call Request Answer ε α F :=
  ⟨serve', sys.program, sys.givenUp⟩

theorem step_seenBy (hserve : ServesAs seen sys.serve serve')
    (s : State Store Call Request Answer ε α) (a : Step Call F) :
    step (sys.servedBy serve') (s.seenBy seen) a = (step sys s a).map (State.seenBy seen) := by
  have hclient (i : ℕ) : (s.seenBy seen).clients[i]? = (s.clients[i]?).map (Client.seenBy seen) :=
    List.getElem?_map
  cases a with
  | begin call => simp [step, begun, State.seenBy, Client.seenBy, System.servedBy]
  | reach i =>
    simp only [step, hclient]
    rcases s.clients[i]? with _ | ⟨call, began, exit | ⟨request, next⟩⟩
    · rfl
    · rfl
    · simp [Client.seenBy, State.seenBy, System.servedBy, hserve request s.store]
  | answer i =>
    simp only [step, hclient]
    rcases s.clients[i]? with _ | ⟨call, began, exit | ⟨request, next⟩⟩
    · rfl
    · rfl
    · simp [Client.seenBy, State.seenBy, System.servedBy, hserve request s.store]
  | giveUp i failure =>
    simp only [step, hclient]
    rcases s.clients[i]? with _ | ⟨call, began, exit | ⟨request, next⟩⟩
    · rfl
    · rfl
    · simp [Client.seenBy, State.seenBy, System.servedBy]

/-- A run on a server is one on what is seen of its store. -/
theorem run_seenBy (hserve : ServesAs seen sys.serve serve')
    {s t : State Store Call Request Answer ε α} {as : List (Step Call F)}
    (hrun : Runs.run (step sys) s as = some t) :
    Runs.run (step (sys.servedBy serve')) (s.seenBy seen) as = some (t.seenBy seen) := by
  rw [Runs.run_seen (step_seenBy hserve), hrun]
  rfl

end Seen

end LandRecords.Clients
