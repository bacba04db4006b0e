import LandRecords.Config.PinnedScope
import Mathlib

/-! Handling a message again. Handlers run side by side in any number of processes, each inside
the scope of its message's envelope, while versions are written, rows are updated, events are
delivered and time passes. -/
namespace LandRecords.Config

open Backend Datetime Text Clients

inductive ConfigCall (ε ν : Type)
  /-- `with pinned_scope(envelope_id):` around a handler. -/
  | handle (process : Nat) (envelopeId : Text) (handler : Handler ε ν)
  | act (request : ConfigRequest)

section System

variable {ε ν : Type}

def ConfigCall.program :
    ConfigCall ε ν → Program ConfigRequest ConfigAnswer ε (Option (Exit ε ν))
  | .handle process envelopeId handler =>
      (Handler.pinnedScope envelopeId handler .ended).program process none fun exit =>
        .ended (.returned (some exit))
  | .act request => .ask request fun _ => .ended (.returned none)

def processSystem :
    System Processes (ConfigCall ε ν) ConfigRequest ConfigAnswer ε (Option (Exit ε ν)) Unit where
  serve := ConfigRequest.serve
  program := ConfigCall.program
  givenUp _ := .crashed

def Later (s t : Processes) : Prop :=
  t.zone = s.zone ∧ Kept s.db t.db ∧ (Faithful s → Faithful t)

/-- What holds since the start. -/
structure Since (start s : Processes) : Prop where
  zone : s.zone = start.zone
  kept : Kept start.db s.db
  faithful : Faithful s

variable {start s : Processes} {Q : Exit ε (Option (Exit ε ν)) → Processes → Prop}

theorem stable_since (start : Processes) : Stable Later (Since start) :=
  fun _ _ hs hlater =>
    ⟨hlater.1.trans hs.zone, hs.kept.trans hlater.2.1, hlater.2.2 hs.faithful⟩

theorem zone_serve (request : ConfigRequest) (s : Processes) : (request.serve s).2.zone = s.zone := by
  cases request <;> rfl

theorem Since.serve (h : Since start s) (request : ConfigRequest) :
    Later s (request.serve s).2 ∧ Since start (request.serve s).2 := by
  obtain ⟨hkept, hfaithful⟩ := h.faithful.serve request
  have hzone := zone_serve request s
  exact ⟨⟨hzone, hkept, fun _ => hfaithful⟩, hzone.trans h.zone, h.kept.trans hkept, hfaithful⟩

theorem sound_any (program : Program ConfigRequest ConfigAnswer ε (Option (Exit ε ν)))
    (hQ : ∀ exit s, Q exit s) :
    Sound ConfigRequest.serve Later Q program (Since start) := by
  induction program with
  | ended exit => exact fun s _ => hQ exit s
  | ask request next ih =>
    intro s hs
    obtain ⟨hlater, hsince⟩ := hs.serve request
    exact ⟨hlater, Since start, stable_since start, hsince, ih _⟩

/-- Inside a scope a handler goes the way of its replay from the rows at the start, whatever is
asked in between. -/
theorem sound_handler {process : Nat} {handler : Handler ε ν} {envelopeId : Text}
    {rest : Exit ε ν → Program ConfigRequest ConfigAnswer ε (Option (Exit ε ν))}
    (hcrashed : ∀ s, Q .crashed s) (hstart : Faithful start)
    (hnamed : Named start.zone start.db envelopeId handler)
    (hrest : Sound ConfigRequest.serve Later Q (rest (replay start.zone start.db envelopeId handler))
      (Since start)) :
    Sound ConfigRequest.serve Later Q (handler.program process (some envelopeId) rest)
      (Since start) := by
  induction handler generalizing envelopeId rest with
  | ended exit => exact hrest
  | get scope key configVersion next ih =>
    intro s hs
    obtain ⟨hlater, hsince⟩ := hs.serve
      (.get process (some envelopeId) scope key configVersion)
    refine ⟨hlater, Since start, stable_since start, hsince, ?_⟩
    cases configVersion with
    | none => exact ih _ hnamed hrest
    | some configVersion =>
      have hanswer : ((ConfigRequest.get process (some envelopeId) scope key
          (some configVersion)).serve s).1 = pinnedAnswer start.zone start.db scope key configVersion := by
        rw [← hs.zone]
        exact (getPinned_answer hs.faithful.ids (hs.faithful.pins process) configVersion).1.trans
          (hs.kept.pinnedAnswer hstart.ids hs.faithful.ids hnamed.1)
      rw [hanswer]
      exact ih _ hnamed.2 hrest
  | pinnedScope inner body next ihBody ihNext =>
    rw [Handler.program]
    obtain ⟨hnamedBody, hnamedNext⟩ := hnamed
    apply ihBody hnamedBody
    unfold replay at hrest
    cases hbody : replay start.zone start.db inner body with
    | crashed => exact sound_ended fun s _ => hcrashed s
    | returned value =>
      rw [hbody] at hrest hnamedNext
      exact ihNext _ (hnamedNext (by simp)) hrest
    | raised error =>
      rw [hbody] at hrest hnamedNext
      exact ihNext _ (hnamedNext (by simp)) hrest

def AsReplayed (start : Processes) (call : ConfigCall ε ν) (_ : Processes)
    (exit : Exit ε (Option (Exit ε ν))) (_ : Processes) : Prop :=
  ∀ process envelopeId handler result, call = .handle process envelopeId handler →
    exit = .returned (some result) → Named start.zone start.db envelopeId handler →
      result = replay start.zone start.db envelopeId handler

theorem asReplayed_crashed {call : ConfigCall ε ν} {began : Processes} :
    AsReplayed start call began .crashed s := by
  intro process envelopeId handler result _ hexit
  cases hexit

theorem sound_handle {process : Nat} {envelopeId : Text} {handler : Handler ε ν}
    {began : Processes} (hstart : Faithful start) (hnamed : Named start.zone start.db envelopeId handler) :
    Sound ConfigRequest.serve Later
      (AsReplayed start (.handle process envelopeId handler) began)
      (ConfigCall.handle process envelopeId handler).program (Since start) := by
  apply sound_handler (fun _ => asReplayed_crashed) hstart hnamed
  have hresult : ∀ result, result = replay start.zone start.db envelopeId handler → ∀ s, Since start s →
      AsReplayed start (.handle process envelopeId handler) began (.returned (some result)) s := by
    intro result hreplay s _ process' envelopeId' handler' result' hcall hexit _
    cases hcall
    cases hexit
    exact hreplay
  cases hreplay : replay start.zone start.db envelopeId handler with
  | crashed => exact sound_ended fun _ _ => asReplayed_crashed
  | returned value => exact sound_ended (hresult _ hreplay.symm)
  | raised error => exact sound_ended (hresult _ hreplay.symm)

theorem discipline_processes (hstart : Faithful start) :
    Discipline (processSystem (ε := ε) (ν := ν)) Later (Since start) (AsReplayed start)
      fun _ => True where
  refl := fun s => ⟨rfl, Kept.refl s.db, id⟩
  stable := stable_since start
  begins := by
    intro call began _ hbegan
    refine ⟨Since start, stable_since start, hbegan, ?_⟩
    cases call with
    | act request =>
      apply sound_any
      intro exit s process envelopeId handler result hcall
      cases hcall
    | handle process envelopeId handler =>
      by_cases hnamed : Named start.zone start.db envelopeId handler
      · exact sound_handle hstart hnamed
      · apply sound_any
        intro exit s process' envelopeId' handler' result hcall _ hnamed'
        cases hcall
        exact absurd hnamed' hnamed
  givenUp := fun _ _ _ _ => asReplayed_crashed

/-- After the steps, the handler has ended in every process as it does from the rows at the
start. -/
def HandledAlike (start : Processes) (envelopeId : Text) (handler : Handler ε ν)
    (steps : List (Step (ConfigCall ε ν) Unit)) : Prop :=
  ∀ t ∈ Runs.run (Clients.step processSystem) ⟨start, []⟩ steps, ∀ client ∈ t.clients,
    ∀ process, client.call = .handle process envelopeId handler → ∀ result,
      client.program = .ended (.returned (some result)) →
        result = replay start.zone start.db envelopeId handler

/-- However often a message is handled, by any processes and whatever is written in between, its
handler ends as it does from the rows that were there before, if those are the ones it names. -/
theorem pinned_handlers_replay (hstart : Faithful start) {envelopeId : Text}
    {handler : Handler ε ν} (hnamed : Named start.zone start.db envelopeId handler)
    (steps : List (Step (ConfigCall ε ν) Unit)) : HandledAlike start envelopeId handler steps := by
  intro t hrun client hclient process hcall result hended
  have hinvariant : Invariant processSystem Later (Since start) (AsReplayed start)
      (State.mk start [] : State Processes (ConfigCall ε ν) ConfigRequest ConfigAnswer ε
        (Option (Exit ε ν))) := by
    refine ⟨⟨rfl, Kept.refl start.db, hstart⟩, ?_⟩
    intro client hclient
    cases hclient
  have hkept := ((discipline_processes hstart).run hinvariant
    (admitted_of_forall fun _ _ => trivial) hrun).1
  obtain ⟨call, began, program⟩ := client
  dsimp only at hcall hended
  rw [hended] at hclient
  exact hkept.ended hclient process envelopeId handler result hcall rfl hnamed

end System

def sampleHandler : Handler Text Text :=
  .get "district".toList "review.sample".toList (some "v1".toList) fun pinned =>
    .get "district".toList "review.sample".toList none fun live =>
      match pinned, live with
      | .returned response, .raised _ => .ended (.returned response.configVersion)
      | _, _ => .ended (.raised "unpinned".toList)

def sampleProcesses : Processes where
  db := { configVersions := [newVersion (sampleWrite (newYear 3)) "v1".toList] }
  now := newYear 4

/-- The message is handled in one process and then in another, which has read what was in effect
before. In between the version is superseded and an update of its date is tried. -/
def sampleHandling : List (Step (ConfigCall Text Text) Unit) :=
  [.begin (.handle 0 "e".toList sampleHandler), .answer 0,
    .begin (.act (.write (sampleWrite (newYear 4)) (sampleConfigStamps "v2".toList))), .answer 1,
    .begin (.act (.update "v1".toList (newVersion (sampleWrite (newYear 9)) "v1".toList))),
    .answer 2, .answer 0,
    .begin (.act (.get 1 none "district".toList "review.sample".toList none)), .answer 3,
    .begin (.handle 1 "e".toList sampleHandler), .answer 4, .answer 4]

theorem faithful_sampleProcesses : Faithful sampleProcesses where
  ids := by decide
  pins := by
    intro process scope key configVersion value hcached
    cases hcached

theorem named_sampleHandler : Named sampleProcesses.zone sampleProcesses.db "e".toList sampleHandler :=
  ⟨by decide, trivial⟩

theorem pinned_handlers_replay_superseded :
    HandledAlike sampleProcesses "e".toList sampleHandler sampleHandling :=
  pinned_handlers_replay faithful_sampleProcesses named_sampleHandler sampleHandling

example : (Runs.run (Clients.step processSystem) ⟨sampleProcesses, []⟩ sampleHandling).map
    (fun t => (t.store.db.configVersions.map fun row => row.supersededBy.isSome,
      t.clients.map fun client => match client.program with
        | .ended (.returned (some (.returned value))) => some value
        | _ => none)) =
    some ([true, false], [some "v1".toList, none, none, none, some "v1".toList]) := by
  decide +kernel

end LandRecords.Config
