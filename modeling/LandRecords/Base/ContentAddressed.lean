import LandRecords.Base.CollisionFree

/-! Stores that hold each content at an address computed from it. A call that stores a
content either is cut off, finds it there, or puts it there; nothing that is held is ever
changed, and the contents held are those that some call returned for. -/
namespace LandRecords.ContentAddressed

variable {Location Content : Type*} (address : Content → Location)

inductive Effect (content : Content) (store later : Location → Option Content) :
    Option Bool → Prop
  | cut (hkept : ∀ place held, store place = some held → later place = some held)
      (hnone : ∀ other, later (address other) = store (address other)) :
      Effect content store later none
  | present (hheld : store (address content) = some content) (hsame : later = store) :
      Effect content store later (some false)
  | created (habsent : store (address content) = none)
      (hheld : later (address content) = some content)
      (hkept : ∀ place, place ≠ address content → later place = store place) :
      Effect content store later (some true)

inductive Session : (Location → Option Content) → List (Content × Option Bool) →
    (Location → Option Content) → Prop
  | nil {store : Location → Option Content} : Session store [] store
  | cons {store middle later : Location → Option Content} {content : Content}
      {outcome : Option Bool} {events : List (Content × Option Bool)}
      (heffect : Effect address content store middle outcome)
      (hrest : Session middle events later) : Session store ((content, outcome) :: events) later

def returnedFor (events : List (Content × Option Bool)) : Set Content :=
  {content | ∃ created, (content, some created) ∈ events}

structure Represents (contents : List Content) (store : Location → Option Content)
    (stored : Set Content) : Prop where
  held : ∀ content ∈ contents, content ∈ stored → store (address content) = some content
  absent : ∀ content ∈ contents, content ∉ stored → store (address content) = none

variable {address} {contents : List Content} {stored : Set Content} {content : Content}
  {store middle later : Location → Option Content} {outcome : Option Bool}
  {events : List (Content × Option Bool)}

theorem Effect.keeps (h : Effect address content store later outcome) {place : Location}
    {held : Content} (hplace : store place = some held) : later place = some held := by
  cases h with
  | cut hkept _ => exact hkept place held hplace
  | present _ hsame => rw [hsame, hplace]
  | created habsent _ hkept =>
    have hne : place ≠ address content := by
      rintro rfl
      rw [habsent] at hplace
      cases hplace
    rw [hkept place hne, hplace]

theorem Session.keeps (h : Session address store events later) {place : Location}
    {held : Content} (hplace : store place = some held) : later place = some held := by
  induction h with
  | nil => exact hplace
  | cons heffect _ ih => exact ih (heffect.keeps hplace)

theorem Effect.held {created : Bool}
    (h : Effect address content store later (some created)) :
    later (address content) = some content := by
  cases h with
  | present hheld hsame => rw [hsame, hheld]
  | created _ hheld _ => exact hheld

theorem Represents.sound (h : Represents address contents store stored)
    (hcontent : content ∈ contents) {held : Content}
    (hheld : store (address content) = some held) : held = content := by
  by_cases hstored : content ∈ stored
  · exact Option.some.inj (hheld.symm.trans (h.held content hcontent hstored))
  · rw [h.absent content hcontent hstored] at hheld
    cases hheld

theorem Represents.created_iff (h : Represents address contents store stored)
    (hcontent : content ∈ contents) {created : Bool}
    (heffect : Effect address content store later (some created)) :
    created = true ↔ content ∉ stored := by
  cases heffect with
  | present hheld _ =>
    refine iff_of_false Bool.false_ne_true fun hstored => ?_
    rw [h.absent content hcontent hstored] at hheld
    cases hheld
  | created habsent _ _ =>
    refine iff_of_true rfl fun hstored => ?_
    rw [h.held content hcontent hstored] at habsent
    cases habsent

section Step

variable (hfree : CollisionFree address contents)
include hfree

theorem Represents.step (h : Represents address contents store stored)
    (hcontent : content ∈ contents) (heffect : Effect address content store later outcome) :
    Represents address contents later (stored ∪ returnedFor [(content, outcome)]) := by
  cases heffect with
  | cut _ hnone =>
    have hunchanged : stored ∪ returnedFor [(content, none)] = stored := by
      simp [returnedFor]
    rw [hunchanged]
    exact ⟨fun other hother hstored => hnone other ▸ h.held other hother hstored,
      fun other hother hstored => hnone other ▸ h.absent other hother hstored⟩
  | present hheld hsame =>
    subst hsame
    refine ⟨fun other hother hstored => ?_, fun other hother hstored => ?_⟩
    · rcases hstored with hstored | ⟨created, hevent⟩
      · exact h.held other hother hstored
      · obtain ⟨rfl, -⟩ := Prod.mk.inj (List.mem_singleton.mp hevent)
        exact hheld
    · exact h.absent other hother fun hmem => hstored (.inl hmem)
  | created habsent hheld hkept =>
    refine ⟨fun other hother hstored => ?_, fun other hother hstored => ?_⟩
    · rcases hstored with hstored | ⟨created, hevent⟩
      · have hplace := h.held other hother hstored
        exact (Effect.created habsent hheld hkept).keeps hplace
      · obtain ⟨rfl, -⟩ := Prod.mk.inj (List.mem_singleton.mp hevent)
        exact hheld
    · have hne : address other ≠ address content := by
        intro heq
        obtain rfl := hfree.eq hother hcontent heq
        exact hstored (.inr ⟨true, List.mem_singleton.mpr rfl⟩)
      rw [hkept _ hne]
      exact h.absent other hother fun hmem => hstored (.inl hmem)

theorem Represents.run (h : Represents address contents store stored)
    (hsession : Session address store events later)
    (hcontents : ∀ event ∈ events, event.1 ∈ contents) :
    Represents address contents later (stored ∪ returnedFor events) := by
  induction hsession generalizing stored with
  | nil =>
    have hunchanged : stored ∪ returnedFor [] = stored := by simp [returnedFor]
    rw [hunchanged]
    exact h
  | @cons store middle later content outcome events heffect hrest ih =>
    have hnext := h.step hfree (hcontents _ List.mem_cons_self) heffect
    have hlater := ih hnext fun event hevent => hcontents event (List.mem_cons_of_mem _ hevent)
    have hsplit : returnedFor ((content, outcome) :: events) =
        returnedFor [(content, outcome)] ∪ returnedFor events := by
      ext other
      simp [returnedFor, exists_or]
    rw [hsplit, ← Set.union_assoc]
    exact hlater

end Step

theorem represents_empty (address : Content → Location) (hempty : ∀ content, store (address content) = none) :
    Represents address contents store ∅ :=
  ⟨fun _ _ hstored => hstored.elim, fun content _ _ => hempty content⟩

end LandRecords.ContentAddressed
