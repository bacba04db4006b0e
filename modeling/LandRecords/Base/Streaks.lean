import Mathlib

/-! A list cut where neighbours are apart, while it grows at its end. -/
namespace LandRecords

variable {α : Type*} {near : α → α → Bool} {xs : List α} {x y : α}

theorem forall₂_concat_left {β : Type*} {R : α → β → Prop} {bs : List β}
    (h : List.Forall₂ R (xs ++ [x]) bs) :
    ∃ before b, bs = before ++ [b] ∧ List.Forall₂ R xs before ∧ R x b := by
  rw [← List.forall₂_reverse_iff, List.reverse_concat] at h
  obtain ⟨b, rest, hlast, hrest, hbs⟩ := List.forall₂_cons_left_iff.mp h
  refine ⟨rest.reverse, b, ?_, ?_, hlast⟩
  · rw [← List.reverse_cons, ← hbs, List.reverse_reverse]
  · rw [← List.forall₂_reverse_iff, List.reverse_reverse]
    exact hrest

theorem splitBy_concat_apart (h : ∀ y ∈ xs.getLast?, near y x = false) :
    (xs ++ [x]).splitBy near = xs.splitBy near ++ [[x]] := by
  have happend : (xs ++ [x]).splitBy near = xs.splitBy near ++ [x].splitBy near := by
    apply List.splitBy_append
    intro y hy z hz
    obtain rfl : x = z := Option.some.inj hz
    exact h y hy
  rw [happend]
  rfl

theorem splitBy_concat_near {parts : List (List α)} {last : List α}
    (hparts : xs.splitBy near = parts ++ [last]) (hlast : xs.getLast? = some y)
    (h : near y x = true) : (xs ++ [x]).splitBy near = parts ++ [last ++ [x]] := by
  obtain ⟨hflatten, hnil, hchain, happart⟩ := List.splitBy_eq_iff.mp hparts
  have hne : last ≠ [] := by
    rintro rfl
    exact hnil (List.mem_append_right _ List.mem_cons_self)
  have hend : last.getLast? = some y := by
    rw [hflatten, List.flatten_append, List.getLast?_append] at hlast
    rw [List.flatten_singleton, List.getLast?_eq_some_getLast hne] at hlast
    rw [List.getLast?_eq_some_getLast hne]
    exact hlast
  rw [List.splitBy_eq_iff]
  refine ⟨?_, ?_, ?_, ?_⟩
  · rw [hflatten, List.flatten_append, List.flatten_append, List.append_assoc]
    simp only [List.flatten_cons, List.flatten_nil, List.append_nil]
  · intro hmem
    rcases List.mem_append.mp hmem with hpart | hlastPart
    · exact hnil (List.mem_append_left _ hpart)
    · have := List.mem_singleton.mp hlastPart
      exact absurd this.symm (List.append_ne_nil_of_right_ne_nil _ (List.cons_ne_nil _ _))
  · intro part hpart
    rcases List.mem_append.mp hpart with hbefore | hlastPart
    · exact hchain part (List.mem_append_left _ hbefore)
    · obtain rfl := List.mem_singleton.mp hlastPart
      apply List.IsChain.append (hchain last (List.mem_append_right _ List.mem_cons_self))
        (List.isChain_singleton x)
      intro z hz w hw
      obtain rfl : y = z := Option.some.inj (hend.symm.trans hz)
      obtain rfl : x = w := Option.some.inj hw
      exact h
  · obtain ⟨hbefore, -, hborder⟩ := List.isChain_append.mp happart
    apply List.IsChain.append hbefore (List.isChain_singleton _)
    intro part hpart next hnext
    obtain rfl : last ++ [x] = next := Option.some.inj hnext
    obtain ⟨ha, hb, happart⟩ := hborder part hpart last rfl
    refine ⟨ha, List.append_ne_nil_of_left_ne_nil hb _, ?_⟩
    rw [List.head_append_of_ne_nil hb]
    exact happart

end LandRecords
