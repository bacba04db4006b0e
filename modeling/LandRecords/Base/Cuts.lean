import Mathlib

/-! Cuts along a line. From a set of coordinates the least one is kept, and after each kept
one the next that is far enough away; neighbouring cuts bound the strips of a grid. -/
namespace LandRecords.Cuts

variable {K : Type*} [LinearOrder K]

/-- `sorted(set(coords))`. -/
def sortedSet (coords : List K) : List K := coords.dedup.insertionSort (· ≤ ·)

@[simp] theorem mem_sortedSet {coords : List K} {c : K} : c ∈ sortedSet coords ↔ c ∈ coords := by
  rw [sortedSet, List.mem_insertionSort, List.mem_dedup]

theorem sortedSet_increasing (coords : List K) : (sortedSet coords).Pairwise (· < ·) := by
  have hsorted := List.pairwise_insertionSort (fun a b : K => a ≤ b) coords.dedup
  have hnodup : (sortedSet coords).Nodup :=
    (List.perm_insertionSort _ _).nodup_iff.mpr coords.nodup_dedup
  exact hsorted.imp₂ (fun _ _ hle hne => lt_of_le_of_ne hle hne) hnodup

theorem exists_between (mark : ℕ → K) {n : ℕ} {v : K} (hfirst : mark 0 ≤ v)
    (hlast : v ≤ mark (n + 1)) : ∃ i ≤ n, mark i ≤ v ∧ v ≤ mark (i + 1) := by
  induction n with
  | zero => exact ⟨0, le_rfl, hfirst, hlast⟩
  | succ n ih =>
    by_cases hbefore : v ≤ mark (n + 1)
    · obtain ⟨i, hi, hbetween⟩ := ih hbefore
      exact ⟨i, Nat.le_succ_of_le hi, hbetween⟩
    · exact ⟨n + 1, le_rfl, le_of_not_ge hbefore, hlast⟩

/-- The strips of sorted bounds cover what lies between some two of the bounds. -/
theorem exists_strip_iff {bounds : List K} (hsorted : bounds.Pairwise (· ≤ ·))
    (hlength : 2 ≤ bounds.length) (default v : K) :
    (∃ i < bounds.length - 1, bounds.getD i default ≤ v ∧ v ≤ bounds.getD (i + 1) default) ↔
      (∃ low ∈ bounds, low ≤ v) ∧ ∃ high ∈ bounds, v ≤ high := by
  have hmem : ∀ i < bounds.length, bounds.getD i default ∈ bounds := by
    intro i hi
    rw [List.getD_eq_getElem _ _ hi]
    exact List.getElem_mem hi
  have hmono : ∀ i j, i ≤ j → j < bounds.length → bounds.getD i default ≤ bounds.getD j default := by
    intro i j hij hj
    rw [List.getD_eq_getElem _ _ (hij.trans_lt hj), List.getD_eq_getElem _ _ hj]
    rcases hij.eq_or_lt with rfl | hlt
    · exact le_rfl
    · exact List.pairwise_iff_getElem.mp hsorted i j _ hj hlt
  constructor
  · rintro ⟨i, hi, hlow, hhigh⟩
    exact ⟨⟨_, hmem i (by omega), hlow⟩, ⟨_, hmem (i + 1) (by omega), hhigh⟩⟩
  · rintro ⟨⟨low, hlow, hle⟩, high, hhigh, hge⟩
    obtain ⟨i, hi, rfl⟩ := List.getElem_of_mem hlow
    obtain ⟨j, hj, rfl⟩ := List.getElem_of_mem hhigh
    rw [← List.getD_eq_getElem _ default hi] at hle
    rw [← List.getD_eq_getElem _ default hj] at hge
    have hfirst := (hmono 0 i (Nat.zero_le i) hi).trans hle
    have hlast := hge.trans (hmono j (bounds.length - 2 + 1) (by omega) (by omega))
    obtain ⟨k, hk, hbetween⟩ := exists_between (fun i => bounds.getD i default) hfirst hlast
    exact ⟨k, by omega, hbetween⟩

theorem le_countP_lt_iff {marks : List K} (hincreasing : marks.Pairwise (· < ·)) {j : ℕ}
    (hj : j < marks.length) (e : K) : j + 1 ≤ marks.countP (· < e) ↔ marks[j] < e := by
  induction marks generalizing j with
  | nil => simp at hj
  | cons m marks ih =>
    rw [List.pairwise_cons] at hincreasing
    by_cases hm : m < e
    · rw [List.countP_cons_of_pos (by simpa using hm)]
      cases j with
      | zero => simp [hm]
      | succ j =>
        rw [List.getElem_cons_succ, ← ih hincreasing.2 (by simpa using hj)]
        omega
    · have hnone : ∀ x ∈ m :: marks, ¬ x < e := by
        rw [List.forall_mem_cons]
        exact ⟨hm, fun x hx hxe => hm ((hincreasing.1 x hx).trans hxe)⟩
      have hzero : (m :: marks).countP (· < e) = 0 := by
        rw [List.countP_eq_zero]
        simpa using hnone
      have hmark := hnone _ (List.getElem_mem hj)
      simp [hzero, hmark]

theorem le_countP_between_iff {marks : List K} (hincreasing : marks.Pairwise (· < ·)) {c i : ℕ}
    (hi : 0 < i) (hlength : c + i < marks.length) (default e : K) :
    i ≤ marks.countP (fun x => marks.getD c default < x && x < e) ↔
      marks.getD (c + i) default < e := by
  have hc : c < marks.length := by omega
  have hsplit := hincreasing
  rw [← List.take_append_drop (c + 1) marks, List.pairwise_append] at hsplit
  have hlast : marks[c] ∈ marks.take (c + 1) := by
    rw [List.take_succ_eq_append_getElem hc]
    exact List.mem_append_right _ (List.mem_singleton_self _)
  have hbefore : (marks.take (c + 1)).countP (fun x => marks[c] < x && x < e) = 0 := by
    rw [List.countP_eq_zero]
    intro x hx
    have hle : x ≤ marks[c] := by
      rw [List.take_succ_eq_append_getElem hc] at hx hsplit
      rcases List.mem_append.mp hx with hmem | hmem
      · exact ((List.pairwise_append.mp hsplit.1).2.2 x hmem _ (List.mem_singleton_self _)).le
      · exact (List.mem_singleton.mp hmem).le
    simp [hle.not_gt]
  have hafter : (marks.drop (c + 1)).countP (fun x => marks[c] < x && x < e) =
      (marks.drop (c + 1)).countP (· < e) := by
    apply List.countP_congr
    intro x hx
    simp [hsplit.2.2 _ hlast x hx]
  rw [List.getD_eq_getElem _ _ hc, List.getD_eq_getElem _ _ hlength]
  obtain ⟨j, rfl⟩ : ∃ j, i = j + 1 := ⟨i - 1, by omega⟩
  have hj : j < (marks.drop (c + 1)).length := by
    rw [List.length_drop]
    omega
  have hcount := le_countP_lt_iff hsplit.2.1 hj e
  rw [List.getElem_drop] at hcount
  have hwhole : marks.countP (fun x => marks[c] < x && x < e) =
      (marks.drop (c + 1)).countP (· < e) := by
    rw [← hafter, ← Nat.zero_add (List.countP _ (marks.drop (c + 1))), ← hbefore,
      ← List.countP_append, List.take_append_drop]
  have hindex : c + (j + 1) = c + 1 + j := by omega
  simp only [hwhole, hcount, hindex]

section Clusters

variable {α : Type*} (Away : α → α → Prop) [DecidableRel Away]

def clusterFrom (last : α) : List α → List α
  | [] => []
  | c :: cs => if Away last c then c :: clusterFrom c cs else clusterFrom last cs

def cluster : List α → List α
  | [] => []
  | c :: cs => c :: clusterFrom Away c cs

variable {Away}

theorem clusterFrom_sublist (last : α) (coords : List α) :
    (clusterFrom Away last coords).Sublist coords := by
  induction coords generalizing last with
  | nil => exact List.Sublist.refl _
  | cons c cs ih =>
    rw [clusterFrom]
    split
    · exact (ih c).cons_cons c
    · exact (ih last).cons c

theorem cluster_sublist (coords : List α) : (cluster Away coords).Sublist coords := by
  cases coords with
  | nil => exact List.Sublist.refl _
  | cons c cs => exact (clusterFrom_sublist c cs).cons_cons c

theorem clusterFrom_congr {Away' : α → α → Prop} [DecidableRel Away']
    (h : ∀ last c, Away last c ↔ Away' last c) (last : α) (coords : List α) :
    clusterFrom Away last coords = clusterFrom Away' last coords := by
  induction coords generalizing last with
  | nil => rfl
  | cons c cs ih => simp only [clusterFrom, h, ih]

theorem cluster_congr {Away' : α → α → Prop} [DecidableRel Away']
    (h : ∀ last c, Away last c ↔ Away' last c) (coords : List α) :
    cluster Away coords = cluster Away' coords := by
  cases coords with
  | nil => rfl
  | cons c cs => exact congrArg (List.cons c) (clusterFrom_congr h c cs)

end Clusters

section Tolerance

variable [AddCommGroup K]

def Tolerant (tolerance last c : K) : Prop := tolerance ≤ c - last

instance (tolerance : K) : DecidableRel (Tolerant tolerance) := fun last c =>
  inferInstanceAs (Decidable (tolerance ≤ c - last))

inductive IsCut (tolerance : K) (coords : List K) : K → Prop where
  | least {c : K} (mem : c ∈ coords) (le : ∀ d ∈ coords, c ≤ d) : IsCut tolerance coords c
  | next {c d : K} (cut : IsCut tolerance coords c) (mem : d ∈ coords) (away : tolerance ≤ d - c)
      (le : ∀ e ∈ coords, tolerance ≤ e - c → d ≤ e) : IsCut tolerance coords d

variable {tolerance : K}

theorem IsCut.mem {c : K} {coords : List K} (h : IsCut tolerance coords c) : c ∈ coords := by
  cases h with
  | least mem => exact mem
  | next _ mem => exact mem

theorem IsCut.congr {c : K} {coords coords' : List K} (hsame : ∀ d, d ∈ coords ↔ d ∈ coords')
    (h : IsCut tolerance coords c) : IsCut tolerance coords' c := by
  induction h with
  | least mem le => exact .least ((hsame _).mp mem) fun d hd => le d ((hsame d).mpr hd)
  | next _ mem away le ih =>
    exact .next ih ((hsame _).mp mem) away fun e he => le e ((hsame e).mpr he)

variable [IsOrderedAddMonoid K]

/-- The loop keeps cuts only, as long as what is a tolerance away from the last is ahead. -/
theorem isCut_of_mem_clusterFrom (htolerance : 0 < tolerance) {all coords : List K} {last : K}
    (hincreasing : (last :: coords).Pairwise (· < ·)) (hsub : coords ⊆ all)
    (hlast : IsCut tolerance all last)
    (hahead : ∀ e ∈ all, tolerance ≤ e - last → e ∈ coords) :
    ∀ c ∈ clusterFrom (Tolerant tolerance) last coords, IsCut tolerance all c := by
  induction coords generalizing last with
  | nil => simp [clusterFrom]
  | cons d cs ih =>
    rw [List.pairwise_cons, List.pairwise_cons, List.forall_mem_cons] at hincreasing
    obtain ⟨⟨hlt, hlts⟩, hd, hcs⟩ := hincreasing
    rw [List.cons_subset] at hsub
    rw [clusterFrom]
    split
    · rename_i haway
      have hcut : IsCut tolerance all d := by
        refine .next hlast hsub.1 haway fun e he heaway => ?_
        rcases List.mem_cons.mp (hahead e he heaway) with rfl | hmem
        · exact le_rfl
        · exact (hd e hmem).le
      rw [List.forall_mem_cons]
      refine ⟨hcut, ih (List.pairwise_cons.mpr ⟨hd, hcs⟩) hsub.2 hcut fun e he heaway => ?_⟩
      have hfar : tolerance ≤ e - last := heaway.trans (sub_le_sub_left hlt.le e)
      rcases List.mem_cons.mp (hahead e he hfar) with rfl | hmem
      · rw [sub_self] at heaway
        exact absurd heaway htolerance.not_ge
      · exact hmem
    · rename_i hnear
      refine ih (List.pairwise_cons.mpr ⟨hlts, hcs⟩) hsub.2 hlast fun e he heaway => ?_
      rcases List.mem_cons.mp (hahead e he heaway) with rfl | hmem
      · exact absurd heaway hnear
      · exact hmem

theorem next_mem_clusterFrom (htolerance : 0 < tolerance) {coords : List K} {last c d : K}
    (hincreasing : (last :: coords).Pairwise (· < ·))
    (hc : c ∈ last :: clusterFrom (Tolerant tolerance) last coords) (hd : d ∈ coords)
    (haway : tolerance ≤ d - c) (hle : ∀ e ∈ coords, tolerance ≤ e - c → d ≤ e) :
    d ∈ clusterFrom (Tolerant tolerance) last coords := by
  induction coords generalizing last with
  | nil => simp at hd
  | cons x cs ih =>
    rw [List.pairwise_cons, List.pairwise_cons, List.forall_mem_cons] at hincreasing
    obtain ⟨⟨hlt, hlts⟩, hx, hcs⟩ := hincreasing
    rw [List.forall_mem_cons] at hle
    have hbeyond : c < d := sub_pos.mp (htolerance.trans_le haway)
    rw [clusterFrom] at hc ⊢
    split at hc
    · rename_i hxaway
      rw [if_pos hxaway]
      rcases List.mem_cons.mp hc with rfl | hkept
      · -- the first coordinate ahead is the least one away
        rcases List.mem_cons.mp hd with rfl | hmem
        · exact List.mem_cons_self ..
        · exact absurd (hle.1 hxaway) (hx d hmem).not_ge
      · have hxc : x ≤ c := by
          rcases List.mem_cons.mp hkept with rfl | hmem
          · exact le_rfl
          · exact (hx c ((clusterFrom_sublist x cs).subset hmem)).le
        have hd' : d ∈ cs := by
          rcases List.mem_cons.mp hd with rfl | hmem
          · exact absurd hxc hbeyond.not_ge
          · exact hmem
        exact List.mem_cons_of_mem _ (ih (List.pairwise_cons.mpr ⟨hx, hcs⟩) hkept hd' hle.2)
    · rename_i hnear
      rw [if_neg hnear]
      have hd' : d ∈ cs := by
        rcases List.mem_cons.mp hd with rfl | hmem
        · rcases List.mem_cons.mp hc with rfl | hkept
          · exact absurd haway hnear
          · exact absurd (hx c ((clusterFrom_sublist last cs).subset hkept)) hbeyond.not_gt
        · exact hmem
      exact ih (List.pairwise_cons.mpr ⟨hlts, hcs⟩) hc hd' hle.2

theorem mem_cluster_iff (htolerance : 0 < tolerance) {coords : List K} {c : K}
    (hincreasing : coords.Pairwise (· < ·)) :
    c ∈ cluster (Tolerant tolerance) coords ↔ IsCut tolerance coords c := by
  cases coords with
  | nil =>
    constructor
    · simp [cluster]
    · intro h
      exact absurd h.mem (by simp)
  | cons first cs =>
    have hfirst := (List.pairwise_cons.mp hincreasing).1
    have hleast : IsCut tolerance (first :: cs) first := by
      refine .least (List.mem_cons_self ..) fun d hd => ?_
      rcases List.mem_cons.mp hd with rfl | hmem
      · exact le_rfl
      · exact (hfirst d hmem).le
    rw [cluster]
    constructor
    · intro h
      rcases List.mem_cons.mp h with rfl | hkept
      · exact hleast
      · refine isCut_of_mem_clusterFrom htolerance hincreasing (List.subset_cons_self ..) hleast ?_ c
          hkept
        intro e he haway
        rcases List.mem_cons.mp he with rfl | hmem
        · rw [sub_self] at haway
          exact absurd haway htolerance.not_ge
        · exact hmem
    · intro h
      induction h with
      | least mem le =>
        rcases List.mem_cons.mp mem with rfl | hmem
        · exact List.mem_cons_self ..
        · exact absurd (le first (List.mem_cons_self ..)) (hfirst _ hmem).not_ge
      | @next c d _ mem away le ih =>
        have hbeyond : c < d := sub_pos.mp (htolerance.trans_le away)
        have hd : d ∈ cs := by
          rcases List.mem_cons.mp mem with rfl | hmem
          · rcases List.mem_cons.mp ih with rfl | hkept
            · exact absurd hbeyond (lt_irrefl _)
            · exact absurd (hfirst c ((clusterFrom_sublist d cs).subset hkept)) hbeyond.not_gt
          · exact hmem
        refine List.mem_cons_of_mem _ (next_mem_clusterFrom htolerance hincreasing ih hd away ?_)
        exact fun e he heaway => le e (List.mem_cons_of_mem _ he) heaway

omit [IsOrderedAddMonoid K] in
theorem clusterFrom_eq_nil_iff {last : K} {coords : List K} :
    clusterFrom (Tolerant tolerance) last coords = [] ↔ ∀ e ∈ coords, e - last < tolerance := by
  induction coords with
  | nil => simp [clusterFrom]
  | cons c cs ih =>
    rw [clusterFrom, List.forall_mem_cons]
    split
    · rename_i haway
      simp [not_lt.mpr (show tolerance ≤ c - last from haway)]
    · rename_i hnear
      simp [ih, not_le.mp (show ¬ tolerance ≤ c - last from hnear)]

theorem length_cluster_lt_two_iff (htolerance : 0 < tolerance) {coords : List K}
    (hincreasing : coords.Pairwise (· < ·)) :
    (cluster (Tolerant tolerance) coords).length < 2 ↔ ∀ d ∈ coords, ∀ e ∈ coords, e - d < tolerance := by
  cases coords with
  | nil => simp [cluster]
  | cons first cs =>
    have hfirst := (List.pairwise_cons.mp hincreasing).1
    have hnil : (cluster (Tolerant tolerance) (first :: cs)).length < 2 ↔
        ∀ e ∈ cs, e - first < tolerance := by
      rw [← clusterFrom_eq_nil_iff, cluster, List.length_cons, ← List.length_eq_zero_iff]
      omega
    rw [hnil]
    constructor
    · intro h d hd e he
      have hle : first ≤ d := by
        rcases List.mem_cons.mp hd with rfl | hmem
        · exact le_rfl
        · exact (hfirst d hmem).le
      refine (sub_le_sub_left hle e).trans_lt ?_
      rcases List.mem_cons.mp he with rfl | hmem
      · rwa [sub_self]
      · exact h e hmem
    · intro h e he
      exact h first (List.mem_cons_self ..) e (List.mem_cons_of_mem _ he)

end Tolerance

end LandRecords.Cuts
