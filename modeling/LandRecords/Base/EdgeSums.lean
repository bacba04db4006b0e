import Mathlib

/-! Sums over the edges of a path and around a ring, with weights in a commutative group. Where
an edge has opposite weights in its two directions, a ring has the same sum from any start and
the opposite one in reverse, and a chord splits the sum. A parity is a sum of bits. -/
namespace LandRecords.EdgeSums

variable {α G : Type*}

def closed (vertices : List α) : List α := vertices ++ vertices.take 1

@[simp] theorem closed_cons (a : α) (vertices : List α) :
    closed (a :: vertices) = a :: vertices ++ [a] := rfl

def edges (path : List α) : List (α × α) := path.zip path.tail

@[simp] theorem edges_singleton (a : α) : edges [a] = [] := rfl

@[simp] theorem edges_cons_cons (a b : α) (path : List α) :
    edges (a :: b :: path) = (a, b) :: edges (b :: path) := rfl

theorem dropLast_closed (vertices : List α) : (closed vertices).dropLast = vertices := by
  cases vertices with
  | nil => rfl
  | cons a path => rw [closed_cons, List.dropLast_concat]

theorem mem_closed {a : α} {vertices : List α} : a ∈ closed vertices ↔ a ∈ vertices := by
  cases vertices with
  | nil => rfl
  | cons b vertices =>
    simp only [closed_cons, List.mem_append, List.mem_cons]
    tauto

theorem mem_of_mem_edges {e : α × α} {vertices : List α} (h : e ∈ edges (closed vertices)) :
    e.1 ∈ vertices ∧ e.2 ∈ vertices := by
  obtain ⟨hfst, hsnd⟩ := List.of_mem_zip h
  exact ⟨mem_closed.mp hfst, mem_closed.mp (List.mem_of_mem_tail hsnd)⟩

theorem edges_append (a : α) (path path' : List α) :
    edges (path ++ a :: path') = edges (path ++ [a]) ++ edges (a :: path') := by
  induction path with
  | nil => rfl
  | cons b path ih =>
    cases path with
    | nil => rfl
    | cons c path =>
      simp only [List.cons_append, edges_cons_cons] at ih ⊢
      rw [ih]

theorem edges_closed_perm (path path' : List α) :
    (edges (closed (path ++ path'))).Perm (edges (closed (path' ++ path))) := by
  cases path with
  | nil => rw [List.nil_append, List.append_nil]
  | cons a path =>
    cases path' with
    | nil => rw [List.nil_append, List.append_nil]
    | cons b path' =>
      have hfirst : closed (a :: path ++ b :: path') = a :: path ++ b :: (path' ++ [a]) := by
        simp [closed]
      have hsecond : closed (b :: path' ++ a :: path) = b :: path' ++ a :: (path ++ [b]) := by
        simp [closed]
      rw [hfirst, hsecond, edges_append b, edges_append a]
      exact List.perm_append_comm

theorem edges_closed_isRotated {vertices vertices' : List α} (h : vertices ~r vertices') :
    (edges (closed vertices)).Perm (edges (closed vertices')) := by
  obtain ⟨n, hn, rfl⟩ := List.isRotated_iff_mod.mp h
  have hperm := edges_closed_perm (vertices.take n) (vertices.drop n)
  rwa [List.take_append_drop, ← List.rotate_eq_drop_append_take hn] at hperm

theorem mem_edges_iff {e : α × α} {path : List α} :
    e ∈ edges path ↔ ∃ before after, path = before ++ e.1 :: e.2 :: after := by
  constructor
  · intro h
    induction path with
    | nil => cases h
    | cons a path ih =>
      cases path with
      | nil => cases h
      | cons b path =>
        rw [edges_cons_cons, List.mem_cons] at h
        rcases h with rfl | h
        · exact ⟨[], path, rfl⟩
        · obtain ⟨before, after, hpath⟩ := ih h
          exact ⟨a :: before, after, by rw [hpath, List.cons_append]⟩
  · rintro ⟨before, after, rfl⟩
    rw [edges_append, edges_cons_cons]
    exact List.mem_append_right _ (List.mem_cons_self ..)

theorem swap_mem_edges_reverse {e : α × α} {path : List α} (h : e ∈ edges path) :
    e.swap ∈ edges path.reverse := by
  obtain ⟨before, after, rfl⟩ := mem_edges_iff.mp h
  exact mem_edges_iff.mpr ⟨after.reverse, before.reverse, by simp⟩

theorem mem_edges_closed_iff {e : α × α} {vertices : List α} (hlength : 2 ≤ vertices.length) :
    e ∈ edges (closed vertices) ↔ ∃ path, e.1 :: e.2 :: path ~r vertices := by
  constructor
  · intro h
    obtain ⟨before, after, hpath⟩ := mem_edges_iff.mp h
    cases vertices with
    | nil => simp at hlength
    | cons a vertices =>
      cases after using List.reverseRecOn with
      | nil =>
        -- the closing edge
        have hend : a :: vertices ++ [a] = before ++ [e.1] ++ [e.2] := by
          rw [← closed_cons, hpath, List.append_assoc]
          rfl
        obtain ⟨hvertices, ha⟩ := List.append_inj' hend rfl
        rw [List.singleton_inj] at ha
        cases before with
        | nil =>
          rw [hvertices] at hlength
          simp at hlength
        | cons b before =>
          rw [List.cons_append, List.cons.injEq] at hvertices
          refine ⟨before, ?_⟩
          rw [← ha, hvertices.2]
          exact (List.isRotated_concat e.1 (a :: before)).symm
      | append_singleton after z =>
        have hend : a :: vertices ++ [a] = before ++ e.1 :: e.2 :: after ++ [z] := by
          rw [← closed_cons, hpath, List.append_assoc]
          rfl
        obtain ⟨hvertices, -⟩ := List.append_inj' hend rfl
        have hrotated : before ++ e.1 :: e.2 :: after ~r e.1 :: e.2 :: after ++ before :=
          List.isRotated_append
        rw [hvertices]
        exact ⟨after ++ before, hrotated.symm⟩
  · rintro ⟨path, hrotated⟩
    refine (edges_closed_isRotated hrotated).subset ?_
    rw [closed_cons, List.cons_append, List.cons_append, edges_cons_cons]
    exact List.mem_cons_self ..

theorem map_fst_edges (path : List α) (z : α) : (edges (path ++ [z])).map Prod.fst = path := by
  induction path with
  | nil => rfl
  | cons a path ih =>
    cases path with
    | nil => rfl
    | cons b path =>
      rw [List.cons_append, List.cons_append, edges_cons_cons, List.map_cons, ← List.cons_append, ih]

theorem exists_edge_of_mem {a : α} {vertices : List α} (h : a ∈ vertices) :
    ∃ e ∈ edges (closed vertices), e.1 = a := by
  cases vertices with
  | nil => cases h
  | cons b vertices =>
    rw [closed_cons, ← List.mem_map (f := Prod.fst), map_fst_edges]
    exact h

theorem edge_cases {a b c : α} {path vertices : List α} (h : a :: b :: c :: path ~r vertices)
    {e : α × α} (he : e ∈ edges (closed vertices)) :
    e = (a, b) ∨ e = (b, c) ∨ e ∈ edges (c :: path ++ [a]) := by
  rw [← (edges_closed_isRotated h).mem_iff, closed_cons, List.cons_append, List.cons_append,
    edges_cons_cons, List.cons_append, edges_cons_cons, List.mem_cons, List.mem_cons] at he
  exact he

theorem exists_rotated_of_mem {a : α} {vertices : List α} (h : a ∈ vertices) :
    ∃ path, a :: path ~r vertices := by
  obtain ⟨before, after, rfl⟩ := List.append_of_mem h
  have hrotated : before ++ a :: after ~r a :: after ++ before := List.isRotated_append
  exact ⟨after ++ before, hrotated.symm⟩

theorem rotate_one {a b : α} {path vertices : List α} (h : a :: b :: path ~r vertices) :
    b :: (path ++ [a]) ~r vertices :=
  (List.isRotated_concat a (b :: path)).trans h

/-! ### Edges that are no neighbours -/

theorem length_edges (path : List α) : (edges path).length = path.length - 1 := by
  simp [edges]

theorem edges_concat {path : List α} (hne : path ≠ []) (a : α) :
    ∃ z, edges (path ++ [a]) = edges path ++ [(z, a)] := by
  cases path using List.reverseRecOn with
  | nil => exact absurd rfl hne
  | append_singleton path z =>
    refine ⟨z, ?_⟩
    rw [List.append_assoc, List.singleton_append, edges_append]
    rfl

theorem edges_closed_eq_zip (vertices : List α) :
    edges (closed vertices) = vertices.zip (vertices.rotate 1) := by
  cases vertices with
  | nil => rfl
  | cons a path =>
    have hzip := @List.zip_append α α (a :: path) [a] (path ++ [a]) [] (by simp)
    rw [List.zip_nil_right, List.append_nil, List.append_nil] at hzip
    rw [List.rotate_cons_succ, List.rotate_zero]
    exact hzip

theorem edges_closed_rotate (vertices : List α) (n : ℕ) :
    edges (closed (vertices.rotate n)) = (edges (closed vertices)).rotate n := by
  have hzip := List.zipWith_rotate_distrib Prod.mk vertices (vertices.rotate 1) n (by simp)
  rw [List.rotate_rotate, add_comm, ← List.rotate_rotate] at hzip
  rw [edges_closed_eq_zip, edges_closed_eq_zip]
  exact hzip.symm

theorem length_edges_closed (vertices : List α) :
    (edges (closed vertices)).length = vertices.length := by
  rw [edges_closed_eq_zip, List.length_zip, List.length_rotate, min_self]

theorem edges_closed_split (a b c : α) (path : List α) : ∃ z,
    edges (closed (a :: b :: c :: path)) = (a, b) :: (b, c) :: (edges (c :: path) ++ [(z, a)]) := by
  obtain ⟨z, hz⟩ := edges_concat (List.cons_ne_nil c path) a
  refine ⟨z, ?_⟩
  rw [← hz]
  rfl

theorem exists_apart_iff {R : α × α → α × α → Prop} (hsymm : ∀ e f, R e f → R f e)
    {vertices : List α} :
    (∃ i j e f, (edges (closed vertices))[i]? = some e ∧ (edges (closed vertices))[j]? = some f ∧
      i + 2 ≤ j ∧ ¬ (i = 0 ∧ j = vertices.length - 1) ∧ R e f) ↔
    ∃ a b c path, a :: b :: c :: path ~r vertices ∧ ∃ e ∈ edges (c :: path), R (a, b) e := by
  have hplace : ∀ n k, k < vertices.length → (edges (closed (vertices.rotate n)))[k]? =
      (edges (closed vertices))[(k + n) % vertices.length]? := by
    intro n k hk
    rw [edges_closed_rotate, List.getElem?_rotate (by rwa [length_edges_closed]),
      length_edges_closed]
  constructor
  · rintro ⟨i, j, e, f, he, hf, hij, hends, hR⟩
    have hj : j < vertices.length := by
      rw [← length_edges_closed]
      exact (List.getElem?_eq_some_iff.mp hf).1
    have hlength : (vertices.rotate i).length = vertices.length := List.length_rotate ..
    match hrotate : vertices.rotate i, hlength with
    | [], hlength | [_], hlength | [_, _], hlength => simp at hlength; omega
    | a :: b :: c :: path, hlength =>
      obtain ⟨z, hz⟩ := edges_closed_split a b c path
      have hfirst := hplace i 0 (by omega)
      have hsecond := hplace i (j - i) (by omega)
      rw [hrotate, hz, zero_add, Nat.mod_eq_of_lt (by omega), he] at hfirst
      rw [hrotate, hz, Nat.sub_add_cancel (by omega), Nat.mod_eq_of_lt hj, hf] at hsecond
      obtain rfl : (a, b) = e := Option.some.inj hfirst
      obtain ⟨m, hm⟩ : ∃ m, j - i = m + 2 := ⟨j - i - 2, by omega⟩
      have hinner : m < (edges (c :: path)).length := by
        simp only [length_edges, List.length_cons] at hlength ⊢
        omega
      rw [hm, List.getElem?_cons_succ, List.getElem?_cons_succ, List.getElem?_append_left hinner]
        at hsecond
      exact ⟨a, b, c, path, hrotate ▸ (List.IsRotated.forall vertices i), f,
        List.mem_of_getElem? hsecond, hR⟩
  · rintro ⟨a, b, c, path, hrotated, f, hf, hR⟩
    obtain ⟨k, hk⟩ := hrotated.symm
    have hlength := congrArg List.length hk
    rw [List.length_rotate, List.length_cons, List.length_cons, List.length_cons] at hlength
    rw [← List.rotate_mod] at hk
    have hk' : k % vertices.length < vertices.length := Nat.mod_lt _ (by omega)
    generalize k % vertices.length = k at hk hk'
    obtain ⟨z, hz⟩ := edges_closed_split a b c path
    obtain ⟨m, hm⟩ := List.mem_iff_getElem?.mp hf
    have hinner : m < (edges (c :: path)).length := (List.getElem?_eq_some_iff.mp hm).1
    have hm' : m + 2 < vertices.length - 1 := by
      rw [length_edges, List.length_cons] at hinner
      omega
    have hfirst := hplace k 0 (by omega)
    have hsecond := hplace k (m + 2) (by omega)
    rw [hk, hz, zero_add, Nat.mod_eq_of_lt hk'] at hfirst
    rw [hk, hz, List.getElem?_cons_succ, List.getElem?_cons_succ, List.getElem?_append_left hinner,
      hm] at hsecond
    rcases lt_or_ge (m + 2 + k) vertices.length with hahead | hwrap
    · rw [Nat.mod_eq_of_lt hahead] at hsecond
      exact ⟨k, m + 2 + k, (a, b), f, hfirst.symm, hsecond.symm, by omega, by omega, hR⟩
    · -- past the start of the ring the second edge comes first
      rw [Nat.mod_eq_sub_mod hwrap, Nat.mod_eq_of_lt (by omega)] at hsecond
      exact ⟨_, k, f, (a, b), hsecond.symm, hfirst.symm, by omega, by omega, hsymm _ _ hR⟩

variable [AddCommGroup G]

def pathSum (f : α → α → G) : List α → G
  | [] => 0
  | [_] => 0
  | a :: b :: path => f a b + pathSum f (b :: path)

def ringSum (f : α → α → G) (vertices : List α) : G := pathSum f (closed vertices)

variable {f g : α → α → G}

@[simp] theorem pathSum_nil : pathSum f [] = 0 := rfl

@[simp] theorem pathSum_singleton (a : α) : pathSum f [a] = 0 := rfl

@[simp] theorem pathSum_cons_cons (a b : α) (path : List α) :
    pathSum f (a :: b :: path) = f a b + pathSum f (b :: path) := rfl

theorem pathSum_eq_sum (path : List α) :
    pathSum f path = ((edges path).map fun e => f e.1 e.2).sum := by
  induction path with
  | nil => rfl
  | cons a path ih =>
    cases path with
    | nil => rfl
    | cons b path => rw [pathSum_cons_cons, edges_cons_cons, List.map_cons, List.sum_cons, ih]

theorem pathSum_append (a : α) (path path' : List α) :
    pathSum f (path ++ a :: path') = pathSum f (path ++ [a]) + pathSum f (a :: path') := by
  simp only [pathSum_eq_sum]
  rw [edges_append, List.map_append, List.sum_append]

theorem pathSum_congr {path : List α} (h : ∀ e ∈ edges path, f e.1 e.2 = g e.1 e.2) :
    pathSum f path = pathSum g path := by
  rw [pathSum_eq_sum, pathSum_eq_sum, List.map_congr_left h]

theorem pathSum_add (path : List α) :
    pathSum (fun a b => f a b + g a b) path = pathSum f path + pathSum g path := by
  induction path with
  | nil => simp
  | cons a path ih =>
    cases path with
    | nil => simp
    | cons b path =>
      simp only [pathSum_cons_cons, ih]
      abel

theorem pathSum_sub (w : α → G) (a b : α) (path : List α) :
    pathSum (fun a b => w b - w a) (a :: path ++ [b]) = w b - w a := by
  induction path generalizing a with
  | nil => simp
  | cons c path ih =>
    simp only [List.cons_append, pathSum_cons_cons] at ih ⊢
    rw [ih]
    abel

theorem pathSum_reverse (hopposite : ∀ a b, f b a = -f a b) (path : List α) :
    pathSum f path.reverse = -pathSum f path := by
  induction path with
  | nil => simp
  | cons a path ih =>
    cases path with
    | nil => simp
    | cons b path =>
      rw [List.reverse_cons, List.reverse_cons, List.append_assoc, List.singleton_append,
        pathSum_append, ← List.reverse_cons, ih, pathSum_cons_cons, pathSum_cons_cons,
        pathSum_singleton, hopposite a b]
      abel

theorem ringSum_isRotated {vertices vertices' : List α} (h : vertices ~r vertices') :
    ringSum f vertices = ringSum f vertices' := by
  rw [ringSum, ringSum, pathSum_eq_sum, pathSum_eq_sum]
  exact ((edges_closed_isRotated h).map _).sum_eq

theorem ringSum_append (path path' : List α) :
    ringSum f (path ++ path') = ringSum f (path' ++ path) :=
  ringSum_isRotated List.isRotated_append

theorem ringSum_reverse (hopposite : ∀ a b, f b a = -f a b) (vertices : List α) :
    ringSum f vertices.reverse = -ringSum f vertices := by
  cases vertices with
  | nil => simp [ringSum, closed]
  | cons a path =>
    rw [List.reverse_cons, ringSum_append, ringSum, ringSum, ← pathSum_reverse hopposite]
    simp

theorem ringSum_chord (hopposite : ∀ a b, f b a = -f a b) (a b : α)
    (before between after : List α) :
    ringSum f (before ++ a :: between ++ b :: after) =
      ringSum f (a :: between ++ [b]) + ringSum f (b :: after ++ before ++ [a]) := by
  have hrotate : ringSum f (before ++ a :: between ++ b :: after) =
      ringSum f (a :: between ++ b :: (after ++ before)) := by
    rw [List.append_assoc, ringSum_append]
    simp
  have hwhole : closed (a :: between ++ b :: (after ++ before)) =
      a :: between ++ b :: (after ++ before ++ [a]) := by simp [closed]
  have hfirst : closed (a :: between ++ [b]) = a :: between ++ b :: [a] := by simp [closed]
  have hsecond : closed (b :: after ++ before ++ [a]) =
      (b :: (after ++ before)) ++ a :: [b] := by simp [closed]
  rw [hrotate, ringSum, ringSum, ringSum, hwhole, hfirst, hsecond, pathSum_append b,
    pathSum_append b _ [a], pathSum_append a _ [b], pathSum_cons_cons b a, pathSum_cons_cons a b,
    pathSum_singleton, pathSum_singleton, hopposite a b]
  -- the chord is counted in both directions
  simp only [List.cons_append]
  abel

theorem ringSum_congr {vertices : List α}
    (h : ∀ e ∈ edges (closed vertices), f e.1 e.2 = g e.1 e.2) :
    ringSum f vertices = ringSum g vertices := pathSum_congr h

theorem ringSum_add (vertices : List α) :
    ringSum (fun a b => f a b + g a b) vertices = ringSum f vertices + ringSum g vertices :=
  pathSum_add _

theorem ringSum_sub (w : α → G) (vertices : List α) :
    ringSum (fun a b => w b - w a) vertices = 0 := by
  cases vertices with
  | nil => rfl
  | cons a path => rw [ringSum, closed_cons, pathSum_sub, sub_self]

theorem ringSum_eq_zero {vertices : List α}
    (h : ∀ e ∈ edges (closed vertices), f e.1 e.2 = 0) : ringSum f vertices = 0 := by
  rw [ringSum, pathSum_eq_sum, List.map_congr_left h]
  simp

theorem ringSum_mul {R : Type*} [Ring R] (k : R) (g : α → α → R) (vertices : List α) :
    ringSum (fun a b => k * g a b) vertices = k * ringSum g vertices := by
  rw [ringSum, ringSum, pathSum_eq_sum, pathSum_eq_sum, List.sum_map_mul_left]

/-- The sum around a ring of sums along a path. -/
theorem ringSum_pathSum {β : Type*} (g : β → β → α → α → G) (vertices : List α) (path : List β) :
    ringSum (fun a b => pathSum (fun u v => g u v a b) path) vertices =
      pathSum (fun u v => ringSum (g u v) vertices) path := by
  induction path with
  | nil => exact ringSum_eq_zero fun _ _ => rfl
  | cons u path ih =>
    cases path with
    | nil => exact ringSum_eq_zero fun _ _ => rfl
    | cons v path =>
      simp only [pathSum_cons_cons]
      rw [ringSum_add, ih]

/-! ### Bits -/

def bit (b : Bool) : ZMod 2 := if b then 1 else 0

@[simp] theorem bit_false : bit false = 0 := rfl

@[simp] theorem bit_xor (b c : Bool) : bit (b ^^ c) = bit b + bit c := by
  revert b c
  decide

@[simp] theorem neg_bit (b : Bool) : -bit b = bit b := by
  revert b
  decide

@[simp] theorem bit_add_self (b : Bool) : bit b + bit b = 0 := by
  revert b
  decide

theorem bit_injective : Function.Injective bit := by
  intro b c h
  revert b c
  decide

end LandRecords.EdgeSums
