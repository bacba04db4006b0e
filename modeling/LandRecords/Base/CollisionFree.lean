import Mathlib

/-! A hash function without a collision on the materials at hand. Nothing is
assumed about other materials, so the assumption can be met by a function into
a finite set of digests. -/
namespace LandRecords

variable {Material Digest : Type*} {hash : Material → Digest}

/-- No two of the given materials have the same digest. -/
def CollisionFree (hash : Material → Digest) (materials : List Material) : Prop :=
  Set.InjOn hash {m | m ∈ materials}

theorem CollisionFree.mono {ms ns : List Material} (h : CollisionFree hash ns) (hsub : ms ⊆ ns) :
    CollisionFree hash ms := Set.InjOn.mono (fun _ hm => hsub hm) h

theorem CollisionFree.eq {ms : List Material} {m n : Material} (h : CollisionFree hash ms)
    (hm : m ∈ ms) (hn : n ∈ ms) (heq : hash m = hash n) : m = n := h hm hn heq

theorem collisionFree_of_nodup {ms : List Material} (h : (ms.map hash).Nodup) :
    CollisionFree hash ms := fun _ hm _ hn heq => List.inj_on_of_nodup_map h hm hn heq

theorem CollisionFree.map_eq {ms ns : List Material} (h : CollisionFree hash (ms ++ ns))
    (heq : ms.map hash = ns.map hash) : ms = ns := by
  induction ms generalizing ns with
  | nil => exact (List.map_eq_nil_iff.mp heq.symm).symm
  | cons m ms ih =>
    cases ns with
    | nil => simp at heq
    | cons n ns =>
      have hparts := List.cons.inj heq
      have hrest : CollisionFree hash (ms ++ ns) := by
        apply h.mono
        intro a ha
        simp only [List.mem_append, List.mem_cons] at ha ⊢
        tauto
      rw [h.eq (by simp) (by simp) hparts.1, ih hrest hparts.2]

end LandRecords
