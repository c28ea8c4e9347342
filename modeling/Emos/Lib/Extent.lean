import Mathlib

set_option autoImplicit false

/- Half-open address ranges `[start, start + length)` and the two relations an allocator is
   judged by: two ranges share no address, and one range lies inside another. Both are
   stated on the sets of addresses, and `apart_iff` and `within_iff` turn them into
   arithmetic. -/
structure Extent where
  start : Nat
  length : Nat
deriving DecidableEq, Repr

namespace Extent

def stop (e : Extent) : Nat := e.start + e.length

def toSet (e : Extent) : Set Nat := Set.Ico e.start e.stop

def Apart (e f : Extent) : Prop := Disjoint e.toSet f.toSet

def Within (e f : Extent) : Prop := e.toSet ⊆ f.toSet

theorem mem_toSet (e : Extent) (a : Nat) : a ∈ e.toSet ↔ e.start ≤ a ∧ a < e.start + e.length := by
  simp [toSet, stop]

theorem apart_iff (e f : Extent) :
    e.Apart f ↔ e.length = 0 ∨ f.length = 0 ∨ e.start + e.length ≤ f.start ∨ f.start + f.length ≤ e.start := by
  unfold Apart toSet stop
  rw [Set.Ico_disjoint_Ico]
  omega

theorem within_iff (e f : Extent) :
    e.Within f ↔ e.length = 0 ∨ (f.start ≤ e.start ∧ e.start + e.length ≤ f.start + f.length) := by
  unfold Within toSet stop
  by_cases empty : e.length = 0
  · simp [empty]
  · rw [Set.Ico_subset_Ico_iff (by omega)]
    omega

instance (e f : Extent) : Decidable (e.Apart f) := decidable_of_iff _ (apart_iff e f).symm

instance (e f : Extent) : Decidable (e.Within f) := decidable_of_iff _ (within_iff e f).symm

theorem Apart.symm {e f : Extent} (apart : e.Apart f) : f.Apart e :=
  Disjoint.symm apart

theorem Apart.mono {e f e' f' : Extent} (apart : e.Apart f) (left : e'.Within e) (right : f'.Within f) :
    e'.Apart f' :=
  Disjoint.mono left right apart

theorem Within.trans {e f g : Extent} (ef : e.Within f) (fg : f.Within g) : e.Within g :=
  Set.Subset.trans ef fg

theorem within_refl (e : Extent) : e.Within e := Set.Subset.refl _

theorem Apart.not_mem {e f : Extent} (apart : e.Apart f) {a : Nat} (left : a ∈ e.toSet) : a ∉ f.toSet :=
  Set.disjoint_left.mp apart left

theorem pairwise_apart_split {e : Extent} {pieces others : List Extent} (whole : (e :: others).Pairwise Apart)
    (inside : ∀ p ∈ pieces, p.Within e) (split : pieces.Pairwise Apart) : (pieces ++ others).Pairwise Apart := by
  refine List.pairwise_append.mpr ⟨split, whole.of_cons, ?_⟩
  intro p piece o other
  exact (List.rel_of_pairwise_cons whole other).mono (inside p piece) (within_refl o)

theorem pairwise_apart_perm {l l' : List Extent} (perm : l.Perm l') (apart : l.Pairwise Apart) : l'.Pairwise Apart :=
  (List.Perm.pairwise_iff (fun apart => Apart.symm apart) perm).mp apart

theorem mul_add_le_of_lt {i j : Nat} (size : Nat) (less : i < j) : i * size + size ≤ j * size :=
  calc i * size + size = (i + 1) * size := (Nat.succ_mul i size).symm
    _ ≤ j * size := Nat.mul_le_mul_right size less

theorem slots_apart (base size : Nat) {i j : Nat} (different : i ≠ j) :
    (Extent.mk (base + i * size) size).Apart (Extent.mk (base + j * size) size) := by
  rw [apart_iff]
  dsimp only
  rcases Nat.lt_or_gt_of_ne different with less | greater
  · have below := mul_add_le_of_lt size less
    omega
  · have below := mul_add_le_of_lt size greater
    omega

end Extent
