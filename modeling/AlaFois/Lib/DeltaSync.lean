import Mathlib.Order.Bounds.Basic
import Mathlib.Order.Lattice

/-!
# Delta synchronisation in a join-semilattice

Replicas hold elements of a join-semilattice and send each other parts of them. What a replica
will know once everything on its way has arrived is the reach of its element and of the parts;
a delta of `D` over `E` is a part that is as good as `D` for whoever is above `E`.
-/

namespace DeltaSync

variable {L : Type*}

section Reach

variable [Preorder L]

/-- What lies below every upper bound of the set. -/
def reach (S : Set L) : Set L := lowerBounds (upperBounds S)

lemma subset_reach (S : Set L) : S ⊆ reach S := subset_lowerBounds_upperBounds S

lemma mem_reach_of_mem {S : Set L} {x : L} (h : x ∈ S) : x ∈ reach S := subset_reach S h

lemma reach_mono {S T : Set L} (h : S ⊆ T) : reach S ⊆ reach T :=
  lowerBounds_mono_set (upperBounds_mono_set h)

/-- Replacing every element of the set by something that reaches it loses nothing. -/
lemma reach_trans {S T : Set L} (h : S ⊆ reach T) : reach S ⊆ reach T := by
  intro x hx b hb
  apply hx
  intro s hs
  exact h hs hb

lemma reach_of_le {S : Set L} {x y : L} (hle : x ≤ y) (hy : y ∈ reach S) : x ∈ reach S :=
  fun _ hb => hle.trans (hy hb)

@[simp] lemma mem_reach_singleton {x y : L} : y ∈ reach {x} ↔ y ≤ x := by
  constructor
  · intro h
    apply h
    simp
  · intro h
    exact reach_of_le h (mem_reach_of_mem rfl)

end Reach

variable [SemilatticeSup L]

lemma sup_mem_reach {S : Set L} {x y : L} (hx : x ∈ reach S) (hy : y ∈ reach S) :
    x ⊔ y ∈ reach S := fun _ hb => sup_le (hx hb) (hy hb)

/-- A replica that takes in a list of parts one after the other. -/
lemma foldl_sup_le {x b : L} {us : List L} :
    us.foldl (· ⊔ ·) x ≤ b ↔ x ≤ b ∧ ∀ u ∈ us, u ≤ b := by
  induction us generalizing x with
  | nil => simp
  | cons u us ih =>
    rw [List.foldl_cons, ih, sup_le_iff]
    simp [and_assoc]

lemma mem_reach_of_le_foldl {x y : L} {us : List L} (h : y ≤ us.foldl (· ⊔ ·) x) :
    y ∈ reach (insert x {u | u ∈ us}) := by
  intro b hb
  refine h.trans (foldl_sup_le.mpr ⟨?_, fun u hu => ?_⟩)
  · exact hb (by simp)
  · exact hb (by simp [hu])

/-- For whoever is above `E`, taking in `u` is taking in `D`. -/
def IsDelta (u D E : L) : Prop := ∀ F, E ≤ F → F ⊔ u = F ⊔ D

namespace IsDelta

variable {u v D E E' F : L}

lemma mono (h : IsDelta u D E) (hE : E ≤ E') : IsDelta u D E' := fun F hF => h F (hE.trans hF)

/-- A delta over a part of the document is itself a part of it. -/
lemma le (h : IsDelta u D E) (hE : E ≤ D) : u ≤ D := by
  have heq := h D hE
  rw [sup_idem] at heq
  exact sup_eq_left.mp heq

lemma le_sup (h : IsDelta u D E) (hE : E ≤ F) : D ≤ F ⊔ u := by
  rw [h F hE]
  exact le_sup_right

/-- The delta and what it is over reach the document. -/
lemma mem_reach (h : IsDelta u D E) {S : Set L} (hE : E ∈ reach S) (hu : u ∈ reach S) :
    D ∈ reach S := by
  intro b hb
  have hD := h.le_sup (hE hb)
  rwa [sup_eq_left.mpr (hu hb)] at hD

end IsDelta

end DeltaSync
