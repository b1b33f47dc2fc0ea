import Mathlib.Algebra.BigOperators.Group.Finset.Piecewise
import Mathlib.Algebra.Order.BigOperators.Group.Finset
import Mathlib.Data.Fintype.Card

namespace tc_rdma.machine

/-- The number of indices whose value satisfies a test. -/
def count {ι α : Type} [Fintype ι] (p : α → Bool) (f : ι → α) : Nat :=
  (Finset.univ.filter fun i => p (f i) = true).card

variable {ι α : Type} [Fintype ι] {p : α → Bool} {f : ι → α}

theorem count_pos_iff : 0 < count p f ↔ ∃ i, p (f i) = true := by
  simp [count, Finset.card_pos, Finset.filter_nonempty_iff]

theorem count_eq_zero_iff : count p f = 0 ↔ ∀ i, p (f i) = false := by
  simp [count, Finset.card_eq_zero, Finset.filter_eq_empty_iff]

theorem count_le_card : count p f ≤ Fintype.card ι :=
  (Finset.card_filter_le _ _).trans_eq Finset.card_univ

theorem count_lt_card {i : ι} (hi : p (f i) = false) : count p f < Fintype.card ι := by
  rw [count, ← Finset.card_univ]
  apply Finset.card_lt_card
  refine ⟨Finset.filter_subset _ _, ?_⟩
  intro hsub
  have hmem := hsub (Finset.mem_univ i)
  simp [hi] at hmem

/-- Changing the value at one index changes a count by that index alone. -/
theorem count_update [DecidableEq ι] (p : α → Bool) (f : ι → α) (i : ι) (v : α) :
    count p (Function.update f i v) + (p (f i)).toNat = count p f + (p v).toNat := by
  have hsum : ∀ g : ι → α, count p g =
      (∑ j ∈ Finset.univ.erase i, (p (g j)).toNat) + (p (g i)).toNat := by
    intro g
    rw [Finset.sum_erase_add _ _ (Finset.mem_univ i), count, Finset.card_filter]
    apply Finset.sum_congr rfl
    intro j _
    cases p (g j) <;> rfl
  have hrest : (∑ j ∈ Finset.univ.erase i, (p (Function.update f i v j)).toNat) =
      ∑ j ∈ Finset.univ.erase i, (p (f j)).toNat := by
    apply Finset.sum_congr rfl
    intro j hj
    rw [Function.update_of_ne (Finset.ne_of_mem_erase hj)]
  rw [hsum f, hsum (Function.update f i v), hrest, Function.update_self]
  omega

theorem count_update_of_eq [DecidableEq ι] {i : ι} {v : α} (h : p v = p (f i)) :
    count p (Function.update f i v) = count p f := by
  have hupdate := count_update p f i v
  rw [h] at hupdate
  omega

end tc_rdma.machine
