import Mathlib.Data.Finset.Card
import Mathlib.Order.Bounds.Basic

namespace tc_rdma.machine

/-- The half-open interval of positions from `lo` up to `hi`. -/
structure Interval where
  lo : Nat
  hi : Nat
  deriving DecidableEq, Repr

def Interval.Has (l : Interval) (x : Nat) : Prop := l.lo ≤ x ∧ x < l.hi

/-- Non-empty intervals that do not overlap and leave no hole below any of
them: they tile a beginning of the positions, in some order. -/
structure Tiling (links : Finset Interval) : Prop where
  nonempty : ∀ l ∈ links, l.lo < l.hi
  disjoint : ∀ l ∈ links, ∀ m ∈ links, ∀ x, l.Has x → m.Has x → l = m
  closed : ∀ l ∈ links, ∀ x, x < l.lo → ∃ m ∈ links, m.Has x

variable {links : Finset Interval}

theorem Tiling.eq_of_lo_eq (h : Tiling links) {l m : Interval} (hl : l ∈ links) (hm : m ∈ links)
    (heq : l.lo = m.lo) : l = m := by
  have hlm := h.nonempty l hl
  have hmn := h.nonempty m hm
  exact h.disjoint l hl m hm l.lo ⟨Nat.le_refl _, hlm⟩ ⟨by omega, by omega⟩

/-- An interval that starts later starts after the end of the earlier one. -/
theorem Tiling.hi_le_lo (h : Tiling links) {l m : Interval} (hl : l ∈ links) (hm : m ∈ links)
    (hlt : l.lo < m.lo) : l.hi ≤ m.lo := by
  by_contra hnot
  have hmn := h.nonempty m hm
  have heq := h.disjoint l hl m hm m.lo ⟨by omega, by omega⟩ ⟨Nat.le_refl _, hmn⟩
  subst heq
  omega

/-- Every position below `p` lies in an interval satisfying `P`. -/
def CoveredBelow (links : Finset Interval) (P : Interval → Prop) (p : Nat) : Prop :=
  ∀ x, x < p → ∃ l ∈ links, P l ∧ l.Has x

theorem coveredBelow_zero (P : Interval → Prop) : CoveredBelow links P 0 := by
  intro x hx
  omega

theorem CoveredBelow.mono {P Q : Interval → Prop} {p : Nat} (h : CoveredBelow links P p)
    (hPQ : ∀ l ∈ links, P l → Q l) : CoveredBelow links Q p := by
  intro x hx
  obtain ⟨l, hl, hP, hhas⟩ := h x hx
  exact ⟨l, hl, hPQ l hl hP, hhas⟩

/-- Following an interval that starts where the covered positions end. -/
theorem CoveredBelow.extend {P : Interval → Prop} {l : Interval} (h : CoveredBelow links P l.lo)
    (hl : l ∈ links) (hP : P l) : CoveredBelow links P l.hi := by
  intro x hx
  by_cases hlow : x < l.lo
  · exact h x hlow
  · exact ⟨l, hl, hP, by omega, hx⟩

/-- Covered positions end at a position that is itself in no such interval. -/
theorem CoveredBelow.isGreatest {P : Interval → Prop} {p : Nat} (h : CoveredBelow links P p)
    (hgap : ∀ l ∈ links, P l → ¬ l.Has p) : IsGreatest {q | CoveredBelow links P q} p := by
  refine ⟨h, ?_⟩
  intro q hq
  by_contra hnot
  obtain ⟨l, hl, hP, hhas⟩ := hq p (by omega)
  exact hgap l hl hP hhas

/-- Passing one interval leaves fewer of them ahead. -/
theorem card_ahead_lt {l : Interval} (hl : l ∈ links) (hlt : l.lo < l.hi) :
    (links.filter fun m => l.hi ≤ m.lo).card < (links.filter fun m => l.lo ≤ m.lo).card := by
  apply Finset.card_lt_card
  refine ⟨?_, ?_⟩
  · intro m hm
    rw [Finset.mem_filter] at hm ⊢
    exact ⟨hm.1, by omega⟩
  · intro hsub
    have hmem := hsub (Finset.mem_filter.mpr ⟨hl, Nat.le_refl _⟩)
    rw [Finset.mem_filter] at hmem
    omega

end tc_rdma.machine
