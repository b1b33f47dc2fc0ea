import Mathlib.Data.Finset.Max
import TcRdma.LinkBuf.AdvanceTail

open tc_rdma.machine

namespace tc_rdma.link_buf

variable {capacity : Capacity} {links : Finset Interval} {s next last : Tracking capacity}
  {acts : List TrackAct}

/-- Everything is stored and the tail has passed it. -/
def Tracking.Complete (links : Finset Interval) (s : Tracking capacity) : Prop :=
  ∀ l ∈ links, s.Reported l ∧ l.hi ≤ s.buf.m_tail

/-- The steps a reporter has left. -/
def ReporterPc.rank : ReporterPc → Nat
  | .waiting => 3
  | .granted => 2
  | .checked => 1
  | .reported => 0

/-- A reporter waits for its link while the tail stands where the link starts. -/
structure Stuck (links : Finset Interval) (l : Interval) (s : Tracking capacity) : Prop where
  window : Window links s
  waiting : s.reporter l = .waiting
  tail : l.lo ≤ s.buf.m_tail

/-- The sum in `has_space` has wrapped. -/
theorem Stuck.refused {l : Interval} (h : Stuck links l s) (hl : l ∈ links) (hwrap : 2 ^ 64 ≤ l.lo + capacity.val) :
    u64 (s.buf.m_tail + capacity.val) ≤ l.lo := by
  have hcap := capacity.lt
  have hposition := h.window.position_lt
  unfold position_max at hposition
  have hahead := h.window.position_le_of_not_reported hl (by rw [Tracking.Reported, h.waiting]; simp)
  have htail := h.window.tail_le
  have hbehind := h.tail
  unfold u64
  omega

/-- The wrapped sum in `has_space` never lets the reporter go on, and without
its link the tail does not move. -/
theorem Stuck.step {l : Interval} (h : Stuck links l s) (hlinks : Links links) (hl : l ∈ links)
    (hwrap : 2 ^ 64 ≤ l.lo + capacity.val) {act : TrackAct} (hstep : s.step links act = some next) :
    Stuck links l next := by
  have hrefused := h.refused hl hwrap
  have hbehind := h.tail
  have hmono := h.window.tail_mono hstep
  have hnext := h.window.step hlinks hstep
  have hkept : next.reporter l = .waiting := by
    have hsame : ∀ (m : Interval) (pc : ReporterPc), m ≠ l → Function.update s.reporter m pc l = .waiting :=
      fun m pc hm => (Function.update_of_ne (Ne.symm hm) _ _).trans h.waiting
    have hother : ∀ m pc, s.reporter m = pc → pc ≠ .waiting → m ≠ l := by
      rintro m pc hpc hne rfl
      exact hne (hpc.symm.trans h.waiting)
    obtain ⟨_, hmove⟩ := Tracking.step_move hstep
    cases hmove with
    | space m hm hpc hspace =>
      refine hsame m _ ?_
      rintro rfl
      exact absurd hspace (Nat.not_lt_of_le hrefused)
    | add_link_load m hm hpc => exact hsame m _ (hother m _ hpc (by simp))
    | add_link_store m hm hpc => exact hsame m _ (hother m _ hpc (by simp))
    | _ => exact h.waiting
  exact { window := hnext, waiting := hkept, tail := by omega }

end tc_rdma.link_buf
