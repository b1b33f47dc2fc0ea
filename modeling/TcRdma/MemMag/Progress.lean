import TcRdma.MemMag.Allocate

open tc_rdma.machine

namespace tc_rdma.mem_mag

variable {bl max T : Nat} {s : Pool T}

/-- With as many calls of one thread as there are slots, every slot gets a block. -/
theorem Pool.Running.fill {calls : Nat} (h : s.Running bl max calls) (hbl : 0 < bl) (hfit : max + T * bl < 2 ^ 64)
    (t : Fin T) :
    ∃ more last, (∀ l ∈ more, l.2.begins = true → l.1 = t) ∧ run Pool.step s more = some last ∧ last.Quiescent ∧
      ∃ d, last.Dispensing bl max d ∧ d.issued = max / bl := by
  have hnone : ∀ ls : List (Fin T × AllocAct), (∀ l ∈ ls, l.2.begins = false) →
      ∀ l ∈ ls, l.2.begins = true → l.1 = t := by
    intro ls hls l hl hbegins
    rw [hls l hl] at hbegins
    cases hbegins
  have hlower : ∀ a : Pool T, (∃ n, a.Running bl max n) ∧ a.Quiescent → 0 < max / bl - a.calls →
      ∃ ls b, (∀ l ∈ ls, l.2.begins = true → l.1 = t) ∧ run Pool.step a ls = some b ∧
        ((∃ n, b.Running bl max n) ∧ b.Quiescent) ∧
        max / bl - b.calls < max / bl - a.calls := by
    rintro a ⟨⟨n, ha⟩, hq⟩ hpos
    obtain ⟨d, hd⟩ := ha.dispensing
    have hcall := hd.can_call (hq t) 0 0
    obtain ⟨e, -, he⟩ := hd.step hbl hfit hcall
    have hcalled : Pool.Running bl max (a.calls + 1)
        ({ a with pc := Function.update a.pc t (.entered 0 0) }.record .started) := ⟨⟨e, he⟩, rfl⟩
    obtain ⟨ls, b, hls, hrun, hb, hquiet⟩ := hcalled.settle hbl hfit
    refine ⟨(t, .call 0 0) :: ls, b, by simpa using hnone ls hls, run_cons_eq_some.mpr ⟨_, hcall, hrun⟩,
      ⟨⟨_, hb⟩, hquiet⟩, ?_⟩
    have hcalls := hb.calls
    omega
  obtain ⟨front, mid, hnew, hfront, hmid, hq⟩ := h.settle hbl hfit
  obtain ⟨back, last, hown, hback, ⟨⟨n, hlast⟩, hquiet⟩, hdone⟩ := run_reaches hlower ⟨⟨_, hmid⟩, hq⟩
  obtain ⟨d, hd⟩ := hlast.dispensing
  refine ⟨front ++ back, last, ?_, run_append_of_eq_some hfront hback, hquiet, d, hd, ?_⟩
  · intro l hl
    rcases List.mem_append.mp hl with hl | hl
    · exact hnone front hnew l hl
    · exact hown l hl
  have htrues := hd.trues_eq_min hquiet
  rw [hd.trues_eq_issued hquiet] at htrues
  omega

/-- Any number of threads may be inside `allocate_next_block`, each stopped
anywhere. None is ever blocked, none takes more than four steps of its own
before it returns, whatever the others do, all return when no call is made any
more, and whichever thread makes the further calls alone, they fill every slot:
no slot is lost. A locked section is one step here. -/
theorem Pool.allocate_next_block_progress (hbl : 0 < bl) (hfit : max + T * bl < 2 ^ 64)
    {labels : List (Fin T × AllocAct)} (hrun : run Pool.step (Pool.new T bl max) labels = some s) :
    (∀ t, (s.pc t).left ≤ 4 ∧ (s.pc t ≠ .idle → ∃ act, (s.step (t, act)).isSome)) ∧
    (∀ t more last, (∀ l ∈ more, l.1 = t → l.2.begins = false) → run Pool.step s more = some last →
      more.countP (fun l => l.1 = t) + (last.pc t).left ≤ (s.pc t).left) ∧
    (∃ more last, (∀ l ∈ more, l.2.begins = false) ∧ run Pool.step s more = some last ∧ last.Quiescent) ∧
    (∀ t, ∃ more last, (∀ l ∈ more, l.2.begins = true → l.1 = t) ∧ run Pool.step s more = some last ∧
      last.Quiescent ∧ ∀ i, i < max / bl → ∃ block, last.mem.blocks[i]? = some (some block)) := by
  obtain ⟨d, -, h⟩ := Pool.run_dispensing hbl hfit hrun
  have hrunning : s.Running bl max s.calls := ⟨⟨d, h⟩, rfl⟩
  refine ⟨fun t => ⟨(s.pc t).left_le, ?_⟩, ?_, ?_, ?_⟩
  · intro hbusy
    obtain ⟨act, -, hstep⟩ := h.exists_step hbl hbusy
    exact ⟨act, hstep⟩
  · intro t more last hmore hmoves
    exact h.run_left_le hbl hfit t hmore hmoves
  · obtain ⟨more, last, hmore, hmoves, -, hquiet⟩ := hrunning.settle hbl hfit
    exact ⟨more, last, hmore, hmoves, hquiet⟩
  · intro t
    obtain ⟨more, last, hown, hmoves, hquiet, e, he, hissued⟩ := hrunning.fill hbl hfit t
    refine ⟨more, last, hown, hmoves, hquiet, fun i hi => ?_⟩
    exact (he.no_claim_of_quiescent hquiet i).mpr (hissued ▸ hi)

/-- Both threads of the race have added to the counter, and neither has tested its offset yet. -/
theorem Pool.allocate_next_block_progress_race :
    ∃ s, run Pool.step (Pool.new 2 64 100) (raceSchedule.take 4) = some s ∧
      (∃ more last, (∀ l ∈ more, l.2.begins = false) ∧ run Pool.step s more = some last ∧ last.Quiescent) ∧
      (∀ t, ∃ more last, (∀ l ∈ more, l.2.begins = true → l.1 = t) ∧ run Pool.step s more = some last ∧
        last.Quiescent ∧ ∀ i, i < 100 / 64 → ∃ block, last.mem.blocks[i]? = some (some block)) := by
  have hsome : (run Pool.step (Pool.new 2 64 100) (raceSchedule.take 4)).isSome := by decide
  obtain ⟨s, hrun⟩ := Option.isSome_iff_exists.mp hsome
  exact ⟨s, hrun, (Pool.allocate_next_block_progress (by decide) (by decide) hrun).2.2⟩

end tc_rdma.mem_mag
