import TcRdma.MemMag.Returning

open tc_rdma.machine

namespace tc_rdma.mem_mag

variable {bl max T : Nat} {s : Pool T} {d : Dispenser}

/-- Slot `i` holds a block, or a thread that will publish into it is on its way. -/
def Pool.Taken (s : Pool T) (i : Nat) : Prop :=
  (∃ block, s.mem.blocks[i]? = some (some block)) ∨
    ∃ t, (s.pc t).slot s.mem.block_length s.mem.max_size = some i

theorem Pool.Dispensing.taken_of_full (h : s.Dispensing bl max d) (hfull : d.issued = d.capacity)
    {i : Nat} (hi : i < max / bl) : s.Taken i := by
  rw [Pool.Taken, h.block_length, h.max_size]
  exact h.slots.covered i (by rw [hfull, h.capacity]; exact hi)

theorem Pool.Dispensing.no_claim_of_quiescent (h : s.Dispensing bl max d) (hq : s.Quiescent) (i : Nat) :
    (∃ block, s.mem.blocks[i]? = some (some block)) ↔ i < d.issued := by
  constructor
  · rintro ⟨block, hblock⟩
    exact (h.slots.filled i block hblock).1
  · intro hi
    rcases h.slots.covered i hi with hblock | ⟨t, ht⟩
    · exact hblock
    · rw [hq t] at ht
      cases ht

theorem count_eq_zero_of_quiescent {p : AllocPc → Bool} (hp : p .idle = false) (hq : s.Quiescent) :
    count p s.pc = 0 := by
  rw [count_eq_zero_iff]
  intro t
  rw [hq t, hp]

/-- With no call in flight, the slots published are those below `issued`. -/
theorem Pool.Dispensing.trues_eq_issued (h : s.Dispensing bl max d) (hq : s.Quiescent) :
    s.returned.count true = d.issued := by
  have hperm : s.published.Perm (List.range d.issued) := by
    rw [List.perm_ext_iff_of_nodup h.history.nodup List.nodup_range]
    intro i
    rw [h.history.published_iff, h.no_claim_of_quiescent hq, List.mem_range]
  rw [h.history.trues, hperm.length_eq, List.length_range]

theorem Pool.Dispensing.calls_eq_returned (h : s.Dispensing bl max d) (hq : s.Quiescent) :
    s.returned.length = s.calls := by
  rw [h.history.calls, count_eq_zero_of_quiescent rfl hq, Nat.add_zero]

/-- With no call in flight, the calls that returned true are all of them as
long as there was a slot for each. -/
theorem Pool.Dispensing.trues_eq_min (h : s.Dispensing bl max d) (hq : s.Quiescent) :
    s.returned.count true = min (max / bl) s.calls := by
  have hissued := h.trues_eq_issued hq
  have hcalls := h.calls_eq_returned hq
  have hle := d.issued_le
  have hcap := h.capacity
  by_cases hfalse : false ∈ s.returned
  · have hfull := h.history.falses hfalse
    have hcount := s.returned.count_le_length (a := true)
    omega
  · have hall : s.returned.count true = s.returned.length := by
      rw [List.count_eq_length]
      intro b hb
      cases b with
      | true => rfl
      | false => exact absurd hb hfalse
    omega

/-- The counter with no call in flight. -/
theorem Pool.Dispensing.offset_eq (h : s.Dispensing bl max d) (hq : s.Quiescent) :
    s.mem.next_offset = bl * s.returned.count true := by
  rw [h.trues_eq_issued hq, h.offset, count_eq_zero_of_quiescent rfl hq, Nat.add_zero]

/-- Any number of threads may call `allocate_next_block` in any order. The
publication assertion never fails and its index is in range, no slot is
published twice, and a call returns false only when every slot is taken. A
thread outside can call, a thread inside can take a step, and it returns with
its fourth one at the latest. Once no call is in flight, each call that was
made has returned, exactly as many of them as there was room for returned true,
and the blocks they stored are the prefix of the slots of that length. The
outcomes of allocation and registration do not matter for this. -/
theorem Pool.allocate_next_block_correct (hbl : 0 < bl) (hfit : max + T * bl < 2 ^ 64)
    {labels : List (Fin T × AllocAct)} (hrun : run Pool.step (Pool.new T bl max) labels = some s) :
    s.fault = none ∧
    (∀ t idx block, s.pc t = .registered idx block →
      idx < s.mem.blocks.length ∧ s.mem.blocks[idx]? = some none) ∧
    s.published.Nodup ∧
    (∀ t, s.pc t = .refused → ∀ i, i < max / bl → s.Taken i) ∧
    (false ∈ s.returned → ∀ i, i < max / bl → s.Taken i) ∧
    (∀ t, s.pc t = .idle → ∀ pd flags, (s.step (t, .call pd flags)).isSome) ∧
    (∀ t, s.pc t ≠ .idle → ∃ act, act.begins = false ∧ (s.step (t, act)).isSome) ∧
    (∀ t more last, (∀ l ∈ more, l.1 = t → l.2.begins = false) → run Pool.step s more = some last →
      more.countP (fun l => l.1 = t) ≤ 4) ∧
    (∃ more last, (∀ l ∈ more, l.2.begins = false) ∧ run Pool.step s more = some last ∧ last.Quiescent) ∧
    (s.Quiescent →
      s.returned.length = labels.countP (fun l => l.2.begins) ∧
      s.returned.count true = min (max / bl) (labels.countP fun l => l.2.begins) ∧
      s.mem.next_offset = bl * s.returned.count true ∧
      (∀ i, (∃ block, s.mem.blocks[i]? = some (some block)) ↔ i < s.returned.count true) ∧
      ∀ i block, s.mem.blocks[i]? = some (some block) →
        block.virtual_offset = i * bl ∧ block.mem_length = bl) := by
  obtain ⟨d, -, h⟩ := Pool.run_dispensing hbl hfit hrun
  have hcalls : s.calls = labels.countP fun l => l.2.begins := by
    rw [Pool.run_calls hrun]
    exact Nat.zero_add _
  refine ⟨h.no_fault, ?_, h.history.nodup, ?_, ?_, ?_, ?_, ?_, ?_, ?_⟩
  · intro t idx block hpc
    have hheld := (h.slots.held t idx (by rw [hpc]; rfl)).2
    exact ⟨(List.getElem?_eq_some_iff.mp hheld).1, hheld⟩
  · intro t hpc i hi
    exact h.taken_of_full (h.full (count_pos_iff.mpr ⟨t, by rw [hpc]; rfl⟩)) hi
  · intro hfalse i hi
    exact h.taken_of_full (h.history.falses hfalse) hi
  · intro t hidle pd flags
    rw [h.can_call hidle]
    rfl
  · intro t hbusy
    exact h.exists_step hbl hbusy
  · intro t more last hmore hmoves
    have hle := h.run_left_le hbl hfit t hmore hmoves
    have hleft := (s.pc t).left_le
    omega
  · obtain ⟨more, last, hmore, hmoves, -, hquiet⟩ := Pool.Running.settle ⟨⟨d, h⟩, rfl⟩ hbl hfit
    exact ⟨more, last, hmore, hmoves, hquiet⟩
  · intro hq
    rw [← hcalls]
    refine ⟨h.calls_eq_returned hq, h.trues_eq_min hq, h.offset_eq hq, ?_, ?_⟩
    · intro i
      rw [h.trues_eq_issued hq]
      exact h.no_claim_of_quiescent hq i
    · intro i block hblock
      exact (h.slots.filled i block hblock).2

/-- Two threads race for the only slot of a pool; the second one adds to the
counter before the first one has published. -/
def raceSchedule : List (Fin 2 × AllocAct) :=
  [(0, .call 1 1), (1, .call 1 1), (0, .fetch_add), (1, .fetch_add), (0, .test_capacity),
    (1, .test_capacity), (0, .reg_alloc (some 4096) (some 7)), (0, .publish), (1, .fetch_sub)]

theorem Pool.allocate_next_block_correct_race :
    ∃ s, run Pool.step (Pool.new 2 64 100) raceSchedule = some s ∧ s.Quiescent ∧
      raceSchedule.countP (fun l => l.2.begins) = 2 ∧ s.returned = [true, false] ∧
      s.returned.length = raceSchedule.countP (fun l => l.2.begins) ∧
      s.returned.count true = min (100 / 64) (raceSchedule.countP fun l => l.2.begins) ∧
      s.mem.next_offset = 64 ∧ ∃ block, s.mem.blocks[0]? = some (some block) ∧ block.mem_length = 64 := by
  have hidle : ((run Pool.step (Pool.new 2 64 100) raceSchedule).any
      fun s => decide ((∀ t, s.pc t = .idle) ∧ s.returned = [true, false])) = true := by decide
  obtain ⟨s, hrun, hs⟩ := (Option.any_eq_true _ _).mp hidle
  obtain ⟨hq, hreturned⟩ := of_decide_eq_true hs
  obtain ⟨-, -, -, -, -, -, -, -, -, hcorrect⟩ := Pool.allocate_next_block_correct (by decide) (by decide) hrun
  obtain ⟨hlength, htrues, hoffset, hfilled, hblocks⟩ := hcorrect hq
  obtain ⟨block, hblock⟩ := (hfilled 0).mpr (by rw [hreturned]; decide)
  refine ⟨s, hrun, hq, by decide, hreturned, hlength, htrues, ?_, block, hblock, (hblocks 0 block hblock).2⟩
  rw [hoffset, hreturned]
  rfl

end tc_rdma.mem_mag
