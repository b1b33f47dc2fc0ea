import TcRdma.MemMag.Pool

open tc_rdma.machine

namespace tc_rdma.mem_mag

/-- A call of `allocate_next_block`: its arguments, and what `aligned_alloc`
and `ibv_reg_mr` answer if they are called. -/
structure AllocCall where
  pd : Nat
  flags : Nat
  mem : Option Nat
  reg : Option Nat
  deriving DecidableEq, Repr

/-- `allocate_next_block` with no other call going on. -/
def PinnedFixMemory.allocate_next_block_alone (self : PinnedFixMemory) (call : AllocCall) :
    Except Fault (Bool × PinnedFixMemory) :=
  let start := self.next_offset
  let self := { self with next_offset := u64 (self.next_offset + self.block_length) }
  if u64 (start + self.block_length) ≤ self.max_size then
    let idx := start / self.block_length
    match (PinnedBlock.new start self.block_length).reg_alloc_local call.pd call.flags call.mem call.reg with
    | .error fault => .error fault
    -- the result of `reg_alloc_local` is not used
    | .ok (_, b) =>
      match self.blocks[idx]? with
      | none => .error (.slot_out_of_range idx)
      | some (some _) => .error .slot_taken
      | some none => .ok (true, { self with blocks := self.blocks.set idx (some b) })
  else .ok (false, { self with next_offset := u64_sub self.next_offset self.block_length })

/-- The atomic steps that a call takes. -/
def PinnedFixMemory.alone_acts (self : PinnedFixMemory) (call : AllocCall) : List AllocAct :=
  if u64 (self.next_offset + self.block_length) ≤ self.max_size then
    [.call call.pd call.flags, .fetch_add, .test_capacity, .reg_alloc call.mem call.reg, .publish]
  else [.call call.pd call.flags, .fetch_add, .test_capacity, .fetch_sub]

variable {T : Nat} {self next : PinnedFixMemory} {call : AllocCall} {ret : Bool}

/-- A call that is alone is the atomic steps of the thread that makes it, with
no step of another thread in between. -/
theorem Pool.run_alone {s : Pool T} {t : Fin T} (hfault : s.fault = none) (hidle : s.pc t = .idle)
    (halone : s.mem.allocate_next_block_alone call = .ok (ret, next)) :
    ∃ last, run Pool.step s ((s.mem.alone_acts call).map (t, ·)) = some last ∧ last.mem = next ∧
      last.pc = s.pc ∧ last.fault = none ∧ last.returned = s.returned ++ [ret] := by
  have hpc : Function.update s.pc t .idle = s.pc := by
    rw [← hidle, Function.update_eq_self]
  simp only [PinnedFixMemory.allocate_next_block_alone] at halone
  rw [PinnedFixMemory.alone_acts]
  split at halone
  · rename_i hfits
    rw [if_pos hfits]
    split at halone
    · cases halone
    · rename_i mr b hreg
      split at halone
      · cases halone
      · cases halone
      · rename_i hslot
        cases halone
        refine ⟨{ s with
          mem := { s.mem with
            next_offset := u64 (s.mem.next_offset + s.mem.block_length)
            blocks := s.mem.blocks.set (s.mem.next_offset / s.mem.block_length) (some b) }
          calls := s.calls + 1
          published := s.published ++ [s.mem.next_offset / s.mem.block_length]
          returned := s.returned ++ [true] }, ?_, rfl, rfl, hfault, rfl⟩
        simp [run, Pool.step, PinnedFixMemory.allocate_next_block, Pool.record, hfault, hidle, hfits, hreg, hslot, hpc]
  · rename_i hfull
    cases halone
    rw [if_neg hfull]
    refine ⟨{ s with
      mem := { s.mem with
        next_offset := u64_sub (u64 (s.mem.next_offset + s.mem.block_length)) s.mem.block_length }
      calls := s.calls + 1
      returned := s.returned ++ [false] }, ?_, rfl, rfl, hfault, rfl⟩
    simp [run, Pool.step, PinnedFixMemory.allocate_next_block, Pool.record, hfault, hidle, hfull, hpc]

/-- The first `k` slots hold blocks of the kind `P`, the others are empty, and
the counter stands right after the filled ones. -/
structure PinnedFixMemory.FilledTo (P : PinnedBlock → Prop) (bl max k : Nat) (mem : PinnedFixMemory) : Prop where
  next_offset : mem.next_offset = bl * k
  max_size : mem.max_size = max
  block_length : mem.block_length = bl
  size : mem.blocks.length = max / bl
  filled : ∀ i, i < k → ∃ b, mem.blocks[i]? = some (some b) ∧ P b
  empty : ∀ i, k ≤ i → i < max / bl → mem.blocks[i]? = some none
  le : k ≤ max / bl

variable {P : PinnedBlock → Prop} {bl max k : Nat}

theorem PinnedFixMemory.new_filledTo (P : PinnedBlock → Prop) (bl max : Nat) :
    (PinnedFixMemory.new bl max).FilledTo P bl max 0 := by
  constructor
  · rfl
  · rfl
  · rfl
  · exact List.length_replicate
  · intro i hi
    omega
  · intro i _ hi
    exact List.getElem?_replicate_of_lt hi
  · exact Nat.zero_le _

/-- The block is complete: it has memory, and this memory is registered. -/
def PinnedBlock.Complete (b : PinnedBlock) : Prop := b.local_mem ≠ none ∧ b.mr ≠ none

/-- Allocating and registering a new block asserts nothing false, and the
block is complete exactly when both calls gave something. -/
theorem PinnedBlock.reg_alloc_local_complete (voff : Nat) {len : Nat} (hlen : 0 < len) (call : AllocCall) :
    ∃ mr b, (PinnedBlock.new voff len).reg_alloc_local call.pd call.flags call.mem call.reg = .ok (mr, b) ∧
      (b.Complete ↔ call.mem ≠ none ∧ call.reg ≠ none) := by
  obtain ⟨pd, flags, mem, reg⟩ := call
  have hne : len ≠ 0 := by omega
  simp only [PinnedBlock.reg_alloc_local, PinnedBlock.new, ne_eq, not_true_eq_false, if_false, hne]
  refine ⟨_, _, rfl, ?_⟩
  cases mem with
  | none => simp [PinnedBlock.Complete]
  | some addr => simp [PinnedBlock.Complete]

/-- With room for one more block, one is published in the first empty slot. -/
theorem PinnedFixMemory.FilledTo.alone_of_room (h : self.FilledTo P bl max k) (hbl : 0 < bl)
    (hword : bl * k + bl < 2 ^ 64) (hroom : bl * k + bl ≤ max) (call : AllocCall) :
    k < max / bl ∧ ∃ b next, self.allocate_next_block_alone call = .ok (true, next) ∧
      next = { self with next_offset := bl * (k + 1), blocks := self.blocks.set k (some b) } ∧
      (b.Complete ↔ call.mem ≠ none ∧ call.reg ≠ none) := by
  have hlt : k < max / bl := by
    rw [Nat.lt_iff_add_one_le, Nat.le_div_iff_mul_le hbl, Nat.add_mul, Nat.one_mul, Nat.mul_comm]
    exact hroom
  obtain ⟨mr, b, hreg, hcomplete⟩ := PinnedBlock.reg_alloc_local_complete (bl * k) hbl call
  refine ⟨hlt, b, _, ?_, rfl, hcomplete⟩
  simp only [PinnedFixMemory.allocate_next_block_alone, h.next_offset, h.block_length, h.max_size,
    u64_of_lt hword, if_pos hroom, hreg, Nat.mul_div_cancel_left k hbl, h.empty k (Nat.le_refl _) hlt, Nat.mul_succ]

theorem PinnedFixMemory.FilledTo.publish {b : PinnedBlock} (h : self.FilledTo P bl max k) (hlt : k < max / bl)
    (hb : P b) :
    { self with next_offset := bl * (k + 1), blocks := self.blocks.set k (some b) }.FilledTo P bl max (k + 1) := by
  constructor
  · rfl
  · exact h.max_size
  · exact h.block_length
  · rw [List.length_set, h.size]
  · intro i hi
    by_cases heq : i = k
    · subst heq
      exact ⟨b, List.getElem?_set_self (by rw [h.size]; exact hlt), hb⟩
    · obtain ⟨old, hold, hkind⟩ := h.filled i (by omega)
      exact ⟨old, by rw [List.getElem?_set_ne (by omega), hold], hkind⟩
  · intro i hle hi
    rw [List.getElem?_set_ne (by omega)]
    exact h.empty i (by omega) hi
  · exact hlt

/-- Without room the call takes back what it added to the counter. -/
theorem PinnedFixMemory.FilledTo.alone_of_full (h : self.FilledTo P bl max k) (hword : bl * k + bl < 2 ^ 64)
    (hfull : max < bl * k + bl) (call : AllocCall) :
    self.allocate_next_block_alone call = .ok (false, self) := by
  have htest : ¬ u64 (self.next_offset + self.block_length) ≤ self.max_size := by
    rw [h.next_offset, h.block_length, h.max_size, u64_of_lt hword]
    omega
  have hback : u64_sub (u64 (self.next_offset + self.block_length)) self.block_length = self.next_offset := by
    rw [h.next_offset, h.block_length, u64_of_lt hword, u64_sub_of_le (by omega) hword]
    omega
  simp only [PinnedFixMemory.allocate_next_block_alone, if_neg htest, hback]

/-- When the sum wraps around it passes the test, and the slot that belongs to
the old counter is past the last one. -/
theorem PinnedFixMemory.FilledTo.alone_of_wrap (h : self.FilledTo P bl max k) (hbl : 0 < bl)
    (hbl64 : bl < 2 ^ 64) (hmax : max < 2 ^ 64) (hwrap : 2 ^ 64 ≤ bl * k + bl) (call : AllocCall) :
    ∃ fault, self.allocate_next_block_alone call = .error fault := by
  have hle : bl * k ≤ max := by
    rw [Nat.mul_comm]
    exact (Nat.le_div_iff_mul_le hbl).mp h.le
  have hpasses : u64 (bl * k + bl) ≤ max := by
    rw [u64]
    omega
  have hlast : max / bl ≤ k := by
    rw [← Nat.lt_succ_iff, Nat.div_lt_iff_lt_mul hbl, Nat.succ_mul, Nat.mul_comm]
    omega
  have hnone : self.blocks[k]? = none := List.getElem?_eq_none (by rw [h.size]; exact hlast)
  obtain ⟨mr, b, hreg, -⟩ := PinnedBlock.reg_alloc_local_complete (bl * k) hbl call
  refine ⟨.slot_out_of_range k, ?_⟩
  simp only [PinnedFixMemory.allocate_next_block_alone, h.next_offset, h.block_length, h.max_size, if_pos hpasses,
    hreg, Nat.mul_div_cancel_left k hbl, hnone]

theorem PinnedFixMemory.FilledTo.alone_of_zero (h : self.FilledTo P 0 max k) (call : AllocCall) :
    self.allocate_next_block_alone call = .error .mem_length_zero := by
  have hzero : u64 0 ≤ max := Nat.zero_le _
  simp only [PinnedFixMemory.allocate_next_block_alone, h.next_offset, h.block_length, h.max_size, Nat.zero_mul,
    Nat.add_zero, if_pos hzero, PinnedBlock.reg_alloc_local, PinnedBlock.new, ne_eq, not_true_eq_false, if_false,
    if_true]

/-- One call after the other. A failing assertion ends the program. -/
def PinnedFixMemory.alone_step (self : PinnedFixMemory) (call : AllocCall) : Option PinnedFixMemory :=
  match self.allocate_next_block_alone call with
  | .ok (_, next) => some next
  | .error _ => none

theorem PinnedFixMemory.alone_step_eq_some (hstep : self.alone_step call = some next) :
    ∃ ret, self.allocate_next_block_alone call = .ok (ret, next) := by
  unfold PinnedFixMemory.alone_step at hstep
  split at hstep
  · rename_i ret mem halone
    cases hstep
    exact ⟨ret, halone⟩
  · cases hstep

/-- A call fills the next slot or leaves the memory as it is. -/
theorem PinnedFixMemory.FilledTo.alone_step (h : self.FilledTo (fun _ => True) bl max k) (hbl64 : bl < 2 ^ 64)
    (hmax : max < 2 ^ 64) (hstep : self.alone_step call = some next) :
    ∃ k', next.FilledTo (fun _ => True) bl max k' := by
  obtain ⟨ret, halone⟩ := PinnedFixMemory.alone_step_eq_some hstep
  rcases Nat.eq_zero_or_pos bl with rfl | hbl
  · rw [h.alone_of_zero] at halone
    cases halone
  by_cases hword : bl * k + bl < 2 ^ 64
  · by_cases hroom : bl * k + bl ≤ max
    · obtain ⟨hlt, b, next', halone', rfl, -⟩ := h.alone_of_room hbl hword hroom call
      rw [halone'] at halone
      cases halone
      exact ⟨k + 1, h.publish hlt trivial⟩
    · rw [h.alone_of_full hword (by omega)] at halone
      cases halone
      exact ⟨k, h⟩
  · obtain ⟨fault, hfault⟩ := h.alone_of_wrap hbl hbl64 hmax (by omega) call
    rw [hfault] at halone
    cases halone

theorem PinnedFixMemory.filledTo_of_run {calls : List AllocCall} {s : PinnedFixMemory} (hbl64 : bl < 2 ^ 64)
    (hmax : max < 2 ^ 64) (hrun : run PinnedFixMemory.alone_step (.new bl max) calls = some s) :
    ∃ k, s.FilledTo (fun _ => True) bl max k := by
  refine run_invariant (I := fun s => ∃ k, s.FilledTo (fun _ => True) bl max k) ?_
    ⟨0, PinnedFixMemory.new_filledTo _ bl max⟩ hrun
  intro s call next hfilled hstep
  obtain ⟨k, h⟩ := hfilled
  exact h.alone_step hbl64 hmax hstep

/-- Between two states a complete block has been stored in the first empty slot. -/
def PinnedFixMemory.Published (self next : PinnedFixMemory) : Prop :=
  ∃ i b, (∀ j, j < i → ∃ old, self.blocks[j]? = some (some old)) ∧ self.blocks[i]? = some none ∧
    b.Complete ∧ next.blocks = self.blocks.set i (some b)

theorem PinnedFixMemory.FilledTo.published_iff {b : PinnedBlock} (h : self.FilledTo P bl max k)
    (hlt : k < max / bl) (hnext : next.blocks = self.blocks.set k (some b)) :
    self.Published next ↔ b.Complete := by
  constructor
  · rintro ⟨i, b', hbelow, hempty, hcomplete, hset⟩
    have hi : i = k := by
      rcases Nat.lt_trichotomy i k with hless | heq | hgreater
      · obtain ⟨old, hold, -⟩ := h.filled i hless
        rw [hold] at hempty
        cases hempty
      · exact heq
      · obtain ⟨old, hold⟩ := hbelow k hgreater
        rw [h.empty k (Nat.le_refl _) hlt] at hold
        cases hold
    subst hi
    have hslot := congrArg (fun blocks : List (Option PinnedBlock) => blocks[i]?) (hnext.symm.trans hset)
    rw [List.getElem?_set_self (by rw [h.size]; exact hlt), List.getElem?_set_self (by rw [h.size]; exact hlt)] at hslot
    cases hslot
    exact hcomplete
  · intro hcomplete
    refine ⟨k, b, ?_, h.empty k (Nat.le_refl _) hlt, hcomplete, hnext⟩
    intro j hj
    obtain ⟨old, hold, -⟩ := h.filled j hj
    exact ⟨old, hold⟩

/-- The call returns. It returns true exactly when it has published a complete
block, and otherwise it has changed nothing. -/
def PinnedFixMemory.AllOrNothing (self : PinnedFixMemory) (call : AllocCall) : Prop :=
  ∃ ret next, self.allocate_next_block_alone call = .ok (ret, next) ∧ (ret = true ↔ self.Published next) ∧
    (ret = false → next.next_offset = self.next_offset ∧ next.blocks = self.blocks)

/-- A call is all or nothing exactly when the end of its block is a word and,
if there is room for the block, there is memory for it that can be registered. -/
theorem PinnedFixMemory.all_or_nothing_iff {calls : List AllocCall} {s : PinnedFixMemory} (hbl64 : bl < 2 ^ 64)
    (hmax : max < 2 ^ 64) (hrun : run PinnedFixMemory.alone_step (.new bl max) calls = some s) (call : AllocCall) :
    s.AllOrNothing call ↔ 0 < bl ∧ s.next_offset + bl < 2 ^ 64 ∧
      (s.next_offset + bl ≤ max → call.mem ≠ none ∧ call.reg ≠ none) := by
  obtain ⟨k, h⟩ := PinnedFixMemory.filledTo_of_run hbl64 hmax hrun
  rw [h.next_offset]
  constructor
  · rintro ⟨ret, next, halone, htrue, -⟩
    have hbl : 0 < bl := by
      rcases Nat.eq_zero_or_pos bl with rfl | hbl
      · rw [h.alone_of_zero] at halone
        cases halone
      · exact hbl
    have hword : bl * k + bl < 2 ^ 64 := by
      by_contra hnot
      obtain ⟨fault, hfault⟩ := h.alone_of_wrap hbl hbl64 hmax (by omega) call
      rw [hfault] at halone
      cases halone
    refine ⟨hbl, hword, ?_⟩
    intro hroom
    obtain ⟨hlt, b, next', halone', rfl, hcomplete⟩ := h.alone_of_room hbl hword hroom call
    rw [halone'] at halone
    cases halone
    exact hcomplete.mp ((h.published_iff hlt rfl).mp (htrue.mp rfl))
  · rintro ⟨hbl, hword, hgiven⟩
    by_cases hroom : bl * k + bl ≤ max
    · obtain ⟨hlt, b, next, halone, rfl, hcomplete⟩ := h.alone_of_room hbl hword hroom call
      refine ⟨true, _, halone, ?_, by simp⟩
      rw [h.published_iff hlt rfl, hcomplete]
      exact ⟨fun _ => hgiven hroom, fun _ => rfl⟩
    · refine ⟨false, s, h.alone_of_full hword (by omega) call, ?_, fun _ => ⟨rfl, rfl⟩⟩
      constructor
      · intro hfalse
        cases hfalse
      · rintro ⟨i, b, -, hempty, -, hset⟩
        have hi : i < s.blocks.length := (List.getElem?_eq_some_iff.mp hempty).1
        rw [hset, List.getElem?_set_self hi] at hempty
        cases hempty

/-- With room for two blocks and no memory for the first one, its slot is taken
by a block without memory and the call returns true. -/
theorem PinnedFixMemory.not_all_or_nothing_of_no_memory :
    ¬ ∀ bl max calls s call, bl < 2 ^ 64 → max < 2 ^ 64 →
      run PinnedFixMemory.alone_step (.new bl max) calls = some s → s.AllOrNothing call := by
  intro hall
  obtain ⟨ret, next, halone, htrue, -⟩ := hall 64 128 [] (.new 64 128) ⟨1, 7, none, none⟩ (by decide) (by decide) rfl
  have h := PinnedFixMemory.new_filledTo (fun _ => True) 64 128
  obtain ⟨hlt, b, next', halone', rfl, hcomplete⟩ := h.alone_of_room (by decide) (by decide) (by decide)
    ⟨1, 7, none, none⟩
  rw [halone'] at halone
  cases halone
  exact (hcomplete.mp ((h.published_iff hlt rfl).mp (htrue.mp rfl))).1 rfl

theorem PinnedFixMemory.all_or_nothing_iff_second :
    ∃ s, run PinnedFixMemory.alone_step (.new 64 128) [⟨1, 7, some 4096, some 5⟩] = some s ∧
      (s.AllOrNothing ⟨1, 7, some 8192, none⟩ ↔ 0 < 64 ∧ s.next_offset + 64 < 2 ^ 64 ∧
        (s.next_offset + 64 ≤ 128 → (some 8192 : Option Nat) ≠ none ∧ (none : Option Nat) ≠ none)) :=
  have hcall : run PinnedFixMemory.alone_step (.new 64 128) [⟨1, 7, some 4096, some 5⟩] = some _ := rfl
  ⟨_, hcall, PinnedFixMemory.all_or_nothing_iff (by decide) (by decide) hcall ⟨1, 7, some 8192, none⟩⟩

end tc_rdma.mem_mag
