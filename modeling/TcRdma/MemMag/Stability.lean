import TcRdma.Machine.Log
import TcRdma.MemMag.Lookup

open tc_rdma.machine

namespace tc_rdma.mem_mag

variable {bl max T R : Nat}

/-- A slot that holds a block keeps it. -/
theorem Pool.block_of_step {s next : Pool T} {label : Fin T × AllocAct} (hstep : s.step label = some next) {i : Nat}
    {block : PinnedBlock} (hblock : s.mem.blocks[i]? = some (some block)) :
    next.mem.blocks[i]? = some (some block) := by
  obtain ⟨-, ⟨fault, hmove, rfl⟩ | ⟨mem, pc, event, hmove, rfl⟩⟩ := Pool.step_cases hstep
  · exact hblock
  · generalize s.pc label.1 = old at hmove
    generalize label.2 = act at hmove
    cases hmove with
    | call _ _ => exact hblock
    | fetch_add _ _ => exact hblock
    | fits _ _ _ _ => exact hblock
    | refuse _ _ _ _ => exact hblock
    | reg_alloc _ _ _ _ _ _ _ _ => exact hblock
    | fetch_sub => exact hblock
    | publish idx new hslot =>
      have hne : idx ≠ i := by
        rintro rfl
        rw [hslot] at hblock
        cases hblock
      show (s.mem.blocks.set idx (some new))[i]? = some (some block)
      rw [List.getElem?_set_ne hne]
      exact hblock

/-- The block at this offset is in its slot and has this region. -/
def PinnedFixMemory.Region (self : PinnedFixMemory) (voff : Nat) (mr : IbvMr) : Prop :=
  ∃ block, self.blocks[voff / self.block_length]? = some (some block) ∧ block.virtual_offset = voff ∧
    block.mem_length = self.block_length ∧ block.mr = some mr

/-- A lookup with `fixed` set, as it is by default. -/
def MagrAct.Fixed : MagrAct T R → Prop
  | .lookup _ (.call _ _ fixed) => fixed = true
  | _ => True

/-- A result that was found before is found again. -/
def Again (front : List Found) (found : Found) : Prop := ∀ mr, (found.1, some mr) ∈ front → found.2 = some mr

/-- What lookups have found is in the slots, it is what they return, and it is
what they find again. -/
structure Magr.Stable (bl : Nat) (s : Magr T R) : Prop where
  readers : ∀ r voff i, s.reader r = .indexing voff i ∨ s.reader r = .reading voff i → bl ∣ voff ∧ i = voff / bl
  returns : ∀ r voff result, s.reader r = .returning voff result → (voff, result) ∈ s.found
  region : ∀ voff mr, (voff, some mr) ∈ s.found → s.pool.mem.Region voff mr
  again : Always Again s.found

theorem Magr.stable_sized (T R bl max : Nat) : (Magr.sized T R bl max).Stable bl where
  readers := by simp [Magr.sized]
  returns := by simp [Magr.sized]
  region := by simp [Magr.sized]
  again := always_nil

variable {s next : Magr T R}

/-- A filled slot lies below the counter. -/
theorem Magr.Sound.below_of_region (hbl : 0 < bl) (h : s.Sound bl max) {voff : Nat} {mr : IbvMr}
    (hregion : s.pool.mem.Region voff mr) : voff < s.pool.mem.next_offset := by
  obtain ⟨d, hd⟩ := h.pool
  obtain ⟨block, hblock, hvoff, -⟩ := hregion
  obtain ⟨hissued, hplace, -⟩ := hd.slots.filled _ block hblock
  rw [hd.block_length] at hissued hplace
  calc voff = bl * (voff / bl) := by rw [Nat.mul_comm, ← hplace, hvoff]
    _ < bl * d.issued := Nat.mul_lt_mul_of_pos_left hissued hbl
    _ ≤ s.pool.mem.next_offset := by
      rw [hd.offset]
      exact Nat.mul_le_mul_left bl (Nat.le_add_right _ _)

/-- What one lookup finds is in the slots, and it is what was found before. -/
theorem Magr.Stable.found (hbl : 0 < bl) (hsound : s.Sound bl max) (h : s.Stable bl) {r : Fin R} {act : LookupAct}
    {pc : LookupPc} {voff : Nat} {result : Option IbvMr} (hfixed : MagrAct.Fixed (T := T) (.lookup r act))
    (hlookup : LookupMove s.pool.mem (s.reader r) act (.ok (pc, some (voff, result)))) :
    (∀ mr, result = some mr → s.pool.mem.Region voff mr) ∧ Again s.found (voff, result) := by
  obtain ⟨d, hd⟩ := hsound.pool
  generalize hpc : s.reader r = old at hlookup
  cases hlookup with
  | unfixed _ len => cases hfixed
  | beyond _ len hle =>
    refine ⟨by simp, ?_⟩
    intro mr hmem
    have hless := hsound.below_of_region hbl (h.region voff mr hmem)
    omega
  | empty _ i hslot =>
    refine ⟨by simp, ?_⟩
    intro mr hmem
    obtain ⟨-, rfl⟩ := h.readers r voff i (.inl hpc)
    obtain ⟨block, hblock, -⟩ := h.region voff mr hmem
    rw [hd.block_length, hslot] at hblock
    cases hblock
  | read _ i block hslot =>
    obtain ⟨hvoff, rfl⟩ := h.readers r voff i (.inr hpc)
    obtain ⟨-, hplace, hlength⟩ := hd.slots.filled _ block hslot
    constructor
    · intro mr hmr
      refine ⟨block, by rw [hd.block_length, hslot], ?_, by rw [hd.block_length, hlength], hmr⟩
      rw [hplace, Nat.div_mul_cancel hvoff]
    · intro mr hmem
      obtain ⟨other, hother, -, -, hmr⟩ := h.region voff mr hmem
      rw [hd.block_length, hslot] at hother
      cases hother
      exact hmr

/-- Lookups go from slot to slot as their offset says. -/
theorem Magr.Stable.reader (hsound : s.Sound bl max) (h : s.Stable bl) {r : Fin R} {act : LookupAct} {pc : LookupPc}
    {found : Option Found} (hlookup : LookupMove s.pool.mem (s.reader r) act (.ok (pc, found))) {voff i : Nat}
    (hnew : pc = .indexing voff i ∨ pc = .reading voff i) : bl ∣ voff ∧ i = voff / bl := by
  generalize hpc : s.reader r = old at hlookup
  cases hlookup with
  | unfixed _ _ => simp at hnew
  | enter _ _ _ _ => simp at hnew
  | below voff' len hless =>
    obtain ⟨rfl, hvoff⟩ := hsound.readers r voff' len hpc
    simp only [LookupPc.indexing.injEq, reduceCtorEq, or_false] at hnew
    obtain ⟨rfl, rfl⟩ := hnew
    exact ⟨hvoff, rfl⟩
  | beyond _ _ _ => simp at hnew
  | empty _ _ _ => simp at hnew
  | filled voff' i' block hslot =>
    simp only [LookupPc.reading.injEq, reduceCtorEq, false_or] at hnew
    obtain ⟨rfl, rfl⟩ := hnew
    exact h.readers r voff' i' (.inl hpc)
  | read _ _ _ _ => simp at hnew
  | ret _ _ => simp at hnew

/-- The step that decides a result tells it. -/
theorem LookupMove.returning {mem : PinnedFixMemory} {pc : LookupPc} {act : LookupAct} {voff : Nat}
    {result : Option IbvMr} {found : Option Found}
    (hlookup : LookupMove mem pc act (.ok (.returning voff result, found))) : found = some (voff, result) := by
  cases hlookup <;> rfl

theorem Magr.Stable.step (hbl : 0 < bl) (hfit : max + T * bl < 2 ^ 64) {label : MagrAct T R} (hsound : s.Sound bl max)
    (h : s.Stable bl) (hfixed : label.Fixed) (hstep : s.step label = some next) : next.Stable bl := by
  have hlength : next.pool.mem.block_length = s.pool.mem.block_length := by
    rw [hsound.block_length, (hsound.step hbl hfit hstep).block_length]
  obtain ⟨-, hmove⟩ := Magr.step_move hstep
  cases hmove with
  | pool label inner pool hpool _ =>
    refine ⟨h.readers, h.returns, ?_, h.again⟩
    intro voff mr hmem
    obtain ⟨block, hblock, hrest⟩ := h.region voff mr hmem
    exact ⟨block, by rw [hlength]; exact Pool.block_of_step hpool hblock, by rw [hlength]; exact hrest⟩
  | len_fault t pd flags len hlen => exact ⟨h.readers, h.returns, h.region, h.again⟩
  | lookup_fault r act fault hlookup => exact ⟨h.readers, h.returns, h.region, h.again⟩
  | lookup r act pc found hlookup =>
    constructor
    · intro u voff i hu
      dsimp only at hu
      by_cases hur : u = r
      · subst u
        rw [Function.update_self] at hu
        exact h.reader hsound hlookup hu
      · rw [Function.update_of_ne hur] at hu
        exact h.readers u voff i hu
    · intro u voff result hu
      dsimp only at hu
      by_cases hur : u = r
      · subst u
        rw [Function.update_self] at hu
        subst pc
        obtain rfl := hlookup.returning
        exact List.mem_append_right _ (by simp)
      · rw [Function.update_of_ne hur] at hu
        exact List.mem_append_left _ (h.returns u voff result hu)
    · intro voff mr hmem
      rcases List.mem_append.mp hmem with hmem | hmem
      · exact h.region voff mr hmem
      · obtain rfl := Option.mem_toList.mp hmem
        exact (h.found hbl hsound hfixed hlookup).1 mr rfl
    · cases found with
      | none =>
        rw [Option.toList_none, List.append_nil]
        exact h.again
      | some found => exact always_concat.mpr ⟨h.again, (h.found hbl hsound hfixed hlookup).2⟩

/-- Any number of threads may allocate, successfully or not, while others look
up. What a lookup returns is what it has found. If that is not null, it is the
region of the block at the offset it asked for, and every lookup of this offset
that decides later finds the same region, also when it has begun before. -/
theorem Magr.get_pinned_mr_stable (hbl : 0 < bl) (hfit : max + T * bl < 2 ^ 64) {labels : List (MagrAct T R)}
    (hfixed : ∀ label ∈ labels, label.Fixed) (hrun : run Magr.step (Magr.sized T R bl max) labels = some s) :
    (∀ r voff result, s.reader r = .returning voff result → (voff, result) ∈ s.found) ∧
    (∀ voff mr, (voff, some mr) ∈ s.found → ∃ block, s.pool.mem.blocks[voff / bl]? = some (some block) ∧
      block.virtual_offset = voff ∧ block.mem_length = bl ∧ block.mr = some mr) ∧
    ∀ front back voff mr, s.found = front ++ (voff, some mr) :: back → ∀ result, (voff, result) ∈ back →
      result = some mr := by
  have hkeep : s.Sound bl max ∧ s.Stable bl := by
    apply run_invariant_of (I := fun s => s.Sound bl max ∧ s.Stable bl) ?_ hfixed
      ⟨Magr.sound_sized T R bl max, Magr.stable_sized T R bl max⟩ hrun
    rintro s label next hfixed ⟨hsound, h⟩ hstep
    exact ⟨hsound.step hbl hfit hstep, h.step hbl hfit hsound hfixed hstep⟩
  obtain ⟨hsound, h⟩ := hkeep
  refine ⟨h.returns, ?_, ?_⟩
  · intro voff mr hmem
    have hregion := h.region voff mr hmem
    rw [PinnedFixMemory.Region, hsound.block_length] at hregion
    exact hregion
  · intro front back voff mr heq result hmem
    obtain ⟨before, after, rfl⟩ := List.append_of_mem hmem
    have hagain := h.again (front ++ (voff, some mr) :: before) (voff, result) after (by rw [heq]; simp)
    exact hagain mr (by simp)

/-- Two lookups of the only slot, the second one while a failing call has
raised the counter. -/
def lookupSchedule (t : Fin T) (r : Fin R) : List (MagrAct T R) :=
  [.allocate_pinned_memory t 1 1 64, .allocate t .fetch_add, .allocate t .test_capacity,
    .allocate t (.reg_alloc (some 4096) (some 7)), .allocate t .publish, .lookup r (.call 0 64 true),
    .lookup r .load_offset, .lookup r .test_slot, .lookup r .read_mr, .lookup r .ret,
    .allocate_pinned_memory t 1 1 64, .allocate t .fetch_add, .lookup r (.call 0 64 true), .lookup r .load_offset,
    .allocate t .test_capacity, .allocate t .fetch_sub, .lookup r .test_slot, .lookup r .read_mr]

theorem Magr.get_pinned_mr_stable_twice :
    ∃ s, run Magr.step (Magr.sized 1 1 64 64) (lookupSchedule 0 0) = some s ∧
      s.found = [(0, some ⟨7, 1, 4096, 64, 1⟩), (0, some ⟨7, 1, 4096, 64, 1⟩)] ∧
      ∃ block, s.pool.mem.blocks[0 / 64]? = some (some block) ∧ block.virtual_offset = 0 ∧ block.mem_length = 64 ∧
        block.mr = some ⟨7, 1, 4096, 64, 1⟩ := by
  have hfound : ((run Magr.step (Magr.sized 1 1 64 64) (lookupSchedule 0 0)).any
      fun s => decide (s.found = [(0, some ⟨7, 1, 4096, 64, 1⟩), (0, some ⟨7, 1, 4096, 64, 1⟩)])) = true := by decide
  obtain ⟨s, hrun, hs⟩ := (Option.any_eq_true _ _).mp hfound
  have hfound := of_decide_eq_true hs
  have hfixed : ∀ label ∈ lookupSchedule (T := 1) (R := 1) 0 0, label.Fixed := by simp [lookupSchedule, MagrAct.Fixed]
  have hstable := Magr.get_pinned_mr_stable (by decide) (by decide) hfixed hrun
  exact ⟨s, hrun, hfound, hstable.2.1 0 _ (by rw [hfound]; exact .head _)⟩

end tc_rdma.mem_mag
