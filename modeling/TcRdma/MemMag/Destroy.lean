import TcRdma.MemMag.Allocate
import TcRdma.MemMag.Arena

open tc_rdma.machine

namespace tc_rdma.mem_mag

variable {T : Nat}

/-- What the destructor leaves. -/
structure Destroyed where
  blocks : List (Option PinnedBlock)
  log : List ArenaOp
  fault : Option Fault

/-- The loop of `~Pinned_Fix_Memory` from index `i` on, which is a `uint`. The
result is `none` if the fuel does not suffice. -/
def destroy_loop : Nat → Nat → List (Option PinnedBlock) → List ArenaOp → Option Destroyed
  | 0, _, _, _ => none
  | fuel + 1, i, blocks, log =>
    if i < blocks.length then
      match blocks[i]? with
      | some (some block) => destroy_loop fuel (u32 (i + 1)) (blocks.set i none) (log ++ destroy_ops block)
      | _ => some { blocks := blocks, log := log, fault := some (.slot_null i) }
    else some { blocks := blocks, log := log, fault := none }

/-- `~Pinned_Fix_Memory`. -/
def Arena.destroy (s : Arena T) : Option Destroyed :=
  destroy_loop (s.pool.mem.blocks.length + 1) 0 s.pool.mem.blocks s.log

theorem destroy_loop_block {fuel i : Nat} {blocks : List (Option PinnedBlock)} {log : List ArenaOp}
    {block : PinnedBlock} (hblock : blocks[i]? = some (some block)) :
    destroy_loop (fuel + 1) i blocks log =
      destroy_loop fuel (u32 (i + 1)) (blocks.set i none) (log ++ destroy_ops block) := by
  rw [destroy_loop, if_pos (List.getElem?_eq_some_iff.mp hblock).1, hblock]

theorem destroy_loop_null {fuel i : Nat} {blocks : List (Option PinnedBlock)} {log : List ArenaOp}
    (hnull : blocks[i]? = some none) :
    destroy_loop (fuel + 1) i blocks log = some { blocks := blocks, log := log, fault := some (.slot_null i) } := by
  rw [destroy_loop, if_pos (List.getElem?_eq_some_iff.mp hnull).1, hnull]

/-- The loop over filled slots. The index has the value of a 32-bit word, so
after the last of 2 ^ 32 slots the loop comes back to the first one. -/
theorem destroy_loop_filled (fuel : Nat) (done tail : List (Option PinnedBlock)) (filled : List PinnedBlock)
    (log : List ArenaOp) (hsize : done.length + filled.length ≤ 2 ^ 32) :
    destroy_loop (fuel + filled.length) (u32 done.length) (done ++ filled.map some ++ tail) log =
      destroy_loop fuel (u32 (done.length + filled.length)) (done ++ List.replicate filled.length none ++ tail)
        (log ++ filled.flatMap destroy_ops) := by
  induction filled generalizing done log with
  | nil => simp
  | cons block filled ih =>
    rw [List.length_cons] at hsize
    have hindex : u32 done.length = done.length := Nat.mod_eq_of_lt (by omega)
    have hblock : (done ++ (block :: filled).map some ++ tail)[done.length]? = some (some block) := by simp
    have hset : (done ++ (block :: filled).map some ++ tail).set done.length none =
        (done ++ [none]) ++ filled.map some ++ tail := by simp
    have hlength : (done ++ [none (α := PinnedBlock)]).length = done.length + 1 := by simp
    rw [hindex, List.length_cons, ← Nat.add_assoc, destroy_loop_block hblock, hset, ← hlength, ih]
    · simp only [hlength, List.flatMap_cons, List.append_assoc, List.replicate_succ, List.nil_append,
        List.cons_append]
      rw [Nat.add_right_comm, ← Nat.add_assoc]
    · rw [hlength]
      omega

/-- A list of slots starts with filled ones, at most as many as looked for. -/
theorem exists_filled_prefix (n : Nat) (blocks : List (Option PinnedBlock)) :
    ∃ (filled : List PinnedBlock) (tail : List (Option PinnedBlock)), blocks = filled.map some ++ tail ∧
      filled.length ≤ n ∧ (filled.length = n ∨ tail = [] ∨ ∃ rest, tail = none :: rest) := by
  induction blocks generalizing n with
  | nil => exact ⟨[], [], rfl, Nat.zero_le _, .inr (.inl rfl)⟩
  | cons slot blocks ih =>
    cases n with
    | zero => exact ⟨[], slot :: blocks, rfl, Nat.le_refl _, .inl rfl⟩
    | succ n =>
      cases slot with
      | none => exact ⟨[], none :: blocks, rfl, Nat.zero_le _, .inr (.inr ⟨blocks, rfl⟩)⟩
      | some block =>
        obtain ⟨filled, tail, rfl, hle, hend⟩ := ih n
        refine ⟨block :: filled, tail, rfl, Nat.succ_le_succ hle, ?_⟩
        exact hend.imp_left fun hlength => by rw [List.length_cons, hlength]

theorem Stock.destruct_all {held : List PinnedBlock} {log : List ArenaOp} (h : Stock held log) :
    Stock [] (log ++ held.flatMap destroy_ops) := by
  induction held generalizing log with
  | nil => simpa using h
  | cons block held ih =>
    rw [List.flatMap_cons, ← List.append_assoc]
    exact ih h.destruct

/-- No null slot is dereferenced, and each registration, each memory and each
block is given back as often as it was obtained and only while it is live. -/
structure Destroyed.Clean (d : Destroyed) : Prop where
  no_fault : d.fault = none
  registrations : pool_registrations.Sound d.log ∧ pool_registrations.Closed d.log
  allocations : pool_allocations.Sound d.log ∧ pool_allocations.Closed d.log
  blocks : pool_blocks.Sound d.log ∧ pool_blocks.Closed d.log

theorem Stock.clean {log : List ArenaOp} (h : Stock [] log) (blocks : List (Option PinnedBlock)) :
    Destroyed.Clean { blocks := blocks, log := log, fault := none } where
  no_fault := rfl
  registrations := ⟨h.registered.sound, h.registered.closed_iff.mpr rfl⟩
  allocations := ⟨h.allocated.sound, h.allocated.closed_iff.mpr rfl⟩
  blocks := ⟨h.constructed.sound, h.constructed.closed_iff.mpr rfl⟩

/-- Every slot of the pool holds a block, and there are few enough of them for
the index of the destructor. -/
def PinnedFixMemory.Full (self : PinnedFixMemory) : Prop :=
  none ∉ self.blocks ∧ self.blocks.length < 2 ^ 32

/-- After any number of `allocate_next_block` calls that have returned, the
destructor ends, and it gives back everything exactly once without touching a
null slot if and only if the pool is full. -/
theorem Arena.destroy_clean_iff {block_len max : Nat} {labels : List (Fin T × AllocAct)} {s : Arena T}
    (hrun : run Arena.step (Arena.new T block_len max) labels = some s) (hq : s.pool.Quiescent) :
    ∃ d, s.destroy = some d ∧ (d.Clean ↔ s.pool.mem.Full) := by
  have hstock := Arena.stock_of_quiescent hrun hq
  obtain ⟨filled, tail, heq, hle, hend⟩ := exists_filled_prefix (2 ^ 32) s.pool.mem.blocks
  have hloop := destroy_loop_filled (tail.length + 1) [] tail filled s.log (by simpa using hle)
  have hfuel : tail.length + 1 + filled.length = (filled.map some ++ tail).length + 1 := by
    simp
    omega
  rw [List.length_nil, Nat.zero_add, List.nil_append, List.nil_append, hfuel] at hloop
  have hdestroy : s.destroy = destroy_loop (tail.length + 1) (u32 filled.length)
      (List.replicate filled.length none ++ tail) (s.log ++ filled.flatMap destroy_ops) := by
    rw [Arena.destroy, heq]
    exact hloop
  rw [hdestroy, PinnedFixMemory.Full, heq]
  rcases Nat.lt_or_ge filled.length (2 ^ 32) with hlt | hge
  · rw [show u32 filled.length = filled.length from Nat.mod_eq_of_lt hlt]
    rcases hend with hfull | rfl | ⟨rest, rfl⟩
    · omega
    · -- every slot is filled
      refine ⟨_, by rw [destroy_loop, if_neg (by simp)], ?_⟩
      have hheld : s.pool.mem.blocks.filterMap id = filled := by simp [heq, List.filterMap_map]
      rw [hheld] at hstock
      exact iff_of_true (hstock.destruct_all.clean _) ⟨by simp, by simpa using hlt⟩
    · -- the first empty slot
      refine ⟨_, destroy_loop_null (by simp), iff_of_false ?_ ?_⟩
      · intro hclean
        cases hclean.no_fault
      · rintro ⟨hnone, -⟩
        simp at hnone
  · -- the index wraps around to a slot that has been emptied
    have hlength : filled.length = 2 ^ 32 := by omega
    have hzero : u32 filled.length = 0 := by rw [hlength]; decide
    have hnull : (List.replicate filled.length none ++ tail)[0]? = some (none (α := PinnedBlock)) := by
      rw [List.getElem?_append_left (by simp; omega), List.getElem?_replicate, if_pos (by omega)]
    rw [hzero]
    refine ⟨_, destroy_loop_null hnull, iff_of_false ?_ ?_⟩
    · intro hclean
      cases hclean.no_fault
    · rintro ⟨-, hsize⟩
      simp at hsize
      omega

theorem Arena.run_pool {s last : Arena T} {labels : List (Fin T × AllocAct)}
    (hrun : run Arena.step s labels = some last) :
    run Pool.step s.pool labels = some last.pool := by
  induction labels generalizing s with
  | nil =>
    cases hrun
    rfl
  | cons label labels ih =>
    obtain ⟨next, hstep, hrest⟩ := run_cons_eq_some.mp hrun
    exact run_cons_eq_some.mpr ⟨next.pool, (Arena.step_eq_some hstep).1, ih hrest⟩

/-- As long as the counter does not wrap, the pool is full once there have been
as many calls as it has slots. -/
theorem Arena.full_iff_calls {bl max : Nat} (hbl : 0 < bl) (hfit : max + T * bl < 2 ^ 64)
    {labels : List (Fin T × AllocAct)} {s : Arena T} (hrun : run Arena.step (Arena.new T bl max) labels = some s)
    (hq : s.pool.Quiescent) : s.pool.mem.Full ↔ max / bl ≤ s.pool.calls ∧ max / bl < 2 ^ 32 := by
  obtain ⟨d, -, h⟩ := Pool.run_dispensing hbl hfit (Arena.run_pool hrun)
  have hissued := h.trues_eq_issued hq
  rw [h.trues_eq_min hq] at hissued
  have hlength : s.pool.mem.blocks.length = max / bl := by rw [h.size, h.capacity]
  rw [PinnedFixMemory.Full, hlength]
  refine and_congr_left' ⟨fun hfull => ?_, fun hcalls hnone => ?_⟩
  · by_contra hless
    have hroom : d.issued < s.pool.mem.blocks.length := by omega
    cases hslot : s.pool.mem.blocks[d.issued] with
    | none => exact hfull (hslot ▸ List.getElem_mem hroom)
    | some block =>
      have hfilled := (h.slots.filled d.issued block (by rw [List.getElem?_eq_getElem hroom, hslot])).1
      omega
  · obtain ⟨i, hi, hslot⟩ := List.getElem_of_mem hnone
    obtain ⟨block, hblock⟩ := (h.no_claim_of_quiescent hq i).mpr (by omega)
    rw [List.getElem?_eq_getElem hi, hslot] at hblock
    cases hblock

/-- One call of thread `t` that runs alone, with these answers. -/
def alloc_call (t : Fin T) (mem reg : Option Nat) : List (Fin T × AllocAct) :=
  [(t, .call 1 1), (t, .fetch_add), (t, .test_capacity), (t, .reg_alloc mem reg), (t, .publish)]

theorem Arena.destroy_clean_iff_two :
    ∃ s, run Arena.step (Arena.new 1 64 128) (alloc_call 0 (some 4096) (some 7) ++ alloc_call 0 (some 8192) none) =
        some s ∧
      ∃ d, s.destroy = some d ∧ (d.Clean ↔ s.pool.mem.Full) := by
  have hidle : ((run Arena.step (Arena.new 1 64 128)
      (alloc_call 0 (some 4096) (some 7) ++ alloc_call 0 (some 8192) none)).any
      fun s => decide (∀ t, s.pool.pc t = .idle)) = true := by decide
  obtain ⟨s, hrun, hidle⟩ := (Option.any_eq_true _ _).mp hidle
  have hq : ∀ t, s.pool.pc t = .idle := of_decide_eq_true hidle
  exact ⟨s, hrun, Arena.destroy_clean_iff hrun hq⟩

/-- A pool of two slots, destroyed after one call. -/
theorem destroy_partly_filled :
    ¬ ∀ (T block_len max : Nat) (labels : List (Fin T × AllocAct)) (s : Arena T),
      run Arena.step (Arena.new T block_len max) labels = some s → s.pool.Quiescent →
        ∃ d, s.destroy = some d ∧ d.Clean := by
  intro hclean
  have hfault : ((run Arena.step (Arena.new 1 64 128) (alloc_call 0 (some 4096) (some 7))).any
      fun s => decide ((∀ t, s.pool.pc t = .idle) ∧ s.destroy.all fun d => d.fault = some (.slot_null 1))) = true := by
    decide
  obtain ⟨s, hrun, hs⟩ := (Option.any_eq_true _ _).mp hfault
  obtain ⟨hidle, hnull⟩ := of_decide_eq_true hs
  obtain ⟨d, hd, hclean⟩ := hclean 1 64 128 _ s hrun hidle
  rw [hd] at hnull
  simp [hclean.no_fault] at hnull

end tc_rdma.mem_mag
