import TcRdma.MemMag.Lookup

open tc_rdma.machine

namespace tc_rdma.mem_mag

variable {bl max T R : Nat}

/-- One call of `allocate_next_block` by thread `t` that runs alone and finds
a slot. -/
def completeCall (t : Fin T) : List (Fin T × AllocAct) :=
  [(t, .call 0 0), (t, .fetch_add), (t, .test_capacity), (t, .reg_alloc (some 4096) (some 1)), (t, .publish)]

/-- With no call in flight and a place left, a call that runs alone succeeds. -/
theorem Pool.Dispensing.run_completeCall (hbl : 0 < bl) (hfit : max + T * bl < 2 ^ 64) {s : Pool T}
    {d : Dispenser} (h : s.Dispensing bl max d) (hq : s.Quiescent) (hroom : d.issued < d.capacity)
    (t : Fin T) : ∃ next, run Pool.step s (completeCall t) = some next ∧
      next.returned = s.returned ++ [true] ∧ next.Quiescent := by
  have hoffset : s.mem.next_offset = bl * d.issued := by
    rw [h.offset, count_eq_zero_of_quiescent rfl hq, Nat.add_zero]
  have hfits : u64 (s.mem.next_offset + s.mem.block_length) ≤ s.mem.max_size := by
    rw [h.block_length, h.max_size, u64_of_lt (h.offset_room hfit (t := t) (by rw [hq t]; rfl)), hoffset]
    calc bl * d.issued + bl = (d.issued + 1) * bl := by ring
      _ ≤ max := by
        rw [← Nat.le_div_iff_mul_le hbl, ← h.capacity]
        exact hroom
  have hslot : s.mem.blocks[s.mem.next_offset / s.mem.block_length]? = some none := by
    rw [h.block_length, hoffset, Nat.mul_div_cancel_left _ hbl]
    have hlen : d.issued < s.mem.blocks.length := by rw [h.size]; exact hroom
    rw [List.getElem?_eq_getElem hlen]
    cases hb : s.mem.blocks[d.issued] with
    | none => rfl
    | some b =>
      have hfilled := (h.slots.filled d.issued b (by rw [List.getElem?_eq_getElem hlen, hb])).1
      omega
  obtain ⟨mr, block, hreg, -⟩ := PinnedBlock.reg_alloc_local_new s.mem.next_offset 0 0
    (by rw [h.block_length]; exact hbl : 0 < s.mem.block_length) (some 4096) (some 1)
  simp only [run, completeCall, Pool.step, PinnedFixMemory.allocate_next_block, Pool.record, h.no_fault, hq t,
    Option.bind_some, Function.update_self, if_pos hfits, hreg, hslot, Option.some.injEq, exists_eq_left',
    true_and]
  intro u
  by_cases hu : u = t
  · subst u
    exact Function.update_self _ _ _
  · simp only [Function.update_of_ne hu]
    exact hq u

/-- The label of the manager for a step of its pool. -/
def liftAlloc (len : Nat) : Fin T × AllocAct → MagrAct T R
  | (t, .call pd flags) => .allocate_pinned_memory t pd flags len
  | (t, act) => .allocate t act

/-- A run of the pool is a run of the manager that only allocates. -/
theorem Magr.run_liftAlloc (hbl : 0 < bl) (hfit : max + T * bl < 2 ^ 64) {s : Magr T R} (h : s.Sound bl max)
    (hfault : s.fault = none) {labels : List (Fin T × AllocAct)} {pool : Pool T}
    (hrun : run Pool.step s.pool labels = some pool) :
    run Magr.step s (labels.map (liftAlloc bl)) = some { s with pool := pool } := by
  induction labels generalizing s with
  | nil =>
    cases hrun
    rfl
  | cons label labels ih =>
    obtain ⟨mid, hstep, hrest⟩ := run_cons_eq_some.mp hrun
    have hmagr : s.step (liftAlloc bl label) = some { s with pool := mid } := by
      obtain ⟨t, act⟩ := label
      cases act <;> simp [Magr.step, liftAlloc, hfault, h.block_length, hstep]
    rw [List.map_cons, run_cons_eq_some]
    exact ⟨_, hmagr, ih (h.step hbl hfit hmagr) hfault hrest⟩

/-- Calls of one thread, each running alone, that fill `n` slots. -/
def fillLabels (n : Nat) : List (Fin 1 × AllocAct) := (List.replicate n (completeCall 0)).flatten

theorem Pool.run_fillLabels (hbl : 0 < bl) (hfit : max + 1 * bl < 2 ^ 64) {n : Nat} (hn : n ≤ max / bl) :
    ∃ s, run Pool.step (Pool.new 1 bl max) (fillLabels n) = some s ∧ s.Quiescent ∧ s.returned.count true = n := by
  induction n with
  | zero => exact ⟨_, rfl, fun _ => rfl, rfl⟩
  | succ n ih =>
    obtain ⟨s, hrun, hq, htrues⟩ := ih (by omega)
    obtain ⟨d, -, hd⟩ := Pool.run_dispensing hbl hfit hrun
    have hissued := hd.trues_eq_issued hq
    obtain ⟨next, hnext, hreturned, hquiet⟩ := hd.run_completeCall hbl hfit hq (by rw [hd.capacity]; omega) 0
    refine ⟨next, ?_, hquiet, by simp [hreturned, htrues]⟩
    have hlabels : fillLabels (n + 1) = fillLabels n ++ completeCall 0 := by
      simp [fillLabels, List.replicate_succ']
    rw [hlabels]
    exact run_append_of_eq_some hrun hnext

/-- The pool is filled; an allocation then adds to `next_offset` and, before
it subtracts again, a lookup asks for the first offset beyond the pool. -/
def overrunLabels (bl max : Nat) : List (MagrAct 1 1) :=
  (fillLabels (max / bl)).map (liftAlloc bl) ++
    [.allocate_pinned_memory 0 0 0 bl, .allocate 0 .fetch_add, .lookup 0 (.call (bl * (max / bl)) bl true),
      .lookup 0 .load_offset, .lookup 0 .test_slot]

/-- A call that has been made and has added to the counter. -/
theorem Pool.Dispensing.run_addition {s : Pool T} {d : Dispenser} (h : s.Dispensing bl max d) (hq : s.Quiescent)
    (t : Fin T) : ∃ next, run Pool.step s [(t, .call 0 0), (t, .fetch_add)] = some next ∧ next.fault = none ∧
      next.mem = { s.mem with next_offset := u64 (s.mem.next_offset + bl) } := by
  simp only [run, Pool.step, PinnedFixMemory.allocate_next_block, Pool.record, h.no_fault, hq t, h.block_length,
    Option.bind_some, Function.update_self, Option.some.injEq, exists_eq_left', and_self]

/-- A lookup below the counter whose slot does not exist. -/
theorem Magr.run_lookup_overrun {s : Magr T R} (r : Fin R) (voff : Nat) (hfault : s.fault = none)
    (hpool : s.pool.fault = none) (hreader : s.reader r = .idle) (hlen : bl = s.pool.mem.block_length)
    (hmod : voff % bl = 0) (hless : voff < s.pool.mem.next_offset) (hslot : s.pool.mem.blocks[voff / bl]? = none) :
    ∃ last, run Magr.step s [.lookup r (.call voff bl true), .lookup r .load_offset, .lookup r .test_slot] =
      some last ∧ last.fault = some (.slot_out_of_range (voff / bl)) := by
  simp only [run, Magr.step, PinnedFixMemory.get_pinned_mr, hfault, hpool, hreader, hlen.symm, hmod, hless, hslot,
    Bool.true_eq_false, ne_eq, not_true_eq_false, if_true, if_false, Function.update_self, Option.bind_some,
    Option.some.injEq, exists_eq_left']

/-- A lookup that meets one failing allocation on a full pool accesses the
slot after the last one. -/
theorem Magr.run_overrunLabels (bl max : Nat) (hbl : 0 < bl) (hfit : max + 1 * bl < 2 ^ 64) :
    ∃ s, run Magr.step (Magr.sized 1 1 bl max) (overrunLabels bl max) = some s ∧
      s.fault = some (.slot_out_of_range (max / bl)) := by
  obtain ⟨full, hfill, hq, htrues⟩ := Pool.run_fillLabels hbl hfit (Nat.le_refl (max / bl))
  obtain ⟨d, -, hd⟩ := Pool.run_dispensing hbl hfit hfill
  obtain ⟨pool, hadd, hfault, hmem⟩ := hd.run_addition hq 0
  have hallocate := Magr.run_liftAlloc hbl hfit (Magr.sound_sized 1 1 bl max) rfl (run_append_of_eq_some hfill hadd)
  have hroom := hd.offset_room hfit (t := 0) (by rw [hq 0]; rfl)
  have hdiv : bl * (max / bl) / bl = max / bl := Nat.mul_div_cancel_left _ hbl
  obtain ⟨last, hlookup, hoverrun⟩ := Magr.run_lookup_overrun
    (s := { Magr.sized 1 1 bl max with pool := pool }) 0 (bl * (max / bl)) rfl hfault rfl
    (by rw [hmem]; exact hd.block_length.symm) (Nat.mul_mod_right bl _)
    (by rw [hmem, u64_of_lt hroom, hd.offset_eq hq, htrues]; exact Nat.lt_add_of_pos_right hbl)
    (by rw [hmem, hdiv, List.getElem?_eq_none_iff, hd.size, hd.capacity])
  refine ⟨last, ?_, by rw [hoverrun, hdiv]⟩
  rw [List.map_append] at hallocate
  have hrun := run_append_of_eq_some hallocate hlookup
  rwa [List.append_assoc] at hrun

/-- The lookups of a manager stay inside its pool in exactly those runs in
which every load is covered: a lookup of an offset beyond the pool must not
meet more failing allocations in flight than it lies blocks beyond the pool. -/
theorem Magr.get_pinned_mr_in_bounds_iff (hthreads : T + 2 ^ 14 < 2 ^ 44) {labels : List (MagrAct T R)}
    {last : Magr T R} (hrun : run Magr.step (Magr.new T R) labels = some last) :
    (∀ front back mid, labels = front ++ back → run Magr.step (Magr.new T R) front = some mid →
      mid.InBounds) ↔ StepsMeet Magr.step Magr.LoadCovered (Magr.new T R) labels := by
  have hfit : MAX_MEMORY_LENGTH + T * FIX_BLOCK_LENGTH < 2 ^ 64 := by
    unfold MAX_MEMORY_LENGTH FIX_BLOCK_LENGTH
    omega
  exact Magr.run_inBounds_iff (by decide) hfit (Magr.sound_sized T R _ _)
    (Magr.inBounds_sized T R _ _) hrun

/-- A full lookup of an offset whose slot is filled. -/
def filledLookup (r : Fin R) (voff bl : Nat) : List (MagrAct T R) :=
  [.lookup r (.call voff bl true), .lookup r .load_offset, .lookup r .test_slot, .lookup r .read_mr, .lookup r .ret]

/-- A full lookup of an offset that is not below the counter. -/
def beyondLookup (r : Fin R) (voff bl : Nat) : List (MagrAct T R) :=
  [.lookup r (.call voff bl true), .lookup r .load_offset, .lookup r .ret]

section Lookups

variable {s : Magr T R} (r : Fin R) (voff : Nat)

theorem Magr.run_filledLookup (hfault : s.fault = none) (hpool : s.pool.fault = none) (hreader : s.reader r = .idle)
    (hlen : bl = s.pool.mem.block_length) (hmod : voff % bl = 0) (hless : voff < s.pool.mem.next_offset)
    {block : PinnedBlock} (hslot : s.pool.mem.blocks[voff / bl]? = some (some block)) :
    ∃ last, run Magr.step s (filledLookup r voff bl) = some last ∧ last.fault = none ∧ last.pool = s.pool ∧
      last.reader r = .idle ∧ last.found = s.found ++ [(voff, block.mr)] := by
  simp only [filledLookup, run, Magr.step, PinnedFixMemory.get_pinned_mr, hfault, hpool, hreader, hlen.symm, hmod,
    hless, hslot, Bool.true_eq_false, ne_eq, not_true_eq_false, if_true, if_false, Function.update_self,
    Option.bind_some, Option.some.injEq, exists_eq_left', true_and, Option.toList_none, Option.toList_some,
    List.append_nil]

theorem Magr.run_beyondLookup (hfault : s.fault = none) (hpool : s.pool.fault = none) (hreader : s.reader r = .idle)
    (hlen : bl = s.pool.mem.block_length) (hmod : voff % bl = 0) (hnot : ¬ voff < s.pool.mem.next_offset) :
    ∃ last, run Magr.step s (beyondLookup r voff bl) = some last ∧ last.fault = none ∧ last.pool = s.pool ∧
      last.reader r = .idle ∧ last.found = s.found ++ [(voff, none)] := by
  simp only [beyondLookup, run, Magr.step, PinnedFixMemory.get_pinned_mr, hfault, hpool, hreader, hlen.symm, hmod,
    hnot, Bool.true_eq_false, ne_eq, not_true_eq_false, if_false, Function.update_self, Option.bind_some,
    Option.some.injEq, exists_eq_left', true_and, Option.toList_none, Option.toList_some, List.append_nil]

/-- Of a lookup only the load of the counter has to be covered. -/
theorem Magr.lookup_covered (hreader : s.reader r = .idle) (hfault : s.fault = none) (hpool : s.pool.fault = none)
    (hlen : bl = s.pool.mem.block_length) (hmod : voff % bl = 0)
    (hcovered : voff / bl < s.pool.mem.blocks.length ∨ s.refused ≤ voff / bl - s.pool.mem.blocks.length)
    (rest : List (MagrAct T R)) (hrest : ∀ label ∈ rest, ∀ a : Magr T R, a.LoadCovered label) :
    StepsMeet Magr.step Magr.LoadCovered s (.lookup r (.call voff bl true) :: .lookup r .load_offset :: rest) := by
  have hcall : s.step (.lookup r (.call voff bl true)) =
      some { s with reader := Function.update s.reader r (.entered voff bl) } := by
    simp only [Magr.step, PinnedFixMemory.get_pinned_mr, hfault, hpool, hreader, hlen.symm, hmod, Bool.true_eq_false,
      ne_eq, not_true_eq_false, if_false, Option.toList_none, List.append_nil]
  refine (stepsMeet_cons hcall).mpr ⟨trivial, ?_⟩
  rintro front label back mid heq hmid
  cases front with
  | nil =>
    obtain ⟨rfl, rfl⟩ := List.cons.inj heq
    cases hmid
    intro voff' len' hentered
    dsimp only at hentered
    rw [Function.update_self] at hentered
    cases hentered
    exact hcovered
  | cons head front =>
    obtain ⟨-, rfl⟩ := List.cons.inj heq
    exact hrest label (by simp) mid

end Lookups

/-- With one thread that allocates, a counter above the pool is the doing of
one call. -/
theorem Pool.Dispensing.refusing_eq_one {s : Pool 1} {d : Dispenser} (h : s.Dispensing bl max d) (hbl : 0 < bl)
    (hoffset : s.mem.next_offset = bl * (max / bl) + bl) : count (AllocPc.refusing bl max) s.pc = 1 := by
  have hle : count (AllocPc.refusing bl max) s.pc ≤ 1 := by simpa using count_le_card (f := s.pc)
  have hissued := d.issued_le
  rw [h.capacity] at hissued
  rw [h.offset, ← Nat.mul_succ] at hoffset
  have hsum := Nat.eq_of_mul_eq_mul_left hbl hoffset
  omega

/-- The pool is filled; while an allocation that will fail has added to
`next_offset`, one lookup asks for the first block and another for the offset
one block beyond the first that is not in the pool. -/
def coveredLabels (bl max : Nat) : List (MagrAct 1 1) :=
  (fillLabels (max / bl) ++ [(0, AllocAct.call 0 0), (0, AllocAct.fetch_add)]).map (liftAlloc bl) ++
    (filledLookup 0 0 bl ++ beyondLookup 0 (bl * (max / bl + 1)) bl)

theorem liftAlloc_covered (len : Nat) (label : Fin T × AllocAct) (s : Magr T R) :
    s.LoadCovered (liftAlloc len label) := by
  obtain ⟨t, act⟩ := label
  cases act <;> trivial

theorem Magr.run_coveredLabels (bl max : Nat) (hbl : 0 < bl) (hmax : bl ≤ max) (hfit : max + 1 * bl < 2 ^ 64) :
    ∃ s, run Magr.step (Magr.sized 1 1 bl max) (coveredLabels bl max) = some s ∧
      StepsMeet Magr.step Magr.LoadCovered (Magr.sized 1 1 bl max) (coveredLabels bl max) ∧ s.refused = 1 ∧
      ∃ block, s.pool.mem.blocks[0]? = some (some block) ∧
        s.found = [(0, block.mr), (bl * (max / bl + 1), none)] := by
  obtain ⟨full, hfill, hq, htrues⟩ := Pool.run_fillLabels hbl hfit (Nat.le_refl (max / bl))
  obtain ⟨d, -, hd⟩ := Pool.run_dispensing hbl hfit hfill
  obtain ⟨pool, hadd, hfault, hmem⟩ := hd.run_addition hq 0
  have hall := run_append_of_eq_some hfill hadd
  obtain ⟨e, -, he⟩ := Pool.run_dispensing hbl hfit hall
  have hallocate := Magr.run_liftAlloc hbl hfit (Magr.sound_sized 1 1 bl max) rfl hall
  have hplaces : 0 < max / bl := Nat.div_pos hmax hbl
  have hoffset : pool.mem.next_offset = bl * (max / bl) + bl := by
    rw [hmem, u64_of_lt (hd.offset_room hfit (t := 0) (by rw [hq 0]; rfl)), hd.offset_eq hq, htrues]
  have hrefusing := he.refusing_eq_one hbl hoffset
  have hsize : pool.mem.blocks.length = max / bl := by rw [he.size, he.capacity]
  obtain ⟨block, hblock⟩ : ∃ block, pool.mem.blocks[0]? = some (some block) := by
    rw [hmem]
    exact (hd.no_claim_of_quiescent hq 0).mpr (by rw [← hd.trues_eq_issued hq, htrues]; exact hplaces)
  have hdiv : bl * (max / bl + 1) / bl = max / bl + 1 := Nat.mul_div_cancel_left _ hbl
  obtain ⟨mid, hmid, hmidFault, hmidPool, hmidReader, hmidFound⟩ := Magr.run_filledLookup
    (s := { Magr.sized 1 1 bl max with pool := pool }) 0 0 rfl hfault rfl he.block_length.symm (Nat.zero_mod bl)
    (by rw [hoffset]; exact Nat.add_pos_right _ hbl) (by rw [Nat.zero_div]; exact hblock)
  obtain ⟨last, hlast, -, hlastPool, -, hlastFound⟩ := Magr.run_beyondLookup 0 (bl * (max / bl + 1)) hmidFault
    (by rw [hmidPool]; exact hfault) hmidReader (by rw [hmidPool]; exact he.block_length.symm) (Nat.mul_mod_right bl _)
    (by rw [hmidPool, hoffset, Nat.mul_succ]; exact Nat.lt_irrefl _)
  have hrefused : ∀ a : Magr 1 1, a.pool = pool → a.refused = 1 := by
    rintro a rfl
    rw [Magr.refused, he.block_length, he.max_size]
    exact hrefusing
  have hinside := Magr.lookup_covered (s := { Magr.sized 1 1 bl max with pool := pool }) 0 0 rfl rfl hfault
    he.block_length.symm (Nat.zero_mod bl) (.inl (by rw [Nat.zero_div, hsize]; exact hplaces))
    [.lookup 0 .test_slot, .lookup 0 .read_mr, .lookup 0 .ret] (by simp [Magr.LoadCovered])
  have hbeyond := Magr.lookup_covered 0 (bl * (max / bl + 1)) hmidReader hmidFault (by rw [hmidPool]; exact hfault)
    (hmidPool ▸ he.block_length.symm) (Nat.mul_mod_right bl _)
    (.inr (by rw [hrefused mid hmidPool, hmidPool, hdiv, hsize, Nat.add_sub_cancel_left]))
    [.lookup 0 .ret] (by simp [Magr.LoadCovered])
  refine ⟨last, run_append_of_eq_some hallocate (run_append_of_eq_some hmid hlast), ?_,
    hrefused last (hlastPool.trans hmidPool), block, ?_, ?_⟩
  · refine (stepsMeet_of_forall ?_).append hallocate (hinside.append hmid hbeyond)
    intro label hmem a
    obtain ⟨inner, -, rfl⟩ := List.mem_map.mp hmem
    exact liftAlloc_covered bl inner a
  · rw [hlastPool, hmidPool]
    exact hblock
  · rw [hlastFound, hmidFound]
    rfl

/-- On the full pool of a manager a failing call is in flight; one lookup asks
for the first block, the other for the offset 16 GB + 1 MB, and neither leaves
the pool. -/
theorem Magr.get_pinned_mr_in_bounds_iff_full :
    ∃ last, run Magr.step (Magr.new 1 1) (coveredLabels FIX_BLOCK_LENGTH MAX_MEMORY_LENGTH) = some last ∧
      last.refused = 1 ∧
      (∃ block, last.pool.mem.blocks[0]? = some (some block) ∧
        last.found = [(0, block.mr), (FIX_BLOCK_LENGTH * (MAX_MEMORY_LENGTH / FIX_BLOCK_LENGTH + 1), none)]) ∧
      StepsMeet Magr.step Magr.LoadCovered (Magr.new 1 1) (coveredLabels FIX_BLOCK_LENGTH MAX_MEMORY_LENGTH) ∧
      ∀ front back mid, coveredLabels FIX_BLOCK_LENGTH MAX_MEMORY_LENGTH = front ++ back →
        run Magr.step (Magr.new 1 1) front = some mid → mid.InBounds := by
  obtain ⟨last, hrun, hmeet, hrefused, hfound⟩ := Magr.run_coveredLabels FIX_BLOCK_LENGTH
    MAX_MEMORY_LENGTH (by decide) (by decide) (by decide)
  exact ⟨last, hrun, hrefused, hfound, hmeet, (Magr.get_pinned_mr_in_bounds_iff (by decide) hrun).mpr hmeet⟩

/-- One failing allocation on the full pool lets a lookup of the offset 16 GB
access the slot after the last one. -/
theorem Magr.get_pinned_mr_out_of_bounds :
    ∃ s, run Magr.step (Magr.new 1 1) (overrunLabels FIX_BLOCK_LENGTH MAX_MEMORY_LENGTH) = some s ∧
      s.fault = some (.slot_out_of_range (MAX_MEMORY_LENGTH / FIX_BLOCK_LENGTH)) ∧ ¬ s.InBounds := by
  obtain ⟨s, hrun, hfault⟩ := Magr.run_overrunLabels FIX_BLOCK_LENGTH MAX_MEMORY_LENGTH (by decide) (by decide)
  exact ⟨s, hrun, hfault, fun hin => hin.2 _ hfault⟩

end tc_rdma.mem_mag
