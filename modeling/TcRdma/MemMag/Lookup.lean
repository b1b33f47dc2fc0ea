import TcRdma.MemMag.Allocate
import TcRdma.MemMag.Magr

open tc_rdma.machine

namespace tc_rdma.mem_mag

variable {bl max T R : Nat}

/-- The calls of `allocate_next_block` between a failing addition to
`next_offset` and the subtraction that undoes it. -/
def Magr.refused (s : Magr T R) : Nat :=
  count (AllocPc.refusing s.pool.mem.block_length s.pool.mem.max_size) s.pool.pc

/-- No lookup is about to access a slot that does not exist, and none has. -/
def Magr.InBounds (s : Magr T R) : Prop :=
  (∀ r voff i, s.reader r = .indexing voff i ∨ s.reader r = .reading voff i → i < s.pool.mem.blocks.length) ∧
    ∀ i, s.fault ≠ some (.slot_out_of_range i)

/-- A lookup that loads `next_offset` asks for an offset inside the pool, or
for one that lies at least as many blocks beyond the pool as there are calls
about to undo their addition. -/
def Magr.LoadCovered (s : Magr T R) : MagrAct T R → Prop
  | .lookup r .load_offset => ∀ voff len, s.reader r = .entered voff len →
      voff / len < s.pool.mem.blocks.length ∨ s.refused ≤ voff / len - s.pool.mem.blocks.length
  | _ => True

/-- What holds of a manager in every run: its pool refines a dispenser, and a
lookup past the assertions asks for a multiple of the block length. -/
structure Magr.Sound (bl max : Nat) (s : Magr T R) : Prop where
  pool : ∃ d, s.pool.Dispensing bl max d
  readers : ∀ r voff len, s.reader r = .entered voff len → len = bl ∧ bl ∣ voff

theorem Magr.sound_sized (T R bl max : Nat) : (Magr.sized T R bl max).Sound bl max :=
  ⟨⟨_, Pool.dispensing_new T bl max⟩, by simp [Magr.sized]⟩

theorem Magr.Sound.size {s : Magr T R} (h : s.Sound bl max) : s.pool.mem.blocks.length = max / bl := by
  obtain ⟨d, hd⟩ := h.pool
  rw [hd.size, hd.capacity]

theorem Magr.Sound.block_length {s : Magr T R} (h : s.Sound bl max) : s.pool.mem.block_length = bl := by
  obtain ⟨d, hd⟩ := h.pool
  exact hd.block_length

theorem Magr.Sound.step (hbl : 0 < bl) (hfit : max + T * bl < 2 ^ 64) {s next : Magr T R}
    {label : MagrAct T R} (h : s.Sound bl max) (hstep : s.step label = some next) : next.Sound bl max := by
  obtain ⟨d, hd⟩ := h.pool
  obtain ⟨-, hmove⟩ := Magr.step_move hstep
  cases hmove with
  | pool label inner pool hpool _ =>
    obtain ⟨e, -, he⟩ := hd.step hbl hfit hpool
    exact ⟨⟨e, he⟩, h.readers⟩
  | len_fault t pd flags len hlen => exact ⟨h.pool, h.readers⟩
  | lookup_fault r act fault hlookup => exact ⟨h.pool, h.readers⟩
  | lookup r act pc found hlookup =>
    refine ⟨h.pool, ?_⟩
    intro u voff len hu
    dsimp only at hu
    by_cases hur : u = r
    · subst u
      rw [Function.update_self] at hu
      subst pc
      generalize s.reader r = old at hlookup
      cases hlookup with
      | enter _ _ hlen hmod =>
        rw [hd.block_length] at hlen
        exact ⟨hlen, hlen ▸ Nat.dvd_of_mod_eq_zero hmod⟩
    · rw [Function.update_of_ne hur] at hu
      exact h.readers u voff len hu

/-- The test against `next_offset` keeps a lookup inside the pool exactly when
the offset is inside the pool or far enough beyond it. -/
theorem Magr.Sound.load_covered_iff (hbl : 0 < bl) {s : Magr T R} (h : s.Sound bl max) {r : Fin R}
    {voff len : Nat} (hpc : s.reader r = .entered voff len) :
    (voff < s.pool.mem.next_offset → voff / len < s.pool.mem.blocks.length) ↔
      voff / len < s.pool.mem.blocks.length ∨ s.refused ≤ voff / len - s.pool.mem.blocks.length := by
  obtain ⟨d, hd⟩ := h.pool
  obtain ⟨rfl, q, rfl⟩ := h.readers r voff len hpc
  have hissued := d.issued_le
  have hfull := hd.full
  rw [Nat.mul_div_cancel_left q hbl, hd.size, hd.offset, Nat.mul_lt_mul_left hbl, Magr.refused,
    hd.block_length, hd.max_size]
  omega

/-- A step whose load is covered keeps every lookup inside the pool. -/
theorem Magr.InBounds.step (hbl : 0 < bl) (hfit : max + T * bl < 2 ^ 64) {s next : Magr T R}
    {label : MagrAct T R} (h : s.Sound bl max) (hin : s.InBounds) (hcovered : s.LoadCovered label)
    (hstep : s.step label = some next) : next.InBounds := by
  have hsize : next.pool.mem.blocks.length = s.pool.mem.blocks.length := by
    rw [h.size, (h.step hbl hfit hstep).size]
  obtain ⟨-, hmove⟩ := Magr.step_move hstep
  cases hmove with
  | pool label inner pool hpool _ => exact ⟨by rw [hsize]; exact hin.1, hin.2⟩
  | len_fault t pd flags len hlen => exact ⟨hin.1, by simp⟩
  | lookup_fault r act fault hlookup =>
    refine ⟨hin.1, ?_⟩
    rintro i hfault
    cases hfault
    generalize hpc : s.reader r = pc at hlookup
    cases hlookup with
    | test_range voff _ hslot =>
      have hbound := hin.1 r voff i (.inl hpc)
      rw [List.getElem?_eq_none_iff] at hslot
      omega
    | read_range voff _ hslot =>
      have hbound := hin.1 r voff i (.inr hpc)
      rw [List.getElem?_eq_none_iff] at hslot
      omega
  | lookup r act pc found hlookup =>
    refine ⟨?_, hin.2⟩
    intro u voff i hu
    dsimp only at hu
    by_cases hur : u = r
    · subst u
      rw [Function.update_self] at hu
      generalize hpc : s.reader r = old at hlookup
      cases hlookup with
      | unfixed _ _ => simp at hu
      | enter _ _ _ _ => simp at hu
      | below voff len hless =>
        simp only [LookupPc.indexing.injEq, reduceCtorEq, or_false] at hu
        rw [← hu.2]
        exact (h.load_covered_iff hbl hpc).mpr (hcovered voff len hpc) hless
      | beyond _ _ _ => simp at hu
      | empty _ _ _ => simp at hu
      | filled voff i' _ _ =>
        simp only [LookupPc.reading.injEq, reduceCtorEq, false_or] at hu
        rw [← hu.2]
        exact hin.1 r voff i' (.inl hpc)
      | read _ _ _ _ => simp at hu
      | ret _ _ => simp at hu
    · rw [Function.update_of_ne hur] at hu
      exact hin.1 u voff i hu

theorem Magr.inBounds_sized (T R bl max : Nat) : (Magr.sized T R bl max).InBounds := by
  constructor <;> simp [Magr.sized]

/-- A load that is not covered takes its lookup out of the pool. -/
theorem Magr.covered_of_inBounds (hbl : 0 < bl) (hfit : max + T * bl < 2 ^ 64) {s next : Magr T R}
    {label : MagrAct T R} (h : s.Sound bl max) (hstep : s.step label = some next)
    (hin : next.InBounds) : s.LoadCovered label := by
  cases label with
  | allocate_pinned_memory t pd flags len => trivial
  | allocate t act => trivial
  | lookup r act =>
    cases act with
    | call voff len fixed => trivial
    | test_slot => trivial
    | read_mr => trivial
    | ret => trivial
    | load_offset =>
      intro voff len hpc
      rw [← h.load_covered_iff hbl hpc, h.size, ← (h.step hbl hfit hstep).size]
      intro hless
      obtain ⟨-, hmove⟩ := Magr.step_move hstep
      cases hmove with
      | pool _ inner pool hpool hno => exact absurd rfl (hno r .load_offset)
      | lookup_fault _ _ fault hlookup =>
        rw [hpc] at hlookup
        cases hlookup
      | lookup _ _ pc found hlookup =>
        rw [hpc] at hlookup
        cases hlookup with
        | below _ _ _ => exact hin.1 r voff (voff / len) (.inl (Function.update_self _ _ _))
        | beyond _ _ hle => omega

/-- No lookup of any run from a sound manager leaves the pool if and only if
every load of the run is covered. -/
theorem Magr.run_inBounds_iff (hbl : 0 < bl) (hfit : max + T * bl < 2 ^ 64) {s last : Magr T R}
    {labels : List (MagrAct T R)} (h : s.Sound bl max) (hin : s.InBounds)
    (hrun : run Magr.step s labels = some last) :
    (∀ front back mid, labels = front ++ back → run Magr.step s front = some mid → mid.InBounds) ↔
      StepsMeet Magr.step Magr.LoadCovered s labels := by
  constructor
  · intro hall front label back mid heq hmid
    have hsound : mid.Sound bl max := run_invariant (fun _ _ _ h => h.step hbl hfit) h hmid
    rw [heq] at hrun
    obtain ⟨mid', hmid', hrest⟩ := run_append_eq_some.mp hrun
    rw [hmid] at hmid'
    cases hmid'
    obtain ⟨next, hstep, -⟩ := run_cons_eq_some.mp hrest
    apply Magr.covered_of_inBounds hbl hfit hsound hstep
    apply hall (front ++ [label]) back next (by simp [heq])
    exact run_append_of_eq_some hmid (run_singleton_of_step hstep)
  · intro hmeet front back mid heq hmid
    have hfront : StepsMeet Magr.step Magr.LoadCovered s front := by
      intro left label right between hsplit
      apply hmeet left label (right ++ back) between
      simp [heq, hsplit]
    have hkeep : mid.Sound bl max ∧ mid.InBounds := by
      apply run_invariant_of_meet (I := fun s => s.Sound bl max ∧ s.InBounds) ?_ hfront ⟨h, hin⟩ hmid
      rintro s label next hcovered ⟨h, hin⟩ hstep
      exact ⟨h.step hbl hfit hstep, hin.step hbl hfit h hcovered hstep⟩
    exact hkeep.2

end tc_rdma.mem_mag
