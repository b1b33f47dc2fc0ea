import Mathlib.Algebra.BigOperators.Group.List.Basic
import Mathlib.Data.List.NodupEquivFin
import TcRdma.MemMag.Destroy

open tc_rdma.machine

namespace tc_rdma.mem_mag

variable {bl max T i : Nat} {s : Pool T} {d : Dispenser} {a b : PinnedBlock}

/-- The block is in slot `i`, or a thread carries it there. -/
def Pool.Houses (s : Pool T) (b : PinnedBlock) (i : Nat) : Prop :=
  s.mem.blocks[i]? = some (some b) ∨ ∃ t, s.pc t = .registered i b

theorem AllocPc.carries_iff {pc : AllocPc} : pc.carries b = true ↔ ∃ i, pc = .registered i b := by
  cases pc <;> simp [AllocPc.carries]

theorem Pool.Dispensing.housed (h : s.Dispensing bl max d) (hhouse : s.Houses b i) :
    i < max / bl ∧ b.virtual_offset = i * bl ∧ b.mem_length = bl := by
  have hle := d.issued_le
  rw [h.capacity] at hle
  rcases hhouse with hslot | ⟨t, hpc⟩
  · obtain ⟨hlt, hwell⟩ := h.slots.filled i b hslot
    exact ⟨by omega, hwell⟩
  · have hlt := (h.slots.held t i (by rw [hpc]; rfl)).1
    have hwell : b.virtual_offset = i * bl ∧ b.mem_length = bl := by
      simpa [AllocPc.Sound, hpc] using h.slots.sound t
    exact ⟨by omega, hwell⟩

theorem Pool.Dispensing.house_eq (h : s.Dispensing bl max d) (ha : s.Houses a i) (hb : s.Houses b i) : a = b := by
  rcases ha with ha | ⟨t, ht⟩
  · rcases hb with hb | ⟨u, hu⟩
    · rw [ha] at hb
      simpa using hb
    · have hempty := (h.slots.held u i (by rw [hu]; rfl)).2
      rw [ha] at hempty
      cases hempty
  · have hempty := (h.slots.held t i (by rw [ht]; rfl)).2
    rcases hb with hb | ⟨u, hu⟩
    · rw [hb] at hempty
      cases hempty
    · obtain rfl := h.slots.unique t u i (by rw [ht]; rfl) (by rw [hu]; rfl)
      rw [ht] at hu
      exact (AllocPc.registered.inj hu).2

theorem Pool.Dispensing.house_unique (h : s.Dispensing bl max d) (hbl : 0 < bl) {j : Nat} (hi : s.Houses b i)
    (hj : s.Houses b j) : i = j := by
  have heq : i * bl = j * bl := (h.housed hi).2.1.symm.trans (h.housed hj).2.1
  exact Nat.eq_of_mul_eq_mul_right hbl heq

/-- No block is in two slots, carried by two threads, or both. -/
theorem Pool.Dispensing.count_house_le (h : s.Dispensing bl max d) (hbl : 0 < bl) (b : PinnedBlock) :
    s.mem.blocks.count (some b) + count (AllocPc.carries b) s.pc ≤ 1 := by
  have hslots : s.mem.blocks.count (some b) ≤ 1 := by
    by_contra htwo
    obtain ⟨n, m, hlt, hn, hm⟩ := List.duplicate_iff_exists_distinct_get.mp
      (List.duplicate_iff_sublist.mpr (List.replicate_sublist_iff.mpr (Nat.lt_of_not_le htwo)))
    have heq := h.house_unique hbl (.inl (List.getElem?_eq_some_iff.mpr ⟨n.2, hn.symm⟩))
      (.inl (List.getElem?_eq_some_iff.mpr ⟨m.2, hm.symm⟩))
    omega
  have hthreads : count (AllocPc.carries b) s.pc ≤ 1 := by
    rw [count, Finset.card_le_one]
    intro t ht u hu
    obtain ⟨i, hi⟩ := AllocPc.carries_iff.mp (Finset.mem_filter.mp ht).2
    obtain ⟨j, hj⟩ := AllocPc.carries_iff.mp (Finset.mem_filter.mp hu).2
    obtain rfl := h.house_unique hbl (.inr ⟨t, hi⟩) (.inr ⟨u, hj⟩)
    exact h.slots.unique t u i (by rw [hi]; rfl) (by rw [hj]; rfl)
  by_contra hboth
  obtain ⟨t, ht⟩ := count_pos_iff.mp (show 0 < count (AllocPc.carries b) s.pc by omega)
  obtain ⟨j, hj⟩ := AllocPc.carries_iff.mp ht
  obtain ⟨i, hi, hslot⟩ := List.getElem_of_mem (List.count_pos_iff.mp (show 0 < s.mem.blocks.count (some b) by omega))
  have hfilled : s.mem.blocks[i]? = some (some b) := List.getElem?_eq_some_iff.mpr ⟨hi, hslot⟩
  obtain rfl := h.house_unique hbl (.inl hfilled) (.inr ⟨t, hj⟩)
  have hempty := (h.slots.held t i (by rw [hj]; rfl)).2
  rw [hfilled] at hempty
  cases hempty

/-- The virtual ranges of two blocks do not meet. -/
def PinnedBlock.Apart (a b : PinnedBlock) : Prop :=
  a.virtual_offset + a.mem_length ≤ b.virtual_offset ∨ b.virtual_offset + b.mem_length ≤ a.virtual_offset

theorem Pool.Dispensing.apart (h : s.Dispensing bl max d) {j : Nat} (ha : s.Houses a i) (hb : s.Houses b j)
    (hne : a ≠ b) : a.Apart b := by
  obtain ⟨-, hoff, hlen⟩ := h.housed ha
  obtain ⟨-, hoff', hlen'⟩ := h.housed hb
  rw [PinnedBlock.Apart, hoff, hoff', hlen, hlen']
  rcases Nat.lt_trichotomy i j with hlt | rfl | hlt
  · left
    simpa [Nat.succ_mul] using Nat.mul_le_mul_right bl (Nat.succ_le_of_lt hlt)
  · exact absurd (h.house_eq ha hb) hne
  · right
    simpa [Nat.succ_mul] using Nat.mul_le_mul_right bl (Nat.succ_le_of_lt hlt)

/-- Whatever the threads are doing, the blocks that exist at any moment own all
memory and all registrations that have not been given back, lie apart from one
another inside the pool, and take up no more than its size. -/
theorem Arena.blocks_fit (hbl : 0 < bl) (hfit : max + T * bl < 2 ^ 64) {labels : List (Fin T × AllocAct)} {s : Arena T}
    (hrun : run Arena.step (Arena.new T bl max) labels = some s) :
    ∃ held, Stock held s.log ∧ held.Pairwise PinnedBlock.Apart ∧
      (∀ b ∈ held, bl ∣ b.virtual_offset ∧ b.mem_length = bl ∧ b.virtual_offset + b.mem_length ≤ max) ∧
      (held.map PinnedBlock.mem_length).sum ≤ max := by
  obtain ⟨d, -, h⟩ := Pool.run_dispensing hbl hfit (Arena.run_pool hrun)
  have htracks : s.Tracks := run_invariant (fun _ _ _ h hstep => h.step hstep) (Arena.tracks_new T bl max) hrun
  obtain ⟨held, hstock, hcount⟩ := htracks.stock h.no_fault
  have hhouses : ∀ b ∈ held, ∃ i, s.pool.Houses b i := by
    intro b hb
    have hpos := List.count_pos_iff.mpr hb
    rw [hcount b] at hpos
    by_cases hslot : 0 < s.pool.mem.blocks.count (some b)
    · obtain ⟨i, hi, hget⟩ := List.getElem_of_mem (List.count_pos_iff.mp hslot)
      exact ⟨i, .inl (List.getElem?_eq_some_iff.mpr ⟨hi, hget⟩)⟩
    · obtain ⟨t, ht⟩ := count_pos_iff.mp (show 0 < count (AllocPc.carries b) s.pool.pc by omega)
      obtain ⟨i, hi⟩ := AllocPc.carries_iff.mp ht
      exact ⟨i, .inr ⟨t, hi⟩⟩
  have hnodup : held.Nodup := by
    rw [List.nodup_iff_count_le_one]
    intro b
    rw [hcount b]
    exact h.count_house_le hbl b
  have hwithin : ∀ b ∈ held, bl ∣ b.virtual_offset ∧ b.mem_length = bl ∧ b.virtual_offset + b.mem_length ≤ max := by
    intro b hb
    obtain ⟨i, hi⟩ := hhouses b hb
    obtain ⟨hlt, hoff, hlen⟩ := h.housed hi
    refine ⟨hoff ▸ Nat.dvd_mul_left bl i, hlen, ?_⟩
    calc b.virtual_offset + b.mem_length = (i + 1) * bl := by rw [hoff, hlen, Nat.succ_mul]
      _ ≤ max / bl * bl := Nat.mul_le_mul_right bl hlt
      _ ≤ max := Nat.div_mul_le_self max bl
  refine ⟨held, hstock, ?_, hwithin, ?_⟩
  · refine hnodup.imp_of_mem ?_
    intro a b ha hb hne
    obtain ⟨i, hi⟩ := hhouses a ha
    obtain ⟨j, hj⟩ := hhouses b hb
    exact h.apart hi hj hne
  · -- the slots of the blocks are different numbers below `max / bl`
    have hslots : (held.map fun b => b.virtual_offset / bl).Nodup := by
      refine hnodup.map_on ?_
      intro a ha b hb heq
      obtain ⟨i, hi⟩ := hhouses a ha
      obtain ⟨j, hj⟩ := hhouses b hb
      rw [(h.housed hi).2.1, (h.housed hj).2.1, Nat.mul_div_cancel _ hbl, Nat.mul_div_cancel _ hbl] at heq
      exact h.house_eq hi (heq ▸ hj)
    have hsub : (held.map fun b => b.virtual_offset / bl) ⊆ List.range (max / bl) := by
      intro n hn
      obtain ⟨b, hb, rfl⟩ := List.mem_map.mp hn
      obtain ⟨i, hi⟩ := hhouses b hb
      rw [(h.housed hi).2.1, Nat.mul_div_cancel _ hbl, List.mem_range]
      exact (h.housed hi).1
    have hlength : held.length ≤ max / bl := by
      simpa using (hslots.subperm hsub).length_le
    rw [List.map_congr_left fun b hb => (hwithin b hb).2.1, List.map_const', List.sum_replicate_nat]
    exact (Nat.mul_le_mul_right bl hlength).trans (Nat.div_mul_le_self max bl)

/-- One thread of the race has refused its offset, the other carries its block to the only slot. -/
theorem Arena.blocks_fit_race :
    ∃ s, run Arena.step (Arena.new 2 64 100) (raceSchedule.take 7) = some s ∧
      ∃ held, Stock held s.log ∧ held.Pairwise PinnedBlock.Apart ∧
        (∀ b ∈ held, 64 ∣ b.virtual_offset ∧ b.mem_length = 64 ∧ b.virtual_offset + b.mem_length ≤ 100) ∧
        (held.map PinnedBlock.mem_length).sum ≤ 100 := by
  have hsome : (run Arena.step (Arena.new 2 64 100) (raceSchedule.take 7)).isSome := by decide
  obtain ⟨s, hrun⟩ := Option.isSome_iff_exists.mp hsome
  exact ⟨s, hrun, Arena.blocks_fit (by decide) (by decide) hrun⟩

end tc_rdma.mem_mag
