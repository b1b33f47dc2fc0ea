import Mathlib.Tactic.Ring
import TcRdma.MemMag.Dispensing

open tc_rdma.machine

namespace tc_rdma.mem_mag

variable {bl max T : Nat} {s : Pool T} {d : Dispenser}

/-- A step that changes neither the claim of its thread nor its part in the
counter keeps the refinement. -/
theorem Pool.Dispensing.internal (h : s.Dispensing bl max d) {t : Fin T} {v : AllocPc}
    (hsound : v.Sound bl) (hslot : v.slot bl max = (s.pc t).slot bl max)
    (hrefusing : v.refusing bl max = (s.pc t).refusing bl max) (hbusy : v.busy = (s.pc t).busy) :
    ({ s with pc := Function.update s.pc t v } : Pool T).Dispensing bl max d := by
  have hcount := count_update_of_eq (f := s.pc) hrefusing
  have hbusyCount := count_update_of_eq (f := s.pc) hbusy
  exact
    { h with
      offset := by simpa only [hcount] using h.offset
      full := by simpa only [hcount] using h.full
      slots := h.slots.update_same hsound hslot
      history := { h.history with calls := by simpa only [hbusyCount] using h.history.calls } }

/-- Entering a call only counts it. -/
theorem Pool.Dispensing.call (h : s.Dispensing bl max d) {t : Fin T} (pd flags : Nat)
    (hpc : s.pc t = .idle) :
    ({ s with pc := Function.update s.pc t (.entered pd flags), calls := s.calls + 1 } : Pool T).Dispensing
      bl max d := by
  have hcount : count (AllocPc.refusing bl max) (Function.update s.pc t (.entered pd flags)) =
      count (AllocPc.refusing bl max) s.pc := count_update_of_eq (by rw [hpc]; rfl)
  have hbusy := count_update AllocPc.busy s.pc t (.entered pd flags)
  rw [hpc] at hbusy
  simp only [AllocPc.busy, Bool.toNat_false, Bool.toNat_true] at hbusy
  have hcalls := h.history.calls
  refine { h with
    offset := by simpa only [hcount] using h.offset
    full := by simpa only [hcount] using h.full
    slots := h.slots.update_same trivial (by rw [hpc]; rfl)
    history := { h.history with calls := ?_ } }
  show s.calls + 1 = s.returned.length + count AllocPc.busy (Function.update s.pc t (.entered pd flags))
  omega

/-- The next offset leaves room for one more addition by a thread that has not
added yet. This is where the bound on the number of threads is used. -/
theorem Pool.Dispensing.offset_room (h : s.Dispensing bl max d) (hfit : max + T * bl < 2 ^ 64)
    {t : Fin T} (hpc : (s.pc t).refusing bl max = false) : s.mem.next_offset + bl < 2 ^ 64 := by
  have hcount : count (AllocPc.refusing bl max) s.pc < T := by
    simpa using count_lt_card (f := s.pc) hpc
  have hmax : bl * d.capacity ≤ max := by
    rw [h.capacity]
    exact Nat.mul_div_le max bl
  have hissued := d.issued_le
  rw [h.offset]
  calc bl * (d.issued + count (AllocPc.refusing bl max) s.pc) + bl
      = bl * (d.issued + count (AllocPc.refusing bl max) s.pc + 1) := by ring
    _ ≤ bl * (d.capacity + T) := Nat.mul_le_mul_left bl (by omega)
    _ = bl * d.capacity + T * bl := by ring
    _ < 2 ^ 64 := by omega

theorem Pool.Dispensing.end_eq (h : s.Dispensing bl max d) :
    s.mem.next_offset + bl = (d.issued + count (AllocPc.refusing bl max) s.pc + 1) * bl := by
  rw [h.offset]
  ring

/-- A block that begins at the next offset fits only if nobody is refusing and
a place is left. -/
theorem Pool.Dispensing.room_of_fits (h : s.Dispensing bl max d) (hbl : 0 < bl)
    (hfits : s.mem.next_offset + bl ≤ max) :
    count (AllocPc.refusing bl max) s.pc = 0 ∧ d.issued < d.capacity := by
  have hplace : d.issued + count (AllocPc.refusing bl max) s.pc + 1 ≤ d.capacity := by
    rw [h.capacity, Nat.le_div_iff_mul_le hbl, ← h.end_eq]
    exact hfits
  have hzero : count (AllocPc.refusing bl max) s.pc = 0 := by
    by_contra hne
    have hfull := h.full (by omega)
    omega
  exact ⟨hzero, by omega⟩

theorem Pool.Dispensing.full_of_not_fits (h : s.Dispensing bl max d) (hbl : 0 < bl)
    (hfits : ¬ s.mem.next_offset + bl ≤ max) : d.issued = d.capacity := by
  by_contra hne
  have hissued := d.issued_le
  have hzero : count (AllocPc.refusing bl max) s.pc = 0 := by
    by_contra hpos
    exact hne (h.full (by omega))
  apply hfits
  rw [h.end_eq, ← Nat.le_div_iff_mul_le hbl, ← h.capacity]
  omega

/-- The addition hands out the next place when it succeeds, and otherwise all
places have been handed out already. -/
theorem Pool.Dispensing.fetch_add (h : s.Dispensing bl max d) (hbl : 0 < bl)
    (hfit : max + T * bl < 2 ^ 64) {t : Fin T} {pd flags : Nat} (hpc : s.pc t = .entered pd flags) :
    ∃ e, Relation.ReflTransGen Dispenser.Step d e ∧
      ({ s with
          mem := { s.mem with next_offset := u64 (s.mem.next_offset + s.mem.block_length) }
          pc := Function.update s.pc t (.claimed pd flags s.mem.next_offset) } : Pool T).Dispensing bl max e := by
  have hroom := h.offset_room hfit (t := t) (by rw [hpc]; rfl)
  have hnext : u64 (s.mem.next_offset + s.mem.block_length) = s.mem.next_offset + bl := by
    rw [h.block_length, u64_of_lt hroom]
  have hsound : (AllocPc.claimed pd flags s.mem.next_offset).Sound bl :=
    ⟨⟨_, h.offset⟩, hroom⟩
  have hrefusing := count_update (AllocPc.refusing bl max) s.pc t (.claimed pd flags s.mem.next_offset)
  have hbusy : count AllocPc.busy (Function.update s.pc t (.claimed pd flags s.mem.next_offset)) =
      count AllocPc.busy s.pc := count_update_of_eq (by rw [hpc]; rfl)
  have hcalls := h.history.calls
  have hdiv : s.mem.next_offset / bl = d.issued + count (AllocPc.refusing bl max) s.pc := by
    rw [h.offset, Nat.mul_div_cancel_left _ hbl]
  rw [hpc] at hrefusing
  simp only [AllocPc.refusing, Bool.toNat_false, Nat.add_zero] at hrefusing
  by_cases hfits : s.mem.next_offset + bl ≤ max
  · obtain ⟨hzero, hless⟩ := h.room_of_fits hbl hfits
    simp only [not_lt.mpr hfits, decide_false, Bool.toNat_false] at hrefusing
    refine ⟨d.issue hless, .single (.issue d hless), ?_⟩
    refine { h with
      offset := ?_
      full := ?_
      slots := h.slots.claim hsound (by rw [hpc]; rfl) ?_ (by rw [h.size]; exact hless)
      history := { h.history with calls := by rw [hbusy]; exact hcalls, falses := ?_ } }
    · simp only [hnext, hrefusing, Dispenser.issue]
      rw [h.end_eq]
      ring
    · simp only [hrefusing, hzero]
      omega
    · simp only [AllocPc.slot, if_pos hfits, hdiv, hzero, Nat.add_zero]
    · intro hfalse
      have hissued := h.history.falses hfalse
      omega
  · have hfull := h.full_of_not_fits hbl hfits
    simp only [not_le.mp hfits, decide_true, Bool.toNat_true] at hrefusing
    refine ⟨d, .refl, ?_⟩
    refine { h with
      offset := ?_
      full := fun _ => hfull
      slots := h.slots.update_same hsound ?_
      history := { h.history with calls := by rw [hbusy]; exact hcalls } }
    · simp only [hnext, hrefusing]
      rw [h.end_eq]
      ring
    · rw [hpc]
      simp only [AllocPc.slot, if_neg hfits]

/-- Publishing fills the claimed slot and returns true. -/
theorem Pool.Dispensing.publish (h : s.Dispensing bl max d) {t : Fin T} {idx : Nat} {block : PinnedBlock}
    (hpc : s.pc t = .registered idx block) :
    ({ s with
        mem := { s.mem with blocks := s.mem.blocks.set idx (some block) }
        pc := Function.update s.pc t .idle
        published := s.published ++ [idx]
        returned := s.returned ++ [true] } : Pool T).Dispensing bl max d := by
  have hcount : count (AllocPc.refusing bl max) (Function.update s.pc t .idle) =
      count (AllocPc.refusing bl max) s.pc := count_update_of_eq (by rw [hpc]; rfl)
  have hbusy := count_update AllocPc.busy s.pc t .idle
  rw [hpc] at hbusy
  simp only [AllocPc.busy, Bool.toNat_false, Bool.toNat_true] at hbusy
  have hclaim : (s.pc t).slot bl max = some idx := by rw [hpc]; rfl
  obtain ⟨hidx, hempty⟩ := h.slots.held t idx hclaim
  have hlen : idx < s.mem.blocks.length := (List.getElem?_eq_some_iff.mp hempty).1
  have hcalls := h.history.calls
  have hnew : idx ∉ s.published := by
    intro hmem
    obtain ⟨b, hb⟩ := (h.history.published_iff idx).mp hmem
    rw [hempty] at hb
    cases hb
  refine { h with
    size := by simpa using h.size
    offset := by simpa only [hcount] using h.offset
    full := by simpa only [hcount] using h.full
    slots := h.slots.fill hpc trivial rfl
    history := { published_iff := ?_, nodup := ?_, trues := ?_, falses := ?_, calls := ?_ } }
  · intro i
    by_cases hne : idx = i
    · subst i
      simp [List.getElem?_set_self hlen]
    · rw [List.getElem?_set_ne hne, ← h.history.published_iff i, List.mem_append, List.mem_singleton]
      exact ⟨fun hi => hi.resolve_right (Ne.symm hne), .inl⟩
  · exact h.history.nodup.append (List.nodup_singleton idx) (by simpa using hnew)
  · simpa using h.history.trues
  · simpa using h.history.falses
  · simp only [List.length_append, List.length_singleton]
    omega

/-- Undoing the addition returns false. A call only does so when every place
has been handed out. -/
theorem Pool.Dispensing.fetch_sub (h : s.Dispensing bl max d) (hfit : max + T * bl < 2 ^ 64)
    {t : Fin T} (hpc : s.pc t = .refused) :
    d.issued = d.capacity ∧
    ({ s with
        mem := { s.mem with next_offset := u64_sub s.mem.next_offset s.mem.block_length }
        pc := Function.update s.pc t .idle
        returned := s.returned ++ [false] } : Pool T).Dispensing bl max d := by
  have hpositive : 0 < count (AllocPc.refusing bl max) s.pc := count_pos_iff.mpr ⟨t, by rw [hpc]; rfl⟩
  have hfull := h.full hpositive
  have hrefusing := count_update (AllocPc.refusing bl max) s.pc t .idle
  have hbusy := count_update AllocPc.busy s.pc t .idle
  rw [hpc] at hrefusing hbusy
  simp only [AllocPc.refusing, AllocPc.busy, Bool.toNat_false, Bool.toNat_true, Nat.add_zero] at hrefusing hbusy
  have hcalls := h.history.calls
  have hbelow : s.mem.next_offset ≤ max + T * bl := by
    have hcount : count (AllocPc.refusing bl max) s.pc ≤ T := by simpa using count_le_card (f := s.pc)
    have hmax : bl * d.capacity ≤ max := by
      rw [h.capacity]
      exact Nat.mul_div_le max bl
    calc s.mem.next_offset = bl * d.capacity + bl * count (AllocPc.refusing bl max) s.pc := by
          rw [h.offset, hfull]
          ring
      _ ≤ max + T * bl := by
          rw [Nat.mul_comm T bl]
          exact Nat.add_le_add hmax (Nat.mul_le_mul_left bl hcount)
  have hnext : s.mem.next_offset =
      bl * (d.issued + count (AllocPc.refusing bl max) (Function.update s.pc t .idle)) + bl := by
    rw [h.offset, ← hrefusing]
    ring
  have hsub : u64_sub s.mem.next_offset s.mem.block_length =
      bl * (d.issued + count (AllocPc.refusing bl max) (Function.update s.pc t .idle)) := by
    rw [h.block_length, u64_sub_of_le (by omega) (by omega)]
    omega
  refine ⟨hfull, { h with
    offset := hsub
    full := fun _ => hfull
    slots := h.slots.update_same trivial (by rw [hpc]; rfl)
    history := { h.history with trues := ?_, falses := fun _ => hfull, calls := ?_ } }⟩
  · simpa using h.history.trues
  · simp only [List.length_append, List.length_singleton]
    omega

/-- No step faults: the claimed slot exists and is empty, and the block under
construction is new. -/
theorem Pool.Dispensing.no_fault_step (h : s.Dispensing bl max d) (hbl : 0 < bl) {t : Fin T}
    {act : AllocAct} {fault : Fault} : ¬ AllocMove s.mem (s.pc t) act (.error fault) := by
  intro hmove
  generalize hpc : s.pc t = pc at hmove
  cases hmove with
  | reg_alloc_fault pd flags start local_mem reg fault hreg =>
    obtain ⟨mr, block, hok, -⟩ := PinnedBlock.reg_alloc_local_new start pd flags
      (by rw [h.block_length]; exact hbl : 0 < s.mem.block_length) local_mem reg
    rw [hreg] at hok
    cases hok
  | publish_range idx block hslot =>
    have hheld := (h.slots.held t idx (by rw [hpc]; rfl)).2
    rw [hslot] at hheld
    cases hheld
  | publish_taken idx block old hslot =>
    have hheld := (h.slots.held t idx (by rw [hpc]; rfl)).2
    rw [hslot] at hheld
    cases hheld

/-- Every step of the pool is matched by the dispenser, which hands out a
place exactly at an addition that succeeds. -/
theorem Pool.Dispensing.step (h : s.Dispensing bl max d) (hbl : 0 < bl) (hfit : max + T * bl < 2 ^ 64)
    {label : Fin T × AllocAct} {next : Pool T} (hstep : s.step label = some next) :
    ∃ e, Relation.ReflTransGen Dispenser.Step d e ∧ next.Dispensing bl max e := by
  obtain ⟨t, act⟩ := label
  obtain ⟨-, ⟨fault, hmove, -⟩ | ⟨mem, pc, event, hmove, rfl⟩⟩ := Pool.step_cases hstep
  · exact (h.no_fault_step hbl hmove).elim
  · dsimp only at hmove ⊢
    have hsound := h.slots.sound t
    generalize hpc : s.pc t = old at hmove hsound
    cases hmove with
    | call pd flags => exact ⟨d, .refl, h.call pd flags hpc⟩
    | fetch_add pd flags => exact h.fetch_add hbl hfit hpc
    | fits pd flags start hfits =>
      obtain ⟨hdvd, hbound⟩ := hsound
      rw [h.block_length, h.max_size, u64_of_lt hbound] at hfits
      refine ⟨d, .refl, h.internal hdvd ?_ ?_ ?_⟩
      · simp [hpc, AllocPc.slot, hfits]
      · simp [hpc, AllocPc.refusing, hfits]
      · simp [hpc, AllocPc.busy]
    | refuse pd flags start hfull =>
      obtain ⟨hdvd, hbound⟩ := hsound
      rw [h.block_length, h.max_size, u64_of_lt hbound] at hfull
      refine ⟨d, .refl, h.internal trivial ?_ ?_ ?_⟩
      · simp [hpc, AllocPc.slot, hfull]
      · simp [hpc, AllocPc.refusing, not_le.mp hfull]
      · simp [hpc, AllocPc.busy]
    | reg_alloc pd flags start local_mem reg mr block hreg =>
      obtain ⟨mr', block', hok, hvoff, hlen, -⟩ := PinnedBlock.reg_alloc_local_new start pd flags
        (by rw [h.block_length]; exact hbl : 0 < s.mem.block_length) local_mem reg
      rw [hreg] at hok
      cases hok
      rw [h.block_length] at hlen ⊢
      refine ⟨d, .refl, h.internal ⟨?_, hlen⟩ ?_ ?_ ?_⟩
      · rw [hvoff]
        exact (Nat.div_mul_cancel hsound).symm
      · simp [hpc, AllocPc.slot]
      · simp [hpc, AllocPc.refusing]
      · simp [hpc, AllocPc.busy]
    | publish idx block hslot => exact ⟨d, .refl, h.publish hpc⟩
    | fetch_sub => exact ⟨d, .refl, (h.fetch_sub hfit hpc).2⟩

/-- Every run of the pool refines a run of the dispenser. -/
theorem Pool.run_dispensing (hbl : 0 < bl) (hfit : max + T * bl < 2 ^ 64)
    {labels : List (Fin T × AllocAct)} {last : Pool T}
    (hrun : run Pool.step (Pool.new T bl max) labels = some last) :
    ∃ d, Relation.ReflTransGen Dispenser.Step (Dispenser.fresh (max / bl)) d ∧ last.Dispensing bl max d :=
  run_simulates (R := fun s d => s.Dispensing bl max d)
    (fun _ _ _ _ h hstep => h.step hbl hfit hstep)
    (Pool.dispensing_new T bl max) hrun

end tc_rdma.mem_mag
