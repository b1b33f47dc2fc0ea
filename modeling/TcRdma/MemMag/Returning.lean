import TcRdma.MemMag.Arena
import TcRdma.MemMag.Refinement

open tc_rdma.machine

namespace tc_rdma.mem_mag

variable {bl max T : Nat} {s next : Pool T} {d : Dispenser}

/-- Each call that is made is counted when it begins. -/
theorem Pool.step_calls {label : Fin T × AllocAct} (hstep : s.step label = some next) :
    next.calls = s.calls + (if label.2.begins then 1 else 0) := by
  obtain ⟨-, ⟨fault, hmove, rfl⟩ | ⟨mem, pc, event, hmove, rfl⟩⟩ := Pool.step_cases hstep <;>
    generalize s.pc label.1 = before at hmove <;> generalize label.2 = act at hmove <;> cases hmove <;> rfl

theorem Pool.run_calls {labels : List (Fin T × AllocAct)} (hrun : run Pool.step s labels = some next) :
    next.calls = s.calls + labels.countP fun l => l.2.begins := by
  induction labels generalizing s with
  | nil =>
    cases hrun
    rfl
  | cons l labels ih =>
    obtain ⟨mid, hstep, hrest⟩ := run_cons_eq_some.mp hrun
    rw [ih hrest, Pool.step_calls hstep, List.countP_cons]
    omega

/-- The steps that a call of `allocate_next_block` has left at most. -/
def AllocPc.left : AllocPc → Nat
  | .idle => 0
  | .entered _ _ => 4
  | .claimed _ _ _ => 3
  | .fits _ _ _ => 2
  | .registered _ _ => 1
  | .refused => 1

theorem AllocPc.busy_iff (pc : AllocPc) : pc.busy = true ↔ 0 < pc.left := by
  cases pc <;> simp [AllocPc.busy, AllocPc.left]

theorem AllocPc.eq_idle_of_left {pc : AllocPc} (h : pc.left = 0) : pc = .idle := by
  cases pc with
  | idle => rfl
  | _ => cases h

theorem AllocPc.left_le (pc : AllocPc) : pc.left ≤ 4 := by
  cases pc <;> simp [AllocPc.left]

theorem Pool.step_of_ok {t : Fin T} {act : AllocAct} {mem : PinnedFixMemory} {pc : AllocPc} {event : AllocEvent}
    (hfault : s.fault = none) (hmove : s.mem.allocate_next_block (s.pc t) act = some (.ok (mem, pc, event))) :
    s.step (t, act) = some ({ s with mem := mem, pc := Function.update s.pc t pc }.record event) := by
  simp [Pool.step, hfault, hmove]

/-- A call that has begun can take its next step, whatever the others do. -/
theorem Pool.Dispensing.exists_move (h : s.Dispensing bl max d) (hbl : 0 < bl) {t : Fin T} (hbusy : 0 < (s.pc t).left) :
    ∃ act mem pc event, s.mem.allocate_next_block (s.pc t) act = some (.ok (mem, pc, event)) ∧
      act.begins = false ∧ pc.left < (s.pc t).left ∧ event ≠ .started := by
  cases hpc : s.pc t with
  | idle => simp [hpc, AllocPc.left] at hbusy
  | entered pd flags => exact ⟨.fetch_add, _, _, _, rfl, rfl, by simp [AllocPc.left], by simp⟩
  | claimed pd flags start =>
    by_cases hfits : u64 (start + s.mem.block_length) ≤ s.mem.max_size
    · refine ⟨.test_capacity, _, _, _, if_pos hfits, rfl, ?_, by simp⟩
      simp [AllocPc.left]
    · refine ⟨.test_capacity, _, _, _, if_neg hfits, rfl, ?_, by simp⟩
      simp [AllocPc.left]
  | fits pd flags start =>
    obtain ⟨mr, block, hok, -⟩ := PinnedBlock.reg_alloc_local_new start pd flags
      (by rw [h.block_length]; exact hbl : 0 < s.mem.block_length) none none
    refine ⟨.reg_alloc none none, s.mem, .registered (start / s.mem.block_length) block, .internal, ?_, rfl,
      ?_, by simp⟩
    · simp [PinnedFixMemory.allocate_next_block, hok]
    · simp [AllocPc.left]
  | registered idx block =>
    have hslot := (h.slots.held t idx (by rw [hpc]; rfl)).2
    refine ⟨.publish, { s.mem with blocks := s.mem.blocks.set idx (some block) }, .idle, .published idx, ?_,
      rfl, ?_, by simp⟩
    · simp [PinnedFixMemory.allocate_next_block, hslot]
    · simp [AllocPc.left]
  | refused => exact ⟨.fetch_sub, _, _, _, rfl, rfl, by simp [AllocPc.left], by simp⟩

/-- No call is ever blocked. -/
theorem Pool.Dispensing.exists_step (h : s.Dispensing bl max d) (hbl : 0 < bl) {t : Fin T} (hbusy : s.pc t ≠ .idle) :
    ∃ act, act.begins = false ∧ (s.step (t, act)).isSome := by
  have hpos : 0 < (s.pc t).left := Nat.pos_of_ne_zero fun hzero => hbusy (AllocPc.eq_idle_of_left hzero)
  obtain ⟨act, mem, pc, event, hmove, hact, -⟩ := h.exists_move hbl hpos
  exact ⟨act, hact, by rw [Pool.step_of_ok h.no_fault hmove]; rfl⟩

/-- A thread outside can call. -/
theorem Pool.Dispensing.can_call (h : s.Dispensing bl max d) {t : Fin T} (hidle : s.pc t = .idle) (pd flags : Nat) :
    s.step (t, .call pd flags) =
      some ({ s with pc := Function.update s.pc t (.entered pd flags) }.record .started) :=
  Pool.step_of_ok h.no_fault (by rw [hidle]; rfl)

/-- A pool in some run, with so many calls made. -/
structure Pool.Running (bl max calls : Nat) (s : Pool T) : Prop where
  dispensing : ∃ d, s.Dispensing bl max d
  calls : s.calls = calls

theorem Pool.record_calls {event : AllocEvent} (hevent : event ≠ .started) : (s.record event).calls = s.calls := by
  cases event with
  | started => exact absurd rfl hevent
  | _ => rfl

/-- A call that has begun returns when its thread goes on alone. -/
theorem Pool.Running.finish {calls : Nat} (h : s.Running bl max calls) (hbl : 0 < bl) (hfit : max + T * bl < 2 ^ 64)
    (t : Fin T) :
    ∃ more last, (∀ l ∈ more, l.2.begins = false) ∧ run Pool.step s more = some last ∧ last.Running bl max calls ∧
      last.pc = Function.update s.pc t .idle := by
  have hlower : ∀ a : Pool T, a.Running bl max calls ∧ (∀ u, u ≠ t → a.pc u = s.pc u) → 0 < (a.pc t).left →
      ∃ ls b, (∀ l ∈ ls, l.2.begins = false) ∧ run Pool.step a ls = some b ∧
        (b.Running bl max calls ∧ ∀ u, u ≠ t → b.pc u = s.pc u) ∧ (b.pc t).left < (a.pc t).left := by
    rintro a ⟨ha, hothers⟩ hbusy
    obtain ⟨d, hd⟩ := ha.dispensing
    obtain ⟨act, mem, pc, event, hmove, hact, hlt, hevent⟩ := hd.exists_move hbl hbusy
    have hstep := Pool.step_of_ok hd.no_fault hmove
    obtain ⟨e, -, he⟩ := hd.step hbl hfit hstep
    refine ⟨[(t, act)], _, by simpa using hact, run_singleton_of_step hstep, ⟨⟨⟨e, he⟩, ?_⟩, ?_⟩, ?_⟩
    · rw [Pool.record_calls hevent]
      exact ha.calls
    · intro u hu
      rw [Pool.record_pc]
      exact (Function.update_of_ne hu _ _).trans (hothers u hu)
    · rw [Pool.record_pc]
      simpa using hlt
  obtain ⟨more, last, hmore, hrun, ⟨hlast, hothers⟩, hdone⟩ := run_reaches hlower ⟨h, fun _ _ => rfl⟩
  refine ⟨more, last, hmore, hrun, hlast, ?_⟩
  funext u
  by_cases hu : u = t
  · subst u
    rw [Function.update_self]
    exact AllocPc.eq_idle_of_left hdone
  · rw [Function.update_of_ne hu]
    exact hothers u hu

/-- All calls that have begun return when no new one is made. -/
theorem Pool.Running.settle {calls : Nat} (h : s.Running bl max calls) (hbl : 0 < bl) (hfit : max + T * bl < 2 ^ 64) :
    ∃ more last, (∀ l ∈ more, l.2.begins = false) ∧ run Pool.step s more = some last ∧ last.Running bl max calls ∧
      last.Quiescent := by
  have hlower : ∀ a : Pool T, a.Running bl max calls → 0 < count AllocPc.busy a.pc →
      ∃ ls b, (∀ l ∈ ls, l.2.begins = false) ∧ run Pool.step a ls = some b ∧ b.Running bl max calls ∧
        count AllocPc.busy b.pc < count AllocPc.busy a.pc := by
    intro a ha hpos
    obtain ⟨t, ht⟩ := count_pos_iff.mp hpos
    obtain ⟨ls, b, hls, hrun, hb, hpc⟩ := ha.finish hbl hfit t
    have hupdate := count_update AllocPc.busy a.pc t .idle
    rw [← hpc, ht] at hupdate
    refine ⟨ls, b, hls, hrun, hb, ?_⟩
    simp only [AllocPc.busy, Bool.toNat_true, Bool.toNat_false] at hupdate
    omega
  obtain ⟨more, last, hmore, hrun, hlast, hdone⟩ := run_reaches hlower h
  refine ⟨more, last, hmore, hrun, hlast, fun t => AllocPc.eq_idle_of_left ?_⟩
  have hidle := (count_eq_zero_iff.mp hdone) t
  by_contra hleft
  rw [(AllocPc.busy_iff _).mpr (Nat.pos_of_ne_zero hleft)] at hidle
  cases hidle

/-- A step of a thread inside its call takes it closer to the return; the steps of others do not concern it. -/
theorem Pool.Dispensing.left_step (h : s.Dispensing bl max d) (hbl : 0 < bl) (hfit : max + T * bl < 2 ^ 64) {t : Fin T}
    {label : Fin T × AllocAct} (hother : label.1 = t → label.2.begins = false) (hstep : s.step label = some next) :
    (next.pc t).left + (if label.1 = t then 1 else 0) ≤ (s.pc t).left := by
  obtain ⟨e, -, he⟩ := h.step hbl hfit hstep
  obtain ⟨hfault, ⟨fault, -, rfl⟩ | ⟨mem, pc, event, hmove, rfl⟩⟩ := Pool.step_cases hstep
  · cases he.no_fault
  · rw [Pool.record_pc]
    by_cases ht : label.1 = t
    · subst t
      have hnot := hother rfl
      simp only [Function.update_self, if_true]
      revert hnot
      generalize hpc : s.pc label.1 = before at hmove
      generalize label.2 = act at hmove
      intro hnot
      cases hmove <;> simp [AllocPc.left, AllocAct.begins] at hnot ⊢
    · rw [if_neg ht, Nat.add_zero]
      exact (congrArg AllocPc.left (Function.update_of_ne (Ne.symm ht) pc s.pc)).le

/-- However the others go on, a call takes no more steps than it has left. -/
theorem Pool.Dispensing.run_left_le (h : s.Dispensing bl max d) (hbl : 0 < bl) (hfit : max + T * bl < 2 ^ 64)
    (t : Fin T) {more : List (Fin T × AllocAct)} (hmore : ∀ l ∈ more, l.1 = t → l.2.begins = false)
    (hrun : run Pool.step s more = some next) :
    more.countP (fun l => l.1 = t) + (next.pc t).left ≤ (s.pc t).left := by
  have hle := run_countP_le (P := fun l => l.1 = t → l.2.begins = false)
    (I := fun a => ∃ e, Pool.Dispensing bl max a e) (r := fun a => (a.pc t).left) (c := fun l => decide (l.1 = t))
    (fun a l b _ ⟨e, he⟩ hstep => (he.step hbl hfit hstep).imp fun _ hf => hf.2)
    (fun a l b hl ⟨e, he⟩ hstep => by simpa using he.left_step hbl hfit hl hstep) hmore ⟨d, h⟩ hrun
  rwa [Nat.add_comm]

end tc_rdma.mem_mag
