import TcRdma.MemMag.BlockOwnership

open tc_rdma.machine

namespace tc_rdma.mem_mag

variable {block : PinnedBlock} {log : List BlockOp} {s next : BlockLife}

/-- A pointer that is returned is null or a live registration of memory that is
held. A registering call that returns while memory is held has attempted the
registration again when the last attempt has failed. -/
def BlockOp.Answers (length : Nat) (front : List BlockOp) : BlockOp → Prop
  | .returned result =>
    (∀ mr, result = some mr → registrations.Live front mr ∧ allocations.Live front mr.addr ∧ mr.length = length) ∧
    ((∃ mem, allocations.Live front mem) → ∀ before after, front = before ++ .ibv_reg_mr none :: after →
      after = [] ∨ ∃ mr, .ibv_reg_mr mr ∈ after)
  | _ => True

/-- `pinned` says whether a registration is live, and the answers are right. -/
structure PinnedRight (block : PinnedBlock) (log : List BlockOp) : Prop where
  pinned_iff : block.pinned = true ↔ ∃ mr, registrations.Live log mr
  answers : Always (BlockOp.Answers block.mem_length) log

/-- A call of `reg_local_mr` on this block with this answer goes well: the
registration succeeds if it is attempted, and without memory there is no old
registration in `mr`. -/
def PinnedBlock.Sure (self : PinnedBlock) (reg : Option Nat) : Prop :=
  (self.registers = true → reg ≠ none) ∧ (self.local_mem = none → self.mr = none)

/-- A registering call goes well, once its memory has been obtained. -/
def BlockAct.Sure (s : BlockLife) : BlockAct → Prop
  | .reg_local_mr _ _ reg => s.block.Sure reg
  | .reg_alloc_local _ _ mem reg => { s.block with local_mem := mem }.Sure reg
  | _ => True

instance (self : PinnedBlock) (reg : Option Nat) : Decidable (self.Sure reg) :=
  inferInstanceAs (Decidable (_ ∧ _))

theorem pinnedRight_new (voff len : Nat) : PinnedRight (.new voff len) [] where
  pinned_iff := by
    constructor
    · intro hpinned
      cases hpinned
    · rintro ⟨mr, hlive⟩
      exact absurd hlive ((owned_new voff len).not_live rfl mr)
  answers := always_nil

theorem Owned.exists_live_iff (h : Owned block log) :
    (∃ mr, registrations.Live log mr) ↔ ∃ mr, block.live = some mr :=
  exists_congr fun mr => h.live_iff mr

/-- Where `pinned` is right, it comes with a registration in `mr`. -/
theorem PinnedRight.live_of_pinned (hright : PinnedRight block log) (h : Owned block log)
    (hpinned : block.pinned = true) : ∃ mr, block.live = some mr ∧ block.mr = some mr := by
  obtain ⟨mr, hlive⟩ := h.exists_live_iff.mp (hright.pinned_iff.mp hpinned)
  refine ⟨mr, hlive, ?_⟩
  rw [PinnedBlock.live, if_pos hpinned] at hlive
  exact hlive

/-- An entry that concerns no registration and returns nothing. -/
theorem PinnedRight.ignore (hright : PinnedRight block log) (h : Owned block log) {op : BlockOp} {block' : PinnedBlock}
    (hnext : Owned block' (log ++ [op])) (hlive : block'.live = block.live) (hpinned : block'.pinned = block.pinned)
    (hlength : block'.mem_length = block.mem_length) (hanswers : op.Answers block.mem_length log) :
    PinnedRight block' (log ++ [op]) where
  pinned_iff := by
    rw [hpinned, hnext.exists_live_iff, hlive, ← h.exists_live_iff]
    exact hright.pinned_iff
  answers := by
    rw [hlength]
    exact always_concat.mpr ⟨hright.answers, hanswers⟩

theorem PinnedRight.allocate (hright : PinnedRight block log) (h : Owned block log) (hnone : block.local_mem = none)
    (mem : Option Nat) : PinnedRight { block with local_mem := mem } (log ++ [.aligned_alloc mem]) :=
  hright.ignore h (h.allocate hnone mem) rfl rfl rfl trivial

theorem PinnedRight.unreg_local_mr (hright : PinnedRight block log) (h : Owned block log) :
    PinnedRight block.unreg_local_mr.2 (log ++ PinnedBlock.unreg_ops block.unreg_local_mr.1) := by
  unfold PinnedBlock.unreg_local_mr
  split
  · rename_i mr hpinned hmr
    have hlive : block.live = some mr := by simp [PinnedBlock.live, hpinned, hmr]
    have hnext := h.deregister hlive
    constructor
    · constructor
      · intro hpinned
        cases hpinned
      · rintro ⟨other, hlive⟩
        exact absurd hlive (hnext.not_live rfl other)
    · exact always_concat.mpr ⟨hright.answers, trivial⟩
  · simpa [PinnedBlock.unreg_ops] using hright

theorem PinnedRight.unreg_free_local (hright : PinnedRight block log) (h : Owned block log) :
    PinnedRight block.unreg_free_local.2.2
      (log ++ PinnedBlock.unreg_ops block.unreg_free_local.1 ++
        PinnedBlock.free_ops block.unreg_free_local.2.1) := by
  obtain ⟨hunreg, hnone, -⟩ := h.unreg_local_mr
  have hright' := hright.unreg_local_mr h
  unfold PinnedBlock.unreg_free_local
  dsimp only
  cases hmem : block.unreg_local_mr.2.local_mem with
  | some mem => exact hright'.ignore hunreg (hunreg.free hmem hnone) rfl rfl rfl trivial
  | none => simpa [PinnedBlock.free_ops] using hright'

/-- A registering call that goes well keeps `pinned` right and answers rightly. -/
theorem PinnedRight.reg_local_mr (hright : PinnedRight block log) (h : Owned block log)
    (hnever : .ibv_reg_mr none ∉ log) (pd flags : Nat) {reg : Option Nat} (hsure : block.Sure reg) :
    PinnedRight (block.reg_local_mr pd flags reg).2
        (log ++ block.reg_ops (block.reg_local_mr pd flags reg).1) ∧
      .ibv_reg_mr none ∉ log ++ block.reg_ops (block.reg_local_mr pd flags reg).1 := by
  have hnone_fails : ∀ before after, log ≠ before ++ .ibv_reg_mr none :: after := by
    rintro before after rfl
    simp at hnever
  unfold PinnedBlock.reg_ops
  cases hcalls : block.registers with
  | true =>
    obtain ⟨hpinned, addr, hmem⟩ := PinnedBlock.registers_eq_true.mp hcalls
    obtain ⟨handle, rfl⟩ := Option.ne_none_iff_exists'.mp (hsure.1 hcalls)
    have hlive : block.live = none := by simp [PinnedBlock.live, hpinned]
    rw [PinnedBlock.reg_local_mr_of_unpinned hpinned hmem, if_pos rfl, ← List.append_assoc]
    have hnext := h.register ⟨handle, pd, addr, block.mem_length, flags⟩ hmem rfl hlive
    refine ⟨⟨?_, ?_⟩, by simpa using hnever⟩
    · have hreturned := hnext.returned (some ⟨handle, pd, addr, block.mem_length, flags⟩)
      exact iff_of_true rfl (hreturned.exists_live_iff.mpr ⟨_, rfl⟩)
    · refine always_concat.mpr ⟨always_concat.mpr ⟨hright.answers, trivial⟩, ?_, ?_⟩
      · rintro mr ⟨⟩
        exact ⟨(hnext.live_iff _).mpr rfl, hnext.allocated.live_iff.mpr (by simp [hmem]), rfl⟩
      · intro _ before after heq
        have hmem : BlockOp.ibv_reg_mr none ∈
            log ++ [.ibv_reg_mr (some ⟨handle, pd, addr, block.mem_length, flags⟩)] := by
          rw [Option.map_some] at heq
          rw [heq]
          simp
        simp [hnever] at hmem
  | false =>
    rw [PinnedBlock.reg_local_mr_of_not_registers hcalls, if_neg (by simp), List.nil_append]
    refine ⟨hright.ignore h (h.returned _) rfl rfl rfl ⟨?_, ?_⟩, by simpa using hnever⟩
    · intro mr hmr
      cases hmem : block.local_mem with
      | none =>
        rw [hsure.2 hmem] at hmr
        cases hmr
      | some addr =>
        have hpinned : block.pinned = true := by simpa [PinnedBlock.registers, hmem] using hcalls
        obtain ⟨other, hlive, hother⟩ := hright.live_of_pinned h hpinned
        obtain rfl : other = mr := Option.some.inj (hother.symm.trans hmr)
        obtain ⟨hcovers, hlength⟩ := h.covers other hlive
        exact ⟨(h.live_iff other).mpr hlive, h.allocated.live_iff.mpr (by simp [hcovers]), hlength⟩
    · intro _ before after heq
      exact absurd heq (hnone_fails before after)

/-- A registering call after which `pinned` is right has gone well. -/
theorem Owned.sure (h : Owned block log) {pd flags : Nat} {reg : Option Nat}
    (hnext : PinnedRight (block.reg_local_mr pd flags reg).2
      (log ++ block.reg_ops (block.reg_local_mr pd flags reg).1)) : block.Sure reg := by
  constructor
  · -- a failed attempt sets `pinned` although nothing is registered
    rintro hcalls rfl
    have howned := h.reg_local_mr pd flags none
    obtain ⟨hpinned, addr, hmem⟩ := PinnedBlock.registers_eq_true.mp hcalls
    rw [PinnedBlock.reg_local_mr_of_unpinned hpinned hmem] at hnext howned
    obtain ⟨mr, hlive, -⟩ := hnext.live_of_pinned howned rfl
    cases hlive
  · -- without memory the old registration is returned
    intro hmem
    have hcalls : block.registers = false := by simp [PinnedBlock.registers, hmem]
    cases hmr : block.mr with
    | none => rfl
    | some mr =>
      have hanswers := hnext.answers
      rw [PinnedBlock.reg_local_mr_of_not_registers hcalls, PinnedBlock.reg_ops, hcalls, if_neg (by simp),
        List.nil_append] at hanswers
      obtain ⟨-, hallocated, -⟩ := (always_concat.mp hanswers).2.1 mr hmr
      exact absurd hallocated (h.not_allocated hmem mr.addr)

/-- What the calls that go well keep. -/
structure Kept (s : BlockLife) : Prop where
  owned : Owned s.block s.log
  right : PinnedRight s.block s.log
  never : .ibv_reg_mr none ∉ s.log

theorem Kept.step (h : Kept s) {act : BlockAct} (hsure : act.Sure s) (hstep : s.step act = some next) : Kept next := by
  have howned := h.owned.step hstep
  obtain ⟨-, hmove⟩ := BlockLife.step_move hstep
  cases hmove with
  | reg_local_mr pd flags reg =>
    obtain ⟨hright, hnever⟩ := h.right.reg_local_mr h.owned h.never pd flags hsure
    exact ⟨howned, hright, hnever⟩
  | unreg_local_mr =>
    refine ⟨howned, h.right.unreg_local_mr h.owned, ?_⟩
    simpa [PinnedBlock.unreg_ops] using h.never
  | alloc_fault => exact ⟨h.owned, h.right, h.never⟩
  | reg_alloc_local pd flags mem reg hnone =>
    have hnever : .ibv_reg_mr none ∉ s.log ++ [.aligned_alloc mem] := by simpa using h.never
    have hallocated := h.right.allocate h.owned hnone mem
    obtain ⟨hright, hnever⟩ := hallocated.reg_local_mr (h.owned.allocate hnone mem) hnever pd flags hsure
    exact ⟨howned, hright, hnever⟩
  | unreg_free_local =>
    refine ⟨howned, h.right.unreg_free_local h.owned, ?_⟩
    simpa [PinnedBlock.unreg_ops, PinnedBlock.free_ops] using h.never

/-- A step to a state in which `pinned` is right has gone well. -/
theorem Owned.act_sure (h : Owned s.block s.log) {act : BlockAct} (hstep : s.step act = some next)
    (hfault : next.fault = none) (hnext : PinnedRight next.block next.log) : act.Sure s := by
  obtain ⟨-, hmove⟩ := BlockLife.step_move hstep
  cases hmove with
  | reg_local_mr pd flags reg => exact h.sure hnext
  | unreg_local_mr => trivial
  | alloc_fault => cases hfault
  | reg_alloc_local pd flags mem reg hnone => exact (h.allocate hnone mem).sure hnext
  | unreg_free_local => trivial

theorem BlockLife.fault_of_run {s last : BlockLife} {acts : List BlockAct} (hfault : last.fault = none)
    (hrun : run BlockLife.step s acts = some last) : s.fault = none := by
  cases acts with
  | nil =>
    cases hrun
    exact hfault
  | cons act acts =>
    obtain ⟨next, hstep, -⟩ := run_cons_eq_some.mp hrun
    exact (BlockLife.step_move hstep).1

/-- `pinned` is right in every state of a run without failing assertions and
every answer is right exactly when every registration that is attempted
succeeds and no registering call is made without memory after an earlier
registration. -/
theorem BlockLife.pinned_right_iff {voff len : Nat} {acts : List BlockAct}
    (hrun : run BlockLife.step (.new voff len) acts = some s) (hfault : s.fault = none) :
    (∀ front back mid, acts = front ++ back → run BlockLife.step (.new voff len) front = some mid →
      PinnedRight mid.block mid.log) ↔ StepsMeet BlockLife.step (fun s act => act.Sure s) (.new voff len) acts := by
  constructor
  · intro hright front act back mid heq hfront
    subst heq
    obtain ⟨mid', hfront', hback⟩ := run_append_eq_some.mp hrun
    obtain rfl : mid' = mid := Option.some.inj (hfront'.symm.trans hfront)
    obtain ⟨next, hstep, hrest⟩ := run_cons_eq_some.mp hback
    have hnext : PinnedRight next.block next.log := by
      apply hright (front ++ [act]) back next
      · simp
      · exact run_append_of_eq_some hfront (run_singleton_of_step hstep)
    exact (owned_of_run hfront).act_sure hstep (fault_of_run hfault hrest) hnext
  · intro hmeet front back mid heq hfront
    subst heq
    have hkept : Kept mid :=
      run_invariant_of_meet (fun _ _ _ hsure h hstep => h.step hsure hstep) hmeet.of_append
        ⟨owned_new voff len, pinnedRight_new voff len, by simp [BlockLife.new]⟩ hfront
    exact hkept.right

theorem pinned_right_iff_reused :
    StepsMeet BlockLife.step (fun s act => act.Sure s) (.new 0 64) (reused_acts.take 4) ↔
      ∀ front back mid, reused_acts.take 4 = front ++ back → run BlockLife.step (.new 0 64) front = some mid →
        PinnedRight mid.block mid.log :=
  (BlockLife.pinned_right_iff (rfl : run BlockLife.step (.new 0 64) (reused_acts.take 4) = some _) rfl).symm

/-- The registration fails, and the second call does not attempt it again. -/
def unpinned_acts : List BlockAct := [.reg_alloc_local 1 1 (some 4096) none, .reg_local_mr 1 1 (some 7)]

def unpinned : BlockLife where
  block := { virtual_offset := 0, local_mem := some 4096, mem_length := 64, mr := none, pinned := true }
  log := [.aligned_alloc (some 4096), .ibv_reg_mr none, .returned none, .returned none]
  fault := none

theorem pinned_without_registration :
    ¬ ∀ (voff len : Nat) (acts : List BlockAct) (s : BlockLife), run BlockLife.step (.new voff len) acts = some s →
      s.fault = none → PinnedRight s.block s.log := by
  intro hright
  have hrun : run BlockLife.step (.new 0 64) unpinned_acts = some unpinned := by decide
  have h := hright 0 64 unpinned_acts unpinned hrun rfl
  obtain ⟨mr, hlive⟩ := h.pinned_iff.mp rfl
  exact (owned_of_run hrun).not_live rfl mr hlive

end tc_rdma.mem_mag
