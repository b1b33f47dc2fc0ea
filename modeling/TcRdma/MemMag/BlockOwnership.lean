import TcRdma.MemMag.BlockLife

open tc_rdma.machine

namespace tc_rdma.mem_mag

variable {block : PinnedBlock} {log : List BlockOp} {s next : BlockLife}

/-- Memory is obtained only when the block has none, and it is given back only
when no registration is live. -/
def BlockOp.Safe (front : List BlockOp) : BlockOp → Prop
  | .aligned_alloc _ => (∀ mr, ¬ registrations.Live front mr) ∧ ∀ mem, ¬ allocations.Live front mem
  | .free _ => ∀ mr, ¬ registrations.Live front mr
  | _ => True

/-- The members of the block say what it owns: a live registration when
`pinned` is set and `mr` is not null, which covers the memory of the block,
and the memory that `local_mem` points to. -/
structure Owned (block : PinnedBlock) (log : List BlockOp) : Prop where
  registered : registrations.Holding log block.live.toList
  allocated : allocations.Holding log block.local_mem.toList
  covers : ∀ mr, block.live = some mr → block.local_mem = some mr.addr ∧ mr.length = block.mem_length
  one : registrations.OneAtATime log
  safe : Always BlockOp.Safe log

theorem owned_new (voff len : Nat) : Owned (.new voff len) [] where
  registered := registrations.holding_nil
  allocated := allocations.holding_nil
  covers := by
    intro mr hmr
    cases hmr
  one := always_nil
  safe := always_nil

theorem Owned.live_iff (h : Owned block log) (mr : IbvMr) : registrations.Live log mr ↔ block.live = some mr := by
  rw [h.registered.live_iff, Option.mem_toList]

theorem Owned.not_live (h : Owned block log) (hnone : block.live = none) (mr : IbvMr) :
    ¬ registrations.Live log mr := by
  rw [h.live_iff, hnone]
  simp

theorem Owned.not_allocated (h : Owned block log) (hnone : block.local_mem = none) (mem : Nat) :
    ¬ allocations.Live log mem := by
  rw [h.allocated.live_iff, hnone]
  simp

/-- Without memory there is no registration. -/
theorem Owned.live_eq_none (h : Owned block log) (hnone : block.local_mem = none) : block.live = none := by
  cases hlive : block.live with
  | none => rfl
  | some mr =>
    have hmem := (h.covers mr hlive).1
    rw [hnone] at hmem
    cases hmem

/-- An answer that is not a registration, or a result. -/
theorem Owned.ignore (h : Owned block log) (op : BlockOp) (hregistered : registrations.Ignores op)
    (hallocated : allocations.Ignores op) (hsafe : op.Safe log) : Owned block (log ++ [op]) where
  registered := h.registered.ignore hregistered
  allocated := h.allocated.ignore hallocated
  covers := h.covers
  one := by
    apply always_concat.mpr ⟨h.one, _⟩
    intro hcreates
    rw [hregistered.1] at hcreates
    cases hcreates
  safe := always_concat.mpr ⟨h.safe, hsafe⟩

theorem Owned.returned (h : Owned block log) (mr : Option IbvMr) : Owned block (log ++ [.returned mr]) :=
  h.ignore _ ⟨rfl, rfl⟩ ⟨rfl, rfl⟩ trivial

/-- Members that tell nothing of what is owned may change. -/
theorem Owned.of_same (h : Owned block log) {block' : PinnedBlock} (hlive : block'.live = block.live)
    (hmem : block'.local_mem = block.local_mem) (hlength : block'.mem_length = block.mem_length) :
    Owned block' log where
  registered := hlive ▸ h.registered
  allocated := hmem ▸ h.allocated
  covers := by
    rw [hlive, hmem, hlength]
    exact h.covers
  one := h.one
  safe := h.safe

theorem Owned.register (h : Owned block log) (mr : IbvMr) (hmem : block.local_mem = some mr.addr)
    (hlength : mr.length = block.mem_length) (hnone : block.live = none) :
    Owned { block with mr := some mr, pinned := true } (log ++ [.ibv_reg_mr (some mr)]) where
  registered := by
    have hregistered := h.registered
    rw [hnone] at hregistered
    exact hregistered.create rfl
  allocated := h.allocated.ignore ⟨rfl, rfl⟩
  covers := by
    intro other hother
    cases hother
    exact ⟨hmem, hlength⟩
  one := always_concat.mpr ⟨h.one, fun _ => h.not_live hnone⟩
  safe := always_concat.mpr ⟨h.safe, trivial⟩

theorem Owned.deregister (h : Owned block log) {mr : IbvMr} (hlive : block.live = some mr) :
    Owned { block with pinned := false } (log ++ [.ibv_dereg_mr mr]) where
  registered := by
    have hregistered := h.registered
    rw [hlive] at hregistered
    exact hregistered.destroy rfl
  allocated := h.allocated.ignore ⟨rfl, rfl⟩
  covers := by
    intro mr hmr
    cases hmr
  one := always_concat.mpr ⟨h.one, fun hcreates => by cases hcreates⟩
  safe := always_concat.mpr ⟨h.safe, trivial⟩

theorem Owned.allocate (h : Owned block log) (hnone : block.local_mem = none) (mem : Option Nat) :
    Owned { block with local_mem := mem } (log ++ [.aligned_alloc mem]) where
  registered := h.registered.ignore ⟨rfl, rfl⟩
  allocated := by
    have hallocated := h.allocated
    rw [hnone] at hallocated
    cases mem with
    | none => exact hallocated.ignore ⟨rfl, rfl⟩
    | some mem => exact hallocated.create rfl
  covers := by
    intro mr hlive
    have hother : block.live = some mr := hlive
    rw [h.live_eq_none hnone] at hother
    cases hother
  one := always_concat.mpr ⟨h.one, fun hcreates => by cases hcreates⟩
  safe := always_concat.mpr ⟨h.safe, h.not_live (h.live_eq_none hnone), h.not_allocated hnone⟩

theorem Owned.free (h : Owned block log) {mem : Nat} (hmem : block.local_mem = some mem) (hnone : block.live = none) :
    Owned { block with local_mem := none } (log ++ [.free mem]) where
  registered := h.registered.ignore ⟨rfl, rfl⟩
  allocated := by
    have hallocated := h.allocated
    rw [hmem] at hallocated
    exact hallocated.destroy rfl
  covers := by
    intro mr hlive
    have hother : block.live = some mr := hlive
    rw [hnone] at hother
    cases hother
  one := always_concat.mpr ⟨h.one, fun hcreates => by cases hcreates⟩
  safe := always_concat.mpr ⟨h.safe, h.not_live hnone⟩

/-- `reg_local_mr` registers the memory when `pinned` is not set. An answer
that is null leaves `pinned` set. -/
theorem Owned.reg_local_mr (h : Owned block log) (pd flags : Nat) (reg : Option Nat) :
    Owned (block.reg_local_mr pd flags reg).2
      (log ++ block.reg_ops (block.reg_local_mr pd flags reg).1) := by
  unfold PinnedBlock.reg_ops
  rw [← List.append_assoc]
  apply Owned.returned
  cases hcalls : block.registers with
  | true =>
    obtain ⟨hpinned, addr, hmem⟩ := PinnedBlock.registers_eq_true.mp hcalls
    have hnone : block.live = none := by simp [PinnedBlock.live, hpinned]
    rw [PinnedBlock.reg_local_mr_of_unpinned hpinned hmem, if_pos rfl]
    cases reg with
    | none =>
      have hfailed := h.ignore (.ibv_reg_mr none) ⟨rfl, rfl⟩ ⟨rfl, rfl⟩ trivial
      exact hfailed.of_same hnone.symm rfl rfl
    | some handle => exact h.register ⟨handle, pd, addr, block.mem_length, flags⟩ hmem rfl hnone
  | false =>
    rw [PinnedBlock.reg_local_mr_of_not_registers hcalls, if_neg (by simp), List.append_nil]
    exact h

theorem Owned.unreg_local_mr (h : Owned block log) :
    Owned block.unreg_local_mr.2 (log ++ PinnedBlock.unreg_ops block.unreg_local_mr.1) ∧
      block.unreg_local_mr.2.live = none ∧ block.unreg_local_mr.2.local_mem = block.local_mem := by
  unfold PinnedBlock.unreg_local_mr
  split
  · rename_i mr hpinned hmr
    exact ⟨h.deregister (by simp [PinnedBlock.live, hpinned, hmr]), rfl, rfl⟩
  · rename_i hother
    refine ⟨?_, ?_, rfl⟩
    · simpa [PinnedBlock.unreg_ops] using h
    · unfold PinnedBlock.live
      split
      · rename_i hpinned
        cases hmr : block.mr with
        | none => rfl
        | some mr => exact absurd hmr (hother mr hpinned)
      · rfl

/-- After `unreg_free_local` the block owns nothing. -/
theorem Owned.unreg_free_local (h : Owned block log) :
    Owned block.unreg_free_local.2.2
        (log ++ PinnedBlock.unreg_ops block.unreg_free_local.1 ++
          PinnedBlock.free_ops block.unreg_free_local.2.1) ∧
      block.unreg_free_local.2.2.live = none ∧ block.unreg_free_local.2.2.local_mem = none := by
  obtain ⟨hunreg, hnone, -⟩ := h.unreg_local_mr
  unfold PinnedBlock.unreg_free_local
  dsimp only
  cases hmem : block.unreg_local_mr.2.local_mem with
  | some mem => exact ⟨hunreg.free hmem hnone, hnone, rfl⟩
  | none =>
    refine ⟨?_, hnone, hmem⟩
    simpa [PinnedBlock.free_ops] using hunreg

/-- Every call keeps track of what the block owns. -/
theorem Owned.step (h : Owned s.block s.log) {act : BlockAct} (hstep : s.step act = some next) :
    Owned next.block next.log := by
  obtain ⟨-, hmove⟩ := BlockLife.step_move hstep
  cases hmove with
  | reg_local_mr pd flags reg => exact h.reg_local_mr pd flags reg
  | unreg_local_mr => exact h.unreg_local_mr.1
  | alloc_fault => exact h
  | reg_alloc_local pd flags mem reg hnone => exact (h.allocate hnone mem).reg_local_mr pd flags reg
  | unreg_free_local => exact h.unreg_free_local.1

theorem owned_of_run {voff len : Nat} {acts : List BlockAct} (hrun : run BlockLife.step (.new voff len) acts = some s) :
    Owned s.block s.log :=
  run_invariant (I := fun s => Owned s.block s.log) (fun _ _ _ h hstep => h.step hstep) (owned_new voff len) hrun

/-- The calls of one block may come in any order and may fail. At every moment
at most one registration is live, and none is deregistered but a live one, so
none twice; no memory is freed twice, none is freed while a registration is
live, and none is obtained while the block has some; and nothing is live after
`unreg_free_local`. -/
theorem BlockLife.ownership_correct {voff len : Nat} {acts : List BlockAct}
    (hrun : run BlockLife.step (.new voff len) acts = some s) :
    (∀ front, front <+: s.log → (registrations.created front).length ≤ (registrations.destroyed front).length + 1) ∧
    registrations.Sound s.log ∧
    allocations.Sound s.log ∧
    Always BlockOp.Safe s.log ∧
    ∀ next, s.step .unreg_free_local = some next →
      (∀ mr, ¬ registrations.Live next.log mr) ∧ ∀ mem, ¬ allocations.Live next.log mem := by
  have h := owned_of_run hrun
  refine ⟨?_, h.registered.sound, h.allocated.sound, h.safe, ?_⟩
  · intro front hfront
    exact h.registered.sound.created_le h.one hfront
  · intro next hstep
    have hnext := h.step hstep
    obtain ⟨-, hmove⟩ := BlockLife.step_move hstep
    cases hmove with
    | unreg_free_local =>
      obtain ⟨-, hlive, hmem⟩ := h.unreg_free_local
      exact ⟨hnext.not_live hlive, hnext.not_allocated hmem⟩

/-- A block whose memory is registered twice, and that is used again after a
failing allocation. -/
def reused_acts : List BlockAct :=
  [.reg_alloc_local 1 1 (some 4096) (some 7), .unreg_local_mr, .reg_local_mr 1 1 (some 8), .unreg_free_local,
    .reg_alloc_local 1 1 none none, .reg_alloc_local 1 1 (some 8192) (some 9)]

def reused : BlockLife where
  block :=
    { virtual_offset := 0, local_mem := some 8192, mem_length := 64, mr := some ⟨9, 1, 8192, 64, 1⟩, pinned := true }
  log := [.aligned_alloc (some 4096), .ibv_reg_mr (some ⟨7, 1, 4096, 64, 1⟩), .returned (some ⟨7, 1, 4096, 64, 1⟩),
    .ibv_dereg_mr ⟨7, 1, 4096, 64, 1⟩, .ibv_reg_mr (some ⟨8, 1, 4096, 64, 1⟩), .returned (some ⟨8, 1, 4096, 64, 1⟩),
    .ibv_dereg_mr ⟨8, 1, 4096, 64, 1⟩, .free 4096, .aligned_alloc none, .returned (some ⟨8, 1, 4096, 64, 1⟩),
    .aligned_alloc (some 8192), .ibv_reg_mr (some ⟨9, 1, 8192, 64, 1⟩), .returned (some ⟨9, 1, 8192, 64, 1⟩)]
  fault := none

theorem ownership_correct_reused :
    run BlockLife.step (.new 0 64) reused_acts = some reused ∧ registrations.Sound reused.log ∧
      allocations.Sound reused.log := by
  have hrun : run BlockLife.step (.new 0 64) reused_acts = some reused := by decide
  have h := BlockLife.ownership_correct hrun
  exact ⟨hrun, h.2.1, h.2.2.1⟩

end tc_rdma.mem_mag
