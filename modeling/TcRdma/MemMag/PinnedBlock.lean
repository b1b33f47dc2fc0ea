import Mathlib.Data.Nat.Basic

namespace tc_rdma.mem_mag

/-- The ways in which the memory manager can go wrong: a failing assertion, an
access of the slot vector beyond its size, or the use of an empty slot. -/
inductive Fault where
  | local_mem_not_null
  | mem_length_zero
  | slot_taken
  | slot_out_of_range (block_num : Nat)
  | slot_null (block_num : Nat)
  | len_not_block_length
  | voff_not_multiple
  deriving DecidableEq, Repr

/-- A memory region returned by `ibv_reg_mr`: the protection domain, address,
length and access flags it was asked for. -/
structure IbvMr where
  handle : Nat
  pd : Nat
  addr : Nat
  length : Nat
  flags : Nat
  deriving DecidableEq, Repr

/-- `pinned_block`. A null pointer is `none`. -/
structure PinnedBlock where
  virtual_offset : Nat
  local_mem : Option Nat
  mem_length : Nat
  mr : Option IbvMr
  pinned : Bool
  deriving DecidableEq, Repr

/-- The constructor `pinned_block(voff, len)`. -/
def PinnedBlock.new (voff len : Nat) : PinnedBlock :=
  { virtual_offset := voff, local_mem := none, mem_length := len, mr := none, pinned := false }

/-- `reg_local_mr`. The argument `reg` is what `ibv_reg_mr` answers if it is
called; note that `pinned` is set even when the answer is null. -/
def PinnedBlock.reg_local_mr (self : PinnedBlock) (pd flags : Nat) (reg : Option Nat) :
    Option IbvMr × PinnedBlock :=
  match self.pinned, self.local_mem with
  | false, some addr =>
    let mr := reg.map fun handle => ⟨handle, pd, addr, self.mem_length, flags⟩
    (mr, { self with mr := mr, pinned := true })
  | _, _ => (self.mr, self)

/-- `reg_alloc_local`. The argument `mem` is what `aligned_alloc` answers. -/
def PinnedBlock.reg_alloc_local (self : PinnedBlock) (pd flags : Nat) (mem reg : Option Nat) :
    Except Fault (Option IbvMr × PinnedBlock) :=
  if self.local_mem ≠ none then .error .local_mem_not_null
  else if self.mem_length = 0 then .error .mem_length_zero
  else .ok ({ self with local_mem := mem }.reg_local_mr pd flags reg)

theorem PinnedBlock.reg_local_mr_keeps (self : PinnedBlock) (pd flags : Nat) (reg : Option Nat) :
    (self.reg_local_mr pd flags reg).2.virtual_offset = self.virtual_offset ∧
      (self.reg_local_mr pd flags reg).2.mem_length = self.mem_length ∧
      (self.reg_local_mr pd flags reg).2.local_mem = self.local_mem := by
  unfold PinnedBlock.reg_local_mr
  split <;> exact ⟨rfl, rfl, by simp_all⟩

/-- On a block that was just constructed with a positive length, allocating
and registering raises no assertion and keeps the block's place in the pool. -/
theorem PinnedBlock.reg_alloc_local_new (voff pd flags : Nat) {len : Nat} (hlen : 0 < len)
    (mem reg : Option Nat) :
    ∃ mr block, (PinnedBlock.new voff len).reg_alloc_local pd flags mem reg = .ok (mr, block) ∧
      block.virtual_offset = voff ∧ block.mem_length = len ∧ block.local_mem = mem := by
  have hkeep := PinnedBlock.reg_local_mr_keeps
    { PinnedBlock.new voff len with local_mem := mem } pd flags reg
  refine ⟨({ PinnedBlock.new voff len with local_mem := mem }.reg_local_mr pd flags reg).1, _, ?_,
    hkeep.1, hkeep.2.1, hkeep.2.2⟩
  simp [PinnedBlock.reg_alloc_local, PinnedBlock.new, Nat.ne_of_gt hlen]

end tc_rdma.mem_mag
