import TcRdma.Machine.Ledger
import TcRdma.Machine.Run
import TcRdma.MemMag.PinnedBlock

open tc_rdma.machine

namespace tc_rdma.mem_mag

/-- `unreg_local_mr`, with the region that is passed to `ibv_dereg_mr` if that
is called. The member `mr` keeps its value. -/
def PinnedBlock.unreg_local_mr (self : PinnedBlock) : Option IbvMr × PinnedBlock :=
  match self.pinned, self.mr with
  | true, some mr => (some mr, { self with pinned := false })
  | _, _ => (none, self)

/-- `unreg_free_local`, with the region that is deregistered and the memory
that is freed. -/
def PinnedBlock.unreg_free_local (self : PinnedBlock) : Option IbvMr × Option Nat × PinnedBlock :=
  let unreg := self.unreg_local_mr
  match unreg.2.local_mem with
  | some mem => (unreg.1, some mem, { unreg.2 with local_mem := none })
  | none => (unreg.1, none, unreg.2)

/-- The calls that a block makes with their answers, and what it returns. -/
inductive BlockOp where
  | aligned_alloc (mem : Option Nat)
  | ibv_reg_mr (mr : Option IbvMr)
  | ibv_dereg_mr (mr : IbvMr)
  | free (mem : Nat)
  | returned (mr : Option IbvMr)
  deriving DecidableEq, Repr

/-- Whether `reg_local_mr` calls `ibv_reg_mr`. -/
def PinnedBlock.registers (self : PinnedBlock) : Bool := !self.pinned && self.local_mem.isSome

/-- When the block has memory that is not pinned, it is registered. -/
theorem PinnedBlock.reg_local_mr_of_unpinned {self : PinnedBlock} {addr : Nat} (hpinned : self.pinned = false)
    (hmem : self.local_mem = some addr) (pd flags : Nat) (reg : Option Nat) :
    self.reg_local_mr pd flags reg =
      (reg.map fun handle => ⟨handle, pd, addr, self.mem_length, flags⟩,
        { self with mr := reg.map fun handle => ⟨handle, pd, addr, self.mem_length, flags⟩, pinned := true }) := by
  unfold PinnedBlock.reg_local_mr
  rw [hpinned, hmem]

/-- Otherwise the member `mr` is returned, whatever it is. -/
theorem PinnedBlock.reg_local_mr_of_not_registers {self : PinnedBlock} (hcalls : self.registers = false)
    (pd flags : Nat) (reg : Option Nat) : self.reg_local_mr pd flags reg = (self.mr, self) := by
  unfold PinnedBlock.reg_local_mr
  split
  · rename_i hpinned hmem
    simp [PinnedBlock.registers, hpinned, hmem] at hcalls
  · rfl

theorem PinnedBlock.registers_eq_true {self : PinnedBlock} :
    self.registers = true ↔ self.pinned = false ∧ ∃ addr, self.local_mem = some addr := by
  simp [PinnedBlock.registers, Option.isSome_iff_exists]

/-- What `reg_local_mr` does when it returns `mr`. -/
def PinnedBlock.reg_ops (self : PinnedBlock) (mr : Option IbvMr) : List BlockOp :=
  (if self.registers then [.ibv_reg_mr mr] else []) ++ [.returned mr]

def PinnedBlock.unreg_ops (mr : Option IbvMr) : List BlockOp := mr.toList.map .ibv_dereg_mr

def PinnedBlock.free_ops (mem : Option Nat) : List BlockOp := mem.toList.map .free

/-- The calls of the member functions, with the answers of `aligned_alloc` and
of `ibv_reg_mr` should they be called. -/
inductive BlockAct where
  | reg_local_mr (pd flags : Nat) (reg : Option Nat)
  | unreg_local_mr
  | reg_alloc_local (pd flags : Nat) (mem reg : Option Nat)
  | unreg_free_local
  deriving DecidableEq, Repr

/-- A block and all that it has done. -/
structure BlockLife where
  block : PinnedBlock
  log : List BlockOp
  fault : Option Fault
  deriving DecidableEq, Repr

def BlockLife.new (voff len : Nat) : BlockLife := { block := .new voff len, log := [], fault := none }

/-- One call. Nothing runs after a failing assertion. -/
def BlockLife.step (s : BlockLife) (act : BlockAct) : Option BlockLife :=
  match s.fault, act with
  | some _, _ => none
  | none, .reg_local_mr pd flags reg =>
    let result := s.block.reg_local_mr pd flags reg
    some { s with block := result.2, log := s.log ++ s.block.reg_ops result.1 }
  | none, .unreg_local_mr =>
    let result := s.block.unreg_local_mr
    some { s with block := result.2, log := s.log ++ PinnedBlock.unreg_ops result.1 }
  | none, .reg_alloc_local pd flags mem reg =>
    match s.block.reg_alloc_local pd flags mem reg with
    | .error fault => some { s with fault := some fault }
    | .ok result =>
      some { s with
        block := result.2
        log := s.log ++ [.aligned_alloc mem] ++ { s.block with local_mem := mem }.reg_ops result.1 }
  | none, .unreg_free_local =>
    let result := s.block.unreg_free_local
    some { s with
      block := result.2.2
      log := s.log ++ PinnedBlock.unreg_ops result.1 ++ PinnedBlock.free_ops result.2.1 }

/-- A call with what it leaves, one case for each. -/
inductive BlockMove (s : BlockLife) : BlockAct → BlockLife → Prop where
  | reg_local_mr (pd flags : Nat) (reg : Option Nat) :
      BlockMove s (.reg_local_mr pd flags reg)
        { s with
          block := (s.block.reg_local_mr pd flags reg).2
          log := s.log ++ s.block.reg_ops (s.block.reg_local_mr pd flags reg).1 }
  | unreg_local_mr :
      BlockMove s .unreg_local_mr
        { s with
          block := s.block.unreg_local_mr.2
          log := s.log ++ PinnedBlock.unreg_ops s.block.unreg_local_mr.1 }
  | alloc_fault (pd flags : Nat) (mem reg : Option Nat) (fault : Fault) :
      BlockMove s (.reg_alloc_local pd flags mem reg) { s with fault := some fault }
  | reg_alloc_local (pd flags : Nat) (mem reg : Option Nat) (hnone : s.block.local_mem = none)
      (hlength : 0 < s.block.mem_length) :
      BlockMove s (.reg_alloc_local pd flags mem reg)
        { s with
          block := ({ s.block with local_mem := mem }.reg_local_mr pd flags reg).2
          log := s.log ++ [.aligned_alloc mem] ++ { s.block with local_mem := mem }.reg_ops
            ({ s.block with local_mem := mem }.reg_local_mr pd flags reg).1 }
  | unreg_free_local :
      BlockMove s .unreg_free_local
        { s with
          block := s.block.unreg_free_local.2.2
          log := s.log ++ PinnedBlock.unreg_ops s.block.unreg_free_local.1 ++
            PinnedBlock.free_ops s.block.unreg_free_local.2.1 }

theorem PinnedBlock.reg_alloc_local_eq_ok {self : PinnedBlock} {pd flags : Nat} {mem reg : Option Nat}
    {result : Option IbvMr × PinnedBlock} (hok : self.reg_alloc_local pd flags mem reg = .ok result) :
    self.local_mem = none ∧ 0 < self.mem_length ∧
      result = { self with local_mem := mem }.reg_local_mr pd flags reg := by
  unfold PinnedBlock.reg_alloc_local at hok
  split at hok
  · cases hok
  · rename_i hnone
    split at hok
    · cases hok
    · rename_i hlength
      exact ⟨not_not.mp hnone, Nat.pos_of_ne_zero hlength, (Except.ok.inj hok).symm⟩

theorem BlockLife.step_move {s next : BlockLife} {act : BlockAct} (hstep : s.step act = some next) :
    s.fault = none ∧ BlockMove s act next := by
  unfold BlockLife.step at hstep
  split at hstep
  · cases hstep
  · cases hstep
    exact ⟨‹_›, .reg_local_mr _ _ _⟩
  · cases hstep
    exact ⟨‹_›, .unreg_local_mr⟩
  · split at hstep
    · cases hstep
      exact ⟨‹_›, .alloc_fault _ _ _ _ _⟩
    · rename_i hok
      obtain ⟨hnone, hlength, rfl⟩ := PinnedBlock.reg_alloc_local_eq_ok hok
      cases hstep
      exact ⟨‹_›, .reg_alloc_local _ _ _ _ hnone hlength⟩
  · cases hstep
    exact ⟨‹_›, .unreg_free_local⟩

/-- The registrations of a block. -/
def registrations : Ledger BlockOp IbvMr where
  creates
    | .ibv_reg_mr mr => mr
    | _ => none
  destroys
    | .ibv_dereg_mr mr => some mr
    | _ => none
  exclusive := by
    intro op mr hcreates
    cases op <;> first | rfl | cases hcreates

/-- The memory of a block. -/
def allocations : Ledger BlockOp Nat where
  creates
    | .aligned_alloc mem => mem
    | _ => none
  destroys
    | .free mem => some mem
    | _ => none
  exclusive := by
    intro op mem hcreates
    cases op <;> first | rfl | cases hcreates

/-- The registration that the members of a block stand for. -/
def PinnedBlock.live (self : PinnedBlock) : Option IbvMr := if self.pinned then self.mr else none

end tc_rdma.mem_mag
