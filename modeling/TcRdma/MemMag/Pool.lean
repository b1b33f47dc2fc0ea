import TcRdma.Machine.Run
import TcRdma.Machine.Count
import TcRdma.Machine.Word
import TcRdma.MemMag.PinnedBlock

open tc_rdma.machine

namespace tc_rdma.mem_mag

def DEF_CACHE_LINE_SIZE : Nat := 64

/-- `Pinned_Fix_Memory`. The mutex is not a field: a locked section is one
atomic step of the threads below. -/
structure PinnedFixMemory where
  next_offset : Nat
  max_size : Nat
  block_length : Nat
  align_str : Nat
  blocks : List (Option PinnedBlock)
  deriving DecidableEq, Repr

/-- The constructor `Pinned_Fix_Memory(block_len, max)`. -/
def PinnedFixMemory.new (block_len max : Nat) : PinnedFixMemory :=
  { next_offset := 0
    max_size := max
    block_length := block_len
    align_str := DEF_CACHE_LINE_SIZE
    blocks := List.replicate (max / block_len) none }

/-- Where a thread is inside `allocate_next_block`. -/
inductive AllocPc where
  | idle
  /-- called, before `next_offset.fetch_add(block_length)` -/
  | entered (pd flags : Nat)
  /-- before the capacity test on `start` -/
  | claimed (pd flags start : Nat)
  /-- the test passed; before the block is allocated and registered -/
  | fits (pd flags start : Nat)
  /-- before the locked publication of the block into slot `idx` -/
  | registered (idx : Nat) (block : PinnedBlock)
  /-- the test failed; before `next_offset.fetch_sub(block_length)` -/
  | refused
  deriving DecidableEq, Repr

/-- The atomic steps of `allocate_next_block`, with the answers of the calls
that can fail. -/
inductive AllocAct where
  | call (pd flags : Nat)
  | fetch_add
  | test_capacity
  | reg_alloc (mem reg : Option Nat)
  | publish
  | fetch_sub
  deriving DecidableEq, Repr

/-- The step with which a thread enters `allocate_next_block`. -/
def AllocAct.begins : AllocAct → Bool
  | .call _ _ => true
  | _ => false

/-- What a step tells besides the new memory and position. -/
inductive AllocEvent where
  | started
  | internal
  /-- the call stored its block in this slot and returned true -/
  | published (slot : Nat)
  /-- the call returned false -/
  | failed
  deriving DecidableEq, Repr

abbrev AllocResult := Except Fault (PinnedFixMemory × AllocPc × AllocEvent)

/-- `allocate_next_block`, one atomic step of one calling thread. -/
def PinnedFixMemory.allocate_next_block (self : PinnedFixMemory) : AllocPc → AllocAct → Option AllocResult
  | .idle, .call pd flags => some (.ok (self, .entered pd flags, .started))
  | .entered pd flags, .fetch_add =>
    some (.ok ({ self with next_offset := u64 (self.next_offset + self.block_length) },
      .claimed pd flags self.next_offset, .internal))
  | .claimed pd flags start, .test_capacity =>
    if u64 (start + self.block_length) ≤ self.max_size then
      some (.ok (self, .fits pd flags start, .internal))
    else some (.ok (self, .refused, .internal))
  | .fits pd flags start, .reg_alloc mem reg =>
    match (PinnedBlock.new start self.block_length).reg_alloc_local pd flags mem reg with
    | .error fault => some (.error fault)
    | .ok (_, block) => some (.ok (self, .registered (start / self.block_length) block, .internal))
  | .registered idx block, .publish =>
    match self.blocks[idx]? with
    | none => some (.error (.slot_out_of_range idx))
    | some (some _) => some (.error .slot_taken)
    | some none => some (.ok ({ self with blocks := self.blocks.set idx (some block) }, .idle, .published idx))
  | .refused, .fetch_sub =>
    some (.ok ({ self with next_offset := u64_sub self.next_offset self.block_length },
      .idle, .failed))
  | _, _ => none

/-- A step of `allocate_next_block` with its guard, one case for each branch. -/
inductive AllocMove (mem : PinnedFixMemory) : AllocPc → AllocAct → AllocResult → Prop where
  | call (pd flags : Nat) :
      AllocMove mem .idle (.call pd flags) (.ok (mem, .entered pd flags, .started))
  | fetch_add (pd flags : Nat) :
      AllocMove mem (.entered pd flags) .fetch_add
        (.ok ({ mem with next_offset := u64 (mem.next_offset + mem.block_length) },
          .claimed pd flags mem.next_offset, .internal))
  | fits (pd flags start : Nat) (hfits : u64 (start + mem.block_length) ≤ mem.max_size) :
      AllocMove mem (.claimed pd flags start) .test_capacity (.ok (mem, .fits pd flags start, .internal))
  | refuse (pd flags start : Nat) (hfull : ¬ u64 (start + mem.block_length) ≤ mem.max_size) :
      AllocMove mem (.claimed pd flags start) .test_capacity (.ok (mem, .refused, .internal))
  | reg_alloc_fault (pd flags start : Nat) (local_mem reg : Option Nat) (fault : Fault)
      (hreg : (PinnedBlock.new start mem.block_length).reg_alloc_local pd flags local_mem reg = .error fault) :
      AllocMove mem (.fits pd flags start) (.reg_alloc local_mem reg) (.error fault)
  | reg_alloc (pd flags start : Nat) (local_mem reg : Option Nat) (mr : Option IbvMr) (block : PinnedBlock)
      (hreg : (PinnedBlock.new start mem.block_length).reg_alloc_local pd flags local_mem reg = .ok (mr, block)) :
      AllocMove mem (.fits pd flags start) (.reg_alloc local_mem reg)
        (.ok (mem, .registered (start / mem.block_length) block, .internal))
  | publish_range (idx : Nat) (block : PinnedBlock) (hslot : mem.blocks[idx]? = none) :
      AllocMove mem (.registered idx block) .publish (.error (.slot_out_of_range idx))
  | publish_taken (idx : Nat) (block old : PinnedBlock) (hslot : mem.blocks[idx]? = some (some old)) :
      AllocMove mem (.registered idx block) .publish (.error .slot_taken)
  | publish (idx : Nat) (block : PinnedBlock) (hslot : mem.blocks[idx]? = some none) :
      AllocMove mem (.registered idx block) .publish
        (.ok ({ mem with blocks := mem.blocks.set idx (some block) }, .idle, .published idx))
  | fetch_sub :
      AllocMove mem .refused .fetch_sub
        (.ok ({ mem with next_offset := u64_sub mem.next_offset mem.block_length },
          .idle, .failed))

/-- Everything a step can do, guards included. -/
theorem PinnedFixMemory.allocate_next_block_move {mem : PinnedFixMemory} {pc : AllocPc} {act : AllocAct}
    {result : AllocResult} (hstep : mem.allocate_next_block pc act = some result) :
    AllocMove mem pc act result := by
  unfold PinnedFixMemory.allocate_next_block at hstep
  split at hstep
  · cases hstep
    exact .call _ _
  · cases hstep
    exact .fetch_add _ _
  · split at hstep
    · cases hstep
      exact .fits _ _ _ ‹_›
    · cases hstep
      exact .refuse _ _ _ ‹_›
  · split at hstep
    · cases hstep
      exact .reg_alloc_fault _ _ _ _ _ _ ‹_›
    · cases hstep
      exact .reg_alloc _ _ _ _ _ _ _ ‹_›
  · split at hstep
    · cases hstep
      exact .publish_range _ _ ‹_›
    · cases hstep
      exact .publish_taken _ _ _ ‹_›
    · cases hstep
      exact .publish _ _ ‹_›
  · cases hstep
    exact .fetch_sub
  · cases hstep

/-- A pool shared by `T` threads, with the history of their finished calls:
the slots they stored a block in and the results they returned. -/
structure Pool (T : Nat) where
  mem : PinnedFixMemory
  pc : Fin T → AllocPc
  calls : Nat
  published : List Nat
  returned : List Bool
  fault : Option Fault

/-- A pool right after its construction, with no call made. -/
def Pool.new (T block_len max : Nat) : Pool T :=
  { mem := .new block_len max, pc := fun _ => .idle, calls := 0, published := [], returned := [], fault := none }

/-- The history after one more event. -/
def Pool.record {T : Nat} (s : Pool T) : AllocEvent → Pool T
  | .started => { s with calls := s.calls + 1 }
  | .internal => s
  | .published slot => { s with published := s.published ++ [slot], returned := s.returned ++ [true] }
  | .failed => { s with returned := s.returned ++ [false] }

/-- One step of thread `t`. Nothing runs after a fault. -/
def Pool.step {T : Nat} (s : Pool T) (label : Fin T × AllocAct) : Option (Pool T) :=
  match s.fault with
  | some _ => none
  | none =>
    match s.mem.allocate_next_block (s.pc label.1) label.2 with
    | none => none
    | some (.error fault) => some { s with fault := some fault }
    | some (.ok (mem, pc, event)) =>
      some ({ s with mem := mem, pc := Function.update s.pc label.1 pc }.record event)

theorem Pool.step_cases {T : Nat} {s next : Pool T} {label : Fin T × AllocAct}
    (hstep : s.step label = some next) :
    s.fault = none ∧
      ((∃ fault, AllocMove s.mem (s.pc label.1) label.2 (.error fault) ∧ next = { s with fault := some fault }) ∨
      ∃ mem pc event, AllocMove s.mem (s.pc label.1) label.2 (.ok (mem, pc, event)) ∧
        next = { s with mem := mem, pc := Function.update s.pc label.1 pc }.record event) := by
  unfold Pool.step at hstep
  cases hfault : s.fault with
  | some fault => simp [hfault] at hstep
  | none =>
    simp only [hfault] at hstep
    refine ⟨rfl, ?_⟩
    cases hmove : s.mem.allocate_next_block (s.pc label.1) label.2 with
    | none => simp [hmove] at hstep
    | some result =>
      have hmove := PinnedFixMemory.allocate_next_block_move hmove
      cases result with
      | error fault =>
        simp_all only [Option.some.injEq]
        exact .inl ⟨fault, hmove, hstep.symm⟩
      | ok result =>
        obtain ⟨mem, pc, event⟩ := result
        simp_all only [Option.some.injEq]
        exact .inr ⟨mem, pc, event, hmove, hstep.symm⟩

/-- No thread is inside a call. -/
def Pool.Quiescent {T : Nat} (s : Pool T) : Prop := ∀ t, s.pc t = .idle

end tc_rdma.mem_mag
