import TcRdma.MemMag.Refinement

open tc_rdma.machine

namespace tc_rdma.mem_mag

def FIX_BLOCK_LENGTH : Nat := 1024 * 1024

def MAX_MEMORY_LENGTH : Nat := 16 * (1024 * 1024 * 1024)

/-- Where a thread is inside `get_pinned_mr(voff, len)`. -/
inductive LookupPc where
  | idle
  /-- before `next_offset` is loaded -/
  | entered (voff len : Nat)
  /-- before `get_mr` tests slot `block_num` -/
  | indexing (voff block_num : Nat)
  /-- before `get_mr` reads the region of the block in that slot -/
  | reading (voff block_num : Nat)
  /-- `mr` is decided; before the return -/
  | returning (voff : Nat) (mr : Option IbvMr)
  deriving DecidableEq, Repr

inductive LookupAct where
  | call (voff len : Nat) (fixed : Bool)
  | load_offset
  | test_slot
  | read_mr
  | ret
  deriving DecidableEq, Repr

/-- The offset a lookup was called with and what it has decided to return. -/
abbrev Found := Nat × Option IbvMr

/-- `get_pinned_mr` and the `get_mr` it calls, one atomic step of one calling
thread. The bound it tests is the counter of the allocating threads. The last
read of a call decides its result and tells it; the return is a step of its
own, and others may run in between. -/
def PinnedFixMemory.get_pinned_mr (self : PinnedFixMemory) :
    LookupPc → LookupAct → Option (Except Fault (LookupPc × Option Found))
  | .idle, .call voff len fixed =>
    if fixed = false then some (.ok (.returning voff none, some (voff, none)))
    else if len ≠ self.block_length then some (.error .len_not_block_length)
    else if voff % len ≠ 0 then some (.error .voff_not_multiple)
    else some (.ok (.entered voff len, none))
  | .entered voff len, .load_offset =>
    if voff < self.next_offset then some (.ok (.indexing voff (voff / len), none))
    else some (.ok (.returning voff none, some (voff, none)))
  | .indexing voff block_num, .test_slot =>
    match self.blocks[block_num]? with
    | none => some (.error (.slot_out_of_range block_num))
    | some none => some (.ok (.returning voff none, some (voff, none)))
    | some (some _) => some (.ok (.reading voff block_num, none))
  | .reading voff block_num, .read_mr =>
    match self.blocks[block_num]? with
    | none => some (.error (.slot_out_of_range block_num))
    | some none => some (.error (.slot_null block_num))
    | some (some block) => some (.ok (.returning voff block.mr, some (voff, block.mr)))
  | .returning _ _, .ret => some (.ok (.idle, none))
  | _, _ => none

/-- A step of `get_pinned_mr` with its guard, one case for each branch. -/
inductive LookupMove (mem : PinnedFixMemory) :
    LookupPc → LookupAct → Except Fault (LookupPc × Option Found) → Prop where
  | unfixed (voff len : Nat) :
      LookupMove mem .idle (.call voff len false) (.ok (.returning voff none, some (voff, none)))
  | len_fault (voff len : Nat) (hlen : len ≠ mem.block_length) :
      LookupMove mem .idle (.call voff len true) (.error .len_not_block_length)
  | voff_fault (voff len : Nat) (hmod : voff % len ≠ 0) :
      LookupMove mem .idle (.call voff len true) (.error .voff_not_multiple)
  | enter (voff len : Nat) (hlen : len = mem.block_length) (hmod : voff % len = 0) :
      LookupMove mem .idle (.call voff len true) (.ok (.entered voff len, none))
  | below (voff len : Nat) (hless : voff < mem.next_offset) :
      LookupMove mem (.entered voff len) .load_offset (.ok (.indexing voff (voff / len), none))
  | beyond (voff len : Nat) (hle : mem.next_offset ≤ voff) :
      LookupMove mem (.entered voff len) .load_offset (.ok (.returning voff none, some (voff, none)))
  | test_range (voff i : Nat) (hslot : mem.blocks[i]? = none) :
      LookupMove mem (.indexing voff i) .test_slot (.error (.slot_out_of_range i))
  | empty (voff i : Nat) (hslot : mem.blocks[i]? = some none) :
      LookupMove mem (.indexing voff i) .test_slot (.ok (.returning voff none, some (voff, none)))
  | filled (voff i : Nat) (block : PinnedBlock) (hslot : mem.blocks[i]? = some (some block)) :
      LookupMove mem (.indexing voff i) .test_slot (.ok (.reading voff i, none))
  | read_range (voff i : Nat) (hslot : mem.blocks[i]? = none) :
      LookupMove mem (.reading voff i) .read_mr (.error (.slot_out_of_range i))
  | read_null (voff i : Nat) (hslot : mem.blocks[i]? = some none) :
      LookupMove mem (.reading voff i) .read_mr (.error (.slot_null i))
  | read (voff i : Nat) (block : PinnedBlock) (hslot : mem.blocks[i]? = some (some block)) :
      LookupMove mem (.reading voff i) .read_mr (.ok (.returning voff block.mr, some (voff, block.mr)))
  | ret (voff : Nat) (mr : Option IbvMr) : LookupMove mem (.returning voff mr) .ret (.ok (.idle, none))

theorem PinnedFixMemory.get_pinned_mr_move {mem : PinnedFixMemory} {pc : LookupPc} {act : LookupAct}
    {result : Except Fault (LookupPc × Option Found)} (hstep : mem.get_pinned_mr pc act = some result) :
    LookupMove mem pc act result := by
  unfold PinnedFixMemory.get_pinned_mr at hstep
  split at hstep
  · rename_i voff len fixed
    cases fixed with
    | false =>
      cases hstep
      exact .unfixed voff len
    | true =>
      rw [if_neg (by simp)] at hstep
      split at hstep
      · cases hstep
        exact .len_fault voff len ‹_›
      · rename_i hlen
        split at hstep
        · cases hstep
          exact .voff_fault voff len ‹_›
        · rename_i hmod
          cases hstep
          exact .enter voff len (not_not.mp hlen) (not_not.mp hmod)
  · split at hstep
    · cases hstep
      exact .below _ _ ‹_›
    · rename_i hnot
      cases hstep
      exact .beyond _ _ (Nat.le_of_not_lt hnot)
  · split at hstep
    · cases hstep
      exact .test_range _ _ ‹_›
    · cases hstep
      exact .empty _ _ ‹_›
    · cases hstep
      exact .filled _ _ _ ‹_›
  · split at hstep
    · cases hstep
      exact .read_range _ _ ‹_›
    · cases hstep
      exact .read_null _ _ ‹_›
    · cases hstep
      exact .read _ _ _ ‹_›
  · cases hstep
    exact .ret _ _
  · cases hstep

/-- A `MemoryMagr` with `T` allocating threads and `R` threads that look up.
What the lookups have found stands in the order of the reads that decided it. -/
structure Magr (T R : Nat) where
  pool : Pool T
  reader : Fin R → LookupPc
  found : List Found
  fault : Option Fault

/-- A manager whose pool was constructed with these sizes. -/
def Magr.sized (T R block_len max : Nat) : Magr T R :=
  { pool := .new T block_len max, reader := fun _ => .idle, found := [], fault := none }

/-- The constructor `MemoryMagr()`. -/
def Magr.new (T R : Nat) : Magr T R := .sized T R FIX_BLOCK_LENGTH MAX_MEMORY_LENGTH

inductive MagrAct (T R : Nat) where
  /-- a call of `allocate_pinned_memory` with `fixed` set -/
  | allocate_pinned_memory (t : Fin T) (pd flags len : Nat)
  /-- a further step of the `allocate_next_block` it made -/
  | allocate (t : Fin T) (act : AllocAct)
  | lookup (r : Fin R) (act : LookupAct)
  deriving DecidableEq

/-- One step of one thread. Nothing runs after a fault. -/
def Magr.step {T R : Nat} (s : Magr T R) (label : MagrAct T R) : Option (Magr T R) :=
  match s.fault, label with
  | some _, _ => none
  | none, .allocate_pinned_memory t pd flags len =>
    if len ≠ s.pool.mem.block_length then some { s with fault := some .len_not_block_length }
    else (s.pool.step (t, .call pd flags)).map fun pool => { s with pool := pool }
  | none, .allocate t act =>
    match act with
    | .call _ _ => none
    | act => (s.pool.step (t, act)).map fun pool => { s with pool := pool }
  | none, .lookup r act =>
    match s.pool.fault, s.pool.mem.get_pinned_mr (s.reader r) act with
    | none, some (.error fault) => some { s with fault := some fault }
    | none, some (.ok (pc, found)) =>
      some { s with reader := Function.update s.reader r pc, found := s.found ++ found.toList }
    | _, _ => none

/-- What a step of the manager can be: a step of the pool that leaves the
readers alone, a failing length assertion, or a step of a reader that leaves
the pool alone. -/
inductive MagrMove {T R : Nat} (s : Magr T R) : MagrAct T R → Magr T R → Prop where
  | pool (label : MagrAct T R) (inner : Fin T × AllocAct) (pool : Pool T)
      (hpool : s.pool.step inner = some pool) (hno : ∀ r act, label ≠ .lookup r act) :
      MagrMove s label { s with pool := pool }
  | len_fault (t : Fin T) (pd flags len : Nat) (hlen : len ≠ s.pool.mem.block_length) :
      MagrMove s (.allocate_pinned_memory t pd flags len) { s with fault := some .len_not_block_length }
  | lookup_fault (r : Fin R) (act : LookupAct) (fault : Fault)
      (hlookup : LookupMove s.pool.mem (s.reader r) act (.error fault)) :
      MagrMove s (.lookup r act) { s with fault := some fault }
  | lookup (r : Fin R) (act : LookupAct) (pc : LookupPc) (found : Option Found)
      (hlookup : LookupMove s.pool.mem (s.reader r) act (.ok (pc, found))) :
      MagrMove s (.lookup r act)
        { s with reader := Function.update s.reader r pc, found := s.found ++ found.toList }

theorem Magr.step_move {T R : Nat} {s next : Magr T R} {label : MagrAct T R}
    (hstep : s.step label = some next) : s.fault = none ∧ MagrMove s label next := by
  unfold Magr.step at hstep
  split at hstep
  · cases hstep
  · rename_i t pd flags len hfault
    refine ⟨hfault, ?_⟩
    split at hstep
    · cases hstep
      exact .len_fault t pd flags len ‹_›
    · obtain ⟨pool, hpool, rfl⟩ := Option.map_eq_some_iff.mp hstep
      exact .pool _ (t, .call pd flags) pool hpool (by simp)
  · rename_i t act hfault
    refine ⟨hfault, ?_⟩
    split at hstep
    · cases hstep
    · obtain ⟨pool, hpool, rfl⟩ := Option.map_eq_some_iff.mp hstep
      exact .pool _ (t, act) pool hpool (by simp)
  · rename_i r act hfault
    refine ⟨hfault, ?_⟩
    split at hstep
    · cases hstep
      exact .lookup_fault r act _ (PinnedFixMemory.get_pinned_mr_move ‹_›)
    · cases hstep
      exact .lookup r act _ _ (PinnedFixMemory.get_pinned_mr_move ‹_›)
    · cases hstep

end tc_rdma.mem_mag
