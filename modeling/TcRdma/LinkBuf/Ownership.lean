import TcRdma.LinkBuf.Basic
import TcRdma.Machine.Ledger
import TcRdma.Machine.Run

open tc_rdma.machine

namespace tc_rdma.link_buf

/-- What is done with arrays of slots. -/
inductive ArrayOp where
  | new_array (id : Nat)
  | delete_array (id : Nat)
  deriving DecidableEq, Repr

def slot_arrays : Ledger ArrayOp Nat where
  creates
    | .new_array id => some id
    | .delete_array _ => none
  destroys
    | .new_array _ => none
    | .delete_array id => some id
  exclusive := by
    intro op id hcreates
    cases op with
    | new_array id => rfl
    | delete_array id => cases hcreates

/-- The memory for slots. An array is known by a number; it has no slots before
it is created and after it is deleted. -/
structure Arrays where
  slots : Nat → Option (List Nat)
  next : Nat
  log : List ArrayOp

def Arrays.empty : Arrays := { slots := fun _ => none, next := 0, log := [] }

def Arrays.new_array (mem : Arrays) (values : List Nat) : Arrays :=
  { slots := Function.update mem.slots mem.next (some values)
    next := mem.next + 1
    log := mem.log ++ [.new_array mem.next] }

def Arrays.delete_array (mem : Arrays) (id : Nat) : Arrays :=
  { mem with slots := Function.update mem.slots id none, log := mem.log ++ [.delete_array id] }

/-- The ways in which an operation on an object can go wrong. -/
inductive ObjectFault where
  | capacity_not_pow2
  | links_null
  | links_deleted
  | slot_out_of_range
  deriving DecidableEq, Repr

/-- A `Link_buf` object: its members, of which `m_links` points to an array or
is null. -/
structure BufObject where
  m_capacity : Nat
  m_links : Option Nat
  m_tail : Nat
  deriving DecidableEq, Repr

/-- The constructor `Link_buf(capacity)`. -/
def BufObject.construct (mem : Arrays) (capacity : Nat) : Except ObjectFault (BufObject × Arrays) :=
  if capacity = 0 then .ok ({ m_capacity := capacity, m_links := none, m_tail := 0 }, mem)
  else if capacity &&& (capacity - 1) ≠ 0 then .error .capacity_not_pow2
  else .ok ({ m_capacity := capacity, m_links := some mem.next, m_tail := 0 },
    mem.new_array (List.replicate capacity 0))

/-- The constructor `Link_buf()`. -/
def BufObject.construct_default (mem : Arrays) : Except ObjectFault (BufObject × Arrays) :=
  BufObject.construct mem 0

/-- `free`. -/
def BufObject.free (self : BufObject) (mem : Arrays) : Except ObjectFault (BufObject × Arrays) :=
  match self.m_links with
  | none => .ok (self, mem)
  | some id =>
    match mem.slots id with
    | none => .error .links_deleted
    | some _ => .ok ({ self with m_links := none }, mem.delete_array id)

/-- The store `m_links[index].store(value)`. -/
def BufObject.store_slot (self : BufObject) (mem : Arrays) (index value : Nat) : Except ObjectFault Arrays :=
  match self.m_links with
  | none => .error .links_null
  | some id =>
    match mem.slots id with
    | none => .error .links_deleted
    | some slots =>
      if index < slots.length then
        .ok { mem with slots := Function.update mem.slots id (some (slots.set index value)) }
      else .error .slot_out_of_range

/-- `slot_index`, for an object of any capacity. -/
def BufObject.slot_index (self : BufObject) (position : Nat) : Nat := position &&& u64_sub self.m_capacity 1

/-- The loop of `clear_links`, from the slot `i` on and for `n` slots. -/
def BufObject.clear_slots (self : BufObject) (mem : Arrays) : Nat → Nat → Except ObjectFault Arrays
  | _, 0 => .ok mem
  | i, n + 1 =>
    match self.store_slot mem i 0 with
    | .error fault => .error fault
    | .ok mem => self.clear_slots mem (i + 1) n

/-- `clear_links`. -/
def BufObject.clear_links (self : BufObject) (mem : Arrays) : Except ObjectFault (BufObject × Arrays) :=
  match self.clear_slots mem 0 self.m_capacity with
  | .error fault => .error fault
  | .ok mem => .ok ({ self with m_tail := 0 }, mem)

/-- The objects that exist, under their names, and their memory. -/
structure Objects (ο : Type) where
  objs : ο → Option BufObject
  mem : Arrays
  fault : Option ObjectFault

def Objects.new (ο : Type) : Objects ο := { objs := fun _ => none, mem := .empty, fault := none }

/-- What is done with objects: those of the operations that use the slots or
the tail are among them, so that the moved contents can be any. -/
inductive ObjectAct (ο : Type) where
  | construct (o : ο) (capacity : Capacity)
  | construct_default (o : ο)
  | move_construct (o rhs : ο)
  | move_assign (o rhs : ο)
  | destroy (o : ο)
  | store (o : ο) (position value : Nat)
  | set_tail (o : ο) (position : Nat)
  | clear_links (o : ο)

variable {ο : Type} [DecidableEq ο]

/-- The object and the memory after an operation on one object. -/
def Objects.settle (s : Objects ο) (o : ο) : Except ObjectFault (BufObject × Arrays) → Objects ο
  | .error fault => { s with fault := some fault }
  | .ok (b, mem) => { s with objs := Function.update s.objs o (some b), mem := mem }

/-- `Link_buf(Link_buf &&)`. -/
def Objects.move_construct (s : Objects ο) (o r : ο) (rhs : BufObject) : Objects ο :=
  { s with
    objs := Function.update
      (Function.update s.objs o (some { m_capacity := rhs.m_capacity, m_tail := rhs.m_tail, m_links := rhs.m_links }))
      r (some { rhs with m_links := none }) }

/-- `operator=(Link_buf &&)`. The members of the right-hand side are read after
`free`, which matters when it is the same object. -/
def Objects.move_assign (s : Objects ο) (o r : ο) (self : BufObject) : Option (Objects ο) :=
  match self.free s.mem with
  | .error fault => some { s with fault := some fault }
  | .ok (self, mem) =>
    let s := { s with objs := Function.update s.objs o (some self), mem := mem }
    (s.objs r).map fun rhs => s.move_construct o r rhs

/-- One operation. An object is constructed when it does not exist and used
while it does, slots are used only of an object with a capacity, and nothing
happens after a fault. -/
def Objects.step (s : Objects ο) (act : ObjectAct ο) : Option (Objects ο) :=
  match s.fault, act with
  | some _, _ => none
  | none, .construct o capacity =>
    match s.objs o with
    | some _ => none
    | none => some (s.settle o (BufObject.construct s.mem capacity.val))
  | none, .construct_default o =>
    match s.objs o with
    | some _ => none
    | none => some (s.settle o (BufObject.construct_default s.mem))
  | none, .move_construct o r =>
    match s.objs o, s.objs r with
    | none, some rhs => some (s.move_construct o r rhs)
    | _, _ => none
  | none, .move_assign o r =>
    match s.objs o, s.objs r with
    | some self, some _ => s.move_assign o r self
    | _, _ => none
  | none, .destroy o =>
    match s.objs o with
    | none => none
    | some self =>
      match self.free s.mem with
      | .error fault => some { s with fault := some fault }
      | .ok (_, mem) => some { s with objs := Function.update s.objs o none, mem := mem }
  | none, .store o position value =>
    match s.objs o with
    | none => none
    | some self =>
      if self.m_capacity = 0 then none
      else some (s.settle o ((self.store_slot s.mem (self.slot_index position) value).map (self, ·)))
  | none, .set_tail o position => (s.objs o).map fun self => s.settle o (.ok ({ self with m_tail := position }, s.mem))
  | none, .clear_links o => (s.objs o).map fun self => s.settle o (self.clear_links s.mem)

end tc_rdma.link_buf
