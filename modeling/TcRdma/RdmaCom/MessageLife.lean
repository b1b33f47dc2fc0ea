import Mathlib.Data.List.Nodup
import TcRdma.Machine.Ledger
import TcRdma.Machine.Run
import TcRdma.RdmaCom.Message

open tc_rdma.machine tc_rdma.env_basic

namespace tc_rdma.rdma_com

/-- What is done with the memory of messages. -/
inductive PacketOp where
  | malloc (id : Nat)
  | store (id : Nat)
  | free (id : Nat)
  deriving DecidableEq, Repr

def packets : Ledger PacketOp Nat where
  creates
    | .malloc id => some id
    | .store _ => none
    | .free _ => none
  destroys
    | .malloc _ => none
    | .store _ => none
    | .free id => some id
  exclusive := by
    intro op id hcreates
    cases op with
    | malloc id => rfl
    | store id => cases hcreates
    | free id => cases hcreates

/-- The members of an `RdmaMessage`. Both pointers point into one buffer, and
`data` is a position in it. -/
structure MessageObject where
  data : Nat
  rdma_pck : Nat
  length : UInt32
  pck_len : UInt32
  deriving DecidableEq, Repr

/-- The message that an object stands for. -/
def MessageObject.message (buffers : Nat → List UInt8) (self : MessageObject) : RdmaMessage :=
  { data := self.data, rdma_pck := buffers self.rdma_pck, length := self.length, pck_len := self.pck_len }

/-- The message objects that exist, under their names, and their memory. A
buffer is known by a number. -/
structure Messages (ο : Type) where
  objs : ο → Option MessageObject
  buffers : Nat → List UInt8
  next : Nat
  log : List PacketOp

def Messages.new (ο : Type) : Messages ο := { objs := fun _ => none, buffers := fun _ => [], next := 0, log := [] }

/-- What is done with messages. The class declares a destructor and no copy or
move operation, so the compiler supplies both copy operations and moves copy. -/
inductive MessageAct (ο : Type) where
  | construct (o : ο) (malloc : (size : Nat) → Vector UInt8 size) (l : UInt32)
  | copy_construct (o r : ο)
  | copy_assign (o r : ο)
  | write_data (o : ο) (i : Nat) (v : UInt8)
  | destroy (o : ο)

variable {ο : Type} [DecidableEq ο]

/-- One operation. An object is constructed when it does not exist and used
while it does, and nothing is written outside a buffer. Copies are memberwise,
and only the constructor allocates. -/
def Messages.step (s : Messages ο) : MessageAct ο → Option (Messages ο)
  | .construct o malloc l =>
    match s.objs o with
    | some _ => none
    | none =>
      (RdmaMessage.new malloc l).map fun m =>
        { objs := Function.update s.objs o
            (some { data := m.data, rdma_pck := s.next, length := m.length, pck_len := m.pck_len })
          buffers := Function.update s.buffers s.next m.rdma_pck
          next := s.next + 1
          log := s.log ++ [.malloc s.next] }
  | .copy_construct o r =>
    match s.objs o, s.objs r with
    | none, some rhs => some { s with objs := Function.update s.objs o (some rhs) }
    | _, _ => none
  | .copy_assign o r =>
    match s.objs o, s.objs r with
    | some _, some rhs => some { s with objs := Function.update s.objs o (some rhs) }
    | _, _ => none
  | .write_data o i v =>
    match s.objs o with
    | none => none
    | some self =>
      ((self.message s.buffers).write_data i v).map fun m =>
        { s with
          buffers := Function.update s.buffers self.rdma_pck m.rdma_pck
          log := s.log ++ [.store self.rdma_pck] }
  | .destroy o =>
    match s.objs o with
    | none => none
    | some self =>
      some { s with objs := Function.update s.objs o none, log := s.log ++ [.free self.rdma_pck] }

variable {s next last : Messages ο} {act : MessageAct ο} {acts : List (MessageAct ο)}

/-- An operation with its guard, one case for each. -/
inductive MessageMove (s : Messages ο) : MessageAct ο → Messages ο → Prop where
  | construct (o : ο) (malloc : (size : Nat) → Vector UInt8 size) (l : UInt32) (m : RdmaMessage)
      (hobj : s.objs o = none) (hnew : RdmaMessage.new malloc l = some m) :
      MessageMove s (.construct o malloc l)
        { objs := Function.update s.objs o
            (some { data := m.data, rdma_pck := s.next, length := m.length, pck_len := m.pck_len })
          buffers := Function.update s.buffers s.next m.rdma_pck
          next := s.next + 1
          log := s.log ++ [.malloc s.next] }
  | copy_construct (o r : ο) (rhs : MessageObject) (hobj : s.objs o = none) (hrhs : s.objs r = some rhs) :
      MessageMove s (.copy_construct o r) { s with objs := Function.update s.objs o (some rhs) }
  | copy_assign (o r : ο) (self rhs : MessageObject) (hobj : s.objs o = some self) (hrhs : s.objs r = some rhs) :
      MessageMove s (.copy_assign o r) { s with objs := Function.update s.objs o (some rhs) }
  | write_data (o : ο) (i : Nat) (v : UInt8) (self : MessageObject) (m : RdmaMessage) (hobj : s.objs o = some self)
      (hwrite : (self.message s.buffers).write_data i v = some m) :
      MessageMove s (.write_data o i v)
        { s with
          buffers := Function.update s.buffers self.rdma_pck m.rdma_pck
          log := s.log ++ [.store self.rdma_pck] }
  | destroy (o : ο) (self : MessageObject) (hobj : s.objs o = some self) :
      MessageMove s (.destroy o)
        { s with objs := Function.update s.objs o none, log := s.log ++ [.free self.rdma_pck] }

theorem Messages.step_move (hstep : s.step act = some next) : MessageMove s act next := by
  cases act with
  | construct o malloc l =>
    dsimp only [Messages.step] at hstep
    split at hstep
    · cases hstep
    · obtain ⟨m, hnew, rfl⟩ := Option.map_eq_some_iff.mp hstep
      exact .construct o malloc l m ‹_› hnew
  | copy_construct o r =>
    dsimp only [Messages.step] at hstep
    split at hstep
    · cases hstep
      exact .copy_construct o r _ ‹_› ‹_›
    · cases hstep
  | copy_assign o r =>
    dsimp only [Messages.step] at hstep
    split at hstep
    · cases hstep
      exact .copy_assign o r _ _ ‹_› ‹_›
    · cases hstep
  | write_data o i v =>
    dsimp only [Messages.step] at hstep
    split at hstep
    · cases hstep
    · obtain ⟨m, hwrite, rfl⟩ := Option.map_eq_some_iff.mp hstep
      exact .write_data o i v _ m ‹_› hwrite
  | destroy o =>
    dsimp only [Messages.step] at hstep
    split at hstep
    · cases hstep
    · cases hstep
      exact .destroy o _ ‹_›

/-- Every object has a buffer of its own, every buffer that is live has its
object, and nothing was stored in a buffer that was not live. -/
structure Messages.Owned (s : Messages ο) : Prop where
  holding : ∃ ids, packets.Holding s.log ids ∧ ∀ id, id ∈ ids ↔ ∃ o self, s.objs o = some self ∧ self.rdma_pck = id
  unique : ∀ o o' self self', s.objs o = some self → s.objs o' = some self' → self.rdma_pck = self'.rdma_pck → o = o'
  fresh : ∀ id ∈ packets.created s.log, id < s.next
  once : (packets.created s.log).Nodup
  stores : Always (fun front op => ∀ id, op = .store id → packets.Live front id) s.log

theorem Messages.owned_new (ο : Type) : (Messages.new ο).Owned where
  holding := ⟨[], packets.holding_nil, by simp [Messages.new]⟩
  unique := by
    intro o o' self self' hobj
    cases hobj
  fresh := by simp [Messages.new, Ledger.created]
  once := List.nodup_nil
  stores := always_nil

omit [DecidableEq ο] in
theorem Messages.Owned.live (h : s.Owned) {o : ο} {self : MessageObject} (hobj : s.objs o = some self) :
    packets.Live s.log self.rdma_pck := by
  obtain ⟨ids, hholding, hids⟩ := h.holding
  exact hholding.live_iff.mpr ((hids _).mpr ⟨o, self, hobj, rfl⟩)

omit [DecidableEq ο] in
/-- The next buffer belongs to no object. -/
theorem Messages.Owned.lt_next (h : s.Owned) {o : ο} {self : MessageObject} (hobj : s.objs o = some self) :
    self.rdma_pck < s.next := by
  obtain ⟨ids, hholding, hids⟩ := h.holding
  have hmem := (hids _).mpr ⟨o, self, hobj, rfl⟩
  exact h.fresh _ (hholding.left.mem_iff.mpr (List.mem_append_right _ hmem))

theorem objs_update {objs : ο → Option MessageObject} {o o' : ο} {obj? : Option MessageObject} {self : MessageObject}
    (hobj : Function.update objs o obj? o' = some self) : o' = o ∧ obj? = some self ∨ o' ≠ o ∧ objs o' = some self := by
  by_cases hname : o' = o
  · subst hname
    rw [Function.update_self] at hobj
    exact .inl ⟨rfl, hobj⟩
  · rw [Function.update_of_ne hname] at hobj
    exact .inr ⟨hname, hobj⟩

theorem Messages.Owned.construct (h : s.Owned) {o : ο} (hobj : s.objs o = none) (m : RdmaMessage) :
    Messages.Owned
      { objs := Function.update s.objs o
          (some { data := m.data, rdma_pck := s.next, length := m.length, pck_len := m.pck_len })
        buffers := Function.update s.buffers s.next m.rdma_pck
        next := s.next + 1
        log := s.log ++ [.malloc s.next] } := by
  obtain ⟨ids, hholding, hids⟩ := h.holding
  have hcreated : packets.created (s.log ++ [.malloc s.next]) = packets.created s.log ++ [s.next] := by
    simp [Ledger.created, packets]
  constructor
  · refine ⟨s.next :: ids, hholding.create rfl, ?_⟩
    intro id
    rw [List.mem_cons, hids]
    constructor
    · rintro (rfl | ⟨o', self, hself, rfl⟩)
      · exact ⟨o, _, Function.update_self _ _ _, rfl⟩
      · have hne : o' ≠ o := by
          rintro rfl
          rw [hobj] at hself
          cases hself
        exact ⟨o', self, (Function.update_of_ne hne _ _).trans hself, rfl⟩
    · rintro ⟨o', self, hself, rfl⟩
      rcases objs_update hself with ⟨-, hnew⟩ | ⟨-, hold⟩
      · cases hnew
        exact .inl rfl
      · exact .inr ⟨o', self, hold, rfl⟩
  · intro a b self self' ha hb hsame
    rcases objs_update ha with ⟨rfl, hanew⟩ | ⟨-, haold⟩
    · rcases objs_update hb with ⟨rfl, -⟩ | ⟨-, hbold⟩
      · rfl
      · cases hanew
        exact absurd hsame.symm (Nat.ne_of_lt (h.lt_next hbold))
    · rcases objs_update hb with ⟨rfl, hbnew⟩ | ⟨-, hbold⟩
      · cases hbnew
        exact absurd hsame (Nat.ne_of_lt (h.lt_next haold))
      · exact h.unique a b self self' haold hbold hsame
  · intro id hid
    dsimp only at hid ⊢
    rw [hcreated, List.mem_append, List.mem_singleton] at hid
    rcases hid with hold | rfl
    · exact Nat.lt_succ_of_lt (h.fresh id hold)
    · exact Nat.lt_succ_self _
  · dsimp only
    rw [hcreated, List.nodup_append]
    refine ⟨h.once, List.nodup_singleton _, ?_⟩
    intro a ha x hx heq
    rw [List.mem_singleton.mp hx] at heq
    exact Nat.ne_of_lt (h.fresh a ha) heq
  · refine always_concat.mpr ⟨h.stores, ?_⟩
    intro id hop
    cases hop

omit [DecidableEq ο] in
theorem Messages.Owned.write_data (h : s.Owned) {o : ο} {self : MessageObject} (hobj : s.objs o = some self)
    (buffers : Nat → List UInt8) :
    Messages.Owned { s with buffers := buffers, log := s.log ++ [.store self.rdma_pck] } := by
  obtain ⟨ids, hholding, hids⟩ := h.holding
  have hcreated : packets.created (s.log ++ [.store self.rdma_pck]) = packets.created s.log := by
    simp [Ledger.created, packets]
  constructor
  · exact ⟨ids, hholding.ignore ⟨rfl, rfl⟩, hids⟩
  · exact h.unique
  · dsimp only
    rw [hcreated]
    exact h.fresh
  · dsimp only
    rw [hcreated]
    exact h.once
  · refine always_concat.mpr ⟨h.stores, ?_⟩
    intro id hop
    cases hop
    exact h.live hobj

theorem Messages.Owned.destroy (h : s.Owned) {o : ο} {self : MessageObject} (hobj : s.objs o = some self) :
    Messages.Owned { s with objs := Function.update s.objs o none, log := s.log ++ [.free self.rdma_pck] } := by
  obtain ⟨ids, hholding, hids⟩ := h.holding
  have hmem : self.rdma_pck ∈ ids := (hids _).mpr ⟨o, self, hobj, rfl⟩
  have hnodup : ids.Nodup := (List.nodup_append.mp (hholding.left.nodup_iff.mp h.once)).2.1
  have hcreated : packets.created (s.log ++ [.free self.rdma_pck]) = packets.created s.log := by
    simp [Ledger.created, packets]
  have hkept : ∀ o' self', Function.update s.objs o none o' = some self' → o' ≠ o ∧ s.objs o' = some self' := by
    intro o' self' hself'
    rcases objs_update hself' with ⟨-, hnone⟩ | hold
    · cases hnone
    · exact hold
  constructor
  · refine ⟨ids.erase self.rdma_pck, (hholding.perm (List.perm_cons_erase hmem)).destroy rfl, ?_⟩
    intro id
    rw [hnodup.mem_erase_iff, hids]
    constructor
    · rintro ⟨hne, o', self', hself', rfl⟩
      have hname : o' ≠ o := by
        rintro rfl
        rw [hobj] at hself'
        cases hself'
        exact hne rfl
      exact ⟨o', self', (Function.update_of_ne hname _ _).trans hself', rfl⟩
    · rintro ⟨o', self', hself', rfl⟩
      obtain ⟨hname, hself'⟩ := hkept o' self' hself'
      exact ⟨fun hsame => hname (h.unique o' o self' self hself' hobj hsame), o', self', hself', rfl⟩
  · intro a b x y ha hb hsame
    exact h.unique a b x y (hkept a x ha).2 (hkept b y hb).2 hsame
  · dsimp only
    rw [hcreated]
    exact h.fresh
  · dsimp only
    rw [hcreated]
    exact h.once
  · refine always_concat.mpr ⟨h.stores, ?_⟩
    intro id hop
    cases hop

/-- The operation leaves every buffer with the object that allocated it. -/
def MessageAct.Owning : MessageAct ο → Prop
  | .copy_construct _ _ => False
  | .copy_assign o r => o = r
  | _ => True

theorem Messages.Owned.step (h : s.Owned) (hact : act.Owning) (hstep : s.step act = some next) : next.Owned := by
  cases Messages.step_move hstep with
  | construct o malloc l m hobj hnew => exact h.construct hobj m
  | copy_construct o r rhs hobj hrhs => exact hact.elim
  | copy_assign o r self rhs hobj hrhs =>
    obtain rfl : o = r := hact
    rwa [← hrhs, Function.update_eq_self]
  | write_data o i v self m hobj hwrite => exact h.write_data hobj _
  | destroy o self hobj => exact h.destroy hobj

end tc_rdma.rdma_com
