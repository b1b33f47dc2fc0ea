import Mathlib.Data.Finset.Card
import TcRdma.RdmaCom.MessageLife

open tc_rdma.machine

namespace tc_rdma.rdma_com

variable {ο : Type} [DecidableEq ο] {s next last : Messages ο} {act : MessageAct ο} {acts : List (MessageAct ο)}

/-- There are `k` objects more than buffers left to free. -/
def Messages.Overdrawn (k : Nat) (s : Messages ο) : Prop :=
  ∃ names : Finset ο, (∀ o, o ∈ names ↔ (s.objs o).isSome) ∧
    (packets.created s.log).length + k ≤ (packets.destroyed s.log).length + names.card

omit [DecidableEq ο] in
theorem Messages.overdrawn_new : (Messages.new ο).Overdrawn 0 := 
  ⟨∅, by simp [Messages.new], by simp [Messages.new, Ledger.created, Ledger.destroyed]⟩

theorem isSome_update {objs : ο → Option MessageObject} {o o' : ο} {self : MessageObject} {names : Finset ο}
    (hnames : ∀ o, o ∈ names ↔ (objs o).isSome) :
    o' ∈ insert o names ↔ (Function.update objs o (some self) o').isSome := by
  by_cases hname : o' = o
  · simp [hname]
  · simp [hname, hnames]

theorem Messages.Overdrawn.copy_construct {k : Nat} (h : s.Overdrawn k) {o : ο} (hobj : s.objs o = none)
    (rhs : MessageObject) :
    Messages.Overdrawn (k + 1) { s with objs := Function.update s.objs o (some rhs) } := by
  obtain ⟨names, hnames, hcount⟩ := h
  have hfresh : o ∉ names := by simp [hnames, hobj]
  refine ⟨insert o names, fun o' => isSome_update hnames, ?_⟩
  rw [Finset.card_insert_of_notMem hfresh]
  dsimp only
  omega

theorem Messages.Overdrawn.step {k : Nat} (h : s.Overdrawn k) (hstep : s.step act = some next) :
    next.Overdrawn k := by
  cases Messages.step_move hstep with
  | construct o malloc l m hobj hnew =>
    obtain ⟨names, hnames, hcount⟩ := h
    have hfresh : o ∉ names := by simp [hnames, hobj]
    refine ⟨insert o names, fun o' => isSome_update hnames, ?_⟩
    rw [Finset.card_insert_of_notMem hfresh, packets.created_append, packets.destroyed_append, List.length_append,
      List.length_append]
    simp only [Ledger.created, Ledger.destroyed, packets, List.filterMap_cons, List.filterMap_nil, List.length_cons,
      List.length_nil] at hcount ⊢
    omega
  | copy_construct o r rhs hobj hrhs =>
    obtain ⟨names, hnames, hcount⟩ := h.copy_construct hobj rhs
    exact ⟨names, hnames, by omega⟩
  | copy_assign o r self rhs hobj hrhs =>
    obtain ⟨names, hnames, hcount⟩ := h
    have hmem : o ∈ names := by simp [hnames, hobj]
    refine ⟨names, fun o' => ?_, hcount⟩
    rw [← isSome_update hnames, Finset.insert_eq_of_mem hmem]
  | write_data o i v self m hobj hwrite =>
    obtain ⟨names, hnames, hcount⟩ := h
    refine ⟨names, hnames, ?_⟩
    rw [packets.created_append, packets.destroyed_append]
    simpa [Ledger.created, Ledger.destroyed, packets] using hcount
  | destroy o self hobj =>
    obtain ⟨names, hnames, hcount⟩ := h
    have hmem : o ∈ names := by simp [hnames, hobj]
    refine ⟨names.erase o, ?_, ?_⟩
    · intro o'
      by_cases hname : o' = o
      · simp [hname]
      · simp [hname, hnames]
    · have hcard := Finset.card_erase_add_one hmem
      rw [packets.created_append, packets.destroyed_append, List.length_append, List.length_append]
      simp only [Ledger.created, Ledger.destroyed, packets, List.filterMap_cons, List.filterMap_nil, List.length_cons,
        List.length_nil] at hcount ⊢
      omega

/-- A buffer that has been allocated and not freed, and that no object has any
more. Nothing can free it. -/
structure Messages.Lost (id : Nat) (s : Messages ο) : Prop where
  created : id ∈ packets.created s.log
  kept : id ∉ packets.destroyed s.log
  below : id < s.next
  unheld : ∀ o self, s.objs o = some self → self.rdma_pck ≠ id

theorem Messages.Lost.step {id : Nat} (h : s.Lost id) (hstep : s.step act = some next) : next.Lost id := by
  have hcreated : ∀ op, id ∈ packets.created (s.log ++ [op]) := by
    intro op
    rw [packets.created_append]
    exact List.mem_append_left _ h.created
  cases Messages.step_move hstep with
  | construct o malloc l m hobj hnew =>
    refine { created := hcreated _, kept := ?_, below := Nat.lt_succ_of_lt h.below, unheld := ?_ }
    · simpa [Ledger.destroyed, packets] using h.kept
    · intro o' self hself
      rcases objs_update hself with ⟨-, hself⟩ | ⟨-, hself⟩
      · cases hself
        exact (Nat.ne_of_lt h.below).symm
      · exact h.unheld o' self hself
  | copy_construct o r rhs hobj hrhs =>
    refine { h with unheld := ?_ }
    intro o' self hself
    rcases objs_update hself with ⟨-, hself⟩ | ⟨-, hself⟩
    · exact h.unheld r self (hrhs.trans hself)
    · exact h.unheld o' self hself
  | copy_assign o r self rhs hobj hrhs =>
    refine { h with unheld := ?_ }
    intro o' self hself
    rcases objs_update hself with ⟨-, hself⟩ | ⟨-, hself⟩
    · exact h.unheld r self (hrhs.trans hself)
    · exact h.unheld o' self hself
  | write_data o i v self m hobj hwrite =>
    refine { h with created := hcreated _, kept := ?_ }
    simpa [Ledger.destroyed, packets] using h.kept
  | destroy o self hobj =>
    refine { h with created := hcreated _, kept := ?_, unheld := ?_ }
    · have hne := h.unheld o self hobj
      simpa [Ledger.destroyed, packets, hne.symm] using h.kept
    · intro o' self' hself'
      rcases objs_update hself' with ⟨-, hnone⟩ | ⟨-, hself'⟩
      · cases hnone
      · exact h.unheld o' self' hself'

/-- Assigning another message loses the buffer that the object had. -/
theorem Messages.Owned.lost (h : s.Owned) {o r : ο} {self rhs : MessageObject} (hobj : s.objs o = some self)
    (hrhs : s.objs r = some rhs) (hother : o ≠ r) :
    Messages.Lost self.rdma_pck { s with objs := Function.update s.objs o (some rhs) } := by
  have hlive := h.live hobj
  have honce : (packets.created s.log).count self.rdma_pck ≤ 1 := List.nodup_iff_count_le_one.mp h.once _
  rw [Ledger.Live] at hlive
  have hcreated : self.rdma_pck ∈ packets.created s.log := List.count_pos_iff.mp (by omega)
  have hkept : self.rdma_pck ∉ packets.destroyed s.log := List.count_eq_zero.mp (by omega)
  refine { created := hcreated, kept := hkept, below := h.lt_next hobj, unheld := ?_ }
  intro o' self' hself' hsame
  have hwhich : o' = o ∧ some rhs = some self' ∨ o' ≠ o ∧ s.objs o' = some self' := objs_update hself'
  rcases hwhich with ⟨-, hnew⟩ | ⟨hname, hold⟩
  · cases hnew
    exact hother (h.unique _ _ _ _ hobj hrhs hsame.symm)
  · exact hname (h.unique _ _ _ _ hold hobj hsame)

/-- Every buffer is freed once, and neither freed nor stored into unless it is
allocated and not freed yet. -/
structure Disposed (log : List PacketOp) : Prop where
  sound : packets.Sound log
  stores : Always (fun front op => ∀ id, op = .store id → packets.Live front id) log
  closed : packets.Closed log

/-- A run that frees everything once has copied nothing. -/
theorem Messages.Owned.owning_of_closed (h : s.Owned) (hcount : s.Overdrawn 0)
    (hrun : run Messages.step s acts = some last) (hdone : ∀ o, last.objs o = none)
    (hclosed : packets.Closed last.log) : ∀ act ∈ acts, act.Owning := by
  induction acts generalizing s with
  | nil => simp
  | cons act acts ih =>
    obtain ⟨next, hstep, hrest⟩ := run_cons_eq_some.mp hrun
    have howning : act.Owning := by
      by_contra hnot
      cases Messages.step_move hstep with
      | copy_construct o r rhs hobj hrhs =>
        obtain ⟨names, hnames, hleft⟩ := run_invariant (fun _ _ _ ha hab => Messages.Overdrawn.step ha hab)
          (hcount.copy_construct hobj rhs) hrest
        have hempty : names = ∅ := by
          apply Finset.eq_empty_of_forall_notMem
          intro o'
          simp [hnames, hdone]
        rw [hempty, Finset.card_empty, hclosed.length_eq] at hleft
        omega
      | copy_assign o r self rhs hobj hrhs =>
        have hlost := run_invariant (fun _ _ _ ha hab => Messages.Lost.step ha hab) (h.lost hobj hrhs hnot) hrest
        exact hlost.kept (hclosed.mem_iff.mpr hlost.created)
      | construct => exact hnot trivial
      | write_data => exact hnot trivial
      | destroy => exact hnot trivial
    intro other hmem
    rcases List.mem_cons.mp hmem with rfl | hmem
    · exact howning
    · exact ih (h.step howning hstep) (hcount.step hstep) hrest other hmem

/-- When all messages are destroyed, every buffer has been freed once and used
only before that if and only if no message was copied, construction from
another message and assignment of another message both being copies. -/
theorem Messages.disposed_iff (hrun : run Messages.step (.new ο) acts = some s) (hdone : ∀ o, s.objs o = none) :
    Disposed s.log ↔ ∀ act ∈ acts, act.Owning := by
  constructor
  · intro hdisposed
    exact (Messages.owned_new ο).owning_of_closed Messages.overdrawn_new hrun hdone hdisposed.closed
  · intro howning
    have h : s.Owned := run_invariant_of (fun _ _ _ hact ha hab => Messages.Owned.step ha hact hab) howning
      (Messages.owned_new ο) hrun
    obtain ⟨ids, hholding, hids⟩ := h.holding
    refine { sound := hholding.sound, stores := h.stores, closed := hholding.closed_iff.mpr ?_ }
    apply List.eq_nil_iff_forall_not_mem.mpr
    intro id hmem
    obtain ⟨o, self, hobj, -⟩ := (hids id).mp hmem
    rw [hdone] at hobj
    cases hobj

/-- Two messages that share a packet, which each of them frees. -/
def sharedPacket : List (MessageAct Bool) :=
  [.construct true (fun size => Vector.replicate size 0) 2, .copy_construct false true, .destroy true, .destroy false]

theorem Messages.disposed_iff_shared :
    ∃ s, run Messages.step (.new Bool) sharedPacket = some s ∧ s.log = [.malloc 0, .free 0, .free 0] ∧
      ¬ Disposed s.log := by
  obtain ⟨m, hnew, -⟩ := RdmaMessage.new_holds (fun size => Vector.replicate size 0) (l := 2) (by decide)
  have hrun : ∃ s, run Messages.step (.new Bool) sharedPacket = some s ∧ s.log = [.malloc 0, .free 0, .free 0] ∧
      ∀ o, s.objs o = none := by
    simp [run, sharedPacket, Messages.step, Messages.new, hnew]
  obtain ⟨s, hrun, hlog, hdone⟩ := hrun
  refine ⟨s, hrun, hlog, ?_⟩
  intro hdisposed
  exact (Messages.disposed_iff hrun hdone).mp hdisposed (.copy_construct false true) (by simp [sharedPacket])

/-- What messages are to their users: values of their own. -/
def value_step (values : ο → Option RdmaMessage) : MessageAct ο → Option (ο → Option RdmaMessage)
  | .construct o malloc l =>
    match values o with
    | some _ => none
    | none => (RdmaMessage.new malloc l).map fun m => Function.update values o (some m)
  | .copy_construct o r =>
    match values o, values r with
    | none, some rhs => some (Function.update values o (some rhs))
    | _, _ => none
  | .copy_assign o r =>
    match values o, values r with
    | some _, some rhs => some (Function.update values o (some rhs))
    | _, _ => none
  | .write_data o i v =>
    match values o with
    | none => none
    | some self => (self.write_data i v).map fun m => Function.update values o (some m)
  | .destroy o =>
    match values o with
    | none => none
    | some _ => some (Function.update values o none)

def Messages.values (s : Messages ο) (o : ο) : Option RdmaMessage := (s.objs o).map (MessageObject.message s.buffers)

omit [DecidableEq ο] in
theorem Messages.values_eq (s : Messages ο) {o : ο} {self : MessageObject} (hobj : s.objs o = some self) :
    s.values o = some (self.message s.buffers) := by rw [Messages.values, hobj, Option.map_some]

omit [DecidableEq ο] in
theorem Messages.values_eq_none (s : Messages ο) {o : ο} (hobj : s.objs o = none) : s.values o = none := by
  rw [Messages.values, hobj, Option.map_none]

/-- Writing in a buffer changes the messages of this buffer only. -/
theorem MessageObject.message_update {self : MessageObject} {buffers : Nat → List UInt8} {id : Nat} (b : List UInt8)
    (hne : self.rdma_pck ≠ id) : self.message (Function.update buffers id b) = self.message buffers := by
  rw [MessageObject.message, MessageObject.message, Function.update_of_ne hne]

theorem Messages.Owned.values_construct (h : s.Owned) (o : ο) (m : RdmaMessage) :
    Messages.values
      { objs := Function.update s.objs o
          (some { data := m.data, rdma_pck := s.next, length := m.length, pck_len := m.pck_len })
        buffers := Function.update s.buffers s.next m.rdma_pck
        next := s.next + 1
        log := s.log ++ [.malloc s.next] } = Function.update s.values o (some m) := by
  funext o'
  by_cases hname : o' = o
  · subst hname
    simp [Messages.values, MessageObject.message]
  · rw [Function.update_of_ne hname, Messages.values, Messages.values]
    dsimp only
    rw [Function.update_of_ne hname]
    apply Option.map_congr
    intro self hobj
    exact MessageObject.message_update _ (Nat.ne_of_lt (h.lt_next hobj))

theorem Messages.Owned.values_write_data (h : s.Owned) {o : ο} {self : MessageObject} {m : RdmaMessage} {i : Nat}
    {v : UInt8} (hobj : s.objs o = some self) (hwrite : (self.message s.buffers).write_data i v = some m) :
    Messages.values
      { s with
        buffers := Function.update s.buffers self.rdma_pck m.rdma_pck
        log := s.log ++ [.store self.rdma_pck] } = Function.update s.values o (some m) := by
  funext o'
  by_cases hname : o' = o
  · subst hname
    obtain ⟨rdma_pck, -, rfl⟩ := Option.map_eq_some_iff.mp hwrite
    simp [Messages.values, MessageObject.message, hobj]
  · rw [Function.update_of_ne hname]
    apply Option.map_congr
    intro other hother
    exact MessageObject.message_update _ fun hsame => hname (h.unique _ _ _ _ hother hobj hsame)

/-- Without copies an operation on one message leaves the others alone. -/
theorem Messages.Owned.values_step (h : s.Owned) (hact : act.Owning) :
    value_step s.values act = (s.step act).map Messages.values := by
  cases act with
  | construct o malloc l =>
    cases hobj : s.objs o with
    | some self => simp [value_step, Messages.step, hobj, s.values_eq hobj]
    | none =>
      simp only [value_step, Messages.step, hobj, s.values_eq_none hobj, Option.map_map]
      apply Option.map_congr
      intro m hnew
      exact (h.values_construct o m).symm
  | copy_construct o r => exact hact.elim
  | copy_assign o r =>
    obtain rfl : o = r := hact
    cases hobj : s.objs o with
    | none => simp [value_step, Messages.step, hobj, s.values_eq_none hobj]
    | some self =>
      simp only [value_step, Messages.step, hobj, s.values_eq hobj, Option.map_some]
      rw [← s.values_eq hobj, ← hobj, Function.update_eq_self, Function.update_eq_self]
  | write_data o i v =>
    cases hobj : s.objs o with
    | none => simp [value_step, Messages.step, hobj, s.values_eq_none hobj]
    | some self =>
      simp only [value_step, Messages.step, hobj, s.values_eq hobj, Option.map_map]
      apply Option.map_congr
      intro m hwrite
      exact (h.values_write_data hobj hwrite).symm
  | destroy o =>
    cases hobj : s.objs o with
    | none => simp [value_step, Messages.step, hobj, s.values_eq_none hobj]
    | some self =>
      simp only [value_step, Messages.step, hobj, s.values_eq hobj, Option.map_some, Option.some.injEq]
      funext o'
      by_cases hname : o' = o
      · simp [hname, Messages.values]
      · simp [hname, Messages.values]

theorem Messages.Owned.values_run (h : s.Owned) (howning : ∀ act ∈ acts, act.Owning) :
    run value_step s.values acts = (run Messages.step s acts).map Messages.values := by
  induction acts generalizing s with
  | nil => rfl
  | cons act acts ih =>
    have hact := howning act (by simp)
    rw [run, run, h.values_step hact]
    cases hstep : s.step act with
    | none => rfl
    | some next => exact ih (h.step hact hstep) fun other hother => howning other (by simp [hother])

/-- A program that copies no message may take messages for values of their
own, although they are pointers into memory that it allocates: it runs on the
one as on the other, and every message holds what was written to it alone. -/
theorem Messages.run_eq_values (howning : ∀ act ∈ acts, act.Owning) :
    run value_step (fun _ => none) acts = (run Messages.step (.new ο) acts).map Messages.values :=
  (Messages.owned_new ο).values_run howning

/-- One message is written while another one exists. -/
def separatePackets : List (MessageAct Bool) :=
  [.construct true (fun size => Vector.replicate size 0) 2, .construct false (fun size => Vector.replicate size 0) 2,
    .write_data true 1 9, .destroy false]

theorem Messages.run_eq_values_separate :
    ∃ s, run Messages.step (.new Bool) separatePackets = some s ∧
      run value_step (fun _ => none) separatePackets = some s.values := by
  have howning : ∀ act ∈ separatePackets, act.Owning := by simp [separatePackets, MessageAct.Owning]
  obtain ⟨m, hnew, hm⟩ := RdmaMessage.new_holds (fun size => Vector.replicate size 0) (l := 2) (by decide)
  obtain ⟨m', hwrite, -⟩ := hm.write_data (i := 1) (by decide) 9
  have hrun : ∃ s, run Messages.step (.new Bool) separatePackets = some s := by
    simp [run, separatePackets, Messages.step, Messages.new, MessageObject.message, hnew, hwrite]
  obtain ⟨s, hrun⟩ := hrun
  refine ⟨s, hrun, ?_⟩
  rw [Messages.run_eq_values howning, hrun, Option.map_some]

end tc_rdma.rdma_com
