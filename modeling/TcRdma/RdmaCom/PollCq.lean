import TcRdma.Machine.Notifier
import TcRdma.Machine.Run
import TcRdma.RdmaCom.WorkRequest

open tc_rdma.machine

namespace tc_rdma.rdma_com

inductive IbvWcStatus where
  | IBV_WC_SUCCESS
  | error (status : Nat)
  deriving DecidableEq, Repr

/-- The opcodes that `on_completion` tells apart. -/
inductive IbvWcOpcode where
  | IBV_WC_RECV
  | IBV_WC_RECV_RDMA_WITH_IMM
  | IBV_WC_RDMA_READ
  | other (opcode : Nat)
  deriving DecidableEq, Repr

structure IbvWc where
  wr_id : UInt64
  status : IbvWcStatus
  opcode : IbvWcOpcode
  deriving DecidableEq, Repr

inductive Stream where
  | stdout
  | stderr
  deriving DecidableEq, Repr

/-- `on_completion`: what it prints, and where. -/
def on_completion (wc : IbvWc) : Stream × String :=
  match wc.status with
  | .error status => (.stderr, " error wc status " ++ toString status ++ "\n")
  | .IBV_WC_SUCCESS =>
    match wc.opcode with
    | .IBV_WC_RECV => (.stdout, "wc opcode IBV_WC_RECV\n")
    | .IBV_WC_RECV_RDMA_WITH_IMM => (.stdout, "wc opcode IBV_WC_RECV_RDMA_WITH_IMM\n")
    | .IBV_WC_RDMA_READ => (.stdout, "wc opcode IBV_WC_RDMA_READ\n")
    | .other opcode => (.stdout, "unprocessed wc opcode " ++ toString opcode ++ "\n")

/-- Where the thread of `poll_cq` is: before one of its calls. -/
inductive PollPc where
  | ibv_get_cq_event
  | ibv_ack_cq_events
  | ibv_req_notify_cq
  | ibv_poll_cq
  | on_completion (wc : IbvWc)
  deriving DecidableEq, Repr

/-- Why the thread stops: it uses `ev_cq` before it was assigned, or one of
its assertions fails. -/
inductive PollFault where
  | indeterminate_ev_cq
  | ibv_req_notify_cq
  | ibv_poll_cq
  deriving DecidableEq, Repr

/-- The completion queue of a connection and the thread that polls it. The
work requests not completed yet are kept with the objects that posted them,
and so are the completions, in the order of their arrival. A call of
`on_completion` is recorded with the object it is made on. -/
structure Polling where
  cq : Notifier IbvWc
  posted : List (UInt64 × Posting)
  arrived : List (UInt64 × IbvWc)
  pc : PollPc
  ev_cq : Bool
  completed : List (UInt64 × IbvWc)
  printed : List (Stream × String)
  fault : Option PollFault

/-- The state in which `build_connection` starts the thread: the queue has
been created and armed. -/
def Polling.built : Polling :=
  { cq := (Notifier.empty : Notifier IbvWc).arm
    posted := []
    arrived := []
    pc := .ibv_get_cq_event
    ev_cq := false
    completed := []
    printed := []
    fault := none }

/-- `poll_cq`, one step. Whether the verbs call of the step succeeds is `ok`.
The result of `ibv_get_cq_event` is not looked at. -/
def Polling.poll_cq (s : Polling) (ok : Bool) : Option Polling :=
  match s.pc with
  | .ibv_get_cq_event =>
    if ok then
      s.cq.take_event.map fun cq => { s with cq := cq, ev_cq := true, pc := .ibv_ack_cq_events }
    else if s.ev_cq then some { s with pc := .ibv_ack_cq_events }
    else some { s with fault := some .indeterminate_ev_cq }
  | .ibv_ack_cq_events => some { s with pc := .ibv_req_notify_cq }
  | .ibv_req_notify_cq =>
    if ok then some { s with cq := s.cq.arm, pc := .ibv_poll_cq }
    else
      some { s with
        printed := s.printed ++ [(.stderr, "poll_cq error ibv_req_notify_cq.")]
        fault := some .ibv_req_notify_cq }
  | .ibv_poll_cq =>
    if ok then
      match s.cq.poll with
      | none => some { s with pc := .ibv_get_cq_event }
      | some (wc, cq) => some { s with cq := cq, pc := .on_completion wc }
    else
      some { s with
        printed := s.printed ++ [(.stderr, "poll_cq error ibv_poll_cq.")]
        fault := some .ibv_poll_cq }
  | .on_completion wc =>
    some { s with
      completed := s.completed ++ [(wc.wr_id, wc)]
      printed := s.printed ++ [on_completion wc]
      pc := .ibv_poll_cq }

inductive PollAct where
  | post (this : UInt64) (posting : Posting)
  | complete (i : Nat) (status : IbvWcStatus) (opcode : IbvWcOpcode)
  | poll_cq (ok : Bool)
  deriving DecidableEq, Repr

/-- An object posts, the device completes one of the posted work requests, or
the thread moves. Nothing runs after a fault. -/
def Polling.step (s : Polling) (act : PollAct) : Option Polling :=
  match s.fault, act with
  | some _, _ => none
  | none, .post this posting => some { s with posted := s.posted ++ [(this, posting)] }
  | none, .complete i status opcode =>
    match s.posted[i]? with
    | none => none
    | some (this, posting) =>
      let wc : IbvWc := { wr_id := posting.wr_id this, status := status, opcode := opcode }
      some { s with
        cq := s.cq.add wc
        posted := s.posted.eraseIdx i
        arrived := s.arrived ++ [(this, wc)] }
  | none, .poll_cq ok => s.poll_cq ok

/-- A step in which every verbs call succeeds, one case for each branch. -/
inductive PollMove (s : Polling) : PollAct → Polling → Prop where
  | post (this : UInt64) (posting : Posting) :
      PollMove s (.post this posting) { s with posted := s.posted ++ [(this, posting)] }
  | complete (i : Nat) (this : UInt64) (posting : Posting) (status : IbvWcStatus) (opcode : IbvWcOpcode)
      (hposted : s.posted[i]? = some (this, posting)) :
      PollMove s (.complete i status opcode)
        { s with
          cq := s.cq.add { wr_id := posting.wr_id this, status := status, opcode := opcode }
          posted := s.posted.eraseIdx i
          arrived := s.arrived ++ [(this, { wr_id := posting.wr_id this, status := status, opcode := opcode })] }
  | get_cq_event (hpc : s.pc = .ibv_get_cq_event) (hevent : 0 < s.cq.events) :
      PollMove s (.poll_cq true)
        { s with cq := { s.cq with events := s.cq.events - 1 }, ev_cq := true, pc := .ibv_ack_cq_events }
  | ack_cq_events (hpc : s.pc = .ibv_ack_cq_events) : PollMove s (.poll_cq true) { s with pc := .ibv_req_notify_cq }
  | req_notify_cq (hpc : s.pc = .ibv_req_notify_cq) :
      PollMove s (.poll_cq true) { s with cq := s.cq.arm, pc := .ibv_poll_cq }
  | drained (hpc : s.pc = .ibv_poll_cq) (hempty : s.cq.queue = []) :
      PollMove s (.poll_cq true) { s with pc := .ibv_get_cq_event }
  | polled (hpc : s.pc = .ibv_poll_cq) (wc : IbvWc) (cq : Notifier IbvWc) (hpoll : s.cq.poll = some (wc, cq)) :
      PollMove s (.poll_cq true) { s with cq := cq, pc := .on_completion wc }
  | on_completion (wc : IbvWc) (hpc : s.pc = .on_completion wc) :
      PollMove s (.poll_cq true)
        { s with
          completed := s.completed ++ [(wc.wr_id, wc)]
          printed := s.printed ++ [on_completion wc]
          pc := .ibv_poll_cq }

private theorem poll_cq_move {s next : Polling} (hstep : s.poll_cq true = some next) :
    PollMove s (.poll_cq true) next := by
  unfold Polling.poll_cq at hstep
  split at hstep
  · rename_i hpc
    simp only [if_true, Option.map_eq_some_iff] at hstep
    obtain ⟨cq, htake, rfl⟩ := hstep
    obtain ⟨hevent, rfl⟩ := Notifier.take_event_eq_some htake
    exact .get_cq_event hpc hevent
  · cases hstep
    exact .ack_cq_events ‹_›
  · cases hstep
    exact .req_notify_cq ‹_›
  · rename_i hpc
    simp only [if_true] at hstep
    split at hstep
    · rename_i hnone
      cases hstep
      exact .drained hpc (Notifier.poll_eq_none.mp hnone)
    · cases hstep
      exact .polled hpc _ _ ‹_›
  · cases hstep
    exact .on_completion _ ‹_›

/-- The step's verbs call succeeds. -/
def PollAct.Succeeds (act : PollAct) : Prop := act ≠ .poll_cq false

theorem Polling.step_move {s next : Polling} {act : PollAct} (hok : act.Succeeds)
    (hstep : s.step act = some next) : s.fault = none ∧ PollMove s act next := by
  unfold Polling.step at hstep
  split at hstep
  · cases hstep
  · rename_i this posting hfault
    cases hstep
    exact ⟨hfault, .post this posting⟩
  · rename_i i status opcode hfault
    split at hstep
    · cases hstep
    · cases hstep
      exact ⟨hfault, .complete i _ _ status opcode ‹_›⟩
  · rename_i ok hfault
    cases ok with
    | false => exact absurd rfl hok
    | true => exact ⟨hfault, poll_cq_move hstep⟩

end tc_rdma.rdma_com
