import TcRdma.RdmaCom.Process

open tc_rdma.machine

namespace tc_rdma.rdma_com

/-- What a side does towards the connection manager and its peer. -/
inductive Action where
  | resolve_addr
  | resolve_route
  | connect
  | accept
  | send
  | destroy_qp
  deriving DecidableEq, Repr

def Call.action : Call → Option Action
  | .rdma_resolve_addr _ _ _ => some .resolve_addr
  | .rdma_resolve_route _ _ => some .resolve_route
  | .rdma_connect _ _ => some .connect
  | .rdma_accept _ _ => some .accept
  | .ibv_post_send _ _ => some .send
  | .rdma_destroy_qp _ _ => some .destroy_qp
  | _ => none

def Op.action : Op → Option Action
  | .call _ c _ => c.action
  | _ => none

/-- The actions of a log, in their order. -/
def actions (log : List Entry) : List Action := picked Op.action log

variable {C : List Concern} {w w' : World}

theorem Op.action_eq_none {op : Op} (h : op.concern ∉ [.resolution, .handshake, .sending, .releasing]) :
    op.action = none := by
  cases op with
  | call n c ok => cases c <;> first | rfl | simp [Op.concern, Call.concern] at h
  | _ => rfl

theorem actions_record (w : World) (op : Op) : actions (w.record op).log = actions w.log ++ op.action.toList :=
  picked_record w op

theorem actions_record_none (w : World) {op : Op} (hop : op.action = none) :
    actions (w.record op).log = actions w.log := by
  rw [actions_record, hop]
  exact List.append_nil _

/-- Setting up, building, printing and taking events are no actions. -/
theorem actions_of_extends {log log' : List Entry} (h : Extends (fun entry => entry.op.concern ∈ C) log log')
    (hother : ∀ c ∈ C, c ∉ [.resolution, .handshake, .sending, .releasing]) : actions log' = actions log :=
  picked_of_extends h fun _ hop => Op.action_eq_none (hother _ hop)

theorem actions_of_footprint (h : Footprint C w w')
    (hother : ∀ c ∈ C, c ∉ [.resolution, .handshake, .sending, .releasing]) : actions w'.log = actions w.log :=
  actions_of_extends h.log hother

/-- What a run does and how it ends, in the terms of its actions. -/
abbrev Behaviour := List Action × RunEnd

/-- A behaviour that begins with these actions. -/
def emit (front : List Action) (b : Behaviour) : Behaviour := (front ++ b.1, b.2)

@[simp] theorem emit_nil (b : Behaviour) : emit [] b = b := rfl

@[simp] theorem emit_emit (front more : List Action) (b : Behaviour) :
    emit front (emit more b) = emit (front ++ more) b := by
  simp [emit, List.append_assoc]

@[simp] theorem emit_end (front : List Action) (last : RunEnd) : emit front ([], last) = (front, last) := by
  simp [emit]

section Owes

variable {b still : Behaviour} {front : List Action} {last : RunEnd}

/-- What has been done and what is still to come make up the behaviour. -/
def Owes (b : Behaviour) (w : World) (still : Behaviour) : Prop := b = emit (actions w.log) still

/-- The run may end so, by its behaviour. -/
abbrev EndsAs (b : Behaviour) (w : World) (last : RunEnd) : Prop := b = (actions w.log, last)

theorem Owes.next (h : Owes b w (emit front still)) (hdone : actions w'.log = actions w.log ++ front) :
    Owes b w' still := by
  rw [Owes, h, hdone, emit_emit]

theorem Owes.same (h : Owes b w still) (hdone : actions w'.log = actions w.log) : Owes b w' still := by
  rw [Owes, h, hdone]

theorem Owes.ends (h : Owes b w (front, last)) (hdone : actions w'.log = actions w.log ++ front) :
    EndsAs b w' last := by
  rw [EndsAs, h, hdone]
  rfl

theorem Owes.over (h : Owes b w ([], last)) (hdone : actions w'.log = actions w.log) : EndsAs b w' last :=
  h.ends (by rw [hdone, List.append_nil])

/-- The event has been taken. -/
theorem actions_acked (w : World) (event : RdmaCmEvent) (n m : Handle) (ok : Bool) :
    actions ((w.record (.obtained n event)).record (.call m (.rdma_ack_cm_event n) ok)).log = actions w.log := by
  rw [actions_record_none _ rfl, actions_record_none _ rfl]

end Owes

/-- The behaviour of the run that `rdma_conn_thread` makes. -/
def behaviour (env : Env) (events : Events) (conn : ConnectionProc) : Behaviour :=
  (actions (conn_run env events conn).1, (conn_run env events conn).2)

/-- The run of a side has a behaviour when the side returns and halts only as
the behaviour says. -/
theorem behaviour_eq_of_wp (side : Side) {env : Env} {events : Events} {conn : ConnectionProc} {b : Behaviour}
    (hside : conn.is_server = decide (side = .server))
    (hrun : wp (side.run env events) (fun ret w => EndsAs b w (.returned ret)) (fun halt w => EndsAs b w (.halted halt))
      (.start conn)) :
    behaviour env events conn = b := by
  have hchosen : (if conn.is_server then Side.server else .client) = side := by
    rw [hside]
    cases side <;> rfl
  unfold behaviour conn_run
  rw [hchosen]
  dsimp only
  cases hends : side.run env events (.start conn) with
  | ok ret w => exact (wp_ok hrun hends).symm
  | error halt w => exact (wp_error hrun hends).symm

end tc_rdma.rdma_com
