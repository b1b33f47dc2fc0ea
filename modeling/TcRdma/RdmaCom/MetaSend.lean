import TcRdma.RdmaCom.Equipped
import TcRdma.RdmaCom.Handlers
import TcRdma.RdmaCom.Setup

open tc_rdma.machine

namespace tc_rdma.rdma_com

variable {env : Env} {id : CmId} {w w' : World} {C : List Concern} {N : Nat} {events : Events} {site : Site}

def established : List Entry → Nat := tally (Op.delivers .RDMA_CM_EVENT_ESTABLISHED)

def requested : List Entry → Nat := tally (Op.delivers .RDMA_CM_EVENT_CONNECT_REQUEST)

def sends : List Entry → Nat := tally Op.is_send

/-- Nothing has been given back. -/
def Unreleased (log : List Entry) : Prop := ∀ entry ∈ log, entry.op.concern ≠ .releasing

/-- What a side has when it sends its meta message on a queue pair. -/
structure SendReady (N : Nat) (front : List Entry) (conn : ConnectionProc) (qp : Handle) : Prop where
  equipped : ∃ id, Equipped id N conn.conn_ctx front
  unreleased : Unreleased front
  qp : conn.conn_ctx.qp = .set (some qp)
  connected : conn.conn_params.connected = true
  owed : sends front < established front

/-- A side opens or accepts a connection when it is equipped for it, it
accepts one after a request, and it sends once for each connection that it is
told of. -/
def Permitted (N : Nat) (front : List Entry) (entry : Entry) : Prop :=
  match entry.op with
  | .call _ (.rdma_connect id _) _ => Equipped id N entry.conn.conn_ctx front
  | .call _ (.rdma_accept id _) _ => Equipped id N entry.conn.conn_ctx front ∧ 0 < requested front
  | .call _ (.ibv_post_send qp _) _ => SendReady N front entry.conn qp
  | _ => True

theorem permitted_of_concern {front : List Entry} {entry : Entry} (h : entry.op.concern ∉ [.handshake, .sending]) :
    Permitted N front entry := by
  obtain ⟨conn, op⟩ := entry
  cases op with
  | call n c ok => cases c <;> first | trivial | simp [Op.concern, Call.concern] at h
  | _ => trivial

theorem permitted_of_extends {log log' : List Entry} (h : Always (Permitted N) log)
    (hlog : Extends (fun entry => entry.op.concern ∈ C) log log') (hother : ∀ c ∈ C, c ∉ [.handshake, .sending]) :
    Always (Permitted N) log' :=
  h.extend hlog fun _ _ _ hentry => permitted_of_concern (hother _ hentry)

theorem permitted_of_footprint (h : Always (Permitted N) w.log) (hfoot : Footprint C w w')
    (hother : ∀ c ∈ C, c ∉ [.handshake, .sending]) : Always (Permitted N) w'.log :=
  permitted_of_extends h hfoot.log hother

/-- The state of a side between two events. -/
structure Steady (N : Nat) (w : World) : Prop where
  permitted : Always (Permitted N) w.log
  unreleased : Unreleased w.log
  balance : sends w.log ≤ established w.log
  number : w.conn.conn_params.wr_cq_number = N

theorem Unreleased.extend {log log' : List Entry} (h : Unreleased log)
    (hlog : Extends (fun entry => entry.op.concern ∈ C) log log') (hother : .releasing ∉ C) : Unreleased log' := by
  obtain ⟨added, rfl, hadded⟩ := hlog
  intro entry hentry heq
  rcases List.mem_append.mp hentry with hold | hnew
  · exact h entry hold heq
  · exact hother (heq ▸ hadded entry hnew)

theorem Op.is_send_of_concern_ne {op : Op} (h : op.concern ≠ .sending) : op.is_send = false := by
  cases op with
  | call n c ok => cases c <;> first | rfl | exact absurd rfl h
  | _ => rfl

theorem sends_of_extends {log log' : List Entry} (hlog : Extends (fun entry => entry.op.concern ∈ C) log log')
    (hother : .sending ∉ C) : sends log' = sends log := by
  apply tally_of_extends hlog
  intro op hop
  apply Op.is_send_of_concern_ne
  intro heq
  exact hother (heq ▸ hop)

/-- Events may come, and anything may be done but to open the connection, to
send and to release. -/
theorem Steady.footprint (h : Steady N w) (hfoot : Footprint C w w')
    (hother : ∀ c ∈ C, c ∉ [.handshake, .sending, .releasing]) : Steady N w' where
  permitted := by
    apply permitted_of_footprint h.permitted hfoot
    intro c hc hin
    exact hother c hc (by simp at hin ⊢; tauto)
  unreleased := h.unreleased.extend hfoot.log fun hin => hother _ hin (by simp)
  balance := by
    rw [sends_of_extends hfoot.log fun hin => hother _ hin (by simp)]
    exact Nat.le_trans h.balance (tally_le_of_isPrefix hfoot.log.isPrefix)
  number := (congrArg Fixed.wr_cq_number hfoot.fixed).trans h.number

/-- The side is equipped for the connection of the id. -/
structure Engaged (id : CmId) (N : Nat) (w : World) : Prop where
  steady : Steady N w
  equipped : Equipped id N w.conn.conn_ctx w.log

theorem Engaged.record (h : Engaged id N w) (op : Op) (hop : op.concern ∉ [.handshake, .sending, .releasing]) :
    Engaged id N (w.record op) where
  steady := h.steady.footprint (C := [op.concern]) (Footprint.record w (.head _)) (by simpa using hop)
  equipped := h.equipped.record op

/-- The message that is owed is sent. -/
theorem Engaged.send (h : Engaged id N w) {qp n : Handle} {wr : IbvSendWr} {ok : Bool}
    (hqp : w.conn.conn_ctx.qp = .set (some qp)) (hconnected : w.conn.conn_params.connected = true)
    (howed : sends w.log < established w.log) : Engaged id N (w.record (.call n (.ibv_post_send qp wr) ok)) where
  steady :=
    { permitted := always_concat.mpr ⟨h.steady.permitted, ⟨id, h.equipped⟩, h.steady.unreleased, hqp, hconnected, howed⟩
      unreleased := h.steady.unreleased.extend (C := [.sending]) (Extends.one (.head _)) (by simp)
      balance := by
        rw [sends, established, tally_record, tally_record]
        exact Nat.succ_le_of_lt howed
      number := h.steady.number }
  equipped := h.equipped.record _

theorem wp_on_connection_engaged (h : Engaged id N w) (howed : sends w.log < established w.log) :
    wp (on_connection env) (fun _ => Engaged id N) (fun _ w' => Always (Permitted N) w'.log) w := by
  obtain ⟨qp, hqp, -⟩ := h.equipped.qp
  obtain ⟨mr, hmr, -⟩ := h.equipped.meta_send_mr
  have hsteady : Steady N (w.set_connected true) :=
    h.steady.footprint (C := []) (leaves_set_connected true w) (by simp)
  have hengaged : Engaged id N (w.set_connected true) := ⟨hsteady, h.equipped⟩
  have hentered := hengaged.record (.entered .post_meta_send_wr) (by simp [Op.concern])
  have howed : sends ((w.set_connected true).record (.entered .post_meta_send_wr)).log <
      established ((w.set_connected true).record (.entered .post_meta_send_wr)).log := by
    rw [sends, established, tally_record, tally_record]
    exact howed
  unfold on_connection post_meta_send_wr send_meta_message
  rw [wp_bind, wp_set_connected, wp_bind, wp_bind, wp_record, wp_bind, wp_load]
  split
  swap
  · exact hentered.steady.permitted
  rw [wp_bind]
  refine wp_load_of_set hmr ?_
  rw [wp_bind, wp_deref_some, wp_bind, wp_this, wp_bind, wp_get, wp_bind]
  apply wp_check
  swap
  · intro hfalse
    cases hfalse
  intro _
  rw [wp_bind]
  refine wp_load_of_set hqp ?_
  rw [wp_bind, wp_deref_some, wp_bind, wp_invoke, wp_pure, wp_pure]
  exact hentered.send hqp rfl howed

/-- The result of `on_disconnect` ends the loop. -/
theorem wp_on_disconnect_permitted (h : Always (Permitted N) w.log) (id : CmId) :
    wp (on_disconnect env id) (fun ret w' => ret = .FAILURE ∧ Always (Permitted N) w'.log)
      (fun _ w' => Always (Permitted N) w'.log) w := by
  unfold on_disconnect
  rw [wp_bind, wp_get, wp_bind]
  refine wp_check (fun _ => ?_) (fun _ => h)
  apply wp_bind_of (destroy_connection_leaves w)
  · intro _ w' hfoot
    exact ⟨rfl, permitted_of_footprint h hfoot (by simp)⟩
  · intro halt w' hfoot
    exact permitted_of_footprint h hfoot.2 (by simp)

/-- The connection is built, or the device is refused and nothing is done. -/
theorem wp_build_connection_steady (hworks : env.Reliable) (h : Steady N w) :
    wp (build_connection env id)
      (fun ret w' => Steady N w' ∧
        match ret with
        | .SUCCESS => Engaged id N w'
        | .FAILURE => Refused env id w ∧ w' = w.record (.build_connection_returned id .FAILURE))
      (fun _ w' => Always (Permitted N) w'.log) w := by
  apply wp_mono (wp_and (wp_build_connection_equips hworks w) (build_connection_leaves id w))
  · rintro ret w' ⟨hresult, hfoot⟩
    have hsteady : Steady N w' := h.footprint hfoot (by simp)
    rcases hresult with ⟨rfl, hrefused⟩ | ⟨rfl, hequipped⟩
    · exact ⟨hsteady, hrefused⟩
    · rw [h.number] at hequipped
      exact ⟨hsteady, hsteady, hequipped⟩
  · rintro halt w' ⟨-, -, hfoot⟩
    exact permitted_of_footprint h.permitted hfoot (by simp)

end tc_rdma.rdma_com
