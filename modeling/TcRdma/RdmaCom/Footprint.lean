import TcRdma.Machine.Log
import TcRdma.RdmaCom.EventLoop

open tc_rdma.machine

namespace tc_rdma.rdma_com

/-- What an entry of the log is about. -/
inductive Concern where
  | event
  | no_event
  | setup
  | resolution
  | handshake
  | device
  | queue_pair
  | memory
  | receiving
  | sending
  | releasing
  | entry
  | result
  | text
  deriving DecidableEq, Repr

def Call.concern : Call → Concern
  | .rdma_ack_cm_event _ => .event
  | .rdma_create_event_channel => .setup
  | .rdma_create_id _ => .setup
  | .asprintf _ => .setup
  | .getaddrinfo _ _ => .setup
  | .ai_family_is_pf_inet => .setup
  | .freeaddrinfo => .setup
  | .rdma_bind_addr _ _ => .setup
  | .rdma_listen _ _ => .setup
  | .rdma_resolve_addr _ _ _ => .resolution
  | .rdma_resolve_route _ _ => .resolution
  | .rdma_connect _ _ => .handshake
  | .rdma_accept _ _ => .handshake
  | .ibv_alloc_pd _ => .device
  | .ibv_create_comp_channel _ => .device
  | .ibv_create_cq _ _ _ => .device
  | .ibv_req_notify_cq _ => .device
  | .pthread_create => .device
  | .rdma_create_qp _ _ _ => .queue_pair
  | .malloc _ => .memory
  | .ibv_reg_mr _ _ _ _ => .memory
  | .ibv_post_recv _ _ => .receiving
  | .ibv_post_send _ _ => .sending
  | .rdma_destroy_qp _ _ => .releasing
  | .ibv_dereg_mr _ => .releasing
  | .free _ => .releasing
  | .rdma_destroy_id _ => .releasing
  | .rdma_destroy_event_channel _ => .releasing

def Op.concern : Op → Concern
  | .call _ c _ => c.concern
  | .obtained _ _ => .event
  | .no_event => .no_event
  | .printed _ => .text
  | .entered _ => .entry
  | .build_connection_returned _ _ => .result

/-- The members of the object that only the constructor and `run` set. -/
structure Fixed where
  this : UInt64
  env : EnvBasicParam
  num_of_qps : Nat
  wr_cq_number : Nat
  cm_id_control : Cell CmId
  cm_id : Cell CmId
  cm_channel : Cell Ptr

def ConnectionProc.fixed (conn : ConnectionProc) : Fixed :=
  { this := conn.this
    env := conn.conn_params.env
    num_of_qps := conn.conn_params.num_of_qps
    wr_cq_number := conn.conn_params.wr_cq_number
    cm_id_control := conn.conn_ctx.cm_id_control
    cm_id := conn.conn_ctx.cm_id
    cm_channel := conn.conn_ctx.cm_channel }

def Cell.IsSet {α : Type} (cell : Cell α) : Prop := ∃ value, cell = .set value

def ConnContext.IsSet (ctx : ConnContext) : Member → Prop
  | .cm_id_control => ctx.cm_id_control.IsSet
  | .cm_id => ctx.cm_id.IsSet
  | .cm_channel => ctx.cm_channel.IsSet
  | .context => ctx.context.IsSet
  | .comp_channel => ctx.comp_channel.IsSet
  | .pd => ctx.pd.IsSet
  | .cq => ctx.cq.IsSet
  | .qp => ctx.qp.IsSet
  | .meta_recv_mr => ctx.meta_recv_mr.IsSet
  | .meta_send_mr => ctx.meta_send_mr.IsSet
  | .meta_recv => ctx.meta_recv.IsSet
  | .meta_send => ctx.meta_send.IsSet

/-- The id leads back to the object. -/
def World.Attached (w : World) (id : CmId) : Prop := (w.ids id).context = some w.conn.this

/-- What a handler may do: it leaves the fixed members alone, unassigns
nothing, detaches no id, and records only entries with these concerns. -/
structure Footprint (concerns : List Concern) (w w' : World) : Prop where
  fixed : w'.conn.fixed = w.conn.fixed
  is_set : ∀ member, w.conn.conn_ctx.IsSet member → w'.conn.conn_ctx.IsSet member
  attached : ∀ id, w.Attached id → w'.Attached id
  log : Extends (fun entry => entry.op.concern ∈ concerns) w.log w'.log

variable {α β : Type} {C : List Concern} {env : Env}

theorem Footprint.refl (w : World) : Footprint C w w :=
  ⟨rfl, fun _ => id, fun _ => id, Extends.refl _⟩

theorem Footprint.trans {a b c : World} (hab : Footprint C a b) (hbc : Footprint C b c) :
    Footprint C a c :=
  ⟨hbc.fixed.trans hab.fixed, fun m h => hbc.is_set m (hab.is_set m h),
    fun i h => hbc.attached i (hab.attached i h), hab.log.trans hbc.log⟩

theorem Footprint.mono {wider : List Concern} {w w' : World} (h : Footprint C w w')
    (hsub : ∀ c ∈ C, c ∈ wider) : Footprint wider w w' :=
  { h with log := h.log.mono fun _ hconcern => hsub _ hconcern }

def Halt.Waits (halt : Halt) : Prop := ∃ site, halt = .blocked site

/-- Running the program has this footprint from every state. It does not wait
for an event. -/
abbrev Leaves (concerns : List Concern) (x : Prog α) : Prop :=
  Guarantees (Footprint concerns) (fun halt => ¬ halt.Waits) x

theorem Leaves.bind {x : Prog α} {f : α → Prog β} (hx : Leaves C x) (hf : ∀ a, Leaves C (f a)) :
    Leaves C (x >>= f) :=
  Guarantees.bind (fun hab hbc => hab.trans hbc) hx hf

theorem Leaves.mono {wider : List Concern} {x : Prog α} (hx : Leaves C x)
    (hsub : ∀ c ∈ C, c ∈ wider) : Leaves wider x :=
  fun w => wp_mono (hx w) (fun _ _ h => h.mono hsub) (fun _ _ h => ⟨h.1, h.2.mono hsub⟩)

theorem leaves_pure (a : α) : Leaves C (pure a : Prog α) := fun w => Footprint.refl w

theorem leaves_get : Leaves C (get : Prog World) := fun w => Footprint.refl w

theorem leaves_this : Leaves C this := fun w => Footprint.refl w

theorem leaves_load {member : Member} {cell : ConnContext → Cell α} : Leaves C (load member cell) := by
  intro w
  rw [wp_load]
  split
  · exact Footprint.refl w
  · exact ⟨nofun, Footprint.refl w⟩

theorem leaves_deref (pointer : Ptr) : Leaves C (deref pointer) :=
  fun w => wp_deref (fun _ _ => Footprint.refl w) ⟨nofun, Footprint.refl w⟩

theorem leaves_check (condition : Bool) (halt : Halt) (hhalt : ¬ halt.Waits) :
    Leaves C (check condition halt) :=
  fun w => wp_check (fun _ => Footprint.refl w) (fun _ => ⟨hhalt, Footprint.refl w⟩)

theorem Footprint.record (w : World) {op : Op} (hop : op.concern ∈ C) : Footprint C w (w.record op) :=
  { fixed := rfl, is_set := fun _ => id, attached := fun _ => id, log := Extends.one hop }

theorem leaves_record {op : Op} (hop : op.concern ∈ C) : Leaves C (record op) :=
  fun w => Footprint.record w hop

theorem leaves_invoke {c : Call} (hc : c.concern ∈ C) : Leaves C (invoke env c) :=
  fun w => wp_invoke_of fun _ => Footprint.record w hc

/-- An assignment to `conn_ctx`, to none of the fixed members. -/
theorem Footprint.modify_ctx (w : World) {f : ConnContext → ConnContext}
    (hfixed : ∀ ctx, (f ctx).cm_id_control = ctx.cm_id_control ∧ (f ctx).cm_id = ctx.cm_id ∧
      (f ctx).cm_channel = ctx.cm_channel := by exact fun _ => ⟨rfl, rfl, rfl⟩)
    (hset : ∀ ctx member, ctx.IsSet member → (f ctx).IsSet member := by
      intro _ member h
      cases member <;> first | exact h | exact ⟨_, rfl⟩) :
    Footprint C w (w.modify_ctx f) := by
  obtain ⟨hcontrol, hid, hchannel⟩ := hfixed w.conn.conn_ctx
  refine ⟨?_, hset _, fun _ => id, Extends.refl _⟩
  simp [ConnectionProc.fixed, hcontrol, hid, hchannel]

theorem leaves_modify_ctx {f : ConnContext → ConnContext}
    (hfoot : ∀ w : World, Footprint C w (w.modify_ctx f) := by exact fun w => Footprint.modify_ctx w) :
    Leaves C (modify_ctx f) := hfoot

theorem leaves_set_connected (connected : Bool) : Leaves C (set_connected connected) :=
  fun w => ⟨rfl, fun _ => id, fun _ => id, Extends.refl w.log⟩

theorem leaves_modify_id {id : CmId} {f : CmIdState → CmIdState} (hf : ∀ state, (f state).context = state.context) :
    Leaves C (modify_id id f) := by
  intro w
  refine ⟨rfl, fun _ h => h, ?_, Extends.refl _⟩
  intro i hi
  by_cases heq : i = id
  · subst heq
    rw [World.Attached, World.modify_id_self, hf]
    exact hi
  · rw [World.Attached, w.modify_id_of_ne _ _ heq]
    exact hi

theorem rdma_destroy_qp_leaves (id : CmId) : Leaves [.releasing] (rdma_destroy_qp env id) :=
  leaves_get.bind fun _ => (leaves_deref _).bind fun _ => (leaves_invoke (.head _)).bind fun _ =>
    leaves_modify_id fun _ => rfl

theorem register_message_memory_leaves : Leaves [.memory] (register_message_memory env) := by
  apply Leaves.bind (leaves_invoke (.head _))
  intro meta_send
  apply Leaves.bind leaves_modify_ctx
  intro _
  apply Leaves.bind (leaves_invoke (.head _))
  intro meta_recv
  apply Leaves.bind leaves_modify_ctx
  intro _
  refine leaves_load.bind fun _ => (leaves_deref _).bind fun pd => ?_
  apply Leaves.bind (leaves_invoke (.head _))
  intro meta_send_mr
  apply Leaves.bind leaves_modify_ctx
  intro _
  apply Leaves.bind (leaves_invoke (.head _))
  intro meta_recv_mr
  exact leaves_modify_ctx

theorem post_meta_recv_wr_leaves : Leaves [.receiving] (post_meta_recv_wr env) :=
  leaves_load.bind fun _ => leaves_load.bind fun _ => (leaves_deref _).bind fun _ => leaves_this.bind fun _ =>
    leaves_load.bind fun _ => (leaves_deref _).bind fun _ => (leaves_invoke (.head _)).bind fun _ => leaves_pure _

theorem post_meta_recv_wrs_leaves (n : Nat) : Leaves [.receiving] (post_meta_recv_wrs env n) := by
  induction n with
  | zero => exact leaves_pure ()
  | succ n ih => exact post_meta_recv_wr_leaves.bind fun _ => ih

theorem send_meta_message_leaves : Leaves [.sending] (send_meta_message env) := by
  refine leaves_load.bind fun _ => leaves_load.bind fun _ => (leaves_deref _).bind fun _ => ?_
  refine leaves_this.bind fun _ => leaves_get.bind fun _ => (leaves_check _ .assertion_connected nofun).bind fun _ => ?_
  exact leaves_load.bind fun _ => (leaves_deref _).bind fun _ => (leaves_invoke (.head _)).bind fun _ => leaves_pure _

theorem post_meta_send_wr_leaves : Leaves [.entry, .sending] (post_meta_send_wr env) :=
  (leaves_record (.head _)).bind fun _ => send_meta_message_leaves.mono (by simp)

theorem release_connection_leaves : Leaves [.releasing] (release_connection env) := by
  refine leaves_load.bind fun cm_id => (rdma_destroy_qp_leaves cm_id).bind fun _ => ?_
  refine leaves_load.bind fun _ => (leaves_deref _).bind fun _ => (leaves_invoke (.head _)).bind fun _ => ?_
  refine leaves_load.bind fun _ => (leaves_deref _).bind fun _ => (leaves_invoke (.head _)).bind fun _ => ?_
  refine leaves_load.bind fun _ => (leaves_invoke (.head _)).bind fun _ => ?_
  refine leaves_load.bind fun _ => (leaves_invoke (.head _)).bind fun _ => ?_
  exact leaves_load.bind fun _ => (leaves_invoke (.head _)).bind fun _ => leaves_pure _

theorem destroy_connection_leaves : Leaves [.entry, .releasing] (destroy_connection env) :=
  (leaves_record (.head _)).bind fun _ => release_connection_leaves.mono (by simp)

/-- What `attach` leaves when its assertion holds. -/
def World.attach (w : World) (id : CmId) : World :=
  ((w.modify_id id fun state => { state with context := some w.conn.this }).modify_ctx fun ctx =>
    { ctx with qp := .set (w.ids id).qp }).set_connected false

theorem World.attach_attached (w : World) (id : CmId) : (w.attach id).Attached id := by
  simp [World.Attached, World.attach]

theorem Footprint.tie (w : World) (id : CmId) :
    Footprint C w (w.modify_id id fun state => { state with context := some w.conn.this }) := by
  refine ⟨rfl, fun _ h => h, ?_, Extends.refl _⟩
  intro i hi
  by_cases heq : i = id
  · subst heq
    rw [World.Attached, World.modify_id_self]
    rfl
  · rw [World.Attached, w.modify_id_of_ne _ _ heq]
    exact hi

theorem Footprint.attach (w : World) (id : CmId) : Footprint C w (w.attach id) := by
  have hconnected := leaves_set_connected (C := C) false
  exact (Footprint.tie w id).trans ((Footprint.modify_ctx _).trans (hconnected _))

/-- The assertion of `attach` is about the id that `run` has stored. -/
theorem wp_attach (w : World) (id : CmId) :
    wp (attach id) (fun _ w' => w.conn.conn_ctx.cm_id = .set id ∧ w' = w.attach id)
      (fun halt w' => Footprint C w w' ∧
        (halt = .assertion_cm_id ∧ w.conn.conn_ctx.cm_id ≠ .set id ∨
          halt = .indeterminate .cm_id ∧ w.conn.conn_ctx.cm_id = .indeterminate)) w := by
  unfold attach
  rw [wp_bind, wp_this, wp_bind, wp_modify_id, wp_bind, wp_load]
  split
  · rename_i cm_id hcm
    rw [wp_bind]
    apply wp_check _ _
    · intro htrue
      have heq : cm_id = id := of_decide_eq_true htrue
      subst heq
      refine ⟨hcm, ?_⟩
      simp only [World.attach, World.modify_id_self]
    · intro hfalse
      have hne : cm_id ≠ id := of_decide_eq_false hfalse
      refine ⟨Footprint.tie w id, .inl ⟨rfl, ?_⟩⟩
      rw [World.modify_id_conn] at hcm
      rw [hcm]
      simpa using hne
  · rename_i hcm
    exact ⟨Footprint.tie w id, .inr ⟨rfl, hcm⟩⟩

theorem attach_leaves (id : CmId) : Leaves C (attach id) := by
  intro w
  apply wp_mono (wp_attach (C := C) w id) _ _
  · rintro _ w' ⟨_, rfl⟩
    exact Footprint.attach w id
  · rintro halt w' ⟨hfoot, ⟨rfl, _⟩ | ⟨rfl, _⟩⟩
    · exact ⟨nofun, hfoot⟩
    · exact ⟨nofun, hfoot⟩

theorem build_context_leaves (id : CmId) : Leaves C (build_context env id) := by
  apply leaves_load.bind
  intro context
  cases context with
  | some context => exact leaves_pure _
  | none => exact Leaves.bind leaves_modify_ctx fun _ => leaves_pure _

theorem build_domain_leaves : Leaves [.device] (build_domain env) := by
  refine leaves_load.bind fun _ => (leaves_deref _).bind fun context => ?_
  refine Leaves.bind (leaves_invoke (.head _)) fun pd => Leaves.bind leaves_modify_ctx fun _ => ?_
  exact Leaves.bind (leaves_invoke (.head _)) fun comp_channel => leaves_modify_ctx

theorem build_completion_queue_leaves : Leaves [.device] (build_completion_queue env) := by
  refine leaves_load.bind fun _ => (leaves_deref _).bind fun context => leaves_load.bind fun comp_channel => ?_
  refine Leaves.bind leaves_get fun _ => Leaves.bind (leaves_invoke (.head _)) fun cq => ?_
  refine Leaves.bind leaves_modify_ctx fun _ => (leaves_deref _).bind fun _ => ?_
  exact (leaves_invoke (.head _)).bind fun _ => leaves_pure _

theorem build_poller_leaves : Leaves [.device] (build_poller env) := by
  apply Leaves.bind (leaves_invoke (.head _))
  intro thread
  cases thread with
  | some thread => exact leaves_modify_ctx
  | none => exact leaves_pure ()

theorem build_queue_pair_leaves (id : CmId) : Leaves [.queue_pair] (build_queue_pair env id) := by
  refine leaves_load.bind fun _ => leaves_get.bind fun _ => leaves_load.bind fun _ => ?_
  apply Leaves.bind (leaves_invoke (.head _))
  intro qp
  cases qp with
  | some qp => exact Leaves.bind (leaves_modify_id fun _ => rfl) fun _ => leaves_pure _
  | none => exact leaves_pure _

theorem build_meta_leaves (id : CmId) : Leaves [.memory, .receiving] (build_meta env id) :=
  (attach_leaves id).bind fun _ => (register_message_memory_leaves.mono (by simp)).bind fun _ =>
    leaves_get.bind fun _ => (post_meta_recv_wrs_leaves _).mono (by simp)

/-- What the parts of `build_connection` record. -/
abbrev building : List Concern := [.device, .queue_pair, .memory, .receiving]

theorem build_parts_leaves (id : CmId) : Leaves building (build_parts env id) := by
  apply (build_context_leaves id).bind
  intro accepted
  cases accepted with
  | false => exact leaves_pure _
  | true =>
    apply (build_domain_leaves.mono (by simp)).bind
    intro _
    apply (build_completion_queue_leaves.mono (by simp)).bind
    intro _
    apply (build_poller_leaves.mono (by simp)).bind
    intro _
    apply ((build_queue_pair_leaves id).mono (by simp)).bind
    intro created
    cases created with
    | false => exact leaves_pure _
    | true => exact ((build_meta_leaves id).mono (by simp)).bind fun _ => leaves_pure _

theorem build_connection_leaves (id : CmId) : Leaves (building ++ [.result]) (build_connection env id) :=
  ((build_parts_leaves id).mono (by simp)).bind fun ret =>
    (leaves_record (by simp [Op.concern])).bind fun _ => leaves_pure ret

theorem on_connection_leaves : Leaves [.entry, .sending] (on_connection env) :=
  (leaves_set_connected true).bind fun _ => post_meta_send_wr_leaves.bind fun _ => leaves_pure _

theorem on_disconnect_leaves (id : CmId) : Leaves [.entry, .releasing] (on_disconnect env id) :=
  leaves_get.bind fun _ => (leaves_check _ .assertion_context nofun).bind fun _ =>
    destroy_connection_leaves.bind fun _ => leaves_pure _

end tc_rdma.rdma_com
