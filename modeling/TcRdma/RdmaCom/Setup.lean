import TcRdma.RdmaCom.Client
import TcRdma.RdmaCom.Footprint
import TcRdma.RdmaCom.Server

open tc_rdma.machine

namespace tc_rdma.rdma_com

variable {env : Env} {w w' : World}

/-- What a `run` may do before its first event: it assigns to `conn_ctx` and
makes calls that create channels and ids and look up addresses. -/
structure SetUp (w w' : World) : Prop where
  this : w'.conn.this = w.conn.this
  conn_params : w'.conn.conn_params = w.conn.conn_params
  ids : w'.ids = w.ids
  log : Extends (fun entry => entry.op.concern ∈ [.setup, .text]) w.log w'.log

theorem SetUp.refl (w : World) : SetUp w w := ⟨rfl, rfl, rfl, Extends.refl _⟩

theorem SetUp.call (h : SetUp w w') {c : Call} (hc : c.concern = .setup) (n : Handle) (ok : Bool) :
    SetUp w (w'.record (.call n c ok)) :=
  { h with log := h.log.trans (Extends.one (by simp [Op.concern, hc])) }

theorem SetUp.printed (h : SetUp w w') (text : String) : SetUp w (w'.record (.printed text)) :=
  { h with log := h.log.trans (Extends.one (by simp [Op.concern])) }

theorem SetUp.modify_ctx (h : SetUp w w') (f : ConnContext → ConnContext) : SetUp w (w'.modify_ctx f) :=
  ⟨h.this, h.conn_params, h.ids, h.log⟩

theorem wp_resolve_port (h : SetUp w w') (servername : Option String) :
    wp (resolve_port env servername) (fun _ w'' => SetUp w w'' ∧ w''.conn = w'.conn) (fun _ _ => False) w' := by
  unfold resolve_port
  rw [wp_bind, wp_get]
  refine wp_bind_of (wp_check_add_port (P := fun u => SetUp w u ∧ u.conn = w'.conn) ?_ ?_ ?_ ⟨h, rfl⟩) ?_
    (fun _ _ h => h)
  · exact fun _ _ _ h => ⟨h.1.call rfl _ _, h.2⟩
  · exact fun _ _ _ h => ⟨h.1.call rfl _ _, h.2⟩
  · exact fun _ _ h => ⟨h.1.printed _, h.2⟩
  · rintro ret u ⟨hu, hconn⟩
    refine wp_if_failure (fun _ => ⟨hu.printed _, hconn⟩) fun _ => ?_
    exact wp_invoke_isNone ⟨hu.call rfl _ _, hconn⟩ ⟨hu.call rfl _ _, hconn⟩

/-- The server listens only once its channel and its control id exist. -/
theorem RDMAServer.wp_listen (env : Env) (w : World) :
    wp (RDMAServer.listen env)
      (fun ret w' => SetUp w w' ∧ (ret = .SUCCESS →
        w'.conn.conn_ctx.cm_id_control = .set env.new_id ∧ w'.conn.conn_ctx.IsSet .cm_channel))
      (fun _ _ => False) w := by
  unfold RDMAServer.listen
  rw [wp_bind]
  apply wp_invoke_of
  intro created
  have h := ((SetUp.refl w).call (c := .rdma_create_event_channel) rfl w.log.length created).modify_ctx fun ctx =>
    { ctx with cm_channel := .set (if created then some w.log.length else none) }
  rw [wp_bind, wp_modify_ctx]
  cases created with
  | false => exact ⟨h, nofun⟩
  | true =>
    refine wp_invoke_isNone ⟨h.call rfl _ _, nofun⟩ ?_
    rw [wp_bind, wp_modify_ctx]
    apply wp_bind_of (wp_resolve_port ((h.call rfl _ _).modify_ctx _) none) _ (fun _ _ h => h)
    rintro port w₁ ⟨h₁, hconn⟩
    have hcontrol : w₁.conn.conn_ctx.cm_id_control = .set env.new_id := by rw [hconn]; rfl
    have hchannel : w₁.conn.conn_ctx.IsSet .cm_channel := by rw [hconn]; exact ⟨_, rfl⟩
    cases port with
    | none => exact ⟨h₁, nofun⟩
    | some sin_port =>
      dsimp only
      rw [wp_bind]
      apply wp_invoke_of
      intro _
      rw [wp_bind]
      refine wp_load_of_set hcontrol ?_
      refine wp_invoke_isNone ⟨((h₁.call rfl _ _).call rfl _ _).printed _, nofun⟩ ?_
      rw [wp_bind, wp_get]
      refine wp_invoke_isNone ⟨(((h₁.call rfl _ _).call rfl _ _).call rfl _ _).printed _, nofun⟩ ?_
      exact ⟨((h₁.call rfl _ _).call rfl _ _).call rfl _ _, fun _ => ⟨hcontrol, hchannel⟩⟩

/-- The client's port is known only once its channel and its id exist. -/
theorem RDMAClient.wp_create (env : Env) (w : World) :
    wp (RDMAClient.create env)
      (fun port w' => SetUp w w' ∧ (port.isSome →
        w'.conn.conn_ctx.cm_id = .set env.new_id ∧ w'.conn.conn_ctx.IsSet .cm_channel))
      (fun _ _ => False) w := by
  unfold RDMAClient.create
  rw [wp_bind]
  apply wp_invoke_of
  intro created
  have h := ((SetUp.refl w).call (c := .rdma_create_event_channel) rfl w.log.length created).modify_ctx fun ctx =>
    { ctx with cm_channel := .set (if created then some w.log.length else none) }
  rw [wp_bind, wp_modify_ctx]
  cases created with
  | false => exact ⟨h, nofun⟩
  | true =>
    refine wp_invoke_isNone ⟨h.call rfl _ _, nofun⟩ ?_
    rw [wp_bind, wp_modify_ctx, wp_bind, wp_get]
    apply wp_mono (wp_resolve_port ((h.call rfl _ _).modify_ctx _) _) _ (fun _ _ h => h)
    rintro port w₁ ⟨h₁, hconn⟩
    refine ⟨h₁, fun _ => ?_⟩
    rw [hconn]
    exact ⟨rfl, _, rfl⟩

end tc_rdma.rdma_com
