import TcRdma.RdmaCom.Action
import TcRdma.RdmaCom.CompleteBuild

open tc_rdma.machine

namespace tc_rdma.rdma_com

variable {α : Type} {env : Env} {id : CmId} {w w' : World}

/-- Every call succeeds. -/
def Env.Works (env : Env) : Prop := ∀ log c, env.succeeds log c = true

theorem workingEnv_works : workingEnv.Works := fun _ _ => rfl

theorem wp_invoke_works {c : Call} {Q : Ptr → World → Prop} {E : Halt → World → Prop} (hworks : env.Works)
    (hQ : Q (some w.log.length) (w.record (.call w.log.length c true))) : wp (invoke env c) Q E w := by
  rw [wp_invoke, hworks]
  exact hQ

/-- A call whose failure is tested. -/
theorem wp_invoke_isNone_works {c : Call} {x y : Prog α} {Q : α → World → Prop} {E : Halt → World → Prop}
    (hworks : env.Works) (hok : wp y Q E (w.record (.call w.log.length c true))) :
    wp (do if (← invoke env c).isNone then x else y) Q E w := by
  rw [wp_bind]
  exact wp_invoke_works hworks hok

/-- A call whose result is stored. -/
theorem wp_store_works {c : Call} {f : Ptr → ConnContext → ConnContext} {x : Ptr → Prog α} {Q : α → World → Prop}
    {E : Halt → World → Prop} (hworks : env.Works)
    (hx : wp (x (some w.log.length)) Q E ((w.record (.call w.log.length c true)).modify_ctx (f (some w.log.length)))) :
    wp (do let p ← invoke env c; modify_ctx (f p); x p) Q E w := by
  rw [wp_bind]
  apply wp_invoke_works hworks
  rw [wp_bind, wp_modify_ctx]
  exact hx

/-- The ids and the stored device are as before. -/
structure Kept (w w' : World) : Prop where
  ids : w'.ids = w.ids
  context : w'.conn.conn_ctx.context = w.conn.conn_ctx.context

theorem Kept.trans {a b c : World} (hab : Kept a b) (hbc : Kept b c) : Kept a c :=
  ⟨hbc.ids.trans hab.ids, hbc.context.trans hab.context⟩

theorem wp_build_context_works (hcontext : w.conn.conn_ctx.context = .set (some (env.verbs id))) :
    wp (build_context env id) (fun accepted w' => accepted = true ∧ w' = w) (fun _ _ => False) w := by
  unfold build_context
  rw [wp_bind]
  apply wp_load_of_set hcontext
  exact ⟨by simp, rfl⟩

theorem wp_build_domain_works (hworks : env.Works) {context : Device}
    (hcontext : w.conn.conn_ctx.context = .set (some context)) :
    wp (build_domain env)
      (fun _ w' => Kept w w' ∧ w'.conn.conn_ctx.pd.NonNull ∧ w'.conn.conn_ctx.comp_channel.NonNull)
      (fun _ _ => False) w := by
  unfold build_domain
  rw [wp_bind]
  apply wp_load_of_set hcontext
  rw [wp_bind, wp_deref_some]
  apply wp_store_works hworks
  rw [wp_bind]
  apply wp_invoke_works hworks
  rw [wp_modify_ctx]
  exact ⟨⟨rfl, rfl⟩, ⟨_, rfl⟩, _, rfl⟩

theorem wp_build_completion_queue_works (hworks : env.Works) {context : Device}
    (hcontext : w.conn.conn_ctx.context = .set (some context)) (hchannel : w.conn.conn_ctx.comp_channel.NonNull) :
    wp (build_completion_queue env)
      (fun _ w' => Kept w w' ∧ w'.conn.conn_ctx.pd = w.conn.conn_ctx.pd ∧ w'.conn.conn_ctx.cq.NonNull)
      (fun _ _ => False) w := by
  obtain ⟨comp_channel, hchannel⟩ := hchannel
  unfold build_completion_queue
  rw [wp_bind]
  apply wp_load_of_set hcontext
  rw [wp_bind, wp_deref_some, wp_bind]
  apply wp_load_of_set hchannel
  rw [wp_bind, wp_get]
  apply wp_store_works hworks
  rw [wp_bind, wp_deref_some, wp_bind]
  apply wp_invoke_works hworks
  exact ⟨⟨rfl, rfl⟩, rfl, _, rfl⟩

theorem wp_build_poller_works (hworks : env.Works) :
    wp (build_poller env)
      (fun _ w' => Kept w w' ∧ w'.conn.conn_ctx.pd = w.conn.conn_ctx.pd ∧ w'.conn.conn_ctx.cq = w.conn.conn_ctx.cq)
      (fun _ _ => False) w := by
  unfold build_poller
  rw [wp_bind]
  apply wp_invoke_works hworks
  exact ⟨⟨rfl, rfl⟩, rfl, rfl⟩

/-- Only the queue pair of the id changes. -/
theorem wp_build_queue_pair_works (hworks : env.Works) (hcq : w.conn.conn_ctx.cq.NonNull)
    (hpd : w.conn.conn_ctx.pd.NonNull) :
    wp (build_queue_pair env id)
      (fun created w' => created = true ∧ w'.conn = w.conn ∧ (∃ qp, (w'.ids id).qp = some qp) ∧
        ∀ other, other ≠ id → w'.ids other = w.ids other)
      (fun _ _ => False) w := by
  obtain ⟨cq, hcq⟩ := hcq
  obtain ⟨pd, hpd⟩ := hpd
  unfold build_queue_pair
  rw [wp_bind]
  apply wp_load_of_set hcq
  rw [wp_bind, wp_get, wp_bind]
  apply wp_load_of_set hpd
  rw [wp_bind]
  apply wp_invoke_works hworks
  rw [wp_bind, wp_modify_id, wp_pure]
  refine ⟨rfl, rfl, ⟨w.log.length, ?_⟩, fun other hne => World.modify_id_of_ne _ _ _ hne⟩
  rw [World.modify_id_self]

/-- The meta messages and their regions. -/
structure MetaBuilt (ctx : ConnContext) : Prop where
  meta_send : ctx.meta_send.NonNull
  meta_recv : ctx.meta_recv.NonNull
  meta_send_mr : ctx.meta_send_mr.NonNull
  meta_recv_mr : ctx.meta_recv_mr.NonNull

theorem wp_register_message_memory_works (hworks : env.Works) (hpd : w.conn.conn_ctx.pd.NonNull) :
    wp (register_message_memory env)
      (fun _ w' => Kept w w' ∧ w'.conn.conn_ctx.qp = w.conn.conn_ctx.qp ∧ MetaBuilt w'.conn.conn_ctx)
      (fun _ _ => False) w := by
  obtain ⟨pd, hpd⟩ := hpd
  unfold register_message_memory
  apply wp_store_works hworks
  apply wp_store_works hworks
  rw [wp_bind]
  refine wp_load_of_set hpd ?_
  rw [wp_bind, wp_deref_some]
  apply wp_store_works hworks
  rw [wp_bind]
  apply wp_invoke_works hworks
  rw [wp_modify_ctx]
  exact ⟨⟨rfl, rfl⟩, rfl, ⟨_, rfl⟩, ⟨_, rfl⟩, ⟨_, rfl⟩, _, rfl⟩

theorem wp_post_meta_recv_wr_works (hworks : env.Works) (hqp : w.conn.conn_ctx.qp.NonNull)
    (hmeta : MetaBuilt w.conn.conn_ctx) :
    wp (post_meta_recv_wr env) (fun _ w' => w'.ids = w.ids ∧ w'.conn = w.conn) (fun _ _ => False) w := by
  obtain ⟨qp, hqp⟩ := hqp
  obtain ⟨meta_recv, hrecv⟩ := hmeta.meta_recv
  obtain ⟨meta_recv_mr, hmr⟩ := hmeta.meta_recv_mr
  unfold post_meta_recv_wr
  rw [wp_bind]
  apply wp_load_of_set hrecv
  rw [wp_bind]
  apply wp_load_of_set hmr
  rw [wp_bind, wp_deref_some, wp_bind, wp_this, wp_bind]
  apply wp_load_of_set hqp
  rw [wp_bind, wp_deref_some, wp_bind]
  exact wp_invoke_works hworks ⟨rfl, rfl⟩

theorem wp_post_meta_recv_wrs_works (hworks : env.Works) (n : Nat) (hqp : w.conn.conn_ctx.qp.NonNull)
    (hmeta : MetaBuilt w.conn.conn_ctx) :
    wp (post_meta_recv_wrs env n) (fun _ w' => w'.ids = w.ids ∧ w'.conn = w.conn) (fun _ _ => False) w := by
  induction n generalizing w with
  | zero => exact ⟨rfl, rfl⟩
  | succ n ih =>
    apply wp_bind_of (wp_post_meta_recv_wr_works hworks hqp hmeta) _ (fun _ _ h => h)
    rintro _ w₁ ⟨hids, hconn⟩
    apply wp_mono (ih (hconn ▸ hqp) (hconn ▸ hmeta)) _ (fun _ _ h => h)
    rintro _ w₂ ⟨hids₂, hconn₂⟩
    exact ⟨hids₂.trans hids, hconn₂.trans hconn⟩

/-- A connection that is built for the id, with all that the handlers use. -/
structure ReadyFor (env : Env) (id : CmId) (w : World) : Prop where
  context : w.conn.conn_ctx.context = .set (some (env.verbs id))
  cm_id : w.conn.conn_ctx.cm_id = .set id
  qp : w.conn.conn_ctx.qp.NonNull
  meta_built : MetaBuilt w.conn.conn_ctx
  id_qp : ∃ qp, (w.ids id).qp = some qp
  attached : w.Attached id

theorem wp_build_meta_works (hworks : env.Works) (hcontext : w.conn.conn_ctx.context = .set (some (env.verbs id)))
    (hcm : w.conn.conn_ctx.cm_id = .set id) (hpd : w.conn.conn_ctx.pd.NonNull)
    (hqp : ∃ qp, (w.ids id).qp = some qp) :
    wp (build_meta env id)
      (fun _ w' => ReadyFor env id w' ∧ ∀ other, other ≠ id → w'.ids other = w.ids other) (fun _ _ => False) w := by
  have hattach : wp (attach id) (fun _ w' => w' = w.attach id) (fun _ _ => False) w := by
    apply wp_mono (wp_attach (C := []) w id) (fun _ _ h => h.2)
    rintro halt w' ⟨-, ⟨-, hne⟩ | ⟨-, hunset⟩⟩
    · exact hne hcm
    · rw [hcm] at hunset
      cases hunset
  apply wp_bind_of hattach _ (fun _ _ h => h)
  rintro _ w₁ rfl
  obtain ⟨qp, hqp⟩ := hqp
  have hattached : (w.attach id).conn.conn_ctx.qp = .set (some qp) := by rw [← hqp]; rfl
  have hid : ((w.attach id).ids id).qp = some qp := by
    rw [← hqp]
    simp [World.attach]
  have hothers : ∀ other, other ≠ id → (w.attach id).ids other = w.ids other :=
    fun other hne => w.modify_id_of_ne id (fun state => { state with context := some w.conn.this }) hne
  apply wp_bind_of (wp_and (wp_register_message_memory_works (w := w.attach id) hworks hpd)
    (register_message_memory_leaves _)) _ (fun _ _ h => h.1)
  rintro _ w₂ ⟨⟨hkept, hqp₂, hmeta⟩, hfoot⟩
  have hnonnull : w₂.conn.conn_ctx.qp.NonNull := ⟨qp, hqp₂.trans hattached⟩
  rw [wp_bind, wp_get]
  apply wp_mono (wp_post_meta_recv_wrs_works hworks _ hnonnull hmeta) _ (fun _ _ h => h)
  rintro _ w₃ ⟨hids, hconn⟩
  have hids : w₃.ids = (w.attach id).ids := hids.trans hkept.ids
  refine ⟨{ context := ?_, cm_id := ?_, qp := ?_, meta_built := ?_, id_qp := ⟨qp, ?_⟩, attached := ?_ }, ?_⟩
  · rw [hconn, hkept.context]
    exact hcontext
  · rw [hconn]
    exact (congrArg Fixed.cm_id hfoot.fixed).trans hcm
  · rw [hconn]
    exact hnonnull
  · rw [hconn]
    exact hmeta
  · rw [hids]
    exact hid
  · have hthis : w₂.conn.this = (w.attach id).conn.this := congrArg Fixed.this hfoot.fixed
    rw [World.Attached, hids, hconn, hthis]
    exact w.attach_attached id
  · intro other hne
    rw [hids]
    exact hothers other hne

/-- What the first three parts of `build_connection` have done for the id. -/
structure Begun (id : CmId) (w w' : World) : Prop where
  fixed : w'.conn.fixed = w.conn.fixed
  context : w'.conn.conn_ctx.context = w.conn.conn_ctx.context
  pd : w'.conn.conn_ctx.pd.NonNull
  id_qp : ∃ qp, (w'.ids id).qp = some qp
  others : ∀ other, other ≠ id → w'.ids other = w.ids other

/-- On the stored device only the last two parts are left to speak of. -/
theorem wp_build_parts_works {Q : Status → World → Prop} {E : Halt → World → Prop} (hworks : env.Works)
    (hcontext : w.conn.conn_ctx.context = .set (some (env.verbs id)))
    (hmeta : ∀ w', Begun id w w' → wp (build_meta env id) (fun _ => Q .SUCCESS) E w') :
    wp (build_parts env id) Q E w := by
  unfold build_parts
  apply wp_bind_of (wp_build_context_works hcontext) _ (fun _ _ h => h.elim)
  rintro accepted w₀ ⟨rfl, rfl⟩
  rw [if_neg (by simp)]
  apply wp_bind_of (wp_and (wp_build_domain_works hworks hcontext) (build_domain_leaves w₀)) _ (fun _ _ h => h.1.elim)
  rintro _ w₁ ⟨⟨hkept₁, hpd₁, hchannel₁⟩, hfoot₁⟩
  have hcontext₁ : w₁.conn.conn_ctx.context = .set (some (env.verbs id)) := hkept₁.context.trans hcontext
  apply wp_bind_of (wp_and (wp_build_completion_queue_works hworks hcontext₁ hchannel₁)
    (build_completion_queue_leaves w₁)) _ (fun _ _ h => h.1.elim)
  rintro _ w₂ ⟨⟨hkept₂, hpd₂, hcq₂⟩, hfoot₂⟩
  apply wp_bind_of (wp_and (wp_build_poller_works hworks) (build_poller_leaves w₂)) _ (fun _ _ h => h.1.elim)
  rintro _ w₃ ⟨⟨hkept₃, hpd₃, hcq₃⟩, hfoot₃⟩
  have hpd : w₃.conn.conn_ctx.pd.NonNull := by rwa [hpd₃, hpd₂]
  have hcq : w₃.conn.conn_ctx.cq.NonNull := by rwa [hcq₃]
  have hkept := hkept₁.trans (hkept₂.trans hkept₃)
  have hfixed : w₃.conn.fixed = w₀.conn.fixed := hfoot₃.fixed.trans (hfoot₂.fixed.trans hfoot₁.fixed)
  apply wp_bind_of (wp_build_queue_pair_works hworks hcq hpd) _ (fun _ _ h => h.elim)
  rintro created w₄ ⟨rfl, hconn, hqp, hothers⟩
  rw [if_neg (by simp)]
  have hbegun : Begun id w₀ w₄ :=
    { fixed := by rw [hconn, hfixed]
      context := by rw [hconn, hkept.context]
      pd := by rwa [hconn]
      id_qp := hqp
      others := fun other hne => by rw [hothers other hne, hkept.ids] }
  exact wp_bind_of (hmeta w₄ hbegun) (fun _ _ h => h) (fun _ _ h => h)

/-- Building the connection of the stored id succeeds, the first time and
every time after. -/
theorem wp_build_connection_works (hworks : env.Works)
    (hcontext : w.conn.conn_ctx.context = .set (some (env.verbs id))) (hcm : w.conn.conn_ctx.cm_id = .set id) :
    wp (build_connection env id)
      (fun ret w' => ret = .SUCCESS ∧ ReadyFor env id w' ∧ ∀ other, other ≠ id → w'.ids other = w.ids other)
      (fun _ _ => False) w := by
  apply wp_bind_of (Q := fun ret w' => ret = .SUCCESS ∧ ReadyFor env id w' ∧ ∀ other, other ≠ id →
    w'.ids other = w.ids other) (wp_build_parts_works hworks hcontext ?_) _ (fun _ _ h => h)
  · intro w₁ hbegun
    have hcm₁ : w₁.conn.conn_ctx.cm_id = .set id := (congrArg Fixed.cm_id hbegun.fixed).trans hcm
    apply wp_mono (wp_build_meta_works hworks (hbegun.context.trans hcontext) hcm₁ hbegun.pd hbegun.id_qp) _
      (fun _ _ h => h)
    rintro _ w₂ ⟨hready, hothers⟩
    exact ⟨rfl, hready, fun other hne => (hothers other hne).trans (hbegun.others other hne)⟩
  · rintro ret w₁ ⟨rfl, hready, hothers⟩
    exact ⟨rfl, { hready with }, hothers⟩

/-- For another id on the same device the assertion fails, and another device
is refused. -/
theorem wp_build_connection_other (hworks : env.Works) {stored : CmId} (hne : id ≠ stored)
    (hcontext : w.conn.conn_ctx.context = .set (some (env.verbs stored))) (hcm : w.conn.conn_ctx.cm_id = .set stored) :
    wp (build_connection env id)
      (fun ret _ => ret = .FAILURE ∧ env.verbs id ≠ env.verbs stored)
      (fun halt _ => halt = .assertion_cm_id ∧ env.verbs id = env.verbs stored) w := by
  have hparts : wp (build_parts env id)
      (fun ret _ => ret = .FAILURE ∧ env.verbs id ≠ env.verbs stored)
      (fun halt _ => halt = .assertion_cm_id ∧ env.verbs id = env.verbs stored) w := by
    by_cases hdevice : env.verbs id = env.verbs stored
    · apply wp_build_parts_works hworks (hdevice ▸ hcontext)
      intro w₁ hbegun
      have hcm₁ : w₁.conn.conn_ctx.cm_id = .set stored := (congrArg Fixed.cm_id hbegun.fixed).trans hcm
      apply wp_bind_of (wp_attach (C := []) w₁ id)
      · rintro _ w₂ ⟨hid, -⟩
        rw [hcm₁] at hid
        cases hid
        exact absurd rfl hne
      · rintro halt w₂ ⟨-, ⟨rfl, -⟩ | ⟨-, hunset⟩⟩
        · exact ⟨rfl, hdevice⟩
        · rw [hcm₁] at hunset
          cases hunset
    · unfold build_parts build_context
      rw [wp_bind, wp_bind]
      apply wp_load_of_set hcontext
      rw [wp_pure, if_pos (by simpa using fun heq => hdevice heq.symm)]
      exact ⟨rfl, hdevice⟩
  exact wp_bind_of hparts (fun _ _ h => h) (fun _ _ h => h)

/-- The meta message is sent. -/
theorem wp_on_connection_works (hworks : env.Works) (h : ReadyFor env id w) :
    wp (on_connection env)
      (fun ret w' => ret = .SUCCESS ∧ ReadyFor env id w' ∧ w'.ids = w.ids ∧ actions w'.log = actions w.log ++ [.send])
      (fun _ _ => False) w := by
  obtain ⟨qp, hqp⟩ := h.qp
  obtain ⟨meta_send, hsend⟩ := h.meta_built.meta_send
  obtain ⟨mr, hmr⟩ := h.meta_built.meta_send_mr
  unfold on_connection post_meta_send_wr send_meta_message
  rw [wp_bind, wp_set_connected, wp_bind, wp_bind, wp_record, wp_bind]
  refine wp_load_of_set hsend ?_
  rw [wp_bind]
  refine wp_load_of_set hmr ?_
  rw [wp_bind, wp_deref_some, wp_bind, wp_this, wp_bind, wp_get, wp_bind]
  refine wp_check (fun _ => ?_) (fun hfalse => by cases hfalse)
  rw [wp_bind]
  refine wp_load_of_set hqp ?_
  rw [wp_bind, wp_deref_some, wp_bind]
  apply wp_invoke_works hworks
  rw [wp_pure, wp_pure]
  refine ⟨rfl, { h with }, rfl, ?_⟩
  rw [actions_record, actions_record_none _ rfl]
  rfl

/-- Everything of the connection can be released. -/
theorem wp_on_disconnect_works (hworks : env.Works) (h : ReadyFor env id w) :
    wp (on_disconnect env id)
      (fun ret w' => ret = .FAILURE ∧ actions w'.log = actions w.log ++ [.destroy_qp]) (fun _ _ => False) w := by
  obtain ⟨qp, hqp⟩ := h.id_qp
  obtain ⟨meta_send, hsend⟩ := h.meta_built.meta_send
  obtain ⟨meta_recv, hrecv⟩ := h.meta_built.meta_recv
  obtain ⟨send_mr, hsend_mr⟩ := h.meta_built.meta_send_mr
  obtain ⟨recv_mr, hrecv_mr⟩ := h.meta_built.meta_recv_mr
  have hattached : (w.ids id).context = some w.conn.this := h.attached
  unfold on_disconnect destroy_connection release_connection rdma_destroy_qp
  rw [wp_bind, wp_get, wp_bind]
  refine wp_check (fun _ => ?_) (fun hfalse => by simp [hattached] at hfalse)
  rw [wp_bind, wp_bind, wp_record, wp_bind]
  refine wp_load_of_set h.cm_id ?_
  rw [wp_bind, wp_bind, wp_get, World.record_ids, hqp, wp_bind, wp_deref_some, wp_bind]
  apply wp_invoke_works hworks
  rw [wp_modify_id, wp_bind]
  refine wp_load_of_set hsend_mr ?_
  rw [wp_bind, wp_deref_some, wp_bind]
  apply wp_invoke_works hworks
  rw [wp_bind]
  refine wp_load_of_set hrecv_mr ?_
  rw [wp_bind, wp_deref_some, wp_bind]
  apply wp_invoke_works hworks
  rw [wp_bind]
  refine wp_load_of_set hsend ?_
  rw [wp_bind]
  apply wp_invoke_works hworks
  rw [wp_bind]
  refine wp_load_of_set hrecv ?_
  rw [wp_bind]
  apply wp_invoke_works hworks
  rw [wp_bind]
  refine wp_load_of_set h.cm_id ?_
  rw [wp_bind]
  apply wp_invoke_works hworks
  refine ⟨rfl, ?_⟩
  -- of what is released only the queue pair is an action
  rw [actions_record_none _ rfl, actions_record_none _ rfl, actions_record_none _ rfl, actions_record_none _ rfl,
    actions_record_none _ rfl, World.modify_id_log, actions_record, actions_record_none _ rfl]
  rfl

theorem wp_resolve_port_works (hworks : env.Works) (servername : Option String) :
    wp (resolve_port env servername) (fun port w' => (∃ sin_port, port = some sin_port) ∧ w'.conn = w.conn)
      (fun _ _ => False) w := by
  have hfound : wp (check_add_port env w.conn.conn_params.env.server_port servername)
      (fun ret w' => ret = .SUCCESS ∧ w'.conn = w.conn) (fun _ _ => False) w := by
    unfold check_add_port
    refine wp_invoke_isNone_works hworks ?_
    refine wp_invoke_isNone_works hworks ?_
    exact ⟨rfl, rfl⟩
  unfold resolve_port
  rw [wp_bind, wp_get]
  apply wp_bind_of hfound _ (fun _ _ h => h)
  rintro _ w₁ ⟨rfl, hconn⟩
  refine wp_invoke_isNone_works hworks ?_
  exact ⟨⟨_, rfl⟩, hconn⟩

/-- The client finds the port of its server. -/
theorem RDMAClient.wp_create_works (hworks : env.Works) :
    wp (RDMAClient.create env) (fun port _ => ∃ sin_port, port = some sin_port) (fun _ _ => False) w := by
  unfold RDMAClient.create
  rw [wp_bind]
  apply wp_invoke_works hworks
  rw [wp_bind, wp_modify_ctx]
  refine wp_invoke_isNone_works hworks ?_
  rw [wp_bind, wp_modify_ctx, wp_bind, wp_get]
  exact wp_mono (wp_resolve_port_works hworks _) (fun _ _ h => h.1) (fun _ _ h => h)

theorem RDMAServer.wp_listen_works (hworks : env.Works) :
    wp (RDMAServer.listen env) (fun ret _ => ret = .SUCCESS) (fun _ _ => False) w := by
  unfold RDMAServer.listen
  rw [wp_bind]
  apply wp_invoke_works hworks
  rw [wp_bind, wp_modify_ctx]
  refine wp_invoke_isNone_works hworks ?_
  rw [wp_bind, wp_modify_ctx]
  apply wp_bind_of (wp_resolve_port_works hworks none) _ (fun _ _ h => h)
  rintro _ w₁ ⟨⟨sin_port, rfl⟩, hconn⟩
  have hcontrol : w₁.conn.conn_ctx.cm_id_control = .set env.new_id := by rw [hconn]; rfl
  dsimp only
  rw [wp_bind]
  apply wp_invoke_works hworks
  rw [wp_bind]
  refine wp_load_of_set hcontrol ?_
  refine wp_invoke_isNone_works hworks ?_
  rw [wp_bind, wp_get]
  refine wp_invoke_isNone_works hworks ?_
  exact rfl

end tc_rdma.rdma_com
