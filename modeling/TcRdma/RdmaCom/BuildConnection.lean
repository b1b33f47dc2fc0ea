import TcRdma.RdmaCom.Trace

open tc_rdma.machine

namespace tc_rdma.rdma_com

variable {C : List Concern} {env : Env} {id : CmId} {w : World}

/-- The object is bound to another device than the id. -/
def Refused (env : Env) (id : CmId) (w : World) : Prop :=
  ∃ context, w.conn.conn_ctx.context = .set (some context) ∧ context ≠ env.verbs id

/-- A completion queue has been created since. -/
def CqCreated (w w' : World) : Prop :=
  ∃ added, w'.log = w.log ++ added ∧
    ∃ entry ∈ added, ∃ n context cqe comp_channel, entry.op = .call n (.ibv_create_cq context cqe comp_channel) true

theorem CqCreated.extend {w w' w'' : World} (h : CqCreated w w') (hlog : w'.log <+: w''.log) : CqCreated w w'' := by
  obtain ⟨added, hadded, entry, hentry, hop⟩ := h
  obtain ⟨more, hmore⟩ := hlog
  exact ⟨added ++ more, by rw [← hmore, hadded, List.append_assoc], entry, List.mem_append_left _ hentry, hop⟩

theorem CqCreated.of_prefix {w w' w'' : World} (h : CqCreated w' w'') (hlog : w.log <+: w'.log) : CqCreated w w'' := by
  obtain ⟨added, hadded, entry, hentry, hop⟩ := h
  obtain ⟨more, hmore⟩ := hlog
  exact ⟨more ++ added, by rw [hadded, ← hmore, List.append_assoc], entry, List.mem_append_right _ hentry, hop⟩

theorem wp_build_context {Q : Bool → World → Prop} {E : Halt → World → Prop}
    (hrefused : Refused env id w → Q false w)
    (haccepted : ∀ w', ¬ Refused env id w → Footprint [] w w' → w'.conn.conn_ctx.IsSet .context → Q true w')
    (hhalt : w.conn.conn_ctx.context = .indeterminate → E (.indeterminate .context) w) :
    wp (build_context env id) Q E w := by
  unfold build_context
  rw [wp_bind, wp_load]
  split
  · rename_i context hcontext
    cases context with
    | some context =>
      dsimp only
      rw [wp_pure]
      by_cases heq : context = env.verbs id
      · rw [decide_eq_true heq]
        refine haccepted w ?_ (Footprint.refl w) ⟨_, hcontext⟩
        rintro ⟨other, hother, hne⟩
        rw [hcontext] at hother
        cases hother
        exact hne heq
      · rw [decide_eq_false heq]
        exact hrefused ⟨context, hcontext, heq⟩
    | none =>
      dsimp only
      rw [wp_bind, wp_modify_ctx, wp_pure]
      refine haccepted _ ?_ (Footprint.modify_ctx w) ⟨_, rfl⟩
      rintro ⟨other, hother, _⟩
      rw [hcontext] at hother
      cases hother
  · rename_i hcontext
    exact hhalt hcontext

theorem wp_build_domain (hcontext : w.conn.conn_ctx.IsSet .context) :
    wp (build_domain env) (fun _ w' => w'.conn.conn_ctx.IsSet .pd ∧ w'.conn.conn_ctx.IsSet .comp_channel)
      (fun halt _ => halt = .null_pointer) w := by
  obtain ⟨context, hcontext⟩ := hcontext
  unfold build_domain
  rw [wp_bind]
  apply wp_load_of_set hcontext
  rw [wp_bind]
  refine wp_deref (fun _ _ => ?_) rfl
  rw [wp_bind]
  apply wp_invoke_of
  intro _
  rw [wp_bind, wp_modify_ctx, wp_bind]
  apply wp_invoke_of
  intro _
  rw [wp_modify_ctx]
  exact ⟨⟨_, rfl⟩, ⟨_, rfl⟩⟩

/-- The queue is armed at once, which a null pointer does not survive. -/
theorem wp_build_completion_queue (hcontext : w.conn.conn_ctx.IsSet .context)
    (hchannel : w.conn.conn_ctx.IsSet .comp_channel) :
    wp (build_completion_queue env) (fun _ w' => w'.conn.conn_ctx.IsSet .cq ∧ CqCreated w w')
      (fun halt _ => halt = .null_pointer) w := by
  obtain ⟨context, hcontext⟩ := hcontext
  obtain ⟨comp_channel, hchannel⟩ := hchannel
  unfold build_completion_queue
  rw [wp_bind]
  apply wp_load_of_set hcontext
  rw [wp_bind]
  refine wp_deref (fun _ _ => ?_) rfl
  rw [wp_bind]
  apply wp_load_of_set hchannel
  rw [wp_bind, wp_get, wp_bind]
  apply wp_invoke_of
  intro created
  rw [wp_bind, wp_modify_ctx, wp_bind]
  cases created with
  | false => exact wp_deref (fun _ hnone => by cases hnone) rfl
  | true =>
    refine wp_deref (fun cq _ => ?_) rfl
    rw [wp_bind, wp_invoke, wp_pure]
    exact ⟨⟨_, rfl⟩, _, List.append_assoc _ _ _, _, .head _, _, _, _, _, rfl⟩

theorem wp_build_poller : wp (build_poller env) (fun _ _ => True) (fun _ _ => False) w := by
  unfold build_poller
  rw [wp_bind]
  apply wp_invoke_of
  intro ok
  cases ok <;> trivial

/-- The result of part 3 is the outcome of its one call. -/
theorem wp_build_queue_pair (hcq : w.conn.conn_ctx.IsSet .cq)
    (hpd : w.conn.conn_ctx.IsSet .pd) :
    wp (build_queue_pair env id)
      (fun created w' => outcomes .queue_pair w'.log = outcomes .queue_pair w.log ++ [created]) (fun _ _ => False)
      w := by
  obtain ⟨cq, hcq⟩ := hcq
  obtain ⟨pd, hpd⟩ := hpd
  unfold build_queue_pair
  rw [wp_bind]
  apply wp_load_of_set hcq
  rw [wp_bind, wp_get, wp_bind]
  apply wp_load_of_set hpd
  rw [wp_bind]
  apply wp_invoke_of
  intro ok
  cases ok with
  | true => exact outcomes_record_call _ _ _ _
  | false => exact outcomes_record_call _ _ _ _

theorem wp_register_message_memory (hpd : w.conn.conn_ctx.IsSet .pd) :
    wp (register_message_memory env)
      (fun _ w' => w'.conn.conn_ctx.IsSet .meta_recv ∧ w'.conn.conn_ctx.IsSet .meta_recv_mr ∧
        w'.conn.conn_ctx.IsSet .meta_send ∧ w'.conn.conn_ctx.IsSet .meta_send_mr)
      (fun halt _ => halt = .null_pointer) w := by
  obtain ⟨pd, hpd⟩ := hpd
  unfold register_message_memory
  rw [wp_bind]
  apply wp_invoke_of
  intro _
  rw [wp_bind, wp_modify_ctx, wp_bind]
  apply wp_invoke_of
  intro _
  rw [wp_bind, wp_modify_ctx, wp_bind]
  refine wp_load_of_set hpd ?_
  rw [wp_bind]
  refine wp_deref (fun pd _ => ?_) rfl
  rw [wp_bind]
  apply wp_invoke_of
  intro _
  rw [wp_bind, wp_modify_ctx, wp_bind]
  apply wp_invoke_of
  intro _
  rw [wp_modify_ctx]
  exact ⟨⟨_, rfl⟩, ⟨_, rfl⟩, ⟨_, rfl⟩, ⟨_, rfl⟩⟩

theorem wp_post_meta_recv_wr (hqp : w.conn.conn_ctx.IsSet .qp) (hrecv : w.conn.conn_ctx.IsSet .meta_recv)
    (hmr : w.conn.conn_ctx.IsSet .meta_recv_mr) :
    wp (post_meta_recv_wr env) (fun _ _ => True) (fun halt _ => halt = .null_pointer) w := by
  obtain ⟨qp, hqp⟩ := hqp
  obtain ⟨meta_recv, hrecv⟩ := hrecv
  obtain ⟨meta_recv_mr, hmr⟩ := hmr
  unfold post_meta_recv_wr
  rw [wp_bind]
  apply wp_load_of_set hrecv
  rw [wp_bind]
  apply wp_load_of_set hmr
  rw [wp_bind]
  refine wp_deref (fun mr _ => ?_) rfl
  rw [wp_bind, wp_this, wp_bind]
  apply wp_load_of_set hqp
  rw [wp_bind]
  refine wp_deref (fun qp _ => ?_) rfl
  rw [wp_bind]
  exact wp_invoke_of fun _ => trivial

theorem wp_post_meta_recv_wrs (n : Nat) (hqp : w.conn.conn_ctx.IsSet .qp)
    (hrecv : w.conn.conn_ctx.IsSet .meta_recv) (hmr : w.conn.conn_ctx.IsSet .meta_recv_mr) :
    wp (post_meta_recv_wrs env n) (fun _ _ => True) (fun halt _ => halt = .null_pointer) w := by
  induction n generalizing w with
  | zero => trivial
  | succ n ih =>
    apply wp_bind_of (wp_and (wp_post_meta_recv_wr hqp hrecv hmr) (post_meta_recv_wr_leaves w)) _ (fun _ _ h => h.1)
    rintro _ w' ⟨-, hfoot⟩
    exact ih (hfoot.is_set _ hqp) (hfoot.is_set _ hrecv) (hfoot.is_set _ hmr)

/-- The queue pair and everything that belongs to the meta messages. -/
structure ConnContext.Assigned (ctx : ConnContext) : Prop where
  qp : ctx.IsSet .qp
  meta_recv_mr : ctx.IsSet .meta_recv_mr
  meta_send_mr : ctx.IsSet .meta_send_mr
  meta_recv : ctx.IsSet .meta_recv
  meta_send : ctx.IsSet .meta_send

theorem Footprint.assigned {w w' : World} (h : Footprint C w w') (ha : w.conn.conn_ctx.Assigned) :
    w'.conn.conn_ctx.Assigned :=
  ⟨h.is_set _ ha.qp, h.is_set _ ha.meta_recv_mr, h.is_set _ ha.meta_send_mr, h.is_set _ ha.meta_recv,
    h.is_set _ ha.meta_send⟩

/-- `build_connection` refuses the device before it makes any call, or it
creates a completion queue and calls `rdma_create_qp` once, whose outcome is
its result. -/
inductive BuildReturns (env : Env) (id : CmId) (w : World) : Status → World → Prop where
  | refused (hrefused : Refused env id w) : BuildReturns env id w .FAILURE w
  | no_queue_pair (w' : World) (hrefused : ¬ Refused env id w) (hcq : CqCreated w w')
      (hqp : outcomes .queue_pair w'.log = outcomes .queue_pair w.log ++ [false]) :
      BuildReturns env id w .FAILURE w'
  | built (w' : World) (hrefused : ¬ Refused env id w) (hcq : CqCreated w w')
      (hqp : outcomes .queue_pair w'.log = outcomes .queue_pair w.log ++ [true])
      (hcm : w.conn.conn_ctx.cm_id = .set id) (hassigned : w'.conn.conn_ctx.Assigned) (hattached : w'.Attached id) :
      BuildReturns env id w .SUCCESS w'

/-- It halts at a null pointer, or because the members it is given are not
those of the id. No call of `rdma_create_qp` has failed then. -/
structure BuildHalts (id : CmId) (w : World) (halt : Halt) (w' : World) : Prop where
  cause : halt = .null_pointer ∨
    halt = .assertion_cm_id ∧ w.conn.conn_ctx.cm_id ≠ .set id ∨
    halt = .indeterminate .cm_id ∧ w.conn.conn_ctx.cm_id = .indeterminate ∨
    halt = .indeterminate .context ∧ w.conn.conn_ctx.context = .indeterminate
  outcome : outcomes .queue_pair w'.log = outcomes .queue_pair w.log ∨
    outcomes .queue_pair w'.log = outcomes .queue_pair w.log ++ [true]

theorem wp_build_meta (hpd : w.conn.conn_ctx.IsSet .pd) :
    wp (build_meta env id)
      (fun _ w' => w.conn.conn_ctx.cm_id = .set id ∧ w'.conn.conn_ctx.Assigned ∧ w'.Attached id)
      (fun halt _ => halt = .null_pointer ∨
        halt = .assertion_cm_id ∧ w.conn.conn_ctx.cm_id ≠ .set id ∨
        halt = .indeterminate .cm_id ∧ w.conn.conn_ctx.cm_id = .indeterminate) w := by
  apply wp_bind_of (wp_attach (C := []) w id) _ (fun _ _ h => .inr h.2)
  rintro _ w₁ ⟨hcm, rfl⟩
  have hattach : Footprint [] w (w.attach id) := Footprint.attach w id
  apply wp_bind_of (wp_and (wp_register_message_memory (hattach.is_set _ hpd)) (register_message_memory_leaves _))
    ?_ (fun _ _ h => .inl h.1)
  rintro _ w₂ ⟨⟨hrecv, hrecv_mr, hsend, hsend_mr⟩, hmemory⟩
  have hqp : w₂.conn.conn_ctx.IsSet .qp := hmemory.is_set _ ⟨_, rfl⟩
  have hassigned : w₂.conn.conn_ctx.Assigned := ⟨hqp, hrecv_mr, hsend_mr, hrecv, hsend⟩
  rw [wp_bind, wp_get]
  apply wp_mono (wp_and (wp_post_meta_recv_wrs _ hqp hrecv hrecv_mr) (post_meta_recv_wrs_leaves _ w₂)) _
    (fun _ _ h => .inl h.1)
  rintro _ w₃ ⟨-, hposts⟩
  exact ⟨hcm, hposts.assigned hassigned, hposts.attached _ (hmemory.attached _ (w.attach_attached id))⟩

theorem wp_build_parts (env : Env) (id : CmId) (w : World) :
    wp (build_parts env id) (BuildReturns env id w) (BuildHalts id w) w := by
  unfold build_parts
  rw [wp_bind]
  refine wp_build_context (fun hrefused => .refused hrefused) ?_
    (fun hcontext => ⟨.inr (.inr (.inr ⟨rfl, hcontext⟩)), .inl rfl⟩)
  intro w₁ hrefused hfoot₁ hcontext
  have hnull : ∀ {halt w'}, halt = .null_pointer ∧ Footprint [.device] w w' → BuildHalts id w halt w' :=
    fun h => ⟨.inl h.1, .inl (outcomes_of_extends h.2.log (by simp))⟩
  have hfoot₁ : Footprint [.device] w w₁ := hfoot₁.mono (by simp)
  apply wp_bind_of (wp_and (wp_build_domain hcontext) (build_domain_leaves w₁)) _
    (fun _ _ h => hnull ⟨h.1, hfoot₁.trans h.2.2⟩)
  rintro _ w₂ ⟨⟨hpd, hchannel⟩, hfoot₂⟩
  have hcontext₂ := hfoot₂.is_set _ hcontext
  have hfoot₂ : Footprint [.device] w w₂ := hfoot₁.trans hfoot₂
  apply wp_bind_of (wp_and (wp_build_completion_queue hcontext₂ hchannel) (build_completion_queue_leaves w₂)) _
    (fun _ _ h => hnull ⟨h.1, hfoot₂.trans h.2.2⟩)
  rintro _ w₃ ⟨⟨hcq, hcreated⟩, hfoot₃⟩
  have hcreated : CqCreated w w₃ := hcreated.of_prefix hfoot₂.log.isPrefix
  have hpd₃ := hfoot₃.is_set _ hpd
  have hfoot₃ : Footprint [.device] w w₃ := hfoot₂.trans hfoot₃
  apply wp_bind_of (wp_and wp_build_poller (build_poller_leaves w₃)) _ (fun _ _ h => h.1.elim)
  rintro _ w₄ ⟨-, hfoot₄⟩
  have hpd₄ := hfoot₄.is_set _ hpd₃
  have hcreated : CqCreated w w₄ := hcreated.extend hfoot₄.log.isPrefix
  apply wp_bind_of (wp_and (wp_build_queue_pair (hfoot₄.is_set _ hcq) hpd₄) (build_queue_pair_leaves id w₄)) _
    (fun _ _ h => h.1.elim)
  rintro created w₅ ⟨houtcome, hfoot₅⟩
  rw [outcomes_of_extends (hfoot₃.trans hfoot₄).log (by simp)] at houtcome
  have hcreated : CqCreated w w₅ := hcreated.extend hfoot₅.log.isPrefix
  cases created with
  | false => exact .no_queue_pair w₅ hrefused hcreated houtcome
  | true =>
    have hfixed : w₅.conn.fixed = w.conn.fixed := hfoot₅.fixed.trans ((hfoot₃.trans hfoot₄).fixed)
    have hcm : w₅.conn.conn_ctx.cm_id = w.conn.conn_ctx.cm_id := congrArg Fixed.cm_id hfixed
    apply wp_bind_of (wp_and (wp_build_meta (hfoot₅.is_set _ hpd₄)) (build_meta_leaves id w₅)) _ _
    · rintro _ w₆ ⟨⟨hid, hassigned, hattached⟩, hfoot₆⟩
      rw [hcm] at hid
      rw [← outcomes_of_extends hfoot₆.log (by simp)] at houtcome
      exact .built w₆ hrefused (hcreated.extend hfoot₆.log.isPrefix) houtcome hid hassigned hattached
    · rintro halt w₆ ⟨hcause, -, hfoot₆⟩
      rw [hcm] at hcause
      rw [← outcomes_of_extends hfoot₆.log (by simp)] at houtcome
      refine ⟨?_, .inr houtcome⟩
      rcases hcause with hnull | hassertion | hunset
      · exact .inl hnull
      · exact .inr (.inl hassertion)
      · exact .inr (.inr (.inl hunset))

/-- Everything that a call of `build_connection` can come to. -/
theorem wp_build_connection (env : Env) (id : CmId) (w : World) :
    wp (build_connection env id)
      (fun ret w' => ∃ last, BuildReturns env id w ret last ∧ Footprint building w last ∧
        w' = last.record (.build_connection_returned id ret))
      (fun halt w' => BuildHalts id w halt w' ∧ Footprint building w w') w := by
  apply wp_bind_of (wp_and (wp_build_parts env id w) (build_parts_leaves id w)) _ (fun _ _ h => ⟨h.1, h.2.2⟩)
  rintro ret last ⟨hreturns, hfoot⟩
  exact ⟨last, hreturns, hfoot, rfl⟩

end tc_rdma.rdma_com
