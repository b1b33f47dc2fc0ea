import TcRdma.RdmaCom.Stretch

open tc_rdma.machine

namespace tc_rdma.rdma_com

variable {env : Env} {cm_id : CmId} {w : World}

/-- An accepted id is on the device of the object, which takes it over if it
had none. -/
theorem wp_build_context_stretch {Q : Bool → World → Prop} {E : Halt → World → Prop}
    (hrefused : Refused env cm_id w → Q false w)
    (haccepted : ∀ w', ¬ Refused env cm_id w →
      Stretch [] (fun ctx => { ctx with context := .set (some (env.verbs cm_id)) }) w w' → Q true w')
    (hhalt : w.conn.conn_ctx.context = .indeterminate → E (.indeterminate .context) w) :
    wp (build_context env cm_id) Q E w := by
  unfold build_context
  rw [wp_bind, wp_load]
  split
  · rename_i context hcontext
    cases context with
    | some context =>
      dsimp only
      rw [wp_pure]
      by_cases heq : context = env.verbs cm_id
      · rw [decide_eq_true heq]
        subst heq
        apply haccepted w
        · rintro ⟨other, hother, hne⟩
          rw [hcontext] at hother
          cases hother
          exact hne rfl
        · exact ⟨⟨[], by simp, rfl⟩, by rw [← hcontext], rfl⟩
      · rw [decide_eq_false heq]
        exact hrefused ⟨context, hcontext, heq⟩
    | none =>
      dsimp only
      rw [wp_bind, wp_modify_ctx, wp_pure]
      apply haccepted _ _ (Stretch.modify_ctx w _)
      rintro ⟨other, hother, _⟩
      rw [hcontext] at hother
      cases hother
  · rename_i hcontext
    exact hhalt hcontext

/-- Both calls are made, whatever the first comes to. -/
theorem wp_build_domain_stretch {device : Device} (hcontext : w.conn.conn_ctx.context = .set (some device)) :
    wp (build_domain env)
      (fun _ w' => ∃ pd comp_channel : Ptr,
        Stretch [(.ibv_alloc_pd device, pd.isSome), (.ibv_create_comp_channel device, comp_channel.isSome)]
          (fun ctx => { ctx with pd := .set pd, comp_channel := .set comp_channel }) w w')
      (fun _ _ => False) w := by
  unfold build_domain
  rw [wp_bind]
  apply wp_load_of_set hcontext
  rw [wp_bind, wp_deref_some]
  apply wp_store
  intro pd w₁ h₁
  apply wp_store_last
  intro comp_channel w₂ h₂
  exact ⟨pd, comp_channel, h₁.trans h₂⟩

/-- The completion queue is created on the channel as it is, null or not, and
armed at once, which a null queue does not survive. -/
theorem wp_build_completion_queue_stretch {device : Device} {comp_channel : Ptr}
    (hcontext : w.conn.conn_ctx.context = .set (some device))
    (hchannel : w.conn.conn_ctx.comp_channel = .set comp_channel) :
    wp (build_completion_queue env)
      (fun _ w' => ∃ (cqe : Nat) (cq : Handle) (armed : Bool),
        Stretch [(.ibv_create_cq device cqe comp_channel, true), (.ibv_req_notify_cq cq, armed)]
          (fun ctx => { ctx with cq := .set (some cq) }) w w')
      (fun halt w' => halt = .null_pointer ∧ ∃ (cqe : Nat) (f : ConnContext → ConnContext),
        Stretch [(.ibv_create_cq device cqe comp_channel, false)] f w w') w := by
  unfold build_completion_queue
  rw [wp_bind]
  apply wp_load_of_set hcontext
  rw [wp_bind, wp_deref_some, wp_bind]
  apply wp_load_of_set hchannel
  rw [wp_bind, wp_get]
  apply wp_store
  intro cq w₁ h₁
  cases cq with
  | none => exact ⟨rfl, _, _, h₁⟩
  | some cq =>
    rw [wp_bind, wp_deref_some]
    apply wp_ignore
    intro armed w₂ h₂
    exact ⟨_, cq, armed, h₁.trans h₂⟩

/-- The run goes on without the thread when it could not be created. -/
theorem wp_build_poller_stretch :
    wp (build_poller env)
      (fun _ w' => ∃ (created : Bool) (thread : Cell Handle),
        Stretch [(.pthread_create, created)] (fun ctx => { ctx with cq_poller_thread := thread }) w w')
      (fun _ _ => False) w := by
  unfold build_poller
  rw [wp_bind]
  apply wp_invoke_of
  intro created
  have hcall := Stretch.call w w.log.length .pthread_create created
  cases created with
  | true => exact ⟨true, .set w.log.length, hcall.made, rfl, rfl⟩
  | false => exact ⟨false, w.conn.conn_ctx.cq_poller_thread, hcall.made, rfl, rfl⟩

/-- The queue pair is asked for on the protection domain as it is. -/
theorem wp_build_queue_pair_stretch {pd cq : Ptr} (hpd : w.conn.conn_ctx.pd = .set pd)
    (hcq : w.conn.conn_ctx.cq = .set cq) :
    wp (build_queue_pair env cm_id)
      (fun created w' => ∃ qp_attr : IbvQpInitAttr, qp_attr.send_cq = cq ∧ qp_attr.recv_cq = cq ∧
        Stretch [(.rdma_create_qp cm_id pd qp_attr, created)] id w w' ∧
        (created = true → ∃ qp, (w'.ids cm_id).qp = some qp))
      (fun _ _ => False) w := by
  unfold build_queue_pair
  rw [wp_bind]
  apply wp_load_of_set hcq
  rw [wp_bind, wp_get, wp_bind]
  apply wp_load_of_set hpd
  rw [wp_bind]
  apply wp_invoke_of
  intro created
  cases created with
  | true =>
    refine ⟨_, rfl, rfl, ⟨(Stretch.call w _ _ true).made, rfl, rfl⟩, fun _ => ⟨w.log.length, ?_⟩⟩
    rw [World.modify_id_self]
  | false =>
    refine ⟨_, rfl, rfl, Stretch.call w _ _ false, ?_⟩
    intro hcreated
    cases hcreated

/-- The queue pair of the id is taken over, unless the id is not the stored
one. -/
theorem wp_attach_stretch {qp : Ptr} (hqp : (w.ids cm_id).qp = qp) :
    wp (attach cm_id)
      (fun _ w' => w.conn.conn_ctx.cm_id = .set cm_id ∧ Stretch [] (fun ctx => { ctx with qp := .set qp }) w w')
      (fun halt w' => halt ≠ .null_pointer ∧ w.conn.conn_ctx.cm_id ≠ .set cm_id ∧ w'.log = w.log) w := by
  apply wp_mono (wp_attach (C := []) w cm_id)
  · rintro _ w' ⟨hcm, rfl⟩
    exact ⟨hcm, ⟨[], by simp [World.attach], rfl⟩, by simp [World.attach, hqp], rfl⟩
  · rintro halt w' ⟨hfoot, hcause⟩
    have hlog : w'.log = w.log := by
      obtain ⟨added, hadded, hnone⟩ := hfoot.log
      have hnil : added = [] := List.eq_nil_iff_forall_not_mem.mpr (by simpa using hnone)
      rw [hadded, hnil, List.append_nil]
    rcases hcause with ⟨rfl, hne⟩ | ⟨rfl, hunset⟩
    · exact ⟨by simp, hne, hlog⟩
    · exact ⟨by simp, by simp [hunset], hlog⟩

/-- The four calls are made one after the other, whatever they come to. -/
theorem wp_register_message_memory_stretch {pd : Handle} (hpd : w.conn.conn_ctx.pd = .set (some pd)) :
    wp (register_message_memory env)
      (fun _ w' => ∃ meta_send meta_recv meta_send_mr meta_recv_mr : Ptr,
        Stretch
          [(.malloc sizeof_meta_message, meta_send.isSome), (.malloc sizeof_meta_message, meta_recv.isSome),
            (.ibv_reg_mr pd meta_send sizeof_meta_message false, meta_send_mr.isSome),
            (.ibv_reg_mr pd meta_recv sizeof_meta_message true, meta_recv_mr.isSome)]
          (fun ctx => { ctx with
            meta_send := .set meta_send
            meta_recv := .set meta_recv
            meta_send_mr := .set meta_send_mr
            meta_recv_mr := .set meta_recv_mr }) w w')
      (fun _ _ => False) w := by
  unfold register_message_memory
  apply wp_store
  intro meta_send w₁ h₁
  apply wp_store
  intro meta_recv w₂ h₂
  rw [wp_bind]
  have hpd : w₂.conn.conn_ctx.pd = .set (some pd) := by rw [h₂.ctx, h₁.ctx, hpd]
  apply wp_load_of_set hpd
  rw [wp_bind, wp_deref_some]
  apply wp_store
  intro meta_send_mr w₃ h₃
  apply wp_store_last
  intro meta_recv_mr w₄ h₄
  exact ⟨meta_send, meta_recv, meta_send_mr, meta_recv_mr, ((h₁.trans h₂).trans h₃).trans h₄⟩

/-- One receive is posted, unless its memory region is null. -/
theorem wp_post_meta_recv_wr_stretch {meta_recv meta_recv_mr : Ptr} {qp : Handle}
    (hrecv : w.conn.conn_ctx.meta_recv = .set meta_recv) (hmr : w.conn.conn_ctx.meta_recv_mr = .set meta_recv_mr)
    (hqp : w.conn.conn_ctx.qp = .set (some qp)) :
    wp (post_meta_recv_wr env)
      (fun _ w' => meta_recv_mr.isSome ∧ ∃ wr ok, Stretch [(.ibv_post_recv qp wr, ok)] id w w')
      (fun halt w' => halt = .null_pointer ∧ meta_recv_mr = none ∧ w' = w) w := by
  unfold post_meta_recv_wr
  rw [wp_bind]
  apply wp_load_of_set hrecv
  rw [wp_bind]
  apply wp_load_of_set hmr
  rw [wp_bind]
  cases meta_recv_mr with
  | none => exact ⟨rfl, rfl, rfl⟩
  | some meta_recv_mr =>
    rw [wp_deref_some, wp_bind, wp_this, wp_bind]
    apply wp_load_of_set hqp
    rw [wp_bind, wp_deref_some, wp_bind]
    apply wp_invoke_of
    intro ok
    exact ⟨rfl, _, ok, Stretch.call w _ _ ok⟩

/-- A call of `ibv_post_recv`. -/
def Call.IsPostRecv : Call → Prop
  | .ibv_post_recv _ _ => True
  | _ => False

/-- `n` receives are posted, whatever the earlier ones come to. -/
theorem wp_post_meta_recv_wrs_stretch {meta_recv meta_recv_mr : Ptr} {qp : Handle} (n : Nat)
    (hrecv : w.conn.conn_ctx.meta_recv = .set meta_recv) (hmr : w.conn.conn_ctx.meta_recv_mr = .set meta_recv_mr)
    (hqp : w.conn.conn_ctx.qp = .set (some qp)) :
    wp (post_meta_recv_wrs env n)
      (fun _ w' => ∃ posts : List (Call × Bool), posts.length = n ∧ (∀ made ∈ posts, made.1.IsPostRecv) ∧
        Stretch posts id w w')
      (fun halt w' => halt = .null_pointer ∧ meta_recv_mr = none ∧ w' = w) w := by
  induction n generalizing w with
  | zero => exact ⟨[], rfl, by simp, Stretch.refl w⟩
  | succ n ih =>
    apply wp_bind_of (wp_post_meta_recv_wr_stretch hrecv hmr hqp) _ (fun _ _ h => h)
    rintro _ w₁ ⟨hsome, wr, ok, h₁⟩
    have hctx : w₁.conn.conn_ctx = w.conn.conn_ctx := h₁.ctx
    rw [← hctx] at hrecv hmr hqp
    apply wp_mono (ih hrecv hmr hqp)
    · rintro _ w₂ ⟨posts, hlength, hposts, h₂⟩
      refine ⟨_, ?_, ?_, h₁.trans h₂⟩
      · rw [List.singleton_append, List.length_cons, hlength]
      · rw [List.singleton_append, List.forall_mem_cons]
        exact ⟨trivial, hposts⟩
    · rintro halt w₂ ⟨-, hnone, -⟩
      rw [hnone] at hsome
      cases hsome

end tc_rdma.rdma_com
