import TcRdma.RdmaCom.BuildConnection

open tc_rdma.machine

namespace tc_rdma.rdma_com

variable {env : Env} {id : CmId} {w : World} {C : List Concern} {N : Nat} {qp : Handle} {ctx : ConnContext}
  {log log' : List Entry} {p : Op → Bool}

/-- How many operations of a log satisfy a test. -/
def tally (p : Op → Bool) (log : List Entry) : Nat := log.countP fun entry => p entry.op

theorem tally_append (log log' : List Entry) : tally p (log ++ log') = tally p log + tally p log' :=
  List.countP_append

theorem tally_record (w : World) (op : Op) : tally p (w.record op).log = tally p w.log + if p op then 1 else 0 := by
  rw [World.record_log, tally_append]
  congr 1
  simp [tally, List.countP_cons]

theorem tally_le_of_isPrefix (h : log <+: log') : tally p log ≤ tally p log' := by
  obtain ⟨added, rfl⟩ := h
  rw [tally_append]
  exact Nat.le_add_right _ _

theorem tally_of_extends (h : Extends (fun entry => entry.op.concern ∈ C) log log')
    (hother : ∀ op : Op, op.concern ∈ C → p op = false) : tally p log' = tally p log := by
  obtain ⟨added, rfl, hadded⟩ := h
  have hzero : tally p added = 0 := by
    rw [tally, List.countP_eq_zero]
    intro entry hentry
    rw [hother entry.op (hadded entry hentry)]
    simp
  rw [tally_append, hzero, Nat.add_zero]

/-- Receives that were posted on a queue pair. -/
def Op.receives_on (qp : Handle) : Op → Bool
  | .call _ (.ibv_post_recv q _) ok => decide (q = qp) && ok
  | _ => false

def Op.is_send : Op → Bool
  | .call _ (.ibv_post_send _ _) _ => true
  | _ => false

def Op.delivers (type : RdmaCmEventType) : Op → Bool
  | .obtained _ event => decide (event.event = type)
  | _ => false

/-- The queue pair was created for the id. -/
def QpOf (id : CmId) (qp : Handle) (log : List Entry) : Prop :=
  ∃ entry ∈ log, ∃ pd qp_attr, entry.op = .call qp (.rdma_create_qp id pd qp_attr) true

/-- The memory region was registered for sending. -/
def Registered (mr : Handle) (log : List Entry) : Prop :=
  ∃ entry ∈ log, ∃ pd memory size, entry.op = .call mr (.ibv_reg_mr pd memory size false) true

/-- The connection has the queue pair of its id, `N` receives are posted on
it, and the region of its meta message exists. -/
structure Equipped (id : CmId) (N : Nat) (ctx : ConnContext) (log : List Entry) : Prop where
  cm_id : ctx.cm_id = .set id
  qp : ∃ qp, ctx.qp = .set (some qp) ∧ QpOf id qp log ∧ N ≤ tally (Op.receives_on qp) log
  meta_send_mr : ∃ mr, ctx.meta_send_mr = .set (some mr) ∧ Registered mr log

theorem QpOf.extend (h : QpOf id qp log) (hgrows : log <+: log') : QpOf id qp log' := by
  obtain ⟨entry, hentry, hop⟩ := h
  exact ⟨entry, hgrows.subset hentry, hop⟩

theorem Registered.extend {mr : Handle} (h : Registered mr log) (hgrows : log <+: log') : Registered mr log' := by
  obtain ⟨entry, hentry, hop⟩ := h
  exact ⟨entry, hgrows.subset hentry, hop⟩

theorem Equipped.extend (h : Equipped id N ctx log) (hgrows : log <+: log') : Equipped id N ctx log' := by
  obtain ⟨qp, hqp, hcreated, hreceives⟩ := h.qp
  obtain ⟨mr, hmr, hregistered⟩ := h.meta_send_mr
  refine ⟨h.cm_id, ⟨qp, hqp, hcreated.extend hgrows, ?_⟩, mr, hmr, hregistered.extend hgrows⟩
  exact Nat.le_trans hreceives (tally_le_of_isPrefix hgrows)

theorem Equipped.record (h : Equipped id N w.conn.conn_ctx w.log) (op : Op) :
    Equipped id N (w.record op).conn.conn_ctx (w.record op).log :=
  h.extend (List.prefix_append _ _)

/-- The calls of the verbs library and of the connection manager. -/
def Call.of_library : Call → Bool
  | .asprintf _ => false
  | .getaddrinfo _ _ => false
  | .ai_family_is_pf_inet => false
  | .freeaddrinfo => false
  | .pthread_create => false
  | .malloc _ => false
  | .free _ => false
  | _ => true

/-- These calls succeed. -/
def Env.Reliable (env : Env) : Prop := ∀ log c, c.of_library = true → env.succeeds log c = true

theorem wp_invoke_reliable {c : Call} {Q : Ptr → World → Prop} {E : Halt → World → Prop} (hworks : env.Reliable)
    (hc : c.of_library = true) (hQ : Q (some w.log.length) (w.record (.call w.log.length c true))) :
    wp (invoke env c) Q E w := by
  rw [wp_invoke, hworks _ _ hc]
  exact hQ

theorem wp_post_meta_recv_wr_receives (hworks : env.Reliable) (hqp : w.conn.conn_ctx.qp = .set (some qp)) :
    wp (post_meta_recv_wr env)
      (fun _ w' => w'.conn = w.conn ∧ tally (Op.receives_on qp) w'.log = tally (Op.receives_on qp) w.log + 1)
      (fun _ _ => True) w := by
  unfold post_meta_recv_wr
  rw [wp_bind, wp_load]
  split
  swap
  · trivial
  rw [wp_bind, wp_load]
  split
  swap
  · trivial
  rw [wp_bind]
  refine wp_deref (fun mr _ => ?_) trivial
  rw [wp_bind, wp_this, wp_bind]
  apply wp_load_of_set hqp
  rw [wp_bind]
  refine wp_deref (fun q hq => ?_) trivial
  cases hq
  rw [wp_bind]
  apply wp_invoke_reliable hworks rfl
  refine ⟨rfl, ?_⟩
  rw [tally_record]
  simp [Op.receives_on]

theorem wp_post_meta_recv_wrs_receives (hworks : env.Reliable) (n : Nat) (hqp : w.conn.conn_ctx.qp = .set (some qp)) :
    wp (post_meta_recv_wrs env n)
      (fun _ w' => w'.conn = w.conn ∧ tally (Op.receives_on qp) w'.log = tally (Op.receives_on qp) w.log + n)
      (fun _ _ => True) w := by
  induction n generalizing w with
  | zero => exact ⟨rfl, rfl⟩
  | succ n ih =>
    apply wp_bind_of (wp_post_meta_recv_wr_receives hworks hqp) _ (fun _ _ h => h)
    rintro _ w₁ ⟨hconn, hone⟩
    apply wp_mono (ih (hconn ▸ hqp)) _ (fun _ _ h => h)
    rintro _ w₂ ⟨hconn₂, hmore⟩
    refine ⟨hconn₂.trans hconn, ?_⟩
    rw [hmore, hone]
    omega

/-- The meta messages are registered, and nothing else of the connection changes. -/
theorem wp_register_message_memory_registers (hworks : env.Reliable) :
    wp (register_message_memory env)
      (fun _ w' => w'.conn.conn_ctx.qp = w.conn.conn_ctx.qp ∧
        ∃ mr, w'.conn.conn_ctx.meta_send_mr = .set (some mr) ∧ Registered mr w'.log)
      (fun _ _ => True) w := by
  unfold register_message_memory
  rw [wp_bind]
  apply wp_invoke_of
  intro _
  rw [wp_bind, wp_modify_ctx, wp_bind]
  apply wp_invoke_of
  intro _
  rw [wp_bind, wp_modify_ctx, wp_bind, wp_load]
  split
  swap
  · trivial
  rw [wp_bind]
  refine wp_deref (fun pd _ => ?_) trivial
  rw [wp_bind]
  apply wp_invoke_reliable hworks rfl
  rw [wp_bind, wp_modify_ctx, wp_bind]
  apply wp_invoke_of
  intro _
  rw [wp_modify_ctx]
  refine ⟨rfl, _, rfl, ?_⟩
  refine ⟨_, List.mem_append_left _ (List.mem_append_right _ (.head _)), _, _, _, rfl⟩

/-- The queue pair that the id has is created. -/
theorem wp_build_queue_pair_creates (hworks : env.Reliable) :
    wp (build_queue_pair env id)
      (fun created w' => created = true ∧ ∃ qp, (w'.ids id).qp = some qp ∧ QpOf id qp w'.log) (fun _ _ => True) w := by
  unfold build_queue_pair
  rw [wp_bind, wp_load]
  split
  swap
  · trivial
  rw [wp_bind, wp_get, wp_bind, wp_load]
  split
  swap
  · trivial
  rw [wp_bind]
  apply wp_invoke_reliable hworks rfl
  rw [wp_bind, wp_modify_id, wp_pure]
  refine ⟨rfl, _, ?_, _, List.mem_append_right _ (.head _), _, _, rfl⟩
  rw [World.modify_id_self]

theorem wp_build_meta_equips (hworks : env.Reliable) (hqp : (w.ids id).qp = some qp) (hcreated : QpOf id qp w.log) :
    wp (build_meta env id)
      (fun _ w' => Equipped id w.conn.conn_params.wr_cq_number w'.conn.conn_ctx w'.log) (fun _ _ => True) w := by
  apply wp_bind_of (wp_attach (C := []) w id) _ (fun _ _ _ => trivial)
  rintro _ w₁ ⟨hcm, rfl⟩
  have hqp₁ : (w.attach id).conn.conn_ctx.qp = .set (some qp) := by
    rw [← hqp]
    rfl
  apply wp_bind_of (wp_and (wp_register_message_memory_registers hworks) (register_message_memory_leaves _)) _
    (fun _ _ _ => trivial)
  rintro _ w₂ ⟨⟨hsame, mr, hmr, hregistered⟩, hfoot⟩
  rw [hqp₁] at hsame
  rw [wp_bind, wp_get]
  have hnumber : w₂.conn.conn_params.wr_cq_number = w.conn.conn_params.wr_cq_number :=
    congrArg Fixed.wr_cq_number hfoot.fixed
  have hid : w₂.conn.conn_ctx.cm_id = .set id := (congrArg Fixed.cm_id hfoot.fixed).trans hcm
  rw [hnumber]
  apply wp_mono (wp_and (wp_post_meta_recv_wrs_receives hworks _ hsame) (post_meta_recv_wrs_leaves _ w₂)) _
    (fun _ _ _ => trivial)
  rintro _ w₃ ⟨⟨hconn, hreceives⟩, hposts⟩
  rw [hconn]
  refine ⟨hid, ⟨qp, hsame, ?_, ?_⟩, mr, hmr, hregistered.extend hposts.log.isPrefix⟩
  · exact (hcreated.extend hfoot.log.isPrefix).extend hposts.log.isPrefix
  · rw [hreceives]
    exact Nat.le_add_left _ _

/-- On a device that is accepted, a call that returns has equipped the
connection. -/
theorem wp_build_connection_equips (hworks : env.Reliable) (w : World) :
    wp (build_connection env id)
      (fun ret w' => ret = .FAILURE ∧ Refused env id w ∧ w' = w.record (.build_connection_returned id .FAILURE) ∨
        ret = .SUCCESS ∧ Equipped id w.conn.conn_params.wr_cq_number w'.conn.conn_ctx w'.log)
      (fun _ _ => True) w := by
  unfold build_connection build_parts
  rw [wp_bind, wp_bind]
  refine wp_build_context (fun hrefused => .inl ⟨rfl, hrefused, rfl⟩) ?_ (fun _ => trivial)
  intro w₁ _ hfoot₁ _
  rw [if_neg (by simp)]
  apply wp_bind_of (build_domain_leaves w₁) _ (fun _ _ _ => trivial)
  intro _ w₂ hfoot₂
  apply wp_bind_of (build_completion_queue_leaves w₂) _ (fun _ _ _ => trivial)
  intro _ w₃ hfoot₃
  apply wp_bind_of (build_poller_leaves w₃) _ (fun _ _ _ => trivial)
  intro _ w₄ hfoot₄
  apply wp_bind_of (wp_and (wp_build_queue_pair_creates hworks) (build_queue_pair_leaves id w₄)) _
    (fun _ _ _ => trivial)
  rintro created w₅ ⟨⟨rfl, qp, hqp, hcreated⟩, hfoot₅⟩
  have hfixed : w₅.conn.fixed = w.conn.fixed :=
    hfoot₅.fixed.trans (hfoot₄.fixed.trans (hfoot₃.fixed.trans (hfoot₂.fixed.trans hfoot₁.fixed)))
  have hnumber : w₅.conn.conn_params.wr_cq_number = w.conn.conn_params.wr_cq_number :=
    congrArg Fixed.wr_cq_number hfixed
  rw [if_neg (by simp)]
  apply wp_bind_of (wp_build_meta_equips hworks hqp hcreated) _ (fun _ _ _ => trivial)
  intro _ w₆ hequipped
  rw [hnumber] at hequipped
  rw [wp_pure, wp_bind, wp_record, wp_pure]
  exact .inr ⟨rfl, hequipped.record _⟩

end tc_rdma.rdma_com
