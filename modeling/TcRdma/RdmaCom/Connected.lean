import TcRdma.RdmaCom.Loops
import TcRdma.RdmaCom.Resources

open tc_rdma.machine

namespace tc_rdma.rdma_com

/-- `connected`, with the members that it speaks for. -/
structure Held where
  connected : Bool
  qp : Cell Ptr
  meta_recv_mr : Cell Ptr
  meta_send_mr : Cell Ptr
  meta_recv : Cell Ptr
  meta_send : Cell Ptr
  deriving DecidableEq

def ConnectionProc.held (conn : ConnectionProc) : Held :=
  { connected := conn.conn_params.connected
    qp := conn.conn_ctx.qp
    meta_recv_mr := conn.conn_ctx.meta_recv_mr
    meta_send_mr := conn.conn_ctx.meta_send_mr
    meta_recv := conn.conn_ctx.meta_recv
    meta_send := conn.conn_ctx.meta_send }

/-- The member points to an object that was created and not released. -/
def LiveIn (log : List Entry) (kind : ObjectKind) (cell : Cell Ptr) : Prop :=
  ∃ handle, cell = .set (some handle) ∧ (kind, handle) ∈ acquired log ∧ (kind, handle) ∉ released log

structure Held.Live (held : Held) (log : List Entry) : Prop where
  qp : LiveIn log .qp held.qp
  meta_recv_mr : LiveIn log .mr held.meta_recv_mr
  meta_send_mr : LiveIn log .mr held.meta_send_mr
  meta_recv : LiveIn log .memory held.meta_recv
  meta_send : LiveIn log .memory held.meta_send

/-- `connected` is true only while everything it speaks for is live. -/
def Held.Truthful (held : Held) (log : List Entry) : Prop := held.connected = true → held.Live log

/-- `ibv_post_send` is called only while `connected` is true, and on the stored
queue pair. -/
def Entry.SendsConnected (entry : Entry) : Prop :=
  ∀ n qp wr ok, entry.op = .call n (.ibv_post_send qp wr) ok →
    entry.conn.conn_params.connected = true ∧ entry.conn.conn_ctx.qp = .set (some qp)

/-- The flag has been truthful in every state, and is now. -/
structure World.Truthful (w : World) : Prop where
  entries : Always (fun front entry => entry.conn.held.Truthful front ∧ entry.SendsConnected) w.log
  now : w.conn.held.Truthful w.log

/-- The last run of `register_message_memory` got all it asked for. -/
def Stocked (log : List Entry) : Prop := List.replicate 4 true <:+ outcomes .memory log

/-- As long as nothing has been released, the members are live once the meta
messages could be registered. -/
structure World.Sound (w : World) : Prop extends w.Truthful where
  unreleased : released w.log = []
  stocked : Stocked w.log → w.conn.held.Live w.log

variable {α β : Type} {env : Env} {C : List Concern} {w w' : World} {log log' : List Entry} {kind : ObjectKind}
  {cell : Cell Ptr} {held : Held}

theorem Op.releases_eq_none {op : Op} (hreleasing : op.concern ≠ .releasing) : op.releases = none := by
  cases op with
  | call n c ok => cases c <;> first | rfl | exact absurd rfl hreleasing
  | _ => rfl

theorem released_of_extends (h : Extends (fun entry => entry.op.concern ∈ C) log log') (hreleasing : .releasing ∉ C) :
    released log' = released log := by
  apply picked_of_extends h
  intro op hop
  exact Op.releases_eq_none fun heq => hreleasing (heq ▸ hop)

theorem LiveIn.grow (h : LiveIn log kind cell) (hgrows : log <+: log') (hsame : released log' = released log) :
    LiveIn log' kind cell := by
  obtain ⟨handle, hset, hacquired, hreleased⟩ := h
  obtain ⟨added, rfl⟩ := hgrows
  refine ⟨handle, hset, ?_, by rw [hsame]; exact hreleased⟩
  rw [acquired, picked_append]
  exact List.mem_append_left _ hacquired

theorem Held.Live.grow (h : held.Live log) (hgrows : log <+: log') (hsame : released log' = released log) :
    held.Live log' where
  qp := h.qp.grow hgrows hsame
  meta_recv_mr := h.meta_recv_mr.grow hgrows hsame
  meta_send_mr := h.meta_send_mr.grow hgrows hsame
  meta_recv := h.meta_recv.grow hgrows hsame
  meta_send := h.meta_send.grow hgrows hsame

theorem Entry.sendsConnected_of_concern {entry : Entry} (h : entry.op.concern ≠ .sending) : entry.SendsConnected := by
  intro n qp wr ok hop
  rw [hop] at h
  exact absurd rfl h

/-- The flag and its members are left alone, in every state on the way. -/
structure Undisturbed (w w' : World) : Prop where
  held : w'.conn.held = w.conn.held
  log : Extends (fun entry => entry.conn.held = w.conn.held) w.log w'.log

theorem Undisturbed.refl (w : World) : Undisturbed w w := ⟨rfl, Extends.refl _⟩

theorem Undisturbed.trans {a b c : World} (hab : Undisturbed a b) (hbc : Undisturbed b c) : Undisturbed a c :=
  ⟨hbc.held.trans hab.held, hab.log.trans (hbc.log.mono fun _ h => h.trans hab.held)⟩

theorem Undisturbed.record (w : World) (op : Op) : Undisturbed w (w.record op) := ⟨rfl, Extends.one rfl⟩

/-- While nothing is released, sent or registered, everything stays sound. -/
theorem World.Sound.extend (h : w.Sound) (hsame : Undisturbed w w')
    (hlog : Extends (fun entry => entry.op.concern ∈ C) w.log w'.log) (hreleasing : .releasing ∉ C)
    (hmemory : .memory ∉ C) (hsending : .sending ∉ C) : w'.Sound where
  entries := by
    apply h.entries.extend (hsame.log.and hlog)
    rintro front entry hfront ⟨hheld, hconcern⟩
    refine ⟨?_, Entry.sendsConnected_of_concern fun heq => hsending (heq ▸ hconcern)⟩
    intro hconnected
    rw [hheld] at hconnected ⊢
    have hfront := hfront.mono fun _ h => h.2
    exact (h.now hconnected).grow hfront.isPrefix (released_of_extends hfront hreleasing)
  now := by
    intro hconnected
    rw [hsame.held] at hconnected ⊢
    exact (h.now hconnected).grow hlog.isPrefix (released_of_extends hlog hreleasing)
  unreleased := (released_of_extends hlog hreleasing).trans h.unreleased
  stocked := by
    intro hstocked
    rw [Stocked, outcomes_of_extends hlog hmemory] at hstocked
    rw [hsame.held]
    exact (h.stocked hstocked).grow hlog.isPrefix (released_of_extends hlog hreleasing)

/-- Without the flag there is nothing to be truthful about. -/
theorem World.Truthful.extend_unset (h : w.Truthful) (hunset : w.conn.conn_params.connected = false)
    (hsame : Undisturbed w w') (hlog : Extends (fun entry => entry.op.concern ∈ C) w.log w'.log)
    (hsending : .sending ∉ C) : w'.Truthful where
  entries := by
    apply h.entries.extend (hsame.log.and hlog)
    rintro front entry - ⟨hheld, hconcern⟩
    refine ⟨?_, Entry.sendsConnected_of_concern fun heq => hsending (heq ▸ hconcern)⟩
    intro hconnected
    rw [hheld] at hconnected
    exact absurd (hconnected.symm.trans hunset) (by simp)
  now := by
    intro hconnected
    rw [hsame.held] at hconnected
    exact absurd (hconnected.symm.trans hunset) (by simp)

/-- The program leaves the flag and its members alone. -/
abbrev Undisturbing (x : Prog α) : Prop := Guarantees Undisturbed (fun _ => True) x

theorem Undisturbing.bind {x : Prog α} {f : α → Prog β} (hx : Undisturbing x) (hf : ∀ a, Undisturbing (f a)) :
    Undisturbing (x >>= f) :=
  Guarantees.bind (fun hab hbc => hab.trans hbc) hx hf

theorem undisturbing_pure (a : α) : Undisturbing (pure a : Prog α) := fun w => Undisturbed.refl w

theorem undisturbing_get : Undisturbing (get : Prog World) := fun w => Undisturbed.refl w

theorem undisturbing_this : Undisturbing this := fun w => Undisturbed.refl w

theorem undisturbing_load {member : Member} {cell : ConnContext → Cell α} : Undisturbing (load member cell) :=
  fun w => wp_load_any (fun _ _ => Undisturbed.refl w) ⟨trivial, Undisturbed.refl w⟩

theorem undisturbing_deref (pointer : Ptr) : Undisturbing (deref pointer) :=
  fun w => wp_deref (fun _ _ => Undisturbed.refl w) ⟨trivial, Undisturbed.refl w⟩

theorem undisturbing_record (op : Op) : Undisturbing (record op) := fun w => Undisturbed.record w op

theorem undisturbing_invoke (c : Call) : Undisturbing (invoke env c) :=
  fun w => wp_invoke_of fun _ => Undisturbed.record w _

theorem undisturbing_modify_id (id : CmId) (f : CmIdState → CmIdState) : Undisturbing (modify_id id f) :=
  fun w => ⟨rfl, Extends.refl w.log⟩

theorem undisturbing_modify_ctx {f : ConnContext → ConnContext}
    (hheld : ∀ w : World, (w.modify_ctx f).conn.held = w.conn.held := by exact fun _ => rfl) :
    Undisturbing (modify_ctx f) :=
  fun w => ⟨hheld w, Extends.refl w.log⟩

theorem build_context_undisturbing (id : CmId) : Undisturbing (build_context env id) := by
  apply undisturbing_load.bind
  intro context
  cases context with
  | some context => exact undisturbing_pure _
  | none => exact Undisturbing.bind undisturbing_modify_ctx fun _ => undisturbing_pure _

theorem build_domain_undisturbing : Undisturbing (build_domain env) := by
  refine undisturbing_load.bind fun _ => (undisturbing_deref _).bind fun context => ?_
  refine (undisturbing_invoke _).bind fun pd => Undisturbing.bind undisturbing_modify_ctx fun _ => ?_
  exact (undisturbing_invoke _).bind fun comp_channel => undisturbing_modify_ctx

theorem build_completion_queue_undisturbing : Undisturbing (build_completion_queue env) := by
  refine undisturbing_load.bind fun _ => (undisturbing_deref _).bind fun context => undisturbing_load.bind fun _ => ?_
  refine undisturbing_get.bind fun _ => (undisturbing_invoke _).bind fun cq => ?_
  refine Undisturbing.bind undisturbing_modify_ctx fun _ => (undisturbing_deref _).bind fun _ => ?_
  exact (undisturbing_invoke _).bind fun _ => undisturbing_pure _

theorem build_poller_undisturbing : Undisturbing (build_poller env) := by
  apply (undisturbing_invoke _).bind
  intro thread
  cases thread with
  | some thread => exact undisturbing_modify_ctx
  | none => exact undisturbing_pure ()

theorem build_queue_pair_undisturbing (id : CmId) : Undisturbing (build_queue_pair env id) := by
  refine undisturbing_load.bind fun _ => undisturbing_get.bind fun _ => undisturbing_load.bind fun _ => ?_
  apply (undisturbing_invoke _).bind
  intro qp
  cases qp with
  | some qp => exact (undisturbing_modify_id _ _).bind fun _ => undisturbing_pure _
  | none => exact undisturbing_pure _

theorem post_meta_recv_wr_undisturbing : Undisturbing (post_meta_recv_wr env) := by
  refine undisturbing_load.bind fun _ => undisturbing_load.bind fun _ => (undisturbing_deref _).bind fun _ => ?_
  refine undisturbing_this.bind fun _ => undisturbing_load.bind fun _ => (undisturbing_deref _).bind fun _ => ?_
  exact (undisturbing_invoke _).bind fun _ => undisturbing_pure _

theorem post_meta_recv_wrs_undisturbing (n : Nat) : Undisturbing (post_meta_recv_wrs env n) := by
  induction n with
  | zero => exact undisturbing_pure ()
  | succ n ih => exact post_meta_recv_wr_undisturbing.bind fun _ => ih

theorem rdma_destroy_qp_undisturbing (id : CmId) : Undisturbing (rdma_destroy_qp env id) :=
  undisturbing_get.bind fun _ => (undisturbing_deref _).bind fun _ => (undisturbing_invoke _).bind fun _ =>
    undisturbing_modify_id _ _

/-- Releasing a connection changes none of the members that point to it. -/
theorem release_connection_undisturbing : Undisturbing (release_connection env) := by
  refine undisturbing_load.bind fun cm_id => (rdma_destroy_qp_undisturbing cm_id).bind fun _ => ?_
  refine undisturbing_load.bind fun _ => (undisturbing_deref _).bind fun _ => (undisturbing_invoke _).bind fun _ => ?_
  refine undisturbing_load.bind fun _ => (undisturbing_deref _).bind fun _ => (undisturbing_invoke _).bind fun _ => ?_
  refine undisturbing_load.bind fun _ => (undisturbing_invoke _).bind fun _ => ?_
  refine undisturbing_load.bind fun _ => (undisturbing_invoke _).bind fun _ => ?_
  exact undisturbing_load.bind fun _ => (undisturbing_invoke _).bind fun _ => undisturbing_pure _

theorem check_add_port_undisturbing (port : Int) (servername : Option String) :
    Undisturbing (check_add_port env port servername) := by
  apply (undisturbing_invoke _).bind
  intro service
  cases service with
  | none => exact undisturbing_pure _
  | some _ =>
    apply (undisturbing_invoke _).bind
    intro res
    cases res with
    | none => exact (undisturbing_record _).bind fun _ => undisturbing_pure _
    | some _ => exact undisturbing_pure _

theorem resolve_port_undisturbing (servername : Option String) : Undisturbing (resolve_port env servername) := by
  apply undisturbing_get.bind
  intro w
  apply (check_add_port_undisturbing _ _).bind
  intro ret
  cases ret with
  | FAILURE => exact (undisturbing_record _).bind fun _ => undisturbing_pure _
  | SUCCESS =>
    apply (undisturbing_invoke _).bind
    intro family
    cases family with
    | none => exact undisturbing_pure _
    | some _ => exact undisturbing_pure _

theorem RDMAServer.listen_undisturbing : Undisturbing (RDMAServer.listen env) := by
  refine (undisturbing_invoke _).bind fun cm_channel => Undisturbing.bind undisturbing_modify_ctx fun _ => ?_
  cases cm_channel with
  | none => exact undisturbing_pure _
  | some cm_channel =>
    apply (undisturbing_invoke _).bind
    intro created
    cases created with
    | none => exact undisturbing_pure _
    | some _ =>
      refine Undisturbing.bind undisturbing_modify_ctx fun _ => (resolve_port_undisturbing none).bind fun port => ?_
      cases port with
      | none => exact undisturbing_pure _
      | some sin_port =>
        refine (undisturbing_invoke _).bind fun _ => undisturbing_load.bind fun _ => (undisturbing_invoke _).bind ?_
        intro bound
        cases bound with
        | none => exact (undisturbing_record _).bind fun _ => undisturbing_pure _
        | some _ =>
          refine undisturbing_get.bind fun _ => (undisturbing_invoke _).bind fun listening => ?_
          cases listening with
          | none => exact (undisturbing_record _).bind fun _ => undisturbing_pure _
          | some _ => exact undisturbing_pure _

theorem RDMAClient.create_undisturbing : Undisturbing (RDMAClient.create env) := by
  refine (undisturbing_invoke _).bind fun cm_channel => Undisturbing.bind undisturbing_modify_ctx fun _ => ?_
  cases cm_channel with
  | none => exact undisturbing_pure _
  | some cm_channel =>
    apply (undisturbing_invoke _).bind
    intro created
    cases created with
    | none => exact undisturbing_pure _
    | some _ =>
      refine Undisturbing.bind undisturbing_modify_ctx fun _ => undisturbing_get.bind fun _ => ?_
      exact resolve_port_undisturbing _

end tc_rdma.rdma_com
