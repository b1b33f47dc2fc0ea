import TcRdma.RdmaCom.BuildConnection

open tc_rdma.machine

namespace tc_rdma.rdma_com

variable {log front added : List Entry} {id : CmId} {w w' : World} {C : List Concern}

/-- `build_connection` has returned `SUCCESS` for the id. -/
def Built (id : CmId) (log : List Entry) : Prop := ∃ entry ∈ log, entry.op = .build_connection_returned id .SUCCESS

/-- The id whose connection an entry needs: the route is resolved and the
connection opened for the id that is passed, and `post_meta_send_wr` and
`destroy_connection` work on the stored one. -/
def Entry.needs (entry : Entry) : Option (Cell CmId) :=
  match entry.op with
  | .call _ (.rdma_resolve_route id _) _ => some (.set id)
  | .call _ (.rdma_connect id _) _ => some (.set id)
  | .entered _ => some entry.conn.conn_ctx.cm_id
  | _ => none

/-- Whatever needs a connection comes after `build_connection` has returned
`SUCCESS` for its id. -/
def Guarded (log : List Entry) : Prop :=
  Always (fun front entry => ∀ cell, entry.needs = some cell → ∃ id, cell = .set id ∧ Built id front) log

theorem Built.append (h : Built id log) : Built id (log ++ added) := by
  obtain ⟨entry, hentry, hop⟩ := h
  exact ⟨entry, List.mem_append_left _ hentry, hop⟩

theorem Entry.needs_eq_none {entry : Entry} (h : entry.op.concern ∉ [.resolution, .handshake, .entry]) :
    entry.needs = none := by
  obtain ⟨conn, op⟩ := entry
  cases op with
  | call n c ok => cases c <;> first | rfl | simp [Op.concern, Call.concern] at h
  | entered f => simp [Op.concern] at h
  | _ => rfl

theorem Guarded.extend (h : Guarded log) {log' : List Entry}
    (hlog : Extends (fun entry => entry.op.concern ∈ C) log log')
    (hother : ∀ c ∈ C, c ∉ [.resolution, .handshake, .entry]) : Guarded log' := by
  apply Always.extend h hlog
  intro front entry _ hentry cell hneeds
  rw [Entry.needs_eq_none (hother _ hentry)] at hneeds
  cases hneeds

/-- What needs the connection of an id may come once that is built. -/
theorem Guarded.concat (h : Guarded log) {entry : Entry} (hneeds : entry.needs = some (.set id))
    (hbuilt : Built id log) : Guarded (log ++ [entry]) := by
  apply always_concat.mpr ⟨h, _⟩
  intro cell hcell
  rw [hneeds] at hcell
  cases hcell
  exact ⟨id, rfl, hbuilt⟩

/-- Nothing has been done too early, and the first queue pair that was to be
created, if any, was created. -/
def Unbroken (log : List Entry) : Prop := Guarded log ∧ (outcomes .queue_pair log).head? ≠ some false

/-- Something has been done too early, and the first queue pair was not created. -/
def Broken (log : List Entry) : Prop := ¬ Guarded log ∧ (outcomes .queue_pair log).head? = some false

theorem Broken.append (h : Broken log) : Broken (log ++ added) :=
  ⟨fun hguarded => h.1 (Always.of_append hguarded), outcomes_head_append h.2⟩

theorem Broken.of_isPrefix {log' : List Entry} (h : Broken log) (hgrows : log <+: log') : Broken log' := by
  obtain ⟨added, rfl⟩ := hgrows
  exact h.append

/-- Without a connection, the first thing that needs one is too early. -/
theorem broken_of_unbuilt {entry : Entry} {cell : Cell CmId} (hunbuilt : ∀ id, ¬ Built id log)
    (houtcome : (outcomes .queue_pair log).head? = some false) (hneeds : entry.needs = some cell) :
    Broken (log ++ [entry]) := by
  refine ⟨?_, outcomes_head_append houtcome⟩
  intro hguarded
  obtain ⟨id, -, hbuilt⟩ := (always_concat.mp hguarded).2 cell hneeds
  exact hunbuilt id hbuilt

/-- The members that must not be read before they were assigned. -/
def metaMembers : List Member := [.qp, .meta_recv_mr, .meta_send_mr, .meta_recv, .meta_send]

/-- The run does not stop at the assertion of `on_disconnect`, nor because a
member of the connection was read too early. -/
def Halt.Benign (halt : Halt) : Prop := halt ≠ .assertion_context ∧ ∀ member ∈ metaMembers, halt ≠ .indeterminate member

theorem benign_null_pointer : Halt.null_pointer.Benign := ⟨nofun, nofun⟩

theorem benign_blocked (site : Site) : (Halt.blocked site).Benign := ⟨nofun, nofun⟩

theorem BuildHalts.benign {halt : Halt} (h : BuildHalts id w halt w') : halt.Benign := by
  rcases h.cause with rfl | ⟨rfl, _⟩ | ⟨rfl, _⟩ | ⟨rfl, _⟩
  · exact benign_null_pointer
  · exact ⟨nofun, nofun⟩
  · exact ⟨nofun, by simp [metaMembers]⟩
  · exact ⟨nofun, by simp [metaMembers]⟩

/-- With everything assigned, the meta message is sent or a pointer was null. -/
theorem wp_send_meta_message {env : Env} (h : w.conn.conn_ctx.Assigned) :
    wp (send_meta_message env) (fun _ _ => True) (fun halt _ => halt.Benign) w := by
  obtain ⟨meta_send, hsend⟩ := h.meta_send
  obtain ⟨meta_send_mr, hmr⟩ := h.meta_send_mr
  obtain ⟨qp, hqp⟩ := h.qp
  unfold send_meta_message
  rw [wp_bind]
  apply wp_load_of_set hsend
  rw [wp_bind]
  apply wp_load_of_set hmr
  rw [wp_bind]
  refine wp_deref (fun mr _ => ?_) benign_null_pointer
  rw [wp_bind, wp_this, wp_bind, wp_get, wp_bind]
  refine wp_check (fun _ => ?_) (fun _ => ⟨nofun, nofun⟩)
  rw [wp_bind]
  apply wp_load_of_set hqp
  rw [wp_bind]
  refine wp_deref (fun qp _ => ?_) benign_null_pointer
  rw [wp_bind]
  exact wp_invoke_of fun _ => trivial

theorem wp_rdma_destroy_qp {env : Env} :
    wp (rdma_destroy_qp env id) (fun _ w' => w'.conn = w.conn) (fun halt _ => halt.Benign) w := by
  unfold rdma_destroy_qp
  rw [wp_bind, wp_get, wp_bind]
  refine wp_deref (fun qp _ => ?_) benign_null_pointer
  rw [wp_bind, wp_invoke, wp_modify_id]
  rfl

/-- With everything assigned, the connection is released or a pointer was null. -/
theorem wp_release_connection {env : Env} (h : w.conn.conn_ctx.Assigned) (hcm : w.conn.conn_ctx.cm_id = .set id) :
    wp (release_connection env) (fun _ _ => True) (fun halt _ => halt.Benign) w := by
  obtain ⟨meta_send, hsend⟩ := h.meta_send
  obtain ⟨meta_send_mr, hsend_mr⟩ := h.meta_send_mr
  obtain ⟨meta_recv, hrecv⟩ := h.meta_recv
  obtain ⟨meta_recv_mr, hrecv_mr⟩ := h.meta_recv_mr
  unfold release_connection
  rw [wp_bind]
  apply wp_load_of_set hcm
  apply wp_bind_of wp_rdma_destroy_qp _ (fun _ _ h => h)
  intro _ w₁ hconn
  rw [← hconn] at hsend hsend_mr hrecv hrecv_mr hcm
  rw [wp_bind]
  apply wp_load_of_set hsend_mr
  rw [wp_bind]
  refine wp_deref (fun _ _ => ?_) benign_null_pointer
  rw [wp_bind, wp_invoke, wp_bind]
  refine wp_load_of_set hrecv_mr ?_
  rw [wp_bind]
  refine wp_deref (fun _ _ => ?_) benign_null_pointer
  rw [wp_bind, wp_invoke, wp_bind]
  refine wp_load_of_set hsend ?_
  rw [wp_bind, wp_invoke, wp_bind]
  refine wp_load_of_set hrecv ?_
  rw [wp_bind, wp_invoke, wp_bind]
  refine wp_load_of_set hcm ?_
  rw [wp_bind, wp_invoke, wp_pure]
  trivial

end tc_rdma.rdma_com
