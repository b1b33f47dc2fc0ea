import TcRdma.RdmaCom.ServerLoop

open tc_rdma.machine

namespace tc_rdma.rdma_com

variable {env : Env} {conn : ConnectionProc} {events : Events} {w : World} {id : CmId}

/-- A connect request with the id, when the server waits in its loop: the
server waits there again, and its connection is as before. -/
def RDMAServer.Survives (env : Env) (conn : ConnectionProc) (events : Events) (id : CmId) : Prop :=
  ∃ w w',
    RDMAServer.run env events (.start conn) = .error (.blocked .server_loop) w ∧
    RDMAServer.run env (events ++ [some ⟨.RDMA_CM_EVENT_CONNECT_REQUEST, id⟩]) (.start conn) =
      .error (.blocked .server_loop) w' ∧
    w'.conn = w.conn

/-- `build_connection` cannot succeed for an id other than the stored one. -/
theorem RDMAServer.wp_on_connect_request_other (hid : w.conn.conn_ctx.cm_id ≠ .set id) :
    wp (RDMAServer.on_connect_request env id) (fun ret _ => ret = .FAILURE) (fun halt _ => ¬ halt.Waits) w := by
  apply wp_bind_of (wp_and (wp_build_connection env id w) (build_connection_leaves id w)) _ (fun _ _ h => h.2.1)
  rintro ret w' ⟨⟨last, hreturns, -⟩, -⟩
  cases hreturns with
  | refused => rfl
  | no_queue_pair => rfl
  | built _ _ _ _ hcm => exact absurd hcm hid

/-- The event loop does not go on after such a request. -/
theorem RDMAServer.wp_serve_other (hid : w.conn.conn_ctx.cm_id ≠ .set id) :
    wp (RDMAServer.serve env [some ⟨.RDMA_CM_EVENT_CONNECT_REQUEST, id⟩]) (fun _ _ => True)
      (fun halt _ => ¬ halt.Waits) w := by
  unfold RDMAServer.serve working_on_cm_event
  rw [wp_bind, wp_bind]
  apply wp_handle_cm_event
  intro m ok
  apply wp_mono (RDMAServer.wp_on_connect_request_other _) _ (fun _ _ h => h)
  · exact hid
  · rintro ret w₁ rfl
    rw [if_pos rfl, wp_pure]
    exact wp_mono (RDMAServer.close_leaves w₁) (fun _ _ _ => trivial) (fun _ _ h => h.1)

/-- A server that waits in its event loop, with the connection it accepted
first, never gets through a connect request for another id, on whatever
device that is: its assertion fails, or its run ends. -/
theorem RDMAServer.other_request_not_survived
    (hlive : RDMAServer.run env events (.start conn) = .error (.blocked .server_loop) w)
    (hid : w.conn.conn_ctx.cm_id ≠ .set id) :
    ¬ RDMAServer.Survives env conn events id ∧
    ∀ site w', RDMAServer.run env (events ++ [some ⟨.RDMA_CM_EVENT_CONNECT_REQUEST, id⟩]) (.start conn) ≠
      .error (.blocked site) w' := by
  have hends : ∀ site w', RDMAServer.run env (events ++ [some ⟨.RDMA_CM_EVENT_CONNECT_REQUEST, id⟩]) (.start conn) ≠
      .error (.blocked site) w' := by
    intro site w' hwaits
    rw [(RDMAServer.run_resumes hlive).2] at hwaits
    exact wp_error (RDMAServer.wp_serve_other hid) hwaits ⟨site, rfl⟩
  refine ⟨?_, hends⟩
  rintro ⟨_, w', _, hwaits, _⟩
  exact hends _ w' hwaits

theorem RDMAServer.other_request_not_survived_one_device :
    ∃ w, RDMAServer.run workingEnv firstRequest (.start serverConn) = .error (.blocked .server_loop) w ∧
      ¬ RDMAServer.Survives workingEnv serverConn firstRequest 3 := by
  have hruns : (RDMAServer.run workingEnv firstRequest).halts (.start serverConn)
      (fun halt w => decide (halt = .blocked .server_loop ∧ w.conn.conn_ctx.cm_id = .set 2)) = true := by
    decide +kernel
  obtain ⟨halt, w, hrun, hdecided⟩ := Program.exists_of_halts hruns
  obtain ⟨rfl, hcm⟩ := of_decide_eq_true hdecided
  exact ⟨w, hrun, (RDMAServer.other_request_not_survived hrun (by rw [hcm]; decide)).1⟩

/-- The second client's request fails the assertion on the stored id, after
the protection domain and the queue of the first one have been replaced. -/
theorem RDMAServer.second_client_fatal :
    ∃ w w',
      RDMAServer.run workingEnv firstRequest (.start serverConn) = .error (.blocked .server_loop) w ∧
      RDMAServer.run workingEnv (firstRequest ++ [some ⟨.RDMA_CM_EVENT_CONNECT_REQUEST, 3⟩]) (.start serverConn) =
        .error .assertion_cm_id w' ∧
      w'.conn.conn_ctx.pd ≠ w.conn.conn_ctx.pd ∧ w'.conn.conn_ctx.cq ≠ w.conn.conn_ctx.cq ∧
      ¬ RDMAServer.Survives workingEnv serverConn firstRequest 3 := by
  have hfirst : (RDMAServer.run workingEnv firstRequest).halts (.start serverConn) (fun halt w =>
      decide (halt = .blocked .server_loop ∧ w.conn.conn_ctx.pd = .set (some 9) ∧
        w.conn.conn_ctx.cq = .set (some 11))) = true := by
    decide +kernel
  have hsecond : (RDMAServer.run workingEnv
      (firstRequest ++ [some ⟨.RDMA_CM_EVENT_CONNECT_REQUEST, 3⟩])).halts (.start serverConn) (fun halt w =>
        decide (halt = .assertion_cm_id ∧ w.conn.conn_ctx.pd ≠ .set (some 9) ∧
          w.conn.conn_ctx.cq ≠ .set (some 11))) = true := by
    decide +kernel
  obtain ⟨halt, w, hrun, hdecided⟩ := Program.exists_of_halts hfirst
  obtain ⟨rfl, hpd, hcq⟩ := of_decide_eq_true hdecided
  obtain ⟨halt', w', hrun', hdecided'⟩ := Program.exists_of_halts hsecond
  obtain ⟨rfl, hpd', hcq'⟩ := of_decide_eq_true hdecided'
  refine ⟨w, w', hrun, hrun', by rw [hpd]; exact hpd', by rw [hcq]; exact hcq', ?_⟩
  rintro ⟨_, _, _, hwaits, _⟩
  cases hrun'.symm.trans hwaits

end tc_rdma.rdma_com
