import TcRdma.RdmaCom.BuildConnection
import TcRdma.RdmaCom.Handlers
import TcRdma.RdmaCom.Setup

open tc_rdma.machine

namespace tc_rdma.rdma_com

variable {env : Env} {w w' : World} {events : Events}

/-- A server that waits in its loop takes up there when more events come, and
its fixed members are those it entered the loop with. -/
theorem RDMAServer.serve_resumes {site : Site} (hblocked : RDMAServer.serve env events w = .error (.blocked site) w') :
    (∀ more, RDMAServer.serve env (events ++ more) w = RDMAServer.serve env more w') ∧
      w'.conn.fixed = w.conn.fixed := by
  cases hloop : working_on_cm_event env .server_loop (RDMAServer.on_event env) events w with
  | ok _ w₁ =>
    have hclose := (bind_of_ok hloop _).symm.trans hblocked
    exact absurd ⟨_, rfl⟩ (wp_error (RDMAServer.close_leaves w₁) hclose).1
  | error halt w₁ =>
    cases (bind_of_error hloop _).symm.trans hblocked
    refine ⟨fun more => bind_apply_congr (working_on_cm_event_resumes RDMAServer.on_event_leaves hloop more) _, ?_⟩
    have hkeeps : wp (working_on_cm_event env .server_loop (RDMAServer.on_event env) events) (fun _ _ => True)
        (fun _ u => u.conn.fixed = w.conn.fixed) w := by
      refine wp_working_on_cm_event (I := fun u => u.conn.fixed = w.conn.fixed) (fun _ h => h) (fun _ _ => trivial)
        ?_ rfl
      intro u event _ hu
      apply wp_mono (handle_cm_event_leaves RDMAServer.on_event_leaves event u) _ _
      · intro ret u' hfoot
        exact ⟨fun _ => hfoot.fixed.trans hu, fun _ => trivial⟩
      · intro halt u' hfoot
        exact hfoot.2.fixed.trans hu
    have hsame := wp_error hkeeps hloop
    exact hsame

/-- After its first event the server works for the id of a connect request. -/
theorem RDMAServer.wp_first_event (env : Env) (event : RdmaCmEvent) (w : World) :
    wp (RDMAServer.first_event env event)
      (fun ret w' => ret = .SUCCESS → event.event = .RDMA_CM_EVENT_CONNECT_REQUEST ∧
        w'.conn.fixed = { w.conn.fixed with cm_id := .set event.id } ∧ w'.conn.conn_ctx.IsSet .context)
      (fun halt _ => ¬ halt.Waits) w := by
  apply wp_bind_of (obtain_event_leaves event w) _ (fun _ _ h => h.1)
  intro n u hobtained
  rw [wp_ite]
  refine ⟨fun _ => nofun, fun hrequest => ?_⟩
  have hrequest : event.event = .RDMA_CM_EVENT_CONNECT_REQUEST := not_not.mp hrequest
  rw [wp_bind, wp_modify_ctx]
  apply wp_bind_of (RDMAServer.on_connect_request_leaves event.id _) _ (fun _ _ h => h.1)
  intro ret u₁ hfoot
  apply wp_if_failure
  · exact fun _ => nofun
  intro _
  apply wp_bind_of (rdma_ack_cm_event_leaves n u₁) _ (fun _ _ h => h.1)
  intro _ u₂ hacked _
  refine ⟨hrequest, ?_, hacked.is_set _ (hfoot.is_set _ ⟨_, rfl⟩)⟩
  rw [hacked.fixed, hfoot.fixed]
  show { u.conn.fixed with cm_id := .set event.id } = _
  rw [hobtained.fixed]

/-- A server that waits in its loop has accepted the connect request that came
first, and it takes up there when more events come. -/
theorem RDMAServer.run_resumes (hblocked : RDMAServer.run env events w = .error (.blocked .server_loop) w') :
    (∃ event rest, events = some event :: rest ∧ event.event = .RDMA_CM_EVENT_CONNECT_REQUEST ∧
      w'.conn.conn_ctx.cm_id = .set event.id) ∧
    ∀ more, RDMAServer.run env (events ++ more) w = RDMAServer.serve env more w' := by
  cases hlisten : RDMAServer.listen env w with
  | error halt w₁ => exact (wp_error (RDMAServer.wp_listen env w) hlisten).elim
  | ok ret w₁ =>
    have hrun : ∀ events, RDMAServer.run env events w = _ := fun events => bind_of_ok hlisten _
    cases ret with
    | FAILURE => cases (hrun events).symm.trans hblocked
    | SUCCESS =>
      cases events with
      | nil => cases (hrun []).symm.trans hblocked
      | cons head rest =>
        cases head with
        | none => cases (hrun (none :: rest)).symm.trans hblocked
        | some event =>
          have hgo := (hrun (some event :: rest)).symm.trans hblocked
          cases hfirst : RDMAServer.first_event env event w₁ with
          | error halt w₂ =>
            cases (bind_of_error hfirst _).symm.trans hgo
            exact absurd ⟨_, rfl⟩ (wp_error (RDMAServer.wp_first_event env event w₁) hfirst)
          | ok ret w₂ =>
            have hgo := (bind_of_ok hfirst _).symm.trans hgo
            cases ret with
            | FAILURE => cases hgo
            | SUCCESS =>
              obtain ⟨hrequest, hfixed, -⟩ := wp_ok (RDMAServer.wp_first_event env event w₁) hfirst rfl
              obtain ⟨hresumes, hsame⟩ := RDMAServer.serve_resumes hgo
              refine ⟨⟨event, rest, rfl, hrequest, ?_⟩, fun more => ?_⟩
              · exact (congrArg Fixed.cm_id hsame).trans (congrArg Fixed.cm_id hfixed)
              · exact ((hrun _).trans (bind_of_ok hfirst _)).trans (hresumes more)

end tc_rdma.rdma_com
