import TcRdma.RdmaCom.Interrupted

open tc_rdma.machine

namespace tc_rdma.rdma_com

variable {α : Type} {env : Env} {events rest : Events} {event : RdmaCmEvent} {id : CmId} {w w' : World} {b : Behaviour}

/-- No id is tied to an object, except this one. -/
def OnlyTied (id : CmId) (w : World) : Prop := ∀ other, other ≠ id → (w.ids other).context = none

section OnlyTied

theorem tied_load {member : Member} {cell : ConnContext → Cell α} : Preserves (OnlyTied id) (load member cell) :=
  fun _ h => wp_load_any (fun _ _ => h) h

theorem tied_deref (pointer : Ptr) : Preserves (OnlyTied id) (deref pointer) := fun _ h => wp_deref (fun _ _ => h) h

theorem tied_check (condition : Bool) (halt : Halt) : Preserves (OnlyTied id) (check condition halt) :=
  fun _ h => wp_check (fun _ => h) (fun _ => h)

theorem tied_this : Preserves (OnlyTied id) this := fun _ h => h

theorem tied_record (op : Op) : Preserves (OnlyTied id) (record op) := fun _ h => h

theorem tied_invoke (c : Call) : Preserves (OnlyTied id) (invoke env c) := fun _ h => wp_invoke_of fun _ => h

theorem tied_modify_ctx (f : ConnContext → ConnContext) : Preserves (OnlyTied id) (modify_ctx f) := fun _ h => h

theorem tied_set_connected (connected : Bool) : Preserves (OnlyTied id) (set_connected connected) := fun _ h => h

theorem tied_modify_id (f : CmIdState → CmIdState) : Preserves (OnlyTied id) (modify_id id f) := by
  intro w h other hne
  rw [w.modify_id_of_ne id f hne]
  exact h other hne

theorem build_context_tied : Preserves (OnlyTied id) (build_context env id) := by
  apply tied_load.bind
  intro context
  cases context with
  | some context => exact preserves_pure _
  | none => exact (tied_modify_ctx _).bind fun _ => preserves_pure _

theorem build_domain_tied : Preserves (OnlyTied id) (build_domain env) :=
  tied_load.bind fun _ => (tied_deref _).bind fun _ => (tied_invoke _).bind fun _ => (tied_modify_ctx _).bind fun _ =>
    (tied_invoke _).bind fun _ => tied_modify_ctx _

theorem build_completion_queue_tied : Preserves (OnlyTied id) (build_completion_queue env) :=
  tied_load.bind fun _ => (tied_deref _).bind fun _ => tied_load.bind fun _ => preserves_get.bind fun _ =>
    (tied_invoke _).bind fun _ => (tied_modify_ctx _).bind fun _ => (tied_deref _).bind fun _ =>
      (tied_invoke _).bind fun _ => preserves_pure _

theorem build_poller_tied : Preserves (OnlyTied id) (build_poller env) := by
  apply (tied_invoke _).bind
  intro thread
  cases thread with
  | some thread => exact tied_modify_ctx _
  | none => exact preserves_pure _

theorem build_queue_pair_tied : Preserves (OnlyTied id) (build_queue_pair env id) := by
  refine tied_load.bind fun _ => preserves_get.bind fun _ => tied_load.bind fun _ => ?_
  apply (tied_invoke _).bind
  intro qp
  cases qp with
  | some qp => exact (tied_modify_id _).bind fun _ => preserves_pure _
  | none => exact preserves_pure _

theorem attach_tied : Preserves (OnlyTied id) (attach id) :=
  tied_this.bind fun _ => (tied_modify_id _).bind fun _ => tied_load.bind fun _ => (tied_check _ _).bind fun _ =>
    preserves_get.bind fun _ => (tied_modify_ctx _).bind fun _ => tied_set_connected _

theorem register_message_memory_tied : Preserves (OnlyTied id) (register_message_memory env) := by
  refine (tied_invoke _).bind fun _ => (tied_modify_ctx _).bind fun _ => (tied_invoke _).bind fun _ => ?_
  refine (tied_modify_ctx _).bind fun _ => tied_load.bind fun _ => (tied_deref _).bind fun _ => ?_
  refine (tied_invoke _).bind fun _ => (tied_modify_ctx _).bind fun _ => ?_
  exact (tied_invoke _).bind fun _ => tied_modify_ctx _

theorem post_meta_recv_wrs_tied (n : Nat) : Preserves (OnlyTied id) (post_meta_recv_wrs env n) := by
  induction n with
  | zero => exact preserves_pure _
  | succ n ih =>
    apply Preserves.bind _ (fun _ => ih)
    exact tied_load.bind fun _ => tied_load.bind fun _ => (tied_deref _).bind fun _ => tied_this.bind fun _ =>
      tied_load.bind fun _ => (tied_deref _).bind fun _ => (tied_invoke _).bind fun _ => preserves_pure _

/-- Building the connection of an id ties no other id. -/
theorem build_connection_tied : Preserves (OnlyTied id) (build_connection env id) := by
  apply Preserves.bind _ (fun _ => (tied_record _).bind fun _ => preserves_pure _)
  apply build_context_tied.bind
  intro accepted
  cases accepted with
  | false => exact preserves_pure _
  | true =>
    refine build_domain_tied.bind fun _ => build_completion_queue_tied.bind fun _ => build_poller_tied.bind fun _ => ?_
    apply build_queue_pair_tied.bind
    intro created
    cases created with
    | false => exact preserves_pure _
    | true =>
      apply Preserves.bind _ (fun _ => preserves_pure _)
      exact attach_tied.bind fun _ => register_message_memory_tied.bind fun _ => preserves_get.bind fun _ =>
        post_meta_recv_wrs_tied _

theorem on_connection_tied : Preserves (OnlyTied id) (on_connection env) := by
  apply (tied_set_connected true).bind
  intro _
  apply Preserves.bind _ (fun _ => preserves_pure _)
  refine (tied_record _).bind fun _ => tied_load.bind fun _ => tied_load.bind fun _ => (tied_deref _).bind fun _ => ?_
  refine tied_this.bind fun _ => preserves_get.bind fun _ => (tied_check _ _).bind fun _ => ?_
  exact tied_load.bind fun _ => (tied_deref _).bind fun _ => (tied_invoke _).bind fun _ => preserves_pure _

end OnlyTied

/-- The server works for this id. -/
structure RDMAServer.Attends (id : CmId) (w : World) : Prop where
  cm_id : w.conn.conn_ctx.cm_id = .set id
  tied : OnlyTied id w

theorem RDMAServer.Attends.record (h : RDMAServer.Attends id w) (op : Op) : RDMAServer.Attends id (w.record op) :=
  ⟨h.cm_id, h.tied⟩

theorem RDMAServer.Attends.footprint {C : List Concern} (h : RDMAServer.Attends id w) (hfoot : Footprint C w w')
    (htied : OnlyTied id w') : RDMAServer.Attends id w' :=
  ⟨(congrArg Fixed.cm_id hfoot.fixed).trans h.cm_id, htied⟩

/-- The request of the stored id is accepted, or the behaviour is cut short. -/
theorem RDMAServer.wp_on_connect_request_interrupted {still : Behaviour} (h : RDMAServer.Attends id w)
    (howes : Owes b w (emit [.accept] still)) :
    wp (RDMAServer.on_connect_request env id)
      (fun ret w' => (ret = .SUCCESS → RDMAServer.Attends id w' ∧ Owes b w' still) ∧ (ret = .FAILURE → Cut b w'))
      (fun halt w' => ¬ halt.Waits ∧ Cut b w') w := by
  apply wp_bind_of (wp_and (build_connection_tied w h.tied) (build_connection_leaves id w)) _
    (fun _ _ h => ⟨h.2.1, howes.cut (actions_of_footprint h.2.2 (by simp))⟩)
  rintro ret w₁ ⟨htied, hfoot⟩
  have hattends := h.footprint hfoot htied
  have hsame : actions w₁.log = actions w.log := actions_of_footprint hfoot (by simp)
  refine wp_if_failure (fun _ => of_failure (howes.cut hsame)) (fun _ => ?_)
  have howes := howes.same hsame
  have hdone : ∀ cm_params ok, actions (w₁.record (.call w₁.log.length (.rdma_accept id cm_params) ok)).log =
      actions w₁.log ++ [.accept] := fun _ _ => actions_record w₁ _
  refine wp_invoke_isNone (of_failure ?_) (of_success ⟨hattends.record _, howes.next (hdone _ _)⟩)
  exact (howes.next (hdone _ _)).cut rfl

/-- The request of another id is never accepted: its connection is not built. -/
theorem RDMAServer.wp_on_connect_request_refused {stored : CmId} (hne : id ≠ stored)
    (h : RDMAServer.Attends stored w) :
    wp (RDMAServer.on_connect_request env id)
      (fun ret w' => ret = .FAILURE ∧ actions w'.log = actions w.log)
      (fun halt w' => ¬ halt.Waits ∧ actions w'.log = actions w.log) w := by
  apply wp_bind_of (wp_and (wp_build_connection env id w) (build_connection_silent id w)) _ (fun _ _ h => h.2)
  rintro ret w₁ ⟨⟨w', hreturns, -, -⟩, hsame⟩
  cases hreturns with
  | refused => exact ⟨rfl, hsame⟩
  | no_queue_pair => exact ⟨rfl, hsame⟩
  | built _ _ _ _ hcm =>
    rw [h.cm_id] at hcm
    cases hcm
    exact absurd rfl hne

/-- One event of the loop of the server, for any id. -/
theorem RDMAServer.wp_on_event_interrupted (h : RDMAServer.Attends id w)
    (howes : Owes b w (RDMAServer.protocol_loop env id (some event :: rest))) :
    wp (RDMAServer.on_event env event)
      (fun ret w' => (ret = .SUCCESS → RDMAServer.Attends id w' ∧ Owes b w' (RDMAServer.protocol_loop env id rest)) ∧
        (ret = .FAILURE → Cut b w'))
      (fun halt w' => ¬ halt.Waits ∧ Cut b w') w := by
  unfold RDMAServer.on_event
  have hcut := howes.cut rfl
  unfold RDMAServer.protocol_loop at howes
  split
  · rename_i hevent
    simp only [hevent] at howes
    by_cases hid : event.id = id
    · rw [if_pos hid] at howes
      rw [hid]
      exact RDMAServer.wp_on_connect_request_interrupted h howes
    · apply wp_mono (RDMAServer.wp_on_connect_request_refused hid h)
      · rintro _ w₁ ⟨rfl, hsame⟩
        exact of_failure (hcut.same hsame)
      · rintro halt w₁ ⟨hhalt, hsame⟩
        exact ⟨hhalt, hcut.same hsame⟩
  · rename_i hevent
    simp only [hevent] at howes
    apply wp_mono (wp_and (wp_and (on_connection_tied w h.tied) (on_connection_leaves w))
      (howes.wp_acts on_connection_acts)) _ (fun _ _ h => h.2)
    rintro ret w₁ ⟨⟨htied, hfoot⟩, hsuccess, hfailure⟩
    exact ⟨fun hret => ⟨h.footprint hfoot htied, hsuccess hret⟩, hfailure⟩
  · rename_i hevent
    simp only [hevent] at howes
    by_cases hid : event.id = id
    · rw [if_pos hid] at howes
      apply wp_mono howes.wp_on_disconnect _ (fun _ _ h => h)
      rintro _ w₁ ⟨rfl, hcut⟩
      exact of_failure hcut
    · have hcontext := h.tied event.id hid
      unfold RDMAServer.on_disconnect rdma_com.on_disconnect
      rw [wp_bind, wp_get, wp_bind]
      refine wp_check (fun htrue => by simp [hcontext] at htrue) (fun _ => ⟨nofun, hcut⟩)
  · exact of_failure hcut

theorem RDMAServer.close_silent : Silent (RDMAServer.close env) :=
  silent_load.bind fun _ => (silent_invoke rfl).bind fun _ => silent_load.bind fun _ => (silent_invoke rfl).bind fun _ =>
    silent_pure _

theorem RDMAServer.wp_serve_interrupted (h : RDMAServer.Attends id w)
    (howes : Owes b w (RDMAServer.protocol_loop env id events)) :
    wp (RDMAServer.serve env events) (fun ret w' => StopsAs b w' (.returned ret))
      (fun halt w' => StopsAs b w' (.halted halt)) w := by
  have hloop : wp (working_on_cm_event env .server_loop (RDMAServer.on_event env) events) (fun _ w' => Cut b w')
      (fun halt w' => StopsAs b w' (.halted halt)) w := by
    refine wp_working_on_cm_event_of (I := fun events w => RDMAServer.Attends id w ∧
      Owes b w (RDMAServer.protocol_loop env id events)) ?_ ?_ ?_ ⟨h, howes⟩
    · rintro w ⟨-, howes⟩
      exact (howes.over rfl).stops
    · rintro w rest ⟨-, howes⟩
      exact howes.cut (actions_record_none w rfl)
    · rintro w event rest ⟨h, howes⟩
      apply wp_handle_cm_event
      intro m ok
      exact wp_mono (RDMAServer.wp_on_event_interrupted ((h.record _).record _)
        (howes.same (actions_acked w event _ m ok))) (fun _ _ h => h) fun _ _ h => h.2.halted h.1
  apply wp_bind_of hloop _ (fun _ _ h => h)
  intro _ w₁ hcut
  exact wp_mono (RDMAServer.close_silent w₁) (fun ret _ hsame => (hcut.same hsame).returned ret)
    fun _ _ h => (hcut.same h.2).halted h.1

/-- The first event decides the id, or the behaviour is cut short. -/
theorem RDMAServer.wp_first_event_interrupted (hunused : ∀ other, (w.ids other).context = none)
    (howes : Owes b w (RDMAServer.protocol env (some event :: rest))) :
    wp (RDMAServer.first_event env event)
      (fun ret w' => (ret = .SUCCESS → RDMAServer.Attends event.id w' ∧
          Owes b w' (RDMAServer.protocol_loop env event.id rest)) ∧ (ret = .FAILURE → Cut b w'))
      (fun halt w' => ¬ halt.Waits ∧ Cut b w') w := by
  unfold RDMAServer.first_event
  rw [wp_bind, wp_obtain_event, wp_ite]
  refine ⟨fun _ => ?_, fun hrequest => ?_⟩
  · rw [wp_bind, wp_record]
    apply of_failure
    apply howes.cut
    rw [actions_record_none _ rfl, actions_record_none _ rfl]
  · rw [RDMAServer.protocol, if_pos (not_not.mp hrequest)] at howes
    rw [wp_bind, wp_modify_ctx]
    generalize hstored : (w.record (.obtained w.log.length event)).modify_ctx (fun ctx =>
      { ctx with cm_id := .set event.id, context := .set (some (env.verbs event.id)) }) = u
    have hattends : RDMAServer.Attends event.id u := by
      subst hstored
      exact ⟨rfl, fun other _ => hunused other⟩
    have hsame : actions u.log = actions w.log := by
      rw [← hstored, World.modify_ctx_log, actions_record_none _ rfl]
    apply wp_bind_of (RDMAServer.wp_on_connect_request_interrupted hattends (howes.same hsame)) _ (fun _ _ h => h)
    rintro ret w₁ ⟨hsuccess, hfailure⟩
    refine wp_if_failure (fun hret => of_failure (hfailure hret)) (fun hret => ?_)
    obtain ⟨hattends, howes⟩ := hsuccess hret
    rw [wp_bind]
    apply wp_rdma_ack_cm_event
    intro m ok
    exact of_success ⟨hattends.record _, howes.same (actions_record_none _ rfl)⟩

theorem RDMAServer.wp_run_interrupted (conn : ConnectionProc) (hb : b = RDMAServer.protocol env events) :
    wp (RDMAServer.run env events) (fun ret w' => StopsAs b w' (.returned ret))
      (fun halt w' => StopsAs b w' (.halted halt)) (.start conn) := by
  unfold RDMAServer.run
  apply wp_bind_of (RDMAServer.wp_listen env (.start conn)) _ (fun _ _ h => h.elim)
  rintro ret w ⟨hsetup, -⟩
  have hnone : actions w.log = [] := actions_of_extends hsetup.log (by simp)
  have howes : Owes b w (RDMAServer.protocol env events) := by rw [Owes, hnone, emit_nil, hb]
  refine wp_if_failure (fun _ => (howes.cut rfl).returned _) (fun _ => ?_)
  cases events with
  | nil => exact (howes.over rfl).stops
  | cons head rest =>
    cases head with
    | none =>
      apply Cut.returned
      apply howes.cut
      rw [actions_record_none _ rfl, actions_record_none _ rfl]
    | some event =>
      have hunused : ∀ other, (w.ids other).context = none := fun other => by rw [hsetup.ids]; rfl
      apply wp_bind_of (RDMAServer.wp_first_event_interrupted hunused howes) _ (fun _ _ h => h.2.halted h.1)
      rintro ret w₁ ⟨hsuccess, hfailure⟩
      refine wp_if_failure (fun hret => (hfailure hret).returned _) (fun hret => ?_)
      obtain ⟨hattends, howes⟩ := hsuccess hret
      exact RDMAServer.wp_serve_interrupted hattends howes

/-- The side whose `run` is called. -/
def ConnectionProc.side (conn : ConnectionProc) : Side := if conn.is_server then .server else .client

theorem conn_run_eq (env : Env) (events : Events) (conn : ConnectionProc) :
    conn_run env events conn =
      match conn.side.run env events (.start conn) with
      | .ok ret w => (w.log, .returned ret)
      | .error halt w => (w.log, .halted halt) := rfl

/-- The automaton of a side. A server for which every call succeeds does just
this, and so does a client that is told of no other id than its own. -/
def Side.protocol (env : Env) (side : Side) (events : Events) : Behaviour :=
  match side with
  | .client => RDMAClient.protocol NUM_OF_RETRIES events
  | .server => RDMAServer.protocol env events

theorem Side.wp_run_interrupted (env : Env) (events : Events) (side : Side) (conn : ConnectionProc) :
    wp (side.run env events) (fun ret w => StopsAs (side.protocol env events) w (.returned ret))
      (fun halt w => StopsAs (side.protocol env events) w (.halted halt)) (.start conn) := by
  cases side with
  | client => exact RDMAClient.wp_run_interrupted conn rfl
  | server => exact RDMAServer.wp_run_interrupted conn rfl

/-- Whatever calls fail, on any events for any ids, a side never departs from its
automaton: it stops early, for good, or it does just the same. It waits for an
event only where the automaton waits, with all done that is done by then. -/
theorem behaviour_within_protocol (env : Env) (events : Events) (conn : ConnectionProc) :
    Behaviour.Within (behaviour env events conn) (conn.side.protocol env events) := by
  have hrun := Side.wp_run_interrupted env events conn.side conn
  unfold behaviour
  rw [conn_run_eq]
  cases hends : conn.side.run env events (.start conn) with
  | ok ret w =>
    have hstops := wp_ok hrun hends
    exact hstops
  | error halt w =>
    have hstops := wp_error hrun hends
    exact hstops

/-- The same host on a day on which no call fails. -/
def Env.working (env : Env) : Env := { env with succeeds := fun _ _ => true }

theorem Env.working_works (env : Env) : env.working.Works := fun _ _ => rfl

/-- The automaton of the server reads of the host only which id is on which device. -/
theorem RDMAServer.protocol_loop_working (env : Env) (id : CmId) (events : Events) :
    RDMAServer.protocol_loop env.working id events = RDMAServer.protocol_loop env id events := by
  induction events with
  | nil => rfl
  | cons head rest ih =>
    cases head with
    | none => rfl
    | some event =>
      simp only [RDMAServer.protocol_loop, ih]
      rfl

theorem RDMAServer.protocol_working (env : Env) (events : Events) :
    RDMAServer.protocol env.working events = RDMAServer.protocol env events := by
  unfold RDMAServer.protocol
  simp only [RDMAServer.protocol_loop_working]

/-- The side that the parameters name is the one whose `run` is called. -/
theorem ConnectionProc.is_server_eq (conn : ConnectionProc) :
    conn.is_server = decide (conn.side = .server) := by
  cases hserver : conn.is_server <;> simp [ConnectionProc.side, hserver]

theorem ConnectionProc.machine_of_client {conn : ConnectionProc} (hside : conn.side = .client) :
    conn.conn_params.env.machine = .CLIENT := by
  cases hmachine : conn.conn_params.env.machine with
  | CLIENT => rfl
  | SERVER => simp [ConnectionProc.side, ConnectionProc.is_server, hmachine] at hside

/-- On a day on which no call fails a side follows its automaton. -/
theorem behaviour_working {conn : ConnectionProc} (hown : conn.side = .client → RDMAClient.Own env events) :
    behaviour env.working events conn = conn.side.protocol env events := by
  cases hside : conn.side with
  | client =>
    exact behaviour_eq_of_wp .client (by rw [conn.is_server_eq, hside])
      (RDMAClient.wp_run_works env.working_works (ConnectionProc.machine_of_client hside) (hown hside) rfl)
  | server =>
    exact behaviour_eq_of_wp .server (by rw [conn.is_server_eq, hside])
      (RDMAServer.wp_run_works env.working_works conn (RDMAServer.protocol_working env events).symm)

/-- Whatever calls fail, on events for any ids at the server and for its own id
at the client, a side never departs from what it does on the same events if no
call fails: it stops early, for good, or it does just the same. It waits for an
event only where it waits then, with all done that is done by then. -/
theorem behaviour_within {conn : ConnectionProc} (hown : conn.side = .client → RDMAClient.Own env events) :
    Behaviour.Within (behaviour env events conn) (behaviour env.working events conn) := by
  rw [behaviour_working hown]
  exact behaviour_within_protocol env events conn

/-- Without a queue pair the client goes on, for the result of the build is not
looked at, until it sends its message; the server gives up at the request. -/
theorem behaviour_within_noQueuePair :
    (behaviour noQueuePairEnv retrying clientConn).1 = [.resolve_addr, .resolve_addr, .resolve_route, .connect] ∧
    (behaviour workingEnv retrying clientConn).1 =
      [.resolve_addr, .resolve_addr, .resolve_route, .connect, .send, .destroy_qp] ∧
    Behaviour.Within (behaviour noQueuePairEnv retrying clientConn) (behaviour workingEnv retrying clientConn) ∧
    (behaviour noQueuePairEnv wholeConnection serverConn).1 = [] ∧
    (behaviour workingEnv wholeConnection serverConn).1 = [.accept, .send, .destroy_qp] ∧
    Behaviour.Within (behaviour noQueuePairEnv wholeConnection serverConn)
      (behaviour workingEnv wholeConnection serverConn) := by
  refine ⟨by decide +kernel, by decide +kernel, ?_, by decide +kernel, by decide +kernel, ?_⟩
  · have hown : RDMAClient.Own noQueuePairEnv retrying := by
      simp [RDMAClient.Own, retrying, noQueuePairEnv, workingEnv]
    exact behaviour_within fun _ => hown
  · have hserver : serverConn.side = .client → RDMAClient.Own noQueuePairEnv wholeConnection := fun hside => by
      cases hside
    exact behaviour_within hserver

end tc_rdma.rdma_com
