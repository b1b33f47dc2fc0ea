import TcRdma.RdmaCom.Working

open tc_rdma.machine

namespace tc_rdma.rdma_com

/-- What a server for which every call succeeds does on the events of its
event loop, when it works for the id. -/
def RDMAServer.protocol_loop (env : Env) (id : CmId) : Events → Behaviour
  | [] => ([], .halted (.blocked .server_loop))
  | none :: _ => ([], .returned .SUCCESS)
  | some event :: rest =>
    match event.event with
    | .RDMA_CM_EVENT_CONNECT_REQUEST =>
      -- another id fails the assertion when it comes on the same device
      if event.id = id then emit [.accept] (RDMAServer.protocol_loop env id rest)
      else if env.verbs event.id = env.verbs id then ([], .halted .assertion_cm_id)
      else ([], .returned .SUCCESS)
    | .RDMA_CM_EVENT_ESTABLISHED => emit [.send] (RDMAServer.protocol_loop env id rest)
    | .RDMA_CM_EVENT_DISCONNECTED =>
      if event.id = id then ([.destroy_qp], .returned .SUCCESS) else ([], .halted .assertion_context)
    | _ => ([], .returned .SUCCESS)

/-- The same from the start: the first event decides the id. -/
def RDMAServer.protocol (env : Env) : Events → Behaviour
  | [] => ([], .halted (.blocked .server_first))
  | none :: _ => ([], .returned .FAILURE)
  | some event :: rest =>
    if event.event = .RDMA_CM_EVENT_CONNECT_REQUEST then
      emit [.accept] (RDMAServer.protocol_loop env event.id rest)
    else ([], .returned .FAILURE)

variable {env : Env} {events rest : Events} {event : RdmaCmEvent} {id : CmId} {C : List Concern} {w w' : World}
  {b : Behaviour}

/-- A server whose channel and listening id exist. -/
structure RDMAServer.Created (env : Env) (w : World) : Prop where
  cm_id_control : w.conn.conn_ctx.cm_id_control = .set env.new_id
  cm_channel : w.conn.conn_ctx.IsSet .cm_channel

theorem RDMAServer.Created.footprint (h : RDMAServer.Created env w) (hfoot : Footprint C w w') :
    RDMAServer.Created env w' where
  cm_id_control := (congrArg Fixed.cm_id_control hfoot.fixed).trans h.cm_id_control
  cm_channel := hfoot.is_set _ h.cm_channel

theorem RDMAServer.Created.record (h : RDMAServer.Created env w) (op : Op) :
    RDMAServer.Created env (w.record op) :=
  ⟨h.cm_id_control, h.cm_channel⟩

theorem RDMAServer.Created.assign (h : RDMAServer.Created env w) (id : Cell CmId) (context : Cell (Option Device)) :
    RDMAServer.Created env (w.modify_ctx fun ctx => { ctx with cm_id := id, context := context }) :=
  ⟨h.cm_id_control, h.cm_channel⟩

/-- A server that works for the id, and for no other. -/
structure RDMAServer.Live (env : Env) (id : CmId) (w : World) : Prop extends RDMAServer.Created env w where
  ready : ReadyFor env id w
  others : ∀ other, other ≠ id → (w.ids other).context = none

theorem RDMAServer.Live.record (h : RDMAServer.Live env id w) (op : Op) : RDMAServer.Live env id (w.record op) :=
  { toCreated := h.toCreated.record op, ready := { h.ready with }, others := h.others }

/-- The request of the stored id is accepted, the first time and every time
after. -/
theorem RDMAServer.wp_on_connect_request_works (hworks : env.Works) (h : RDMAServer.Created env w)
    (hcontext : w.conn.conn_ctx.context = .set (some (env.verbs id))) (hcm : w.conn.conn_ctx.cm_id = .set id)
    (hothers : ∀ other, other ≠ id → (w.ids other).context = none) :
    wp (RDMAServer.on_connect_request env id)
      (fun ret w' => ret = .SUCCESS ∧ RDMAServer.Live env id w' ∧ actions w'.log = actions w.log ++ [.accept])
      (fun _ _ => False) w := by
  apply wp_bind_of (wp_and (wp_build_connection_works hworks hcontext hcm) (build_connection_leaves _ w)) _
    (fun _ _ h => h.1)
  rintro ret w₁ ⟨⟨rfl, hready, hids⟩, hfoot⟩
  rw [if_neg (by simp)]
  have hlive : RDMAServer.Live env id w₁ :=
    { toCreated := h.footprint hfoot
      ready := hready
      others := fun other hne => by rw [hids other hne]; exact hothers other hne }
  refine wp_invoke_isNone_works hworks ⟨rfl, hlive.record _, ?_⟩
  rw [actions_record, actions_of_footprint hfoot (by simp)]
  rfl

/-- The request of another id is refused, or it stops the server. -/
theorem RDMAServer.wp_on_connect_request_foreign (hworks : env.Works) {stored : CmId} (hne : id ≠ stored)
    (h : RDMAServer.Live env stored w) :
    wp (RDMAServer.on_connect_request env id)
      (fun ret w' => ret = .FAILURE ∧ env.verbs id ≠ env.verbs stored ∧ RDMAServer.Created env w' ∧
        actions w'.log = actions w.log)
      (fun halt w' => halt = .assertion_cm_id ∧ env.verbs id = env.verbs stored ∧
        actions w'.log = actions w.log) w := by
  apply wp_bind_of (wp_and (wp_build_connection_other hworks hne h.ready.context h.ready.cm_id)
    (build_connection_leaves _ w))
  · rintro ret w₁ ⟨⟨rfl, hdevice⟩, hfoot⟩
    exact ⟨rfl, hdevice, h.toCreated.footprint hfoot, actions_of_footprint hfoot (by simp)⟩
  · rintro halt w₁ ⟨⟨rfl, hdevice⟩, -, hfoot⟩
    exact ⟨rfl, hdevice, actions_of_footprint hfoot (by simp)⟩

/-- One event of the loop: it goes on, or it ends as the behaviour says. -/
theorem RDMAServer.wp_on_event_works (hworks : env.Works) (h : RDMAServer.Live env id w)
    (howes : Owes b w (RDMAServer.protocol_loop env id (some event :: rest))) :
    wp (RDMAServer.on_event env event)
      (fun ret w' => (ret = .SUCCESS → RDMAServer.Live env id w' ∧ Owes b w' (RDMAServer.protocol_loop env id rest)) ∧
        (ret = .FAILURE → RDMAServer.Created env w' ∧ EndsAs b w' (.returned .SUCCESS)))
      (fun halt w' => EndsAs b w' (.halted halt)) w := by
  unfold RDMAServer.on_event
  unfold RDMAServer.protocol_loop at howes
  split
  · rename_i hevent
    simp only [hevent] at howes
    by_cases hid : event.id = id
    · rw [if_pos hid] at howes
      rw [hid]
      apply wp_mono (RDMAServer.wp_on_connect_request_works hworks h.toCreated h.ready.context h.ready.cm_id h.others)
        _ (fun _ _ h => h.elim)
      rintro _ w₁ ⟨rfl, hlive, hdone⟩
      exact of_success ⟨hlive, howes.next hdone⟩
    · rw [if_neg hid] at howes
      apply wp_mono (RDMAServer.wp_on_connect_request_foreign hworks hid h)
      · rintro _ w₁ ⟨rfl, hdevice, hcreated, hdone⟩
        rw [if_neg hdevice] at howes
        exact of_failure ⟨hcreated, howes.over hdone⟩
      · rintro _ w₁ ⟨rfl, hdevice, hdone⟩
        rw [if_pos hdevice] at howes
        exact howes.over hdone
  · rename_i hevent
    simp only [hevent] at howes
    apply wp_mono (wp_and (wp_on_connection_works hworks h.ready) (on_connection_leaves w)) _ (fun _ _ h => h.1.elim)
    rintro _ w₁ ⟨⟨rfl, hready, hids, hdone⟩, hfoot⟩
    have hothers : ∀ other, other ≠ id → (w₁.ids other).context = none := by
      rw [hids]
      exact h.others
    exact of_success ⟨{ toCreated := h.toCreated.footprint hfoot, ready := hready, others := hothers },
      howes.next hdone⟩
  · rename_i hevent
    simp only [hevent] at howes
    by_cases hid : event.id = id
    · rw [if_pos hid] at howes
      rw [hid]
      apply wp_mono (wp_and (wp_on_disconnect_works hworks h.ready) (on_disconnect_leaves _ w)) _
        (fun _ _ h => h.1.elim)
      rintro _ w₁ ⟨⟨rfl, hdone⟩, hfoot⟩
      exact of_failure ⟨h.toCreated.footprint hfoot, howes.ends hdone⟩
    · rw [if_neg hid] at howes
      have hcontext := h.others event.id hid
      unfold RDMAServer.on_disconnect rdma_com.on_disconnect
      rw [wp_bind, wp_get, wp_bind]
      refine wp_check (fun htrue => by simp [hcontext] at htrue) (fun _ => ?_)
      exact howes.over rfl
  · rename_i hrequest hestablished hdisconnected
    have hover : Owes b w ([], .returned .SUCCESS) := by
      split at howes
      · exact absurd ‹_› hrequest
      · exact absurd ‹_› hestablished
      · exact absurd ‹_› hdisconnected
      · exact howes
    exact of_failure ⟨h.toCreated, hover.over rfl⟩

theorem RDMAServer.wp_working_works (hworks : env.Works) (h : RDMAServer.Live env id w)
    (howes : Owes b w (RDMAServer.protocol_loop env id events)) :
    wp (working_on_cm_event env .server_loop (RDMAServer.on_event env) events)
      (fun _ w' => RDMAServer.Created env w' ∧ EndsAs b w' (.returned .SUCCESS))
      (fun halt w' => EndsAs b w' (.halted halt)) w := by
  refine wp_working_on_cm_event_of (I := fun events w => RDMAServer.Live env id w ∧
    Owes b w (RDMAServer.protocol_loop env id events)) ?_ ?_ ?_ ⟨h, howes⟩
  · rintro w ⟨-, howes⟩
    exact howes.over rfl
  · rintro w rest ⟨h, howes⟩
    exact ⟨h.toCreated.record _, howes.over (actions_record_none w rfl)⟩
  · rintro w event rest ⟨h, howes⟩
    apply wp_handle_cm_event
    intro m ok
    exact RDMAServer.wp_on_event_works hworks ((h.record _).record _) (howes.same (actions_acked w event _ m ok))

theorem RDMAServer.wp_serve_works (hworks : env.Works) (h : RDMAServer.Live env id w)
    (howes : Owes b w (RDMAServer.protocol_loop env id events)) :
    wp (RDMAServer.serve env events) (fun ret w' => EndsAs b w' (.returned ret))
      (fun halt w' => EndsAs b w' (.halted halt)) w := by
  apply wp_bind_of (RDMAServer.wp_working_works hworks h howes) _ (fun _ _ h => h)
  rintro _ w₁ ⟨hcreated, hends⟩
  obtain ⟨cm_channel, hchannel⟩ := hcreated.cm_channel
  unfold RDMAServer.close
  rw [wp_bind]
  apply wp_load_of_set hcreated.cm_id_control
  rw [wp_bind]
  apply wp_invoke_works hworks
  rw [wp_bind]
  refine wp_load_of_set hchannel ?_
  rw [wp_bind]
  apply wp_invoke_works hworks
  rw [wp_pure, EndsAs, actions_record_none _ rfl, actions_record_none _ rfl]
  exact hends

/-- The first event decides the id that the server works for. -/
theorem RDMAServer.wp_first_event_works (hworks : env.Works) (h : RDMAServer.Created env w)
    (hunused : ∀ other, (w.ids other).context = none)
    (howes : Owes b w (RDMAServer.protocol env (some event :: rest))) :
    wp (RDMAServer.first_event env event)
      (fun ret w' => (ret = .SUCCESS → RDMAServer.Live env event.id w' ∧
          Owes b w' (RDMAServer.protocol_loop env event.id rest)) ∧
        (ret = .FAILURE → EndsAs b w' (.returned .FAILURE)))
      (fun _ _ => False) w := by
  unfold RDMAServer.first_event
  rw [wp_bind, wp_obtain_event, wp_ite]
  refine ⟨fun hother => ?_, fun hrequest => ?_⟩
  · rw [RDMAServer.protocol, if_neg hother] at howes
    rw [wp_bind, wp_record]
    apply of_failure
    apply howes.over
    rw [actions_record_none _ rfl, actions_record_none _ rfl]
  · rw [RDMAServer.protocol, if_pos (not_not.mp hrequest)] at howes
    rw [wp_bind, wp_modify_ctx]
    apply wp_bind_of (RDMAServer.wp_on_connect_request_works hworks ((h.record _).assign _ _) rfl rfl
      fun other _ => hunused other) _ (fun _ _ h => h.elim)
    rintro _ w₁ ⟨rfl, hlive, hdone⟩
    rw [if_neg (by simp), wp_bind]
    apply wp_rdma_ack_cm_event
    intro m ok
    apply of_success
    refine ⟨hlive.record _, howes.next ?_⟩
    rw [actions_record_none _ rfl, hdone, World.modify_ctx_log, actions_record_none _ rfl]

theorem RDMAServer.machine_of_new {this : UInt64} {params : EnvBasicParam} {conn : ConnectionProc}
    (hnew : RDMAServer.new this params = some conn) : conn.conn_params.env.machine = .SERVER := by
  unfold RDMAServer.new at hnew
  split at hnew
  · cases hnew
    assumption
  · cases hnew

theorem RDMAServer.wp_run_works (hworks : env.Works) (conn : ConnectionProc)
    (hb : b = RDMAServer.protocol env events) :
    wp (RDMAServer.run env events) (fun ret w' => EndsAs b w' (.returned ret))
      (fun halt w' => EndsAs b w' (.halted halt)) (.start conn) := by
  unfold RDMAServer.run
  apply wp_bind_of (wp_and (RDMAServer.wp_listen_works hworks) (RDMAServer.wp_listen env (.start conn))) _
    (fun _ _ h => h.1.elim)
  rintro _ w ⟨rfl, hsetup, hset⟩
  obtain ⟨hcontrol, hchannel⟩ := hset rfl
  have hnone : actions w.log = [] := actions_of_extends hsetup.log (by simp)
  have howes : Owes b w (RDMAServer.protocol env events) := by rw [Owes, hnone, emit_nil, hb]
  rw [if_neg (by simp)]
  cases events with
  | nil => exact howes.over rfl
  | cons head rest =>
    cases head with
    | none =>
      apply howes.over
      rw [actions_record_none _ rfl, actions_record_none _ rfl]
    | some event =>
      have hunused : ∀ other, (w.ids other).context = none := fun other => by rw [hsetup.ids]; rfl
      apply wp_bind_of (RDMAServer.wp_first_event_works hworks ⟨hcontrol, hchannel⟩ hunused howes) _
        (fun _ _ h => h.elim)
      rintro ret w₁ ⟨hsuccess, hfailure⟩
      apply wp_if_failure hfailure
      intro hret
      obtain ⟨hlive, howes⟩ := hsuccess hret
      exact RDMAServer.wp_serve_works hworks hlive howes

/-- The server does what its protocol says, on every sequence of events, when
every call succeeds. -/
theorem RDMAServer.server_behaviour_eq_protocol {this : UInt64} {params : EnvBasicParam} {conn : ConnectionProc}
    (hworks : env.Works) (hnew : RDMAServer.new this params = some conn) :
    behaviour env events conn = RDMAServer.protocol env events := by
  have hmachine := RDMAServer.machine_of_new hnew
  exact behaviour_eq_of_wp .server (by simp [ConnectionProc.is_server, hmachine])
    (RDMAServer.wp_run_works hworks conn rfl)

/-- A second client asks on the same device, which stops the server. -/
theorem RDMAServer.server_behaviour_eq_protocol_second :
    behaviour workingEnv [some ⟨.RDMA_CM_EVENT_CONNECT_REQUEST, 2⟩, some ⟨.RDMA_CM_EVENT_ESTABLISHED, 2⟩,
      some ⟨.RDMA_CM_EVENT_CONNECT_REQUEST, 3⟩] serverConn = ([.accept, .send], .halted .assertion_cm_id) := by
  have hnew : RDMAServer.new 64 serverConn.conn_params.env = some serverConn := rfl
  rw [RDMAServer.server_behaviour_eq_protocol workingEnv_works hnew]
  rfl

end tc_rdma.rdma_com
