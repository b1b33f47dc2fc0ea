import TcRdma.RdmaCom.Working

open tc_rdma.machine

namespace tc_rdma.rdma_com

/-- What a client for which every call succeeds does on the events of its
event loop. -/
def RDMAClient.protocol_loop : Events → Behaviour
  | [] => ([], .halted (.blocked .client_loop))
  | none :: _ => ([], .returned .SUCCESS)
  | some event :: rest =>
    match event.event with
    | .RDMA_CM_EVENT_ADDR_RESOLVED => emit [.resolve_route] (RDMAClient.protocol_loop rest)
    | .RDMA_CM_EVENT_ROUTE_RESOLVED => emit [.connect] (RDMAClient.protocol_loop rest)
    | .RDMA_CM_EVENT_ESTABLISHED => emit [.send] (RDMAClient.protocol_loop rest)
    | .RDMA_CM_EVENT_DISCONNECTED => ([.destroy_qp], .returned .SUCCESS)
    | _ => ([], .returned .SUCCESS)

/-- The same while it resolves the route, with so many retries left. -/
def RDMAClient.protocol_route : Nat → Events → Behaviour
  | 0, _ => ([], .returned .FAILURE)
  | _ + 1, [] => ([], .halted (.blocked .client_route))
  | _ + 1, none :: _ => ([], .returned .FAILURE)
  | retries + 1, some event :: rest =>
    match event.event with
    | .RDMA_CM_EVENT_ROUTE_ERROR => RDMAClient.protocol_route retries rest
    | .RDMA_CM_EVENT_ROUTE_RESOLVED => emit [.connect] (RDMAClient.protocol_loop rest)
    | _ => ([], .returned .FAILURE)

/-- The same while it resolves the address. -/
def RDMAClient.protocol : Nat → Events → Behaviour
  | 0, _ => ([], .returned .FAILURE)
  | _ + 1, [] => ([.resolve_addr], .halted (.blocked .client_addr))
  | _ + 1, none :: _ => ([.resolve_addr], .returned .FAILURE)
  | retries + 1, some event :: rest =>
    match event.event with
    | .RDMA_CM_EVENT_ADDR_ERROR => emit [.resolve_addr] (RDMAClient.protocol retries rest)
    | .RDMA_CM_EVENT_ADDR_RESOLVED =>
      emit [.resolve_addr, .resolve_route] (RDMAClient.protocol_route (retries + 1) rest)
    | _ => ([.resolve_addr], .returned .FAILURE)

variable {env : Env} {events rest : Events} {event : RdmaCmEvent} {C : List Concern} {w w' : World} {b : Behaviour}

section Equations

variable {retries : Nat}

theorem RDMAClient.protocol_route_error (h : event.event = .RDMA_CM_EVENT_ROUTE_ERROR) :
    RDMAClient.protocol_route (retries + 1) (some event :: rest) = RDMAClient.protocol_route retries rest := by
  rw [RDMAClient.protocol_route]
  simp only [h]

theorem RDMAClient.protocol_route_resolved (h : event.event = .RDMA_CM_EVENT_ROUTE_RESOLVED) :
    RDMAClient.protocol_route (retries + 1) (some event :: rest) = emit [.connect] (RDMAClient.protocol_loop rest) := by
  rw [RDMAClient.protocol_route]
  simp only [h]

theorem RDMAClient.protocol_route_other (herror : event.event ≠ .RDMA_CM_EVENT_ROUTE_ERROR)
    (hresolved : event.event ≠ .RDMA_CM_EVENT_ROUTE_RESOLVED) :
    RDMAClient.protocol_route (retries + 1) (some event :: rest) = ([], .returned .FAILURE) := by
  rw [RDMAClient.protocol_route]
  split
  · exact absurd ‹_› herror
  · exact absurd ‹_› hresolved
  · rfl

theorem RDMAClient.protocol_error (h : event.event = .RDMA_CM_EVENT_ADDR_ERROR) :
    RDMAClient.protocol (retries + 1) (some event :: rest) =
      emit [.resolve_addr] (RDMAClient.protocol retries rest) := by
  rw [RDMAClient.protocol]
  simp only [h]

theorem RDMAClient.protocol_resolved (h : event.event = .RDMA_CM_EVENT_ADDR_RESOLVED) :
    RDMAClient.protocol (retries + 1) (some event :: rest) =
      emit [.resolve_addr, .resolve_route] (RDMAClient.protocol_route (retries + 1) rest) := by
  rw [RDMAClient.protocol]
  simp only [h]

theorem RDMAClient.protocol_other (herror : event.event ≠ .RDMA_CM_EVENT_ADDR_ERROR)
    (hresolved : event.event ≠ .RDMA_CM_EVENT_ADDR_RESOLVED) :
    RDMAClient.protocol (retries + 1) (some event :: rest) = ([.resolve_addr], .returned .FAILURE) := by
  rw [RDMAClient.protocol]
  split
  · exact absurd ‹_› herror
  · exact absurd ‹_› hresolved
  · rfl

theorem RDMAClient.protocol_loop_established (h : event.event = .RDMA_CM_EVENT_ESTABLISHED) :
    RDMAClient.protocol_loop (some event :: rest) = emit [.send] (RDMAClient.protocol_loop rest) := by
  conv_lhs => unfold RDMAClient.protocol_loop
  simp only [h]

end Equations

/-- A client whose channel and id exist. -/
structure RDMAClient.Created (env : Env) (w : World) : Prop where
  machine : w.conn.conn_params.env.machine = .CLIENT
  cm_id : w.conn.conn_ctx.cm_id = .set env.new_id
  cm_channel : w.conn.conn_ctx.IsSet .cm_channel

theorem RDMAClient.Created.footprint (h : RDMAClient.Created env w) (hfoot : Footprint C w w') :
    RDMAClient.Created env w' where
  machine := by
    have hsame : w'.conn.conn_params.env = w.conn.conn_params.env := congrArg Fixed.env hfoot.fixed
    rw [hsame]
    exact h.machine
  cm_id := (congrArg Fixed.cm_id hfoot.fixed).trans h.cm_id
  cm_channel := hfoot.is_set _ h.cm_channel

/-- A client whose connection is built. -/
structure RDMAClient.Live (env : Env) (w : World) : Prop extends RDMAClient.Created env w where
  ready : ReadyFor env env.new_id w

theorem RDMAClient.Live.record (h : RDMAClient.Live env w) (op : Op) : RDMAClient.Live env (w.record op) :=
  { machine := h.machine, cm_id := h.cm_id, cm_channel := h.cm_channel, ready := { h.ready with } }

/-- The address has been asked for. -/
theorem actions_asked (w : World) (n : Handle) (id : CmId) (sin_port : UInt16) (timeout : Nat) :
    actions (w.record (.call n (.rdma_resolve_addr id sin_port timeout) true)).log = actions w.log ++ [.resolve_addr] :=
  actions_record w _

theorem RDMAClient.wp_on_addr_resolved_works (hworks : env.Works) (h : RDMAClient.Created env w)
    (hcontext : w.conn.conn_ctx.context = .set (some (env.verbs env.new_id))) :
    wp (RDMAClient.on_addr_resolved env env.new_id)
      (fun ret w' => ret = .SUCCESS ∧ RDMAClient.Live env w' ∧ actions w'.log = actions w.log ++ [.resolve_route])
      (fun _ _ => False) w := by
  unfold RDMAClient.on_addr_resolved
  rw [wp_bind, wp_get, wp_bind]
  refine wp_check (fun _ => ?_) (fun hfalse => by simp [h.machine] at hfalse)
  apply wp_bind_of (wp_and (wp_build_connection_works hworks hcontext h.cm_id) (build_connection_leaves _ w)) _
    (fun _ _ h => h.1)
  rintro _ w₁ ⟨⟨-, hready, -⟩, hfoot⟩
  have hcreated := h.footprint hfoot
  refine wp_invoke_isNone_works hworks ⟨rfl, RDMAClient.Live.record { hcreated with ready := hready } _, ?_⟩
  rw [actions_record, actions_of_footprint hfoot (by simp)]
  rfl

theorem RDMAClient.wp_on_route_resolved_works (hworks : env.Works) (h : RDMAClient.Live env w) :
    wp (RDMAClient.on_route_resolved env env.new_id)
      (fun ret w' => ret = .SUCCESS ∧ RDMAClient.Live env w' ∧ actions w'.log = actions w.log ++ [.connect])
      (fun _ _ => False) w := by
  unfold RDMAClient.on_route_resolved
  exact wp_invoke_isNone_works hworks ⟨rfl, h.record _, actions_record _ _⟩

/-- One event of the loop: it goes on, or it ends as the behaviour says. -/
theorem RDMAClient.wp_on_event_works (hworks : env.Works) (h : RDMAClient.Live env w) (hid : event.id = env.new_id)
    (howes : Owes b w (RDMAClient.protocol_loop (some event :: rest))) :
    wp (RDMAClient.on_event env event)
      (fun ret w' => (ret = .SUCCESS → RDMAClient.Live env w' ∧ Owes b w' (RDMAClient.protocol_loop rest)) ∧
        (ret = .FAILURE → RDMAClient.Created env w' ∧ EndsAs b w' (.returned .SUCCESS)))
      (fun _ _ => False) w := by
  unfold RDMAClient.on_event
  unfold RDMAClient.protocol_loop at howes
  split
  · rename_i hevent
    simp only [hevent] at howes
    rw [hid]
    apply wp_mono (RDMAClient.wp_on_addr_resolved_works hworks h.toCreated h.ready.context) _ (fun _ _ h => h)
    rintro _ w₁ ⟨rfl, hlive, hdone⟩
    exact of_success ⟨hlive, howes.next hdone⟩
  · rename_i hevent
    simp only [hevent] at howes
    rw [hid]
    apply wp_mono (RDMAClient.wp_on_route_resolved_works hworks h) _ (fun _ _ h => h)
    rintro _ w₁ ⟨rfl, hlive, hdone⟩
    exact of_success ⟨hlive, howes.next hdone⟩
  · rename_i hevent
    simp only [hevent] at howes
    apply wp_mono (wp_and (wp_on_connection_works hworks h.ready) (on_connection_leaves w)) _ (fun _ _ h => h.1)
    rintro _ w₁ ⟨⟨rfl, hready, -, hdone⟩, hfoot⟩
    exact of_success ⟨{ h.toCreated.footprint hfoot with ready := hready }, howes.next hdone⟩
  · rename_i hevent
    simp only [hevent] at howes
    rw [hid]
    apply wp_mono (wp_and (wp_on_disconnect_works hworks h.ready) (on_disconnect_leaves _ w)) _ (fun _ _ h => h.1)
    rintro _ w₁ ⟨⟨rfl, hdone⟩, hfoot⟩
    exact of_failure ⟨h.toCreated.footprint hfoot, howes.ends hdone⟩
  · rename_i haddr hroute hestablished hdisconnected
    have hover : Owes b w ([], .returned .SUCCESS) := by
      split at howes
      · exact absurd ‹_› haddr
      · exact absurd ‹_› hroute
      · exact absurd ‹_› hestablished
      · exact absurd ‹_› hdisconnected
      · exact howes
    exact of_failure ⟨h.toCreated, hover.over rfl⟩

theorem RDMAClient.Created.record (h : RDMAClient.Created env w) (op : Op) : RDMAClient.Created env (w.record op) :=
  ⟨h.machine, h.cm_id, h.cm_channel⟩

theorem RDMAClient.Created.set_context (h : RDMAClient.Created env w) (context : Cell (Option Device)) :
    RDMAClient.Created env (w.modify_ctx fun ctx => { ctx with context := context }) :=
  ⟨h.machine, h.cm_id, h.cm_channel⟩

theorem RDMAClient.wp_working_works (hworks : env.Works) (h : RDMAClient.Live env w) (hown : RDMAClient.Own env events)
    (howes : Owes b w (RDMAClient.protocol_loop events)) :
    wp (working_on_cm_event env .client_loop (RDMAClient.on_event env) events)
      (fun _ w' => RDMAClient.Created env w' ∧ EndsAs b w' (.returned .SUCCESS))
      (fun halt w' => EndsAs b w' (.halted halt)) w := by
  refine wp_working_on_cm_event_of (I := fun events w => RDMAClient.Live env w ∧ RDMAClient.Own env events ∧
    Owes b w (RDMAClient.protocol_loop events)) ?_ ?_ ?_ ⟨h, hown, howes⟩
  · rintro w ⟨-, -, howes⟩
    exact howes.over rfl
  · rintro w rest ⟨h, -, howes⟩
    exact ⟨h.toCreated.record _, howes.over (actions_record_none w rfl)⟩
  · rintro w event rest ⟨h, hown, howes⟩
    apply wp_handle_cm_event
    intro m ok
    apply wp_mono (RDMAClient.wp_on_event_works hworks ((h.record _).record _) hown.head
      (howes.same (actions_acked w event _ m ok))) _ (fun _ _ h => h.elim)
    rintro ret w' ⟨hsuccess, hfailure⟩
    exact ⟨fun hret => ⟨(hsuccess hret).1, hown.tail, (hsuccess hret).2⟩, hfailure⟩

theorem RDMAClient.wp_work_works (hworks : env.Works) (h : RDMAClient.Live env w) (hown : RDMAClient.Own env events)
    (howes : Owes b w (RDMAClient.protocol_loop events)) :
    wp (RDMAClient.work env events) (fun ret w' => EndsAs b w' (.returned ret))
      (fun halt w' => EndsAs b w' (.halted halt)) w := by
  apply wp_bind_of (RDMAClient.wp_working_works hworks h hown howes) _ (fun _ _ h => h)
  rintro _ w₁ ⟨hcreated, hends⟩
  obtain ⟨cm_channel, hchannel⟩ := hcreated.cm_channel
  unfold RDMAClient.close
  rw [wp_bind]
  refine wp_load_of_set hchannel ?_
  rw [wp_bind]
  apply wp_invoke_works hworks
  rw [wp_pure, EndsAs, actions_record_none _ rfl]
  exact hends

/-- The second loop of `run` has its share of the behaviour. -/
theorem RDMAClient.wp_resolve_route_works (hworks : env.Works) (retries : Nat) (h : RDMAClient.Live env w)
    (hown : RDMAClient.Own env events) (howes : Owes b w (RDMAClient.protocol_route retries events)) :
    wp (RDMAClient.resolve_route env retries events)
      (fun left w' => (left = none → EndsAs b w' (.returned .FAILURE)) ∧ ∀ rest, left = some rest →
        RDMAClient.Live env w' ∧ RDMAClient.Own env rest ∧ Owes b w' (RDMAClient.protocol_loop rest))
      (fun halt w' => EndsAs b w' (.halted halt)) w := by
  induction retries generalizing events w with
  | zero => exact ⟨fun _ => howes.over (actions_record_none w rfl), by simp⟩
  | succ retries ih =>
    unfold RDMAClient.resolve_route
    cases events with
    | nil => exact howes.over rfl
    | cons head rest =>
      cases head with
      | none =>
        refine ⟨fun _ => howes.over ?_, by simp⟩
        rw [actions_record_none _ rfl, actions_record_none _ rfl]
      | some event =>
        dsimp only
        rw [wp_bind, wp_obtain_event, wp_ite]
        refine ⟨fun herror => ?_, fun herror => ?_⟩
        · rw [RDMAClient.protocol_route_error herror] at howes
          rw [wp_bind]
          apply wp_rdma_ack_cm_event
          intro m ok
          exact ih ((h.record _).record _) hown.tail (howes.same (actions_acked w event _ m ok))
        rw [wp_ite]
        refine ⟨fun hother => ?_, fun hresolved => ?_⟩
        · rw [RDMAClient.protocol_route_other herror hother] at howes
          rw [wp_bind, wp_record, wp_bind]
          apply wp_rdma_ack_cm_event
          intro m ok
          refine ⟨fun _ => howes.over ?_, by simp⟩
          rw [actions_record_none _ rfl, actions_record_none _ rfl, actions_record_none _ rfl]
        · rw [RDMAClient.protocol_route_resolved (not_not.mp hresolved)] at howes
          rw [wp_bind]
          apply wp_rdma_ack_cm_event
          intro m ok
          rw [hown.head]
          apply wp_bind_of (RDMAClient.wp_on_route_resolved_works hworks ((h.record _).record _)) _
            (fun _ _ h => h.elim)
          rintro _ w₁ ⟨rfl, hlive, hdone⟩
          refine ⟨by simp, ?_⟩
          rintro _ ⟨⟩
          exact ⟨hlive, hown.tail, (howes.same (actions_acked w event _ m ok)).next hdone⟩

/-- The first loop of `run` has its share of the behaviour. -/
theorem RDMAClient.wp_resolve_addr_works (hworks : env.Works) (sin_port : UInt16) (retries : Nat)
    (h : RDMAClient.Created env w) (hown : RDMAClient.Own env events)
    (howes : Owes b w (RDMAClient.protocol retries events)) :
    wp (RDMAClient.resolve_addr env sin_port retries events)
      (fun left w' => (left = none → EndsAs b w' (.returned .FAILURE)) ∧ ∀ retries rest, left = some (retries, rest) →
        RDMAClient.Live env w' ∧ RDMAClient.Own env rest ∧ Owes b w' (RDMAClient.protocol_route retries rest))
      (fun halt w' => EndsAs b w' (.halted halt)) w := by
  induction retries generalizing events w with
  | zero => exact ⟨fun _ => howes.over (actions_record_none w rfl), by simp⟩
  | succ retries ih =>
    unfold RDMAClient.resolve_addr
    rw [wp_bind]
    apply wp_load_of_set h.cm_id
    refine wp_invoke_isNone_works hworks ?_
    have h := h.record (.call w.log.length (.rdma_resolve_addr env.new_id sin_port RDMA_TIMEOUT_IN_MS) true)
    have hasked := actions_asked w w.log.length env.new_id sin_port RDMA_TIMEOUT_IN_MS
    generalize w.record (.call w.log.length (.rdma_resolve_addr env.new_id sin_port RDMA_TIMEOUT_IN_MS) true) = u
      at h hasked ⊢
    cases events with
    | nil => exact howes.ends hasked
    | cons head rest =>
      cases head with
      | none =>
        refine ⟨fun _ => howes.ends ?_, by simp⟩
        rw [actions_record_none _ rfl, actions_record_none _ rfl, hasked]
      | some event =>
        dsimp only
        rw [wp_bind, wp_obtain_event, wp_ite]
        refine ⟨fun herror => ?_, fun herror => ?_⟩
        · rw [RDMAClient.protocol_error herror] at howes
          rw [wp_bind]
          apply wp_rdma_ack_cm_event
          intro m ok
          exact ih ((h.record _).record _) hown.tail ((howes.next hasked).same (actions_acked u event _ m ok))
        rw [wp_ite]
        refine ⟨fun hother => ?_, fun hresolved => ?_⟩
        · rw [RDMAClient.protocol_other herror hother] at howes
          rw [wp_bind]
          apply wp_rdma_ack_cm_event
          intro m ok
          exact ⟨fun _ => howes.ends ((actions_acked u event _ m ok).trans hasked), by simp⟩
        · rw [RDMAClient.protocol_resolved (not_not.mp hresolved)] at howes
          rw [wp_bind]
          refine wp_load_of_set (h.record _).cm_id ?_
          rw [wp_bind, wp_modify_ctx, wp_bind]
          apply wp_rdma_ack_cm_event
          intro m ok
          rw [hown.head]
          apply wp_bind_of (RDMAClient.wp_on_addr_resolved_works hworks (((h.record _).set_context _).record _) rfl) _
            (fun _ _ h => h.elim)
          rintro _ w₁ ⟨rfl, hlive, hdone⟩
          refine ⟨by simp, ?_⟩
          rintro _ _ ⟨⟩
          refine ⟨hlive, hown.tail, howes.next ?_⟩
          rw [hdone, actions_record_none _ rfl, World.modify_ctx_log, actions_record_none _ rfl, hasked,
            List.append_assoc]
          rfl

theorem RDMAClient.machine_of_new {this : UInt64} {params : EnvBasicParam} {conn : ConnectionProc}
    (hnew : RDMAClient.new this params = some conn) : conn.conn_params.env.machine = .CLIENT := by
  unfold RDMAClient.new at hnew
  split at hnew
  · cases hnew
    assumption
  · cases hnew

theorem RDMAClient.wp_run_works {conn : ConnectionProc} (hworks : env.Works)
    (hmachine : conn.conn_params.env.machine = .CLIENT) (hown : RDMAClient.Own env events)
    (hb : b = RDMAClient.protocol NUM_OF_RETRIES events) :
    wp (RDMAClient.run env events) (fun ret w' => EndsAs b w' (.returned ret))
      (fun halt w' => EndsAs b w' (.halted halt)) (.start conn) := by
  refine RDMAClient.wp_run_from (S := fun w => RDMAClient.Created env w ∧ actions w.log = [])
    (L := fun left w => (left = none → EndsAs b w (.returned .FAILURE)) ∧ ∀ retries rest, left = some (retries, rest) →
      RDMAClient.Live env w ∧ RDMAClient.Own env rest ∧ Owes b w (RDMAClient.protocol_route retries rest))
    (M := fun left w => (left = none → EndsAs b w (.returned .FAILURE)) ∧ ∀ rest, left = some rest →
      RDMAClient.Live env w ∧ RDMAClient.Own env rest ∧ Owes b w (RDMAClient.protocol_loop rest)) ?_ ?_ ?_ ?_ ?_ ?_
  · apply wp_mono (wp_and (RDMAClient.wp_create_works hworks) (RDMAClient.wp_create env (.start conn))) _
      (fun _ _ h => h.1.elim)
    rintro port w ⟨⟨sin_port, rfl⟩, hsetup, hset⟩
    obtain ⟨hcm, hchannel⟩ := hset rfl
    refine ⟨by simp, fun _ _ => ⟨⟨?_, hcm, hchannel⟩, ?_⟩⟩
    · rw [hsetup.conn_params]
      exact hmachine
    · exact actions_of_extends hsetup.log (by simp)
  · rintro w sin_port ⟨hcreated, hnone⟩
    refine RDMAClient.wp_resolve_addr_works hworks sin_port NUM_OF_RETRIES hcreated hown ?_
    rw [Owes, hnone, emit_nil, hb]
  · exact fun w h => h.1 rfl
  · rintro w retries rest ⟨-, h⟩
    obtain ⟨hlive, hown, howes⟩ := h retries rest rfl
    exact RDMAClient.wp_resolve_route_works hworks retries hlive hown howes
  · exact fun w h => h.1 rfl
  · rintro w rest ⟨-, h⟩
    obtain ⟨hlive, hown, howes⟩ := h rest rfl
    exact RDMAClient.wp_work_works hworks hlive hown howes

/-- The client does what its protocol says, on every sequence of events for
its id, when every call succeeds. -/
theorem RDMAClient.client_behaviour_eq_protocol {this : UInt64} {params : EnvBasicParam} {conn : ConnectionProc}
    (hworks : env.Works) (hnew : RDMAClient.new this params = some conn) (hown : RDMAClient.Own env events) :
    behaviour env events conn = RDMAClient.protocol NUM_OF_RETRIES events := by
  have hmachine := RDMAClient.machine_of_new hnew
  exact behaviour_eq_of_wp .client (by simp [ConnectionProc.is_server, hmachine])
    (RDMAClient.wp_run_works hworks hmachine hown rfl)

/-- The events of a client whose server cannot be found at first. -/
def retrying : Events :=
  [.RDMA_CM_EVENT_ADDR_ERROR, .RDMA_CM_EVENT_ADDR_RESOLVED, .RDMA_CM_EVENT_ROUTE_ERROR, .RDMA_CM_EVENT_ROUTE_RESOLVED,
    .RDMA_CM_EVENT_ESTABLISHED, .RDMA_CM_EVENT_DISCONNECTED].map fun event => some ⟨event, 1⟩

theorem RDMAClient.client_behaviour_eq_protocol_retrying : behaviour workingEnv retrying clientConn =
    ([.resolve_addr, .resolve_addr, .resolve_route, .connect, .send, .destroy_qp], .returned .SUCCESS) := by
  have hown : RDMAClient.Own workingEnv retrying := by simp [RDMAClient.Own, retrying, workingEnv]
  have hnew : RDMAClient.new 96 clientConn.conn_params.env = some clientConn := rfl
  rw [RDMAClient.client_behaviour_eq_protocol workingEnv_works hnew hown]
  rfl

/-- So many events of the one kind, one of the other, and then the rest. -/
inductive Retried (failure success : RdmaCmEventType) : Nat → Events → Events → Prop where
  | done {event : RdmaCmEvent} {rest : Events} (h : event.event = success) :
      Retried failure success 0 (some event :: rest) rest
  | again {event : RdmaCmEvent} {rest more : Events} {times : Nat} (h : event.event = failure)
      (hrest : Retried failure success times rest more) : Retried failure success (times + 1) (some event :: rest) more

/-- The route fails so many times and is then resolved. -/
abbrev RouteRetried : Nat → Events → Events → Prop :=
  Retried .RDMA_CM_EVENT_ROUTE_ERROR .RDMA_CM_EVENT_ROUTE_RESOLVED

/-- The address fails so many times and is then resolved. -/
abbrev AddrRetried : Nat → Events → Events → Prop := Retried .RDMA_CM_EVENT_ADDR_ERROR .RDMA_CM_EVENT_ADDR_RESOLVED

section Retried

variable {times retries : Nat} {more : Events}

theorem RouteRetried.protocol_route (h : RouteRetried times events more) (hlt : times < retries) :
    RDMAClient.protocol_route retries events = emit [.connect] (RDMAClient.protocol_loop more) := by
  induction h generalizing retries with
  | done hresolved =>
    obtain ⟨retries, rfl⟩ := Nat.exists_eq_add_one_of_ne_zero (Nat.ne_zero_of_lt hlt)
    exact RDMAClient.protocol_route_resolved hresolved
  | again herror _ ih =>
    obtain ⟨retries, rfl⟩ := Nat.exists_eq_add_one_of_ne_zero (Nat.ne_zero_of_lt hlt)
    rw [RDMAClient.protocol_route_error herror]
    exact ih (Nat.lt_of_succ_lt_succ hlt)

theorem RouteRetried.of_connect (h : .connect ∈ (RDMAClient.protocol_route retries events).1) :
    ∃ times more, RouteRetried times events more ∧ times < retries := by
  induction retries generalizing events with
  | zero => simp [RDMAClient.protocol_route] at h
  | succ retries ih =>
    cases events with
    | nil => simp [RDMAClient.protocol_route] at h
    | cons head rest =>
      cases head with
      | none => simp [RDMAClient.protocol_route] at h
      | some event =>
        by_cases herror : event.event = .RDMA_CM_EVENT_ROUTE_ERROR
        · rw [RDMAClient.protocol_route_error herror] at h
          obtain ⟨times, more, hretried, hlt⟩ := ih h
          exact ⟨times + 1, more, .again herror hretried, Nat.succ_lt_succ hlt⟩
        · by_cases hresolved : event.event = .RDMA_CM_EVENT_ROUTE_RESOLVED
          · exact ⟨0, rest, .done hresolved, retries.succ_pos⟩
          · rw [RDMAClient.protocol_route_other herror hresolved] at h
            simp at h

theorem AddrRetried.protocol (h : AddrRetried times events more) (hlt : times < retries) :
    RDMAClient.protocol retries events = emit (List.replicate (times + 1) .resolve_addr ++ [.resolve_route])
      (RDMAClient.protocol_route (retries - times) more) := by
  induction h generalizing retries with
  | done hresolved =>
    obtain ⟨retries, rfl⟩ := Nat.exists_eq_add_one_of_ne_zero (Nat.ne_zero_of_lt hlt)
    exact RDMAClient.protocol_resolved hresolved
  | again herror _ ih =>
    obtain ⟨retries, rfl⟩ := Nat.exists_eq_add_one_of_ne_zero (Nat.ne_zero_of_lt hlt)
    rw [RDMAClient.protocol_error herror, ih (Nat.lt_of_succ_lt_succ hlt), emit_emit, Nat.succ_sub_succ]
    rfl

theorem AddrRetried.of_connect (h : .connect ∈ (RDMAClient.protocol retries events).1) :
    ∃ times more, AddrRetried times events more ∧ times < retries ∧
      .connect ∈ (RDMAClient.protocol_route (retries - times) more).1 := by
  induction retries generalizing events with
  | zero => simp [RDMAClient.protocol] at h
  | succ retries ih =>
    cases events with
    | nil => simp [RDMAClient.protocol] at h
    | cons head rest =>
      cases head with
      | none => simp [RDMAClient.protocol] at h
      | some event =>
        by_cases herror : event.event = .RDMA_CM_EVENT_ADDR_ERROR
        · rw [RDMAClient.protocol_error herror] at h
          obtain ⟨times, more, hretried, hlt, hmem⟩ := ih (by simpa [emit] using h)
          exact ⟨times + 1, more, .again herror hretried, Nat.succ_lt_succ hlt, by rwa [Nat.succ_sub_succ]⟩
        · by_cases hresolved : event.event = .RDMA_CM_EVENT_ADDR_RESOLVED
          · rw [RDMAClient.protocol_resolved hresolved] at h
            exact ⟨0, rest, .done hresolved, retries.succ_pos, by simpa [emit] using h⟩
          · rw [RDMAClient.protocol_other herror hresolved] at h
            simp at h

end Retried

theorem RDMAClient.count_protocol_loop (events : Events) :
    (RDMAClient.protocol_loop events).1.count .resolve_addr = 0 := by
  fun_induction RDMAClient.protocol_loop events with
  | case3 event rest h ih => simpa [emit] using ih
  | case4 event rest h ih => simpa [emit] using ih
  | case5 event rest h ih => simpa [emit] using ih
  | _ => simp

theorem RDMAClient.count_protocol_route (retries : Nat) (events : Events) :
    (RDMAClient.protocol_route retries events).1.count .resolve_addr = 0 := by
  fun_induction RDMAClient.protocol_route retries events with
  | case4 retries event rest h ih => exact ih
  | case5 retries event rest h => simpa [emit] using RDMAClient.count_protocol_loop rest
  | _ => simp

/-- Each address request uses up a retry. -/
theorem RDMAClient.count_protocol (retries : Nat) (events : Events) :
    (RDMAClient.protocol retries events).1.count .resolve_addr ≤ retries := by
  fun_induction RDMAClient.protocol retries events with
  | case4 retries event rest h ih => simpa [emit] using ih
  | case5 retries event rest h => simp [emit, RDMAClient.count_protocol_route]
  | _ => simp

/-- The client asks for its connection if and only if the address and then the
route are resolved after fewer failures, of both together, than there are
retries. It has then asked once more for the address than that has failed, and
once for the route; and it never asks for the address more often than that. -/
theorem RDMAClient.connects_iff {this : UInt64} {params : EnvBasicParam} {conn : ConnectionProc}
    (hworks : env.Works) (hnew : RDMAClient.new this params = some conn) (hown : RDMAClient.Own env events) :
    (.connect ∈ (behaviour env events conn).1 ↔ ∃ addr_errors route_errors mid rest,
      AddrRetried addr_errors events mid ∧ RouteRetried route_errors mid rest ∧
        addr_errors + route_errors < NUM_OF_RETRIES) ∧
    (∀ addr_errors route_errors mid rest, AddrRetried addr_errors events mid → RouteRetried route_errors mid rest →
      addr_errors + route_errors < NUM_OF_RETRIES →
        behaviour env events conn = emit (List.replicate (addr_errors + 1) .resolve_addr ++ [.resolve_route, .connect])
          (RDMAClient.protocol_loop rest)) ∧
    (behaviour env events conn).1.count .resolve_addr ≤ NUM_OF_RETRIES := by
  have hmachine := RDMAClient.machine_of_new hnew
  rw [behaviour_eq_of_wp .client (by simp [ConnectionProc.is_server, hmachine])
    (RDMAClient.wp_run_works hworks hmachine hown rfl)]
  have hshape : ∀ addr_errors route_errors mid rest, AddrRetried addr_errors events mid →
      RouteRetried route_errors mid rest → addr_errors + route_errors < NUM_OF_RETRIES →
        RDMAClient.protocol NUM_OF_RETRIES events =
          emit (List.replicate (addr_errors + 1) .resolve_addr ++ [.resolve_route, .connect])
            (RDMAClient.protocol_loop rest) := by
    intro addr_errors route_errors mid rest haddr hroute hlt
    rw [haddr.protocol (by omega), hroute.protocol_route (by omega), emit_emit, List.append_assoc]
    rfl
  refine ⟨⟨fun hconnect => ?_, ?_⟩, hshape, RDMAClient.count_protocol _ _⟩
  · obtain ⟨addr_errors, mid, haddr, hlt, hmem⟩ := AddrRetried.of_connect hconnect
    obtain ⟨route_errors, rest, hroute, hless⟩ := RouteRetried.of_connect hmem
    exact ⟨addr_errors, route_errors, mid, rest, haddr, hroute, by omega⟩
  · rintro ⟨addr_errors, route_errors, mid, rest, haddr, hroute, hlt⟩
    rw [hshape addr_errors route_errors mid rest haddr hroute hlt]
    simp [emit]

/-- One failure of the address and one of the route are made up for. -/
theorem RDMAClient.connects_iff_retrying : .connect ∈ (behaviour workingEnv retrying clientConn).1 := by
  have hown : RDMAClient.Own workingEnv retrying := by simp [RDMAClient.Own, retrying, workingEnv]
  have hnew : RDMAClient.new 96 clientConn.conn_params.env = some clientConn := rfl
  refine (RDMAClient.connects_iff workingEnv_works hnew hown).1.mpr ⟨1, 1, retrying.drop 2, retrying.drop 4, ?_⟩
  exact ⟨.again rfl (.done rfl), .again rfl (.done rfl), by decide⟩

end tc_rdma.rdma_com
