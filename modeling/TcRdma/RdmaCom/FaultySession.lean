import TcRdma.RdmaCom.ClosedSession
import TcRdma.RdmaCom.Online

open tc_rdma.machine

namespace tc_rdma.rdma_com

/-- The action that a side learns the consequence of when it is told this. An
event of another kind comes by itself, as a failure of `rdma_get_cm_event` does. -/
def Side.reason (side : Side) (told : Option RdmaCmEvent) : Option (Side × Action) :=
  told.bind fun event => side.cause event.event

/-- After these actions it has ended, but for the release of the connection. -/
def Behaviour.EndsAfter (b : Behaviour) (front : List Action) (told : Option RdmaCmEvent) : Prop :=
  b.2.waits = false ∧
    (b.1 = front ∨ b.1 = front ++ [.destroy_qp] ∧ ∃ id, told = some ⟨.RDMA_CM_EVENT_DISCONNECTED, id⟩)

theorem Side.cause_ne_destroy {side : Side} {told : Option RdmaCmEvent} {cause : Side × Action}
    (hreason : side.reason told = some cause) : cause.2 ≠ .destroy_qp := by
  obtain ⟨⟨kind, id⟩, -, hcause⟩ := Option.bind_eq_some_iff.mp hreason
  rintro hdestroy
  obtain ⟨causing, action⟩ := cause
  obtain rfl := hdestroy
  cases side <;> cases kind <;> cases hcause

variable {b : Behaviour} {front more : List Action} {told : Option RdmaCmEvent} {env : Env} {s : Handshake}
  {side : Side}

theorem Behaviour.EndsAfter.emit (h : b.EndsAfter front told) (more : List Action) :
    Behaviour.EndsAfter (emit more b) (more ++ front) told := by
  refine ⟨h.1, h.2.imp (fun heq => congrArg (more ++ ·) heq) fun hreleased => ⟨?_, hreleased.2⟩⟩
  rw [rdma_com.emit, hreleased.1, List.append_assoc]

section Last

theorem RDMAClient.protocol_loop_last (h : Side.client.reason told = none) :
    Behaviour.EndsAfter (RDMAClient.protocol_loop [told]) [] told := by
  cases told with
  | none => exact ⟨rfl, .inl rfl⟩
  | some event =>
    obtain ⟨kind, id⟩ := event
    cases kind with
    | RDMA_CM_EVENT_ADDR_RESOLVED => cases h
    | RDMA_CM_EVENT_ROUTE_RESOLVED => cases h
    | RDMA_CM_EVENT_ESTABLISHED => cases h
    | RDMA_CM_EVENT_DISCONNECTED => exact ⟨rfl, .inr ⟨rfl, id, rfl⟩⟩
    | _ => exact ⟨rfl, .inl rfl⟩

theorem RDMAClient.protocol_route_last (h : Side.client.reason told = none) (retries : Nat) :
    Behaviour.EndsAfter (RDMAClient.protocol_route retries [told]) [] told := by
  cases retries with
  | zero => exact ⟨rfl, .inl rfl⟩
  | succ retries =>
    cases told with
    | none => exact ⟨rfl, .inl rfl⟩
    | some event =>
      obtain ⟨kind, id⟩ := event
      cases kind with
      | RDMA_CM_EVENT_ROUTE_ERROR => cases h
      | RDMA_CM_EVENT_ROUTE_RESOLVED => cases h
      | _ => exact ⟨rfl, .inl rfl⟩

theorem RDMAClient.protocol_last (h : Side.client.reason told = none) (retries : Nat) :
    Behaviour.EndsAfter (RDMAClient.protocol (retries + 1) [told]) [.resolve_addr] told := by
  cases told with
  | none => exact ⟨rfl, .inl rfl⟩
  | some event =>
    obtain ⟨kind, id⟩ := event
    cases kind with
    | RDMA_CM_EVENT_ADDR_ERROR => cases h
    | RDMA_CM_EVENT_ADDR_RESOLVED => cases h
    | _ => exact ⟨rfl, .inl rfl⟩

theorem ClientStage.still_last {stage : ClientStage} (hbounded : stage.Bounded) (h : Side.client.reason told = none) :
    Behaviour.EndsAfter (emit stage.done (stage.still [told])) stage.behaviour.1 told := by
  cases stage with
  | resolving errors =>
    by_cases hlt : errors < NUM_OF_RETRIES
    · obtain ⟨left, hleft⟩ := Nat.exists_eq_add_one_of_ne_zero (Nat.sub_ne_zero_of_lt hlt)
      rw [ClientStage.still, hleft, ClientStage.behaviour, if_pos hlt, List.replicate_succ']
      exact (RDMAClient.protocol_last h left).emit _
    · obtain rfl : errors = NUM_OF_RETRIES := Nat.le_antisymm hbounded (Nat.not_lt.mp hlt)
      exact ⟨rfl, .inl rfl⟩
  | routing errors =>
    have hends := (RDMAClient.protocol_route_last h (NUM_OF_RETRIES - errors)).emit (ClientStage.done (.routing errors))
    rwa [List.append_nil] at hends
  | stranded errors =>
    have hends := (RDMAClient.protocol_route_last h (NUM_OF_RETRIES - errors - 1)).emit
      (ClientStage.done (.stranded errors))
    rwa [List.append_nil] at hends
  | connecting errors =>
    have hends := (RDMAClient.protocol_loop_last h).emit (ClientStage.done (.connecting errors))
    rwa [List.append_nil] at hends
  | established errors =>
    have hends := (RDMAClient.protocol_loop_last h).emit (ClientStage.done (.established errors))
    rwa [List.append_nil] at hends

theorem RDMAServer.protocol_loop_last (h : Side.server.reason told = none) (id : CmId) :
    Behaviour.EndsAfter (RDMAServer.protocol_loop env id [told]) [] told := by
  cases told with
  | none => exact ⟨rfl, .inl rfl⟩
  | some event =>
    obtain ⟨kind, other⟩ := event
    cases kind with
    | RDMA_CM_EVENT_CONNECT_REQUEST => cases h
    | RDMA_CM_EVENT_ESTABLISHED => cases h
    | RDMA_CM_EVENT_DISCONNECTED =>
      unfold RDMAServer.protocol_loop
      dsimp only
      split
      · exact ⟨rfl, .inr ⟨rfl, other, rfl⟩⟩
      · exact ⟨rfl, .inl rfl⟩
    | _ => exact ⟨rfl, .inl rfl⟩

theorem ServerStage.protocol_last (stage : ServerStage) (h : Side.server.reason told = none) :
    Behaviour.EndsAfter (RDMAServer.protocol env (stage.events.map some ++ [told])) stage.behaviour.1 told := by
  cases stage with
  | listening =>
    cases told with
    | none => exact ⟨rfl, .inl rfl⟩
    | some event =>
      obtain ⟨kind, id⟩ := event
      cases kind with
      | RDMA_CM_EVENT_CONNECT_REQUEST => cases h
      | _ => exact ⟨rfl, .inl rfl⟩
  | accepted id => exact (RDMAServer.protocol_loop_last h id).emit [.accept]
  | established id _ => exact ((RDMAServer.protocol_loop_last h id).emit [.send]).emit [.accept]

end Last

/-- The events bring a side to its stage. -/
def Side.Brings (s : Handshake) : Side → List RdmaCmEvent → Prop
  | .client, events => events.map RdmaCmEvent.event = s.client.kinds ∧ s.client.Bounded
  | .server, events => events = s.server.events

/-- A side has been told what brings it to its stage, and last perhaps what is
no consequence of an action. -/
inductive Side.Told (s : Handshake) (side : Side) : Events → Prop where
  | so_far {events : List RdmaCmEvent} (h : side.Brings s events) : Side.Told s side (events.map some)
  | last {events : List RdmaCmEvent} {told : Option RdmaCmEvent} (h : side.Brings s events)
      (hreason : side.reason told = none) : Side.Told s side (events.map some ++ [told])

/-- How many consequences of actions a side can be told. -/
def Side.most_told : Side → Nat
  | .client => NUM_OF_RETRIES + 2
  | .server => 2

section Brings

variable {events : List RdmaCmEvent}

theorem Side.Brings.kinds (h : side.Brings s events) : events.map RdmaCmEvent.event = s.kinds side := by
  cases side with
  | client => exact h.1
  | server => exact congrArg (List.map RdmaCmEvent.event) h

theorem Side.Brings.protocol (h : side.Brings s events) : side.protocol env (events.map some) = s.behaviour side := by
  cases side with
  | client =>
    have hprotocol := ClientStage.protocol_append h.2 h.1 []
    rw [List.append_nil, ClientStage.behaviour_eq h.2] at hprotocol
    exact hprotocol
  | server =>
    obtain rfl := h
    exact ServerStage.protocol_eq s.server env

theorem Side.Brings.protocol_last (h : side.Brings s events) (hreason : side.reason told = none) :
    Behaviour.EndsAfter (side.protocol env (events.map some ++ [told])) (s.behaviour side).1 told := by
  cases side with
  | client =>
    unfold Side.protocol
    dsimp only
    rw [ClientStage.protocol_append h.2 h.1]
    exact ClientStage.still_last h.2 hreason
  | server =>
    obtain rfl := h
    exact ServerStage.protocol_last s.server hreason

theorem Side.Brings.step {event : RdmaCmEvent} {next : Handshake} (h : side.Brings s events)
    (hstep : s.step (side, event) = some next) : side.Brings next (events ++ [event]) := by
  cases side with
  | client =>
    obtain ⟨told, htell, rfl⟩ := Option.map_eq_some_iff.mp hstep
    have hmove := ClientStage.tell_move htell
    refine ⟨?_, hmove.bounded h.2⟩
    rw [List.map_append, h.1, ← ClientStage.map_events told event.id, hmove.events, List.map_append,
      ClientStage.map_events, List.map_singleton]
  | server =>
    obtain ⟨told, htell, rfl⟩ := Option.map_eq_some_iff.mp hstep
    obtain rfl := h
    exact (ServerStage.tell_move htell).events.symm

/-- What one side is told leaves the stage of the other. -/
theorem Side.Brings.other {other : Side} {event : RdmaCmEvent} {next : Handshake} (h : side.Brings s events)
    (hne : side ≠ other) (hstep : s.step (other, event) = some next) : side.Brings next events := by
  cases side with
  | client =>
    cases other with
    | client => exact absurd rfl hne
    | server =>
      obtain ⟨told, htell, rfl⟩ := Option.map_eq_some_iff.mp hstep
      exact h
  | server =>
    cases other with
    | client =>
      obtain ⟨told, htell, rfl⟩ := Option.map_eq_some_iff.mp hstep
      exact h
    | server => exact absurd rfl hne

theorem Side.Brings.length_le (h : side.Brings s events) : events.length ≤ side.most_told := by
  cases side with
  | client =>
    rw [← List.length_map RdmaCmEvent.event, h.1]
    have hbounded := h.2
    cases hstage : s.client <;> rw [hstage] at hbounded <;>
      simp [ClientStage.kinds, ClientStage.Bounded, Side.most_told] at hbounded ⊢ <;> omega
  | server =>
    obtain rfl := h
    cases s.server <;> simp [ServerStage.events, Side.most_told]

end Brings

section Told

variable {events : Events}

/-- What has been done by then, but for the release of the connection, is what
the stage says. -/
theorem Side.Told.does (h : side.Told s events) (env : Env) :
    (side.protocol env events).1 = (s.behaviour side).1 ∨
      (side.protocol env events).1 = (s.behaviour side).1 ++ [.destroy_qp] ∧
        ∃ id, some ⟨.RDMA_CM_EVENT_DISCONNECTED, id⟩ ∈ events := by
  cases h with
  | so_far h => exact .inl (congrArg Prod.fst h.protocol)
  | last h hreason =>
    refine (h.protocol_last hreason).2.imp_right ?_
    rintro ⟨hdoes, id, rfl⟩
    exact ⟨hdoes, id, List.mem_append_right _ (List.mem_singleton_self _)⟩

theorem Side.Told.of_waits (h : side.Told s events) (hwaits : (side.protocol env events).2.waits = true) :
    ∃ told, events = told.map some ∧ side.Brings s told := by
  cases h with
  | so_far h => exact ⟨_, rfl, h⟩
  | last h hreason =>
    rw [(h.protocol_last hreason).1] at hwaits
    cases hwaits

theorem Side.Told.other {other : Side} {event : RdmaCmEvent} {next : Handshake} (h : side.Told s events)
    (hne : side ≠ other) (hstep : s.step (other, event) = some next) : side.Told next events := by
  cases h with
  | so_far h => exact .so_far (h.other hne hstep)
  | last h hreason => exact .last (h.other hne hstep) hreason

theorem Side.Told.mem_of_kinds {kind : RdmaCmEventType} (h : side.Told s events) (hkind : kind ∈ s.kinds side) :
    ∃ id, some ⟨kind, id⟩ ∈ events := by
  have hbrought : ∀ {told : List RdmaCmEvent}, side.Brings s told → ∃ id, some ⟨kind, id⟩ ∈ told.map some := by
    intro told h
    rw [← h.kinds] at hkind
    obtain ⟨⟨kind, id⟩, hmem, rfl⟩ := List.mem_map.mp hkind
    exact ⟨id, List.mem_map_of_mem hmem⟩
  cases h with
  | so_far h => exact hbrought h
  | last h hreason =>
    obtain ⟨id, hmem⟩ := hbrought h
    exact ⟨id, List.mem_append_left _ hmem⟩

theorem Side.Told.brings (h : side.Told s events) : ∃ told, side.Brings s told := by
  cases h with
  | so_far h => exact ⟨_, h⟩
  | last h hreason => exact ⟨_, h⟩

theorem Side.Told.length_le (h : side.Told s events) : events.length ≤ side.most_told + 1 := by
  cases h with
  | so_far h =>
    have hle := h.length_le
    rw [List.length_map]
    omega
  | last h hreason =>
    have hle := h.length_le
    rw [List.length_append, List.length_map, List.length_singleton]
    omega

end Told

/-- A client and a server, on hosts where any call may fail. -/
structure Peers where
  env : Side → Env
  conn : Side → ConnectionProc
  sides : ∀ side, (conn side).side = side

/-- What has been delivered to each side. -/
abbrev Feed := Side → Events

def Op.achievement : Op → Option Action
  | .call _ c true => c.action
  | _ => none

/-- What a side does on what it has got, and how far it comes. -/
def Peers.behaviour (p : Peers) (feed : Feed) (side : Side) : Behaviour :=
  rdma_com.behaviour (p.env side) (feed side) (p.conn side)

/-- The actions of a side that have succeeded. -/
def Peers.achieved (p : Peers) (feed : Feed) (side : Side) : List Action :=
  picked Op.achievement (conn_run (p.env side) (feed side) (p.conn side)).1

/-- What the side has got in consequence of this action. -/
def Feed.consequences (feed : Feed) (side : Side) (cause : Side × Action) : Nat :=
  (feed side).countP fun told => side.reason told = some cause

/-- The consequence of an action comes at most once for each time that it has
succeeded. What is no consequence of an action can come at any time. -/
def Peers.possible (p : Peers) (feed : Feed) (side : Side) (told : Option RdmaCmEvent) : Bool :=
  match side.reason told with
  | none => true
  | some cause => decide (feed.consequences side cause < (p.achieved feed cause.1).count cause.2)

/-- A side that waits for an event gets one, or its `rdma_get_cm_event` fails. -/
def Peers.step (p : Peers) (feed : Feed) (delivery : Side × Option RdmaCmEvent) : Option Feed :=
  if (p.behaviour feed delivery.1).2.waits && p.possible feed delivery.1 delivery.2 then
    some (Function.update feed delivery.1 (feed delivery.1 ++ [delivery.2]))
  else none

variable {p : Peers} {feed after : Feed}

theorem Peers.within (p : Peers) (feed : Feed) (side : Side) :
    Behaviour.Within (p.behaviour feed side) (side.protocol (p.env side) (feed side)) := by
  have hwithin := behaviour_within_protocol (p.env side) (feed side) (p.conn side)
  rwa [p.sides] at hwithin

theorem Op.action_of_achievement (op : Op) (action : Action) (h : op.achievement = some action) :
    op.action = some action := by
  unfold Op.achievement at h
  split at h
  · exact h
  · cases h

theorem Peers.count_achieved_le (p : Peers) (feed : Feed) (side : Side) (action : Action) :
    (p.achieved feed side).count action ≤ (side.protocol (p.env side) (feed side)).1.count action :=
  Nat.le_trans ((picked_sublist Op.action_of_achievement _).count_le action)
    ((p.within feed side).1.sublist.count_le action)

theorem Peers.step_eq_some {side : Side} {told : Option RdmaCmEvent} (hstep : p.step feed (side, told) = some after) :
    (p.behaviour feed side).2.waits = true ∧ p.possible feed side told = true ∧
      after = Function.update feed side (feed side ++ [told]) := by
  unfold Peers.step at hstep
  split at hstep
  · rename_i hboth
    rw [Bool.and_eq_true] at hboth
    exact ⟨hboth.1, hboth.2, (Option.some_inj.mp hstep).symm⟩
  · cases hstep

/-- What has been achieved stays so. -/
theorem Peers.achieved_mono {side : Side} {told : Option RdmaCmEvent} (other : Side) :
    p.achieved feed other <+: p.achieved (Function.update feed side (feed side ++ [told])) other := by
  unfold Peers.achieved
  by_cases hother : other = side
  · subst hother
    rw [Function.update_self]
    exact picked_prefix (conn_run_goes_on _ _ _ _)
  · have hsame : Function.update feed side (feed side ++ [told]) other = feed other := Function.update_of_ne hother _ _
    simp only [hsame, List.prefix_rfl]

/-- The two have come as far as this, each by the actions that it can tell of. -/
structure Peers.At (p : Peers) (feed : Feed) (s : Handshake) : Prop where
  told : ∀ side, Side.Told s side (feed side)
  agrees : s.Agrees
  caused : ∀ side told cause, told ∈ feed side → side.reason told = some cause → cause.2 ∈ p.achieved feed cause.1

theorem Peers.at_start (p : Peers) : p.At (fun _ => []) ⟨.resolving 0, .listening⟩ where
  told side := by
    have hbrings : side.Brings ⟨.resolving 0, .listening⟩ [] := by
      cases side with
      | client => exact ⟨rfl, Nat.zero_le _⟩
      | server => rfl
    exact .so_far hbrings
  agrees := Handshake.agrees_start
  caused := by simp

/-- What is told for a reason is told because of what has been achieved. -/
theorem Peers.At.caused_after {side : Side} {told : Option RdmaCmEvent} (h : p.At feed s)
    (hpossible : p.possible feed side told = true) (other : Side) {given : Option RdmaCmEvent} {cause : Side × Action}
    (hmem : given ∈ Function.update feed side (feed side ++ [told]) other) (hreason : other.reason given = some cause) :
    cause.2 ∈ p.achieved (Function.update feed side (feed side ++ [told])) cause.1 := by
  apply (Peers.achieved_mono cause.1).subset
  by_cases hother : other = side
  · subst hother
    rw [Function.update_self, List.mem_append, List.mem_singleton] at hmem
    rcases hmem with hmem | rfl
    · exact h.caused other given cause hmem hreason
    · unfold Peers.possible at hpossible
      rw [hreason] at hpossible
      exact List.count_pos_iff.mp (Nat.zero_lt_of_lt (of_decide_eq_true hpossible))
  · rw [Function.update_of_ne hother] at hmem
    exact h.caused other given cause hmem hreason

/-- What is possible for a reason is due. -/
theorem Peers.At.due_of_possible {side : Side} {events : List RdmaCmEvent} {event : RdmaCmEvent} {cause : Side × Action}
    (h : p.At feed s) (hevents : feed side = events.map some) (hbrings : side.Brings s events)
    (hreason : side.reason (some event) = some cause) (hpossible : p.possible feed side (some event) = true) :
    s.Due side event.event := by
  refine ⟨cause, hreason, ?_⟩
  unfold Peers.possible at hpossible
  rw [hreason] at hpossible
  have hlt := of_decide_eq_true hpossible
  have hsame : feed.consequences side cause = (s.kinds side).countP fun told => side.cause told = some cause := by
    rw [Feed.consequences, hevents, List.countP_map, ← hbrings.kinds, List.countP_map]
    rfl
  rw [hsame] at hlt
  apply Nat.lt_of_lt_of_le hlt
  apply Nat.le_trans (p.count_achieved_le feed cause.1 cause.2)
  have hcause := Side.cause_ne_destroy hreason
  rcases (h.told cause.1).does (p.env cause.1) with hdoes | ⟨hdoes, -⟩
  · exact Nat.le_of_eq (congrArg (List.count cause.2) hdoes)
  · rw [hdoes, List.count_append, List.count_singleton]
    simp [hcause.symm]

theorem Peers.At.step (h : p.At feed s) {delivery : Side × Option RdmaCmEvent}
    (hstep : p.step feed delivery = some after) : ∃ next, p.At after next := by
  obtain ⟨side, told⟩ := delivery
  obtain ⟨hwaits, hpossible, rfl⟩ := Peers.step_eq_some hstep
  -- a side that waits has been told nothing by which it ends
  rw [(p.within feed side).2 hwaits] at hwaits
  obtain ⟨events, hevents, hbrings⟩ := (h.told side).of_waits hwaits
  rw [hevents, hbrings.protocol] at hwaits
  cases hreason : side.reason told with
  | none =>
    refine ⟨s, fun other => ?_, h.agrees, fun other given cause => h.caused_after hpossible other⟩
    by_cases hother : other = side
    · subst hother
      rw [Function.update_self, hevents]
      exact .last hbrings hreason
    · rw [Function.update_of_ne hother]
      exact h.told other
  | some cause =>
    obtain ⟨event, rfl, -⟩ := Option.bind_eq_some_iff.mp hreason
    have hdue := h.due_of_possible hevents hbrings hreason hpossible
    obtain ⟨next, hnext⟩ := Option.isSome_iff_exists.mp ((h.agrees.due_iff hwaits event).mp hdue)
    refine ⟨next, fun other => ?_, h.agrees.step hnext, fun other given cause => h.caused_after hpossible other⟩
    by_cases hother : other = side
    · subst hother
      rw [Function.update_self, hevents, ← List.map_singleton, ← List.map_append]
      exact .so_far (hbrings.step hnext)
    · rw [Function.update_of_ne hother]
      exact (h.told other).other hother hnext

theorem Peers.at_of_run {deliveries : List (Side × Option RdmaCmEvent)}
    (hrun : run p.step (fun _ => []) deliveries = some feed) : ∃ s, p.At feed s := by
  refine run_invariant (I := fun feed => ∃ s, p.At feed s) ?_ ⟨_, p.at_start⟩ hrun
  rintro feed delivery after ⟨s, h⟩ hstep
  exact h.step hstep

theorem Peers.step_length {delivery : Side × Option RdmaCmEvent} (hstep : p.step feed delivery = some after) :
    (after .client).length + (after .server).length = (feed .client).length + (feed .server).length + 1 := by
  obtain ⟨side, told⟩ := delivery
  obtain ⟨-, -, rfl⟩ := Peers.step_eq_some hstep
  cases side <;> simp <;> omega

/-- What has been done is part of what the stage says, and the release of the
connection. -/
theorem Peers.At.sublist (h : p.At feed s) (side : Side) :
    (p.behaviour feed side).1.Sublist ((s.behaviour side).1 ++ [.destroy_qp]) := by
  apply (p.within feed side).1.sublist.trans
  rcases (h.told side).does (p.env side) with hdoes | ⟨hdoes, -⟩
  · rw [hdoes]
    exact List.sublist_append_left _ _
  · rw [hdoes]

/-- What the stages say is said in one order. -/
theorem ClientStage.sublist {stage : ClientStage} (h : stage.Bounded) :
    ∃ errors ≤ NUM_OF_RETRIES, stage.behaviour.1.Sublist
      (List.replicate errors .resolve_addr ++ [.resolve_route, .connect, .send]) := by
  cases stage with
  | resolving errors =>
    by_cases hlt : errors < NUM_OF_RETRIES
    · refine ⟨errors + 1, hlt, ?_⟩
      rw [ClientStage.behaviour, if_pos hlt]
      exact List.sublist_append_left _ _
    · refine ⟨NUM_OF_RETRIES, Nat.le_refl _, ?_⟩
      rw [ClientStage.behaviour, if_neg hlt]
      exact List.sublist_append_left _ _
  | routing errors => exact ⟨errors + 1, h, (List.Sublist.refl _).append (by simp)⟩
  | stranded errors => exact ⟨errors + 1, h, (List.Sublist.refl _).append (by simp)⟩
  | connecting errors => exact ⟨errors + 1, h, (List.Sublist.refl _).append (by simp)⟩
  | established errors => exact ⟨errors + 1, h, List.Sublist.refl _⟩

theorem Handshake.established_of_send (s : Handshake) (side : Side) (hsend : .send ∈ (s.behaviour side).1) :
    .RDMA_CM_EVENT_ESTABLISHED ∈ s.kinds side := by
  cases side with
  | client =>
    dsimp only [Handshake.behaviour] at hsend
    rw [← List.count_pos_iff, (ClientStage.count_send _).1] at hsend
    dsimp only [Handshake.kinds]
    cases hstage : s.client with
    | established errors => simp [ClientStage.kinds]
    | _ => simp [hstage, ClientStage.told] at hsend
  | server =>
    dsimp only [Handshake.behaviour] at hsend
    dsimp only [Handshake.kinds]
    cases hstage : s.server with
    | established id told => simp [ServerStage.events]
    | _ => simp [hstage, ServerStage.behaviour] at hsend

theorem Handshake.requested_of_accept (s : Handshake) (haccept : .accept ∈ (s.behaviour .server).1) :
    .RDMA_CM_EVENT_CONNECT_REQUEST ∈ s.kinds .server := by
  dsimp only [Handshake.behaviour] at haccept
  dsimp only [Handshake.kinds]
  cases hstage : s.server with
  | listening => simp [hstage, ServerStage.behaviour] at haccept
  | _ => simp [ServerStage.events]

theorem Handshake.not_destroyed (s : Handshake) (side : Side) : .destroy_qp ∉ (s.behaviour side).1 := by
  cases side with
  | client => exact (ClientStage.count_send s.client).2
  | server => cases hstage : s.server <;> simp [Handshake.behaviour, hstage, ServerStage.behaviour]

section Reached

variable (h : p.At feed s)

include h

theorem Peers.At.mem_stage {action : Action} (side : Side) (hmem : action ∈ (p.behaviour feed side).1)
    (hne : action ≠ .destroy_qp) : action ∈ (s.behaviour side).1 := by
  have hmem := (h.sublist side).subset hmem
  rw [List.mem_append, List.mem_singleton] at hmem
  exact hmem.resolve_right hne

theorem Peers.At.accepted (side : Side) (hsend : .send ∈ (p.behaviour feed side).1) :
    .accept ∈ p.achieved feed .server := by
  have hestablished := s.established_of_send side (h.mem_stage side hsend (by decide))
  obtain ⟨id, hmem⟩ := (h.told side).mem_of_kinds hestablished
  exact h.caused side _ (.server, .accept) hmem (Side.cause_established side)

theorem Peers.At.requested (haccept : .accept ∈ (p.behaviour feed .server).1) :
    .connect ∈ p.achieved feed .client := by
  have hrequested := s.requested_of_accept (h.mem_stage .server haccept (by decide))
  obtain ⟨id, hmem⟩ := (h.told .server).mem_of_kinds hrequested
  exact h.caused .server _ (.client, .connect) hmem Side.cause_connect_request

theorem Peers.At.disconnected (side : Side) (hdestroy : .destroy_qp ∈ (p.behaviour feed side).1) :
    ∃ id, some ⟨.RDMA_CM_EVENT_DISCONNECTED, id⟩ ∈ feed side := by
  have hmem := (p.within feed side).1.subset hdestroy
  rcases (h.told side).does (p.env side) with hdoes | ⟨-, hdisconnected⟩
  · rw [hdoes] at hmem
    exact absurd hmem (s.not_destroyed side)
  · exact hdisconnected

theorem Peers.At.client_order : ∃ errors ≤ NUM_OF_RETRIES, (p.behaviour feed .client).1.Sublist
    (List.replicate errors .resolve_addr ++ [.resolve_route, .connect, .send, .destroy_qp]) := by
  obtain ⟨told, hbrings⟩ := (h.told .client).brings
  obtain ⟨errors, hle, horder⟩ := ClientStage.sublist hbrings.2
  refine ⟨errors, hle, ?_⟩
  have hall := (h.sublist .client).trans (horder.append (List.Sublist.refl [Action.destroy_qp]))
  rwa [List.append_assoc] at hall

theorem Peers.At.server_order : (p.behaviour feed .server).1.Sublist [.accept, .send, .destroy_qp] := by
  apply (h.sublist .server).trans
  dsimp only [Handshake.behaviour]
  cases s.server <;> simp [ServerStage.behaviour]

end Reached

/-- A client and a server on hosts where any call may fail, between which the
connection manager delivers the consequences of actions that have succeeded, in
any order, and any other event, for any id, at any time. Each side acts in the
order of the protocol, the client with at most ten requests for the address, and
each sends at most one message. Nothing is sent unless `rdma_accept` has
succeeded, which is not called unless `rdma_connect` has succeeded, and no
connection is released unless the side is told that it has ended. No more than
sixteen deliveries can be made. -/
theorem Peers.run_safe {deliveries : List (Side × Option RdmaCmEvent)}
    (hrun : run p.step (fun _ => []) deliveries = some feed) :
    deliveries.length ≤ NUM_OF_RETRIES + 6 ∧
    (∃ errors ≤ NUM_OF_RETRIES, (p.behaviour feed .client).1.Sublist
      (List.replicate errors .resolve_addr ++ [.resolve_route, .connect, .send, .destroy_qp])) ∧
    (p.behaviour feed .server).1.Sublist [.accept, .send, .destroy_qp] ∧
    (∀ side, .send ∈ (p.behaviour feed side).1 → .accept ∈ p.achieved feed .server) ∧
    (.accept ∈ (p.behaviour feed .server).1 → .connect ∈ p.achieved feed .client) ∧
    ∀ side, .destroy_qp ∈ (p.behaviour feed side).1 → ∃ id, some ⟨.RDMA_CM_EVENT_DISCONNECTED, id⟩ ∈ feed side := by
  obtain ⟨s, h⟩ := Peers.at_of_run hrun
  refine ⟨?_, h.client_order, h.server_order, h.accepted, h.requested, h.disconnected⟩
  have hsize : (feed .client).length + (feed .server).length = 0 + deliveries.length := by
    exact run_measure (fun before delivery after hstep => Peers.step_length hstep) hrun
  have hclient := (h.told .client).length_le
  have hserver := (h.told .server).length_le
  simp only [Side.most_told] at hclient hserver
  omega

/-- Every call succeeds but `rdma_accept`. -/
def noAcceptEnv : Env :=
  { workingEnv with
    succeeds := fun _ c =>
      match c with
      | .rdma_accept _ _ => false
      | _ => true }

/-- The two programs, where the server cannot accept. -/
def refusedPeers : Peers where
  env := fun side => if side = .client then workingEnv else noAcceptEnv
  conn := fun side => if side = .client then clientConn else serverConn
  sides side := by cases side <;> rfl

/-- The client is told in the end that it has been rejected. -/
def refusedDeliveries : List (Side × Option RdmaCmEvent) :=
  [(.client, some ⟨.RDMA_CM_EVENT_ADDR_RESOLVED, 1⟩), (.client, some ⟨.RDMA_CM_EVENT_ROUTE_RESOLVED, 1⟩),
    (.server, some ⟨.RDMA_CM_EVENT_CONNECT_REQUEST, 2⟩), (.client, some ⟨.RDMA_CM_EVENT_REJECTED, 1⟩)]

theorem Peers.run_safe_refused :
    ∃ feed, run refusedPeers.step (fun _ => []) refusedDeliveries = some feed ∧
      .connect ∈ refusedPeers.achieved feed .client ∧ .send ∉ (refusedPeers.behaviour feed .client).1 := by
  have hruns : (run refusedPeers.step (fun _ => []) refusedDeliveries).any (fun feed =>
      decide (.accept ∈ (refusedPeers.behaviour feed .server).1 ∧
        .accept ∉ refusedPeers.achieved feed .server)) = true := by
    decide +kernel
  obtain ⟨feed, hrun, haccept⟩ := (Option.any_eq_true _ _).mp hruns
  obtain ⟨hasked, hrefused⟩ := of_decide_eq_true haccept
  obtain ⟨-, -, -, hsent, haccepted, -⟩ := Peers.run_safe hrun
  exact ⟨feed, hrun, haccepted hasked, fun hsend => hrefused (hsent .client hsend)⟩

end tc_rdma.rdma_com
