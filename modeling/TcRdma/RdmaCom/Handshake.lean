import TcRdma.RdmaCom.ClientProtocol
import TcRdma.RdmaCom.ServerProtocol

open tc_rdma.machine

namespace tc_rdma.rdma_com

/-- The action whose consequence it is that the side is told an event of this
kind. Only `stop` calls `rdma_disconnect`, and nothing calls `stop`, so that no
side is told that its connection has ended. -/
def Side.cause : Side → RdmaCmEventType → Option (Side × Action)
  | .client, .RDMA_CM_EVENT_ADDR_RESOLVED => some (.client, .resolve_addr)
  | .client, .RDMA_CM_EVENT_ADDR_ERROR => some (.client, .resolve_addr)
  | .client, .RDMA_CM_EVENT_ROUTE_RESOLVED => some (.client, .resolve_route)
  | .client, .RDMA_CM_EVENT_ROUTE_ERROR => some (.client, .resolve_route)
  | .server, .RDMA_CM_EVENT_CONNECT_REQUEST => some (.client, .connect)
  | _, .RDMA_CM_EVENT_ESTABLISHED => some (.server, .accept)
  | _, _ => none

@[simp] theorem Side.cause_addr_error :
    Side.client.cause .RDMA_CM_EVENT_ADDR_ERROR = some (.client, .resolve_addr) := rfl

@[simp] theorem Side.cause_addr_resolved :
    Side.client.cause .RDMA_CM_EVENT_ADDR_RESOLVED = some (.client, .resolve_addr) := rfl

@[simp] theorem Side.cause_route_error :
    Side.client.cause .RDMA_CM_EVENT_ROUTE_ERROR = some (.client, .resolve_route) := rfl

@[simp] theorem Side.cause_route_resolved :
    Side.client.cause .RDMA_CM_EVENT_ROUTE_RESOLVED = some (.client, .resolve_route) := rfl

@[simp] theorem Side.cause_connect_request :
    Side.server.cause .RDMA_CM_EVENT_CONNECT_REQUEST = some (.client, .connect) := rfl

@[simp] theorem Side.cause_established (side : Side) :
    side.cause .RDMA_CM_EVENT_ESTABLISHED = some (.server, .accept) := by
  cases side <;> rfl

def RunEnd.waits : RunEnd → Bool
  | .halted (.blocked _) => true
  | _ => false

/-- How far the client has got, after so many failures of the address. -/
inductive ClientStage where
  | resolving (errors : Nat)
  | routing (errors : Nat)
  | stranded (errors : Nat)
  | connecting (errors : Nat)
  | established (errors : Nat)
  deriving DecidableEq, Repr

inductive ServerStage where
  | listening
  | accepted (id : CmId)
  | established (id told : CmId)
  deriving DecidableEq, Repr

/-- What a connection between the two comes to, step by step. -/
structure Handshake where
  client : ClientStage
  server : ServerStage
  deriving DecidableEq, Repr

def ClientStage.tell (stage : ClientStage) (kind : RdmaCmEventType) (accepted : Bool) : Option ClientStage :=
  match stage, kind with
  | .resolving errors, .RDMA_CM_EVENT_ADDR_ERROR =>
    if errors < NUM_OF_RETRIES then some (.resolving (errors + 1)) else none
  | .resolving errors, .RDMA_CM_EVENT_ADDR_RESOLVED => if errors < NUM_OF_RETRIES then some (.routing errors) else none
  | .routing errors, .RDMA_CM_EVENT_ROUTE_ERROR => some (.stranded errors)
  | .routing errors, .RDMA_CM_EVENT_ROUTE_RESOLVED => some (.connecting errors)
  | .connecting errors, .RDMA_CM_EVENT_ESTABLISHED => if accepted then some (.established errors) else none
  | _, _ => none

def ServerStage.tell (stage : ServerStage) (event : RdmaCmEvent) (requested : Bool) : Option ServerStage :=
  match stage, event.event with
  | .listening, .RDMA_CM_EVENT_CONNECT_REQUEST => if requested then some (.accepted event.id) else none
  | .accepted id, .RDMA_CM_EVENT_ESTABLISHED => some (.established id event.id)
  | _, _ => none

def ClientStage.requested : ClientStage → Bool
  | .connecting _ => true
  | .established _ => true
  | _ => false

def ServerStage.has_accepted : ServerStage → Bool
  | .listening => false
  | _ => true

def Handshake.step (s : Handshake) : Side × RdmaCmEvent → Option Handshake
  | (.client, event) => (s.client.tell event.event s.server.has_accepted).map fun client => { s with client := client }
  | (.server, event) => (s.server.tell event s.client.requested).map fun server => { s with server := server }

/-- The kinds of the events that have brought the client so far. -/
def ClientStage.kinds : ClientStage → List RdmaCmEventType
  | .resolving errors => List.replicate errors .RDMA_CM_EVENT_ADDR_ERROR
  | .routing errors => List.replicate errors .RDMA_CM_EVENT_ADDR_ERROR ++ [.RDMA_CM_EVENT_ADDR_RESOLVED]
  | .stranded errors => List.replicate errors .RDMA_CM_EVENT_ADDR_ERROR ++
      [.RDMA_CM_EVENT_ADDR_RESOLVED, .RDMA_CM_EVENT_ROUTE_ERROR]
  | .connecting errors => List.replicate errors .RDMA_CM_EVENT_ADDR_ERROR ++
      [.RDMA_CM_EVENT_ADDR_RESOLVED, .RDMA_CM_EVENT_ROUTE_RESOLVED]
  | .established errors => List.replicate errors .RDMA_CM_EVENT_ADDR_ERROR ++
      [.RDMA_CM_EVENT_ADDR_RESOLVED, .RDMA_CM_EVENT_ROUTE_RESOLVED, .RDMA_CM_EVENT_ESTABLISHED]

def ServerStage.events : ServerStage → List RdmaCmEvent
  | .listening => []
  | .accepted id => [⟨.RDMA_CM_EVENT_CONNECT_REQUEST, id⟩]
  | .established id told => [⟨.RDMA_CM_EVENT_CONNECT_REQUEST, id⟩, ⟨.RDMA_CM_EVENT_ESTABLISHED, told⟩]

/-- What the client has done, and how it stands. -/
def ClientStage.behaviour : ClientStage → Behaviour
  | .resolving errors =>
    if errors < NUM_OF_RETRIES then (List.replicate (errors + 1) .resolve_addr, .halted (.blocked .client_addr))
    else (List.replicate NUM_OF_RETRIES .resolve_addr, .returned .FAILURE)
  | .routing errors => (List.replicate (errors + 1) .resolve_addr ++ [.resolve_route], .halted (.blocked .client_route))
  | .stranded errors =>
    (List.replicate (errors + 1) .resolve_addr ++ [.resolve_route],
      if errors + 1 < NUM_OF_RETRIES then .halted (.blocked .client_route) else .returned .FAILURE)
  | .connecting errors =>
    (List.replicate (errors + 1) .resolve_addr ++ [.resolve_route, .connect], .halted (.blocked .client_loop))
  | .established errors =>
    (List.replicate (errors + 1) .resolve_addr ++ [.resolve_route, .connect, .send], .halted (.blocked .client_loop))

def ServerStage.behaviour : ServerStage → Behaviour
  | .listening => ([], .halted (.blocked .server_first))
  | .accepted _ => ([.accept], .halted (.blocked .server_loop))
  | .established _ _ => ([.accept, .send], .halted (.blocked .server_loop))

/-- The failures are within the retries. -/
def ClientStage.Bounded : ClientStage → Prop
  | .resolving errors => errors ≤ NUM_OF_RETRIES
  | .routing errors => errors < NUM_OF_RETRIES
  | .stranded errors => errors < NUM_OF_RETRIES
  | .connecting errors => errors < NUM_OF_RETRIES
  | .established errors => errors < NUM_OF_RETRIES

variable {s : Handshake} {id : CmId}

/-- The failures of the address have been told, and then these. -/
theorem RDMAClient.protocol_errors {errors retries : Nat} (hle : errors ≤ retries) {told : List RdmaCmEvent}
    {tail : List RdmaCmEventType}
    (hkinds : told.map RdmaCmEvent.event = List.replicate errors .RDMA_CM_EVENT_ADDR_ERROR ++ tail) (more : Events) :
    ∃ rest : List RdmaCmEvent, rest.map RdmaCmEvent.event = tail ∧
      RDMAClient.protocol retries (told.map some ++ more) =
        emit (List.replicate errors .resolve_addr) (RDMAClient.protocol (retries - errors) (rest.map some ++ more)) := by
  induction errors generalizing retries told with
  | zero => exact ⟨told, hkinds, rfl⟩
  | succ errors ih =>
    obtain ⟨retries, rfl⟩ := Nat.exists_eq_add_one_of_ne_zero (Nat.ne_zero_of_lt hle)
    rw [List.replicate_succ, List.cons_append] at hkinds
    obtain ⟨event, rest, rfl, herror, hrest⟩ := List.map_eq_cons_iff.mp hkinds
    obtain ⟨rest', hkinds', hprotocol⟩ := ih (Nat.le_of_succ_le_succ hle) hrest
    refine ⟨rest', hkinds', ?_⟩
    rw [List.map_cons, List.cons_append, RDMAClient.protocol_error herror, hprotocol, Nat.succ_sub_succ, emit_emit]
    rfl

/-- The events of a stage, for the id of the client. -/
def ClientStage.events (stage : ClientStage) (id : CmId) : List RdmaCmEvent := stage.kinds.map fun kind => ⟨kind, id⟩

/-- What the client has done for the events it has been told. -/
def ClientStage.done : ClientStage → List Action
  | .resolving errors => List.replicate errors .resolve_addr
  | .routing errors => List.replicate (errors + 1) .resolve_addr ++ [.resolve_route]
  | .stranded errors => List.replicate (errors + 1) .resolve_addr ++ [.resolve_route]
  | .connecting errors => List.replicate (errors + 1) .resolve_addr ++ [.resolve_route, .connect]
  | .established errors => List.replicate (errors + 1) .resolve_addr ++ [.resolve_route, .connect, .send]

/-- What it does on those that follow. -/
def ClientStage.still (more : Events) : ClientStage → Behaviour
  | .resolving errors => RDMAClient.protocol (NUM_OF_RETRIES - errors) more
  | .routing errors => RDMAClient.protocol_route (NUM_OF_RETRIES - errors) more
  | .stranded errors => RDMAClient.protocol_route (NUM_OF_RETRIES - errors - 1) more
  | .connecting _ => RDMAClient.protocol_loop more
  | .established _ => RDMAClient.protocol_loop more

/-- The events that bring the client to its stage are told by their kinds. -/
theorem ClientStage.protocol_append {stage : ClientStage} (h : stage.Bounded) {told : List RdmaCmEvent}
    (hkinds : told.map RdmaCmEvent.event = stage.kinds) (more : Events) :
    RDMAClient.protocol NUM_OF_RETRIES (told.map some ++ more) = emit stage.done (stage.still more) := by
  have hbegun : ∀ {errors} {tail : List RdmaCmEventType}, errors < NUM_OF_RETRIES →
      stage.kinds = List.replicate errors .RDMA_CM_EVENT_ADDR_ERROR ++ .RDMA_CM_EVENT_ADDR_RESOLVED :: tail →
      ∃ rest : List RdmaCmEvent, rest.map RdmaCmEvent.event = tail ∧
        RDMAClient.protocol NUM_OF_RETRIES (told.map some ++ more) =
          emit (List.replicate (errors + 1) .resolve_addr ++ [.resolve_route])
            (RDMAClient.protocol_route (NUM_OF_RETRIES - errors) (rest.map some ++ more)) := by
    intro errors tail hlt htail
    obtain ⟨rest, hrest, hprotocol⟩ := RDMAClient.protocol_errors (Nat.le_of_lt hlt) (hkinds.trans htail) more
    obtain ⟨left, hleft⟩ := Nat.exists_eq_add_one_of_ne_zero (Nat.sub_ne_zero_of_lt hlt)
    obtain ⟨event, rest, rfl, hresolved, hrest⟩ := List.map_eq_cons_iff.mp hrest
    refine ⟨rest, hrest, ?_⟩
    rw [hprotocol, hleft, List.map_cons, List.cons_append, RDMAClient.protocol_resolved hresolved, emit_emit,
      List.replicate_succ', List.append_assoc]
    rfl
  cases stage with
  | resolving errors =>
    have hkinds := hkinds.trans (List.append_nil (ClientStage.kinds (.resolving errors))).symm
    obtain ⟨rest, hrest, hprotocol⟩ := RDMAClient.protocol_errors h hkinds more
    obtain rfl := List.map_eq_nil_iff.mp hrest
    exact hprotocol
  | routing errors =>
    obtain ⟨rest, hrest, hprotocol⟩ := hbegun h rfl
    obtain rfl := List.map_eq_nil_iff.mp hrest
    exact hprotocol
  | stranded errors =>
    obtain ⟨rest, hrest, hprotocol⟩ := hbegun h rfl
    obtain ⟨left, hleft⟩ := Nat.exists_eq_add_one_of_ne_zero (Nat.sub_ne_zero_of_lt h)
    obtain ⟨event, rest, rfl, herror, hrest⟩ := List.map_eq_cons_iff.mp hrest
    obtain rfl := List.map_eq_nil_iff.mp hrest
    rw [hprotocol, ClientStage.still, hleft, List.map_cons, List.cons_append, RDMAClient.protocol_route_error herror]
    rfl
  | connecting errors =>
    obtain ⟨rest, hrest, hprotocol⟩ := hbegun h rfl
    obtain ⟨left, hleft⟩ := Nat.exists_eq_add_one_of_ne_zero (Nat.sub_ne_zero_of_lt h)
    obtain ⟨event, rest, rfl, hresolved, hrest⟩ := List.map_eq_cons_iff.mp hrest
    obtain rfl := List.map_eq_nil_iff.mp hrest
    rw [hprotocol, hleft, List.map_cons, List.cons_append, RDMAClient.protocol_route_resolved hresolved, emit_emit,
      List.append_assoc]
    rfl
  | established errors =>
    obtain ⟨rest, hrest, hprotocol⟩ := hbegun h rfl
    obtain ⟨left, hleft⟩ := Nat.exists_eq_add_one_of_ne_zero (Nat.sub_ne_zero_of_lt h)
    obtain ⟨event, rest, rfl, hresolved, hrest⟩ := List.map_eq_cons_iff.mp hrest
    obtain ⟨told, rest, rfl, hestablished, hrest⟩ := List.map_eq_cons_iff.mp hrest
    obtain rfl := List.map_eq_nil_iff.mp hrest
    rw [hprotocol, hleft, List.map_cons, List.cons_append, RDMAClient.protocol_route_resolved hresolved, List.map_cons,
      List.cons_append, RDMAClient.protocol_loop_established hestablished, emit_emit, emit_emit, List.append_assoc,
      List.append_assoc]
    rfl

/-- A client that is told nothing more has done this. -/
theorem ClientStage.behaviour_eq {stage : ClientStage} (h : stage.Bounded) :
    emit stage.done (stage.still []) = stage.behaviour := by
  cases stage with
  | resolving errors =>
    by_cases hlt : errors < NUM_OF_RETRIES
    · obtain ⟨left, hleft⟩ := Nat.exists_eq_add_one_of_ne_zero (Nat.sub_ne_zero_of_lt hlt)
      rw [ClientStage.still, hleft, ClientStage.behaviour, if_pos hlt, List.replicate_succ']
      rfl
    · obtain rfl : errors = NUM_OF_RETRIES := Nat.le_antisymm h (Nat.not_lt.mp hlt)
      rfl
  | routing errors =>
    obtain ⟨left, hleft⟩ := Nat.exists_eq_add_one_of_ne_zero (Nat.sub_ne_zero_of_lt h)
    rw [ClientStage.still, hleft]
    exact emit_end _ _
  | stranded errors =>
    rw [ClientStage.still, ClientStage.behaviour, Nat.sub_sub]
    by_cases hlt : errors + 1 < NUM_OF_RETRIES
    · obtain ⟨left, hleft⟩ := Nat.exists_eq_add_one_of_ne_zero (Nat.sub_ne_zero_of_lt hlt)
      rw [hleft, if_pos hlt]
      exact emit_end _ _
    · rw [Nat.sub_eq_zero_of_le (Nat.not_lt.mp hlt), if_neg hlt]
      exact emit_end _ _
  | connecting errors => exact emit_end _ _
  | established errors => exact emit_end _ _

theorem ClientStage.map_events (stage : ClientStage) (id : CmId) :
    (stage.events id).map RdmaCmEvent.event = stage.kinds := by
  rw [ClientStage.events, List.map_map]
  exact List.map_id _

theorem ClientStage.protocol_eq {stage : ClientStage} (h : stage.Bounded) (id : CmId) :
    RDMAClient.protocol NUM_OF_RETRIES ((stage.events id).map some) = stage.behaviour := by
  rw [← ClientStage.behaviour_eq h, ← ClientStage.protocol_append h (stage.map_events id), List.append_nil]

theorem ServerStage.protocol_eq (stage : ServerStage) (env : Env) :
    RDMAServer.protocol env (stage.events.map some) = stage.behaviour := by
  cases stage <;> rfl

/-- Who has accepted was asked, and who is connected was accepted. -/
structure Handshake.Agrees (s : Handshake) : Prop where
  requested : s.server.has_accepted = true → s.client.requested = true
  accepted : ∀ errors, s.client = .established errors → s.server.has_accepted = true

/-- A step of the client with its guard, one case for each branch. -/
inductive ClientMove (accepted : Bool) : ClientStage → RdmaCmEventType → ClientStage → Prop where
  | addr_error {errors : Nat} (hlt : errors < NUM_OF_RETRIES) :
      ClientMove accepted (.resolving errors) .RDMA_CM_EVENT_ADDR_ERROR (.resolving (errors + 1))
  | addr_resolved {errors : Nat} (hlt : errors < NUM_OF_RETRIES) :
      ClientMove accepted (.resolving errors) .RDMA_CM_EVENT_ADDR_RESOLVED (.routing errors)
  | route_error {errors : Nat} :
      ClientMove accepted (.routing errors) .RDMA_CM_EVENT_ROUTE_ERROR (.stranded errors)
  | route_resolved {errors : Nat} :
      ClientMove accepted (.routing errors) .RDMA_CM_EVENT_ROUTE_RESOLVED (.connecting errors)
  | established {errors : Nat} (haccepted : accepted = true) :
      ClientMove accepted (.connecting errors) .RDMA_CM_EVENT_ESTABLISHED (.established errors)

theorem ClientStage.tell_move {stage next : ClientStage} {kind : RdmaCmEventType} {accepted : Bool}
    (htell : stage.tell kind accepted = some next) : ClientMove accepted stage kind next := by
  unfold ClientStage.tell at htell
  split at htell
  · split at htell
    · cases htell
      exact .addr_error ‹_›
    · cases htell
  · split at htell
    · cases htell
      exact .addr_resolved ‹_›
    · cases htell
  · cases htell
    exact .route_error
  · cases htell
    exact .route_resolved
  · split at htell
    · cases htell
      exact .established ‹_›
    · cases htell
  · cases htell

/-- A step of the server with its guard. -/
inductive ServerMove (requested : Bool) : ServerStage → RdmaCmEvent → ServerStage → Prop where
  | connect_request {id : CmId} (hrequested : requested = true) :
      ServerMove requested .listening ⟨.RDMA_CM_EVENT_CONNECT_REQUEST, id⟩ (.accepted id)
  | established {id told : CmId} :
      ServerMove requested (.accepted id) ⟨.RDMA_CM_EVENT_ESTABLISHED, told⟩ (.established id told)

theorem ServerStage.tell_move {stage next : ServerStage} {event : RdmaCmEvent} {requested : Bool}
    (htell : stage.tell event requested = some next) : ServerMove requested stage event next := by
  obtain ⟨kind, id⟩ := event
  unfold ServerStage.tell at htell
  split at htell
  · obtain rfl : kind = _ := ‹_›
    split at htell
    · cases htell
      exact .connect_request ‹_›
    · cases htell
  · obtain rfl : kind = _ := ‹_›
    cases htell
    exact .established
  · cases htell

/-- The answers that the client has had to its requests for the address, and
those to its requests for the route, and what it has been told of the server's
`rdma_accept`. -/
def ClientStage.told : ClientStage → Nat × Nat × Nat
  | .resolving errors => (errors, 0, 0)
  | .routing errors => (errors + 1, 0, 0)
  | .stranded errors => (errors + 1, 1, 0)
  | .connecting errors => (errors + 1, 1, 0)
  | .established errors => (errors + 1, 1, 1)

theorem ClientStage.countP_events (stage : ClientStage) (id : CmId) (cause : Side × Action) :
    (stage.events id).countP (fun event => Side.client.cause event.event = some cause) =
      stage.kinds.countP fun kind => Side.client.cause kind = some cause := by
  rw [ClientStage.events, List.countP_map]
  rfl

theorem ClientStage.countP_addr (stage : ClientStage) :
    stage.kinds.countP (fun kind => Side.client.cause kind = some (.client, .resolve_addr)) = stage.told.1 := by
  cases stage <;> simp [ClientStage.kinds, ClientStage.told, List.countP_append, List.countP_replicate]

theorem ClientStage.countP_route (stage : ClientStage) :
    stage.kinds.countP (fun kind => Side.client.cause kind = some (.client, .resolve_route)) = stage.told.2.1 := by
  cases stage <;> simp [ClientStage.kinds, ClientStage.told, List.countP_append, List.countP_replicate]

theorem ClientStage.countP_accept (stage : ClientStage) :
    stage.kinds.countP (fun kind => Side.client.cause kind = some (.server, .accept)) = stage.told.2.2 := by
  cases stage <;> simp [ClientStage.kinds, ClientStage.told, List.countP_append, List.countP_replicate]

/-- A client that waits has an answer due for the address only while it
resolves that. -/
theorem ClientStage.addr_due {stage : ClientStage} (hwaits : stage.behaviour.2.waits = true) :
    stage.told.1 < stage.behaviour.1.count .resolve_addr ↔
      ∃ errors, stage = .resolving errors ∧ errors < NUM_OF_RETRIES := by
  cases stage with
  | resolving errors =>
    by_cases hlt : errors < NUM_OF_RETRIES
    · simp [ClientStage.told, ClientStage.behaviour, hlt]
    · simp [ClientStage.behaviour, RunEnd.waits, hlt] at hwaits
  | _ => simp [ClientStage.told, ClientStage.behaviour]

theorem ClientStage.route_due (stage : ClientStage) :
    stage.told.2.1 < stage.behaviour.1.count .resolve_route ↔ ∃ errors, stage = .routing errors := by
  cases stage with
  | resolving errors =>
    by_cases hlt : errors < NUM_OF_RETRIES <;> simp [ClientStage.told, ClientStage.behaviour, hlt, List.count_replicate]
  | _ => simp [ClientStage.told, ClientStage.behaviour, List.count_replicate]

theorem ClientStage.count_connect (stage : ClientStage) :
    stage.behaviour.1.count .connect = if stage.requested then 1 else 0 := by
  cases stage with
  | resolving errors =>
    by_cases hlt : errors < NUM_OF_RETRIES <;>
      simp [ClientStage.requested, ClientStage.behaviour, hlt, List.count_replicate]
  | _ => simp [ClientStage.requested, ClientStage.behaviour, List.count_replicate]

theorem ServerStage.count_accept (stage : ServerStage) :
    stage.behaviour.1.count .accept = if stage.has_accepted then 1 else 0 := by
  cases stage <;> rfl

section Moves

variable {stage next : ClientStage} {kind : RdmaCmEventType} {accepted : Bool}

theorem ClientMove.waits (h : ClientMove accepted stage kind next) : stage.behaviour.2.waits = true := by
  cases h with
  | addr_error hlt => simp [ClientStage.behaviour, RunEnd.waits, hlt]
  | addr_resolved hlt => simp [ClientStage.behaviour, RunEnd.waits, hlt]
  | _ => rfl

theorem ClientMove.bounded (h : ClientMove accepted stage kind next) (hbounded : stage.Bounded) : next.Bounded := by
  cases h with
  | addr_error hlt => exact hlt
  | addr_resolved hlt => exact hlt
  | _ => exact hbounded

theorem ClientMove.events (h : ClientMove accepted stage kind next) (id : CmId) :
    next.events id = stage.events id ++ [⟨kind, id⟩] := by
  cases h <;> simp [ClientStage.events, ClientStage.kinds, List.replicate_succ']

theorem ClientMove.requested (h : ClientMove accepted stage kind next) (hrequested : stage.requested = true) :
    next.requested = true := by
  cases h <;> first | rfl | cases hrequested

theorem ServerMove.events {stage next : ServerStage} {event : RdmaCmEvent} {requested : Bool}
    (h : ServerMove requested stage event next) : next.events = stage.events ++ [event] := by
  cases h <;> rfl

theorem ServerStage.waits (stage : ServerStage) : stage.behaviour.2.waits = true := by
  cases stage <;> rfl

end Moves

theorem Handshake.Agrees.step {s next : Handshake} {delivery : Side × RdmaCmEvent} (h : s.Agrees)
    (hstep : s.step delivery = some next) : next.Agrees := by
  obtain ⟨client, server⟩ := s
  obtain ⟨side, kind, id⟩ := delivery
  cases side with
  | client =>
    obtain ⟨told, htell, rfl⟩ := Option.map_eq_some_iff.mp hstep
    have hmove : ClientMove server.has_accepted client kind told := ClientStage.tell_move htell
    refine ⟨fun haccepted => hmove.requested (h.requested haccepted), ?_⟩
    rintro errors rfl
    cases hmove with
    | established haccepted => exact haccepted
  | server =>
    obtain ⟨told, htell, rfl⟩ := Option.map_eq_some_iff.mp hstep
    have hmove : ServerMove client.requested server ⟨kind, id⟩ told := ServerStage.tell_move htell
    cases hmove with
    | connect_request hrequested => exact ⟨fun _ => hrequested, fun _ _ => rfl⟩
    | established => exact ⟨fun _ => h.requested rfl, fun _ _ => rfl⟩

theorem Handshake.agrees_start : Handshake.Agrees ⟨.resolving 0, .listening⟩ where
  requested haccepted := by cases haccepted
  accepted errors hestablished := by cases hestablished

theorem ClientStage.ends (stage : ClientStage) :
    stage.behaviour.2.waits = true ∨ stage.behaviour.2 = .returned .FAILURE := by
  cases stage with
  | resolving errors => by_cases hlt : errors < NUM_OF_RETRIES <;> simp [ClientStage.behaviour, RunEnd.waits, hlt]
  | stranded errors => by_cases hlt : errors + 1 < NUM_OF_RETRIES <;> simp [ClientStage.behaviour, RunEnd.waits, hlt]
  | _ => exact .inl rfl

theorem ClientStage.count_send (stage : ClientStage) :
    stage.behaviour.1.count .send = stage.told.2.2 ∧ .destroy_qp ∉ stage.behaviour.1 := by
  cases stage with
  | resolving errors =>
    by_cases hlt : errors < NUM_OF_RETRIES <;> simp [ClientStage.behaviour, ClientStage.told, hlt, List.count_replicate]
  | _ => simp [ClientStage.behaviour, ClientStage.told, List.count_replicate]

theorem Handshake.Agrees.listening (h : s.Agrees) (hrequested : s.client.requested = false) :
    s.server = .listening := by
  have hserver := h.requested
  cases hstage : s.server <;> simp_all [ServerStage.has_accepted]

/-- A client that has failed has done so while it resolved. -/
theorem ClientStage.of_failure {stage : ClientStage} (hends : stage.behaviour.2 = .returned .FAILURE) :
    (∃ errors, stage = .resolving errors ∧ ¬ errors < NUM_OF_RETRIES) ∨ ∃ errors, stage = .stranded errors := by
  cases stage with
  | resolving errors =>
    refine .inl ⟨errors, rfl, fun hlt => ?_⟩
    simp [ClientStage.behaviour, hlt] at hends
  | stranded errors => exact .inr ⟨errors, rfl⟩
  | _ => cases hends

def Handshake.behaviour (s : Handshake) : Side → Behaviour
  | .client => s.client.behaviour
  | .server => s.server.behaviour

/-- The kinds of the events that a side has been told. -/
def Handshake.kinds (s : Handshake) : Side → List RdmaCmEventType
  | .client => s.client.kinds
  | .server => s.server.events.map RdmaCmEvent.event

/-- Some action has not had its consequence at the side yet. -/
def Handshake.Due (s : Handshake) (side : Side) (kind : RdmaCmEventType) : Prop :=
  ∃ cause, side.cause kind = some cause ∧
    (s.kinds side).countP (fun told => side.cause told = some cause) < (s.behaviour cause.1).1.count cause.2

theorem Handshake.due_of_cause {side : Side} {kind : RdmaCmEventType} {cause : Side × Action}
    (hcause : side.cause kind = some cause) :
    s.Due side kind ↔ (s.kinds side).countP (fun told => side.cause told = some cause) <
      (s.behaviour cause.1).1.count cause.2 := by
  unfold Handshake.Due
  simp [hcause]

/-- What is due to a client that waits is what takes it further. -/
theorem Handshake.Agrees.due_client (h : s.Agrees) (hwaits : s.client.behaviour.2.waits = true)
    (kind : RdmaCmEventType) : s.Due .client kind ↔ (s.client.tell kind s.server.has_accepted).isSome = true := by
  have haddr := ClientStage.countP_addr s.client
  have hroute := ClientStage.countP_route s.client
  cases kind with
  | RDMA_CM_EVENT_ADDR_ERROR =>
    rw [Handshake.due_of_cause Side.cause_addr_error, Handshake.kinds, haddr]
    dsimp only [Handshake.behaviour]
    rw [ClientStage.addr_due hwaits]
    cases s.client <;> simp [ClientStage.tell]
  | RDMA_CM_EVENT_ADDR_RESOLVED =>
    rw [Handshake.due_of_cause Side.cause_addr_resolved, Handshake.kinds, haddr]
    dsimp only [Handshake.behaviour]
    rw [ClientStage.addr_due hwaits]
    cases s.client <;> simp [ClientStage.tell]
  | RDMA_CM_EVENT_ROUTE_ERROR =>
    rw [Handshake.due_of_cause Side.cause_route_error, Handshake.kinds, hroute]
    dsimp only [Handshake.behaviour]
    rw [ClientStage.route_due]
    cases s.client <;> simp [ClientStage.tell]
  | RDMA_CM_EVENT_ROUTE_RESOLVED =>
    rw [Handshake.due_of_cause Side.cause_route_resolved, Handshake.kinds, hroute]
    dsimp only [Handshake.behaviour]
    rw [ClientStage.route_due]
    cases s.client <;> simp [ClientStage.tell]
  | RDMA_CM_EVENT_ESTABLISHED =>
    rw [Handshake.due_of_cause (Side.cause_established .client), Handshake.kinds, ClientStage.countP_accept]
    dsimp only [Handshake.behaviour]
    rw [ServerStage.count_accept]
    have hrequested := h.requested
    cases haccepted : s.server.has_accepted <;> cases hclient : s.client <;>
      simp_all [ClientStage.tell, ClientStage.told, ClientStage.requested]
  | _ => simp [Handshake.Due, Side.cause, ClientStage.tell]

/-- What is due to a server, which always waits. -/
theorem Handshake.due_server (s : Handshake) (event : RdmaCmEvent) :
    s.Due .server event.event ↔ (s.server.tell event s.client.requested).isSome = true := by
  obtain ⟨kind, id⟩ := event
  dsimp only
  cases kind with
  | RDMA_CM_EVENT_CONNECT_REQUEST =>
    rw [Handshake.due_of_cause Side.cause_connect_request]
    dsimp only [Handshake.kinds, Handshake.behaviour]
    rw [ClientStage.count_connect]
    cases s.server <;> cases s.client.requested <;> simp [ServerStage.events, ServerStage.tell]
  | RDMA_CM_EVENT_ESTABLISHED =>
    rw [Handshake.due_of_cause (Side.cause_established .server)]
    dsimp only [Handshake.kinds, Handshake.behaviour]
    rw [ServerStage.count_accept]
    cases s.server <;> simp [ServerStage.events, ServerStage.tell, ServerStage.has_accepted]
  | _ => simp [Handshake.Due, Side.cause, ServerStage.tell]

/-- Only a side that waits can be told. -/
theorem Handshake.waits_of_step {delivery : Side × RdmaCmEvent} (hstep : (s.step delivery).isSome = true) :
    (s.behaviour delivery.1).2.waits = true := by
  obtain ⟨side, event⟩ := delivery
  cases side with
  | client =>
    rw [Handshake.step, Option.isSome_map] at hstep
    obtain ⟨told, htold⟩ := Option.isSome_iff_exists.mp hstep
    exact (ClientStage.tell_move htold).waits
  | server => exact s.server.waits

theorem Handshake.Agrees.due_iff (h : s.Agrees) {side : Side} (hwaits : (s.behaviour side).2.waits = true)
    (event : RdmaCmEvent) : s.Due side event.event ↔ (s.step (side, event)).isSome = true := by
  cases side with
  | client =>
    rw [Handshake.step, Option.isSome_map]
    exact h.due_client hwaits event.event
  | server =>
    rw [Handshake.step, Option.isSome_map]
    exact s.due_server event

end tc_rdma.rdma_com
