import TcRdma.RdmaCom.EventLoop

open tc_rdma.machine

namespace tc_rdma.rdma_com

/-- The constructor `RDMAClient(env)`, whose assertion wants `machine` to be
`CLIENT`. -/
def RDMAClient.new (this : UInt64) (env : EnvBasicParam) : Option ConnectionProc :=
  if env.machine = .CLIENT then
    some
      { this := this
        conn_params := { env := env, connected := false, num_of_qps := 1, wr_cq_number := 128 }
        conn_ctx := .uninitialized }
  else none

/-- The parameters that the constructor leaves. -/
theorem RDMAClient.new_conn_params {this : UInt64} {env : EnvBasicParam} {conn : ConnectionProc}
    (hnew : RDMAClient.new this env = some conn) :
    conn.conn_params = { env := env, connected := false, num_of_qps := 1, wr_cq_number := 128 } := by
  unfold RDMAClient.new at hnew
  split at hnew
  · cases hnew
    rfl
  · cases hnew

/-- A client that has just been constructed. -/
def clientConn : ConnectionProc :=
  { this := 96
    conn_params :=
      { env := { server_ip := some "10.0.0.1", server_port := 18515, machine := .CLIENT }
        connected := false
        num_of_qps := 1
        wr_cq_number := 128 }
    conn_ctx := .uninitialized }

example : RDMAClient.new 96 clientConn.conn_params.env = some clientConn := rfl

/-- The events of a client whose connection is established. -/
def establishing : Events :=
  [.RDMA_CM_EVENT_ADDR_RESOLVED, .RDMA_CM_EVENT_ROUTE_RESOLVED, .RDMA_CM_EVENT_ESTABLISHED].map
    fun event => some ⟨event, 1⟩

/-- The result of `build_connection` is not looked at. -/
def RDMAClient.on_addr_resolved (env : Env) (id : CmId) : Prog Status := do
  check (decide ((← get).conn.conn_params.env.machine = .CLIENT)) .assertion_machine
  let _ ← build_connection env id
  if (← invoke env (.rdma_resolve_route id RDMA_TIMEOUT_IN_MS)).isNone then
    record (.printed "rdma_resolve_route failed\n")
    return .FAILURE
  return .SUCCESS

def RDMAClient.on_route_resolved (env : Env) (id : CmId) : Prog Status := do
  let cm_params : RdmaConnParam :=
    { initiator_depth := 1, responder_resources := 1, retry_count := 7, rnr_retry_count := 7 }
  if (← invoke env (.rdma_connect id cm_params)).isNone then
    return .FAILURE
  return .SUCCESS

def RDMAClient.on_connection (env : Env) (_id : CmId) : Prog Status := rdma_com.on_connection env

def RDMAClient.on_disconnect (env : Env) (id : CmId) : Prog Status := rdma_com.on_disconnect env id

def RDMAClient.on_event (env : Env) (event : RdmaCmEvent) : Prog Status :=
  match event.event with
  | .RDMA_CM_EVENT_ADDR_RESOLVED => RDMAClient.on_addr_resolved env event.id
  | .RDMA_CM_EVENT_ROUTE_RESOLVED => RDMAClient.on_route_resolved env event.id
  | .RDMA_CM_EVENT_ESTABLISHED => RDMAClient.on_connection env event.id
  | .RDMA_CM_EVENT_DISCONNECTED => RDMAClient.on_disconnect env event.id
  | _ => return .FAILURE

/-- The part of `run` before its first loop: the port of the server's address,
unless `run` returns `FAILURE`. -/
def RDMAClient.create (env : Env) : Prog (Option UInt16) := do
  let cm_channel ← invoke env .rdma_create_event_channel
  modify_ctx fun ctx => { ctx with cm_channel := .set cm_channel }
  let some cm_channel := cm_channel | return none
  if (← invoke env (.rdma_create_id cm_channel)).isNone then
    return none
  modify_ctx fun ctx => { ctx with cm_id := .set env.new_id }
  resolve_port env (← get).conn.conn_params.env.server_ip

/-- The first loop of `run`: the retries left and the events still to come,
unless `run` returns `FAILURE`. One event ends each pass of the loop. -/
def RDMAClient.resolve_addr (env : Env) (sin_port : UInt16) : Nat → Events → Prog (Option (Nat × Events))
  | 0, _ => do
    record (.printed ("Received " ++ toString NUM_OF_RETRIES ++ " times ADDR_ERROR\n"))
    return none
  | num_of_retry + 1, events => do
    let cm_id ← load .cm_id ConnContext.cm_id
    if (← invoke env (.rdma_resolve_addr cm_id sin_port RDMA_TIMEOUT_IN_MS)).isNone then
      record (.printed "rdma_resolve_addr failed\n")
      return none
    match events with
    | [] => throw (.blocked .client_addr)
    | none :: _ =>
      record .no_event
      record (.printed "rdma_get_cm_events failed\n")
      return none
    | some event :: rest =>
      let n ← obtain_event event
      if event.event = .RDMA_CM_EVENT_ADDR_ERROR then
        rdma_ack_cm_event env n
        RDMAClient.resolve_addr env sin_port num_of_retry rest
      else if event.event ≠ .RDMA_CM_EVENT_ADDR_RESOLVED then
        rdma_ack_cm_event env n
        return none
      else
        let cm_id ← load .cm_id ConnContext.cm_id
        modify_ctx fun ctx => { ctx with context := .set (some (env.verbs cm_id)) }
        rdma_ack_cm_event env n
        if (← RDMAClient.on_addr_resolved env event.id) = .FAILURE then
          return none
        return some (num_of_retry + 1, rest)

/-- The second loop of `run`: the events still to come, unless `run` returns
`FAILURE`. It does not ask for the route again after an error. -/
def RDMAClient.resolve_route (env : Env) : Nat → Events → Prog (Option Events)
  | 0, _ => do
    record (.printed ("Received " ++ toString NUM_OF_RETRIES ++ " times ADDR_ERROR - aborting\n"))
    return none
  | num_of_retry + 1, events =>
    match events with
    | [] => throw (.blocked .client_route)
    | none :: _ => do
      record .no_event
      record (.printed "rdma_get_cm_events failed\n")
      return none
    | some event :: rest => do
      let n ← obtain_event event
      if event.event = .RDMA_CM_EVENT_ROUTE_ERROR then
        rdma_ack_cm_event env n
        RDMAClient.resolve_route env num_of_retry rest
      else if event.event ≠ .RDMA_CM_EVENT_ROUTE_RESOLVED then
        record (.printed ("unexpected CM event " ++ toString event.event.code ++ "\n"))
        rdma_ack_cm_event env n
        return none
      else
        rdma_ack_cm_event env n
        if (← RDMAClient.on_route_resolved env event.id) = .FAILURE then
          return none
        return some rest

/-- What follows the event loop of `run`. -/
def RDMAClient.close (env : Env) : Prog Status := do
  let cm_channel ← load .cm_channel ConnContext.cm_channel
  let _ ← invoke env (.rdma_destroy_event_channel cm_channel)
  return .SUCCESS

def RDMAClient.work (env : Env) (events : Events) : Prog Status := do
  working_on_cm_event env .client_loop (RDMAClient.on_event env) events
  RDMAClient.close env

def RDMAClient.run (env : Env) (events : Events) : Prog Status := do
  let some sin_port ← RDMAClient.create env | return .FAILURE
  let some (num_of_retry, events) ← RDMAClient.resolve_addr env sin_port NUM_OF_RETRIES events | return .FAILURE
  let some events ← RDMAClient.resolve_route env num_of_retry events | return .FAILURE
  RDMAClient.work env events

end tc_rdma.rdma_com
