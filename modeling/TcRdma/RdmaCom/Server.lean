import TcRdma.RdmaCom.EventLoop

open tc_rdma.machine

namespace tc_rdma.rdma_com

/-- The constructor `RDMAServer(env)`, whose assertion wants `machine` to be
`SERVER`. -/
def RDMAServer.new (this : UInt64) (env : EnvBasicParam) : Option ConnectionProc :=
  if env.machine = .SERVER then
    some
      { this := this
        conn_params := { env := env, connected := false, num_of_qps := 1, wr_cq_number := 128 }
        conn_ctx := .uninitialized }
  else none

/-- The parameters that the constructor leaves. -/
theorem RDMAServer.new_conn_params {this : UInt64} {env : EnvBasicParam} {conn : ConnectionProc}
    (hnew : RDMAServer.new this env = some conn) :
    conn.conn_params = { env := env, connected := false, num_of_qps := 1, wr_cq_number := 128 } := by
  unfold RDMAServer.new at hnew
  split at hnew
  · cases hnew
    rfl
  · cases hnew

/-- A server that has just been constructed. -/
def serverConn : ConnectionProc :=
  { this := 64
    conn_params :=
      { env := { server_ip := none, server_port := 18515, machine := .SERVER }
        connected := false
        num_of_qps := 1
        wr_cq_number := 128 }
    conn_ctx := .uninitialized }

example : RDMAServer.new 64 serverConn.conn_params.env = some serverConn := rfl

/-- A client asks for a connection, and nothing else happens. -/
def firstRequest : Events := [some ⟨.RDMA_CM_EVENT_CONNECT_REQUEST, 2⟩]

def RDMAServer.on_connect_request (env : Env) (id : CmId) : Prog Status := do
  if (← build_connection env id) = .FAILURE then
    return .FAILURE
  let cm_params : RdmaConnParam :=
    { initiator_depth := 1, responder_resources := 1, retry_count := 0, rnr_retry_count := 7 }
  if (← invoke env (.rdma_accept id cm_params)).isNone then
    return .FAILURE
  return .SUCCESS

def RDMAServer.on_connection (env : Env) (_id : CmId) : Prog Status := rdma_com.on_connection env

def RDMAServer.on_disconnect (env : Env) (id : CmId) : Prog Status := rdma_com.on_disconnect env id

def RDMAServer.on_event (env : Env) (event : RdmaCmEvent) : Prog Status :=
  match event.event with
  | .RDMA_CM_EVENT_CONNECT_REQUEST => RDMAServer.on_connect_request env event.id
  | .RDMA_CM_EVENT_ESTABLISHED => RDMAServer.on_connection env event.id
  | .RDMA_CM_EVENT_DISCONNECTED => RDMAServer.on_disconnect env event.id
  | _ => return .FAILURE

/-- The part of `run` before its first event: whether the server listens. -/
def RDMAServer.listen (env : Env) : Prog Status := do
  let cm_channel ← invoke env .rdma_create_event_channel
  modify_ctx fun ctx => { ctx with cm_channel := .set cm_channel }
  let some cm_channel := cm_channel | return .FAILURE
  if (← invoke env (.rdma_create_id cm_channel)).isNone then
    return .FAILURE
  modify_ctx fun ctx => { ctx with cm_id_control := .set env.new_id }
  let some sin_port ← resolve_port env none | return .FAILURE
  let _ ← invoke env .freeaddrinfo
  let cm_id_control ← load .cm_id_control ConnContext.cm_id_control
  if (← invoke env (.rdma_bind_addr cm_id_control sin_port)).isNone then
    record (.printed " rdma_bind_addr failed\n")
    return .FAILURE
  let num_of_qps := (← get).conn.conn_params.num_of_qps
  if (← invoke env (.rdma_listen cm_id_control num_of_qps)).isNone then
    record (.printed "rdma_listen failed\n")
    return .FAILURE
  return .SUCCESS

/-- What `run` does with its first event. The event is acknowledged last. -/
def RDMAServer.first_event (env : Env) (event : RdmaCmEvent) : Prog Status := do
  let n ← obtain_event event
  if event.event ≠ .RDMA_CM_EVENT_CONNECT_REQUEST then
    record (.printed ("error RDMA_CM_EVENT on server connect " ++ toString event.event.code ++ "\n"))
    return .FAILURE
  modify_ctx fun ctx => { ctx with cm_id := .set event.id, context := .set (some (env.verbs event.id)) }
  if (← RDMAServer.on_connect_request env event.id) = .FAILURE then
    return .FAILURE
  rdma_ack_cm_event env n
  return .SUCCESS

/-- What follows the event loop of `run`. -/
def RDMAServer.close (env : Env) : Prog Status := do
  let cm_id_control ← load .cm_id_control ConnContext.cm_id_control
  let _ ← invoke env (.rdma_destroy_id cm_id_control)
  let cm_channel ← load .cm_channel ConnContext.cm_channel
  let _ ← invoke env (.rdma_destroy_event_channel cm_channel)
  return .SUCCESS

def RDMAServer.serve (env : Env) (events : Events) : Prog Status := do
  working_on_cm_event env .server_loop (RDMAServer.on_event env) events
  RDMAServer.close env

def RDMAServer.run (env : Env) (events : Events) : Prog Status := do
  if (← RDMAServer.listen env) = .FAILURE then
    return .FAILURE
  match events with
  | [] => throw (.blocked .server_first)
  | none :: _ =>
    record .no_event
    record (.printed "rdma_get_cm_events failed\n")
    return .FAILURE
  | some event :: rest =>
    if (← RDMAServer.first_event env event) = .FAILURE then
      return .FAILURE
    RDMAServer.serve env rest

end tc_rdma.rdma_com
