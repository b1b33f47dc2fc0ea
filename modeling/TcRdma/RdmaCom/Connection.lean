import TcRdma.RdmaCom.World

open tc_rdma.machine

namespace tc_rdma.rdma_com

/-- The result of a call as `int16_t`. -/
def Status.of_call (result : Ptr) : Status := if result.isSome then .SUCCESS else .FAILURE

/-- The address that is cast from a pointer. -/
def Env.address (env : Env) (pointer : Ptr) : UInt64 :=
  match pointer with
  | some handle => env.addr handle
  | none => 0

/-- `rdma_destroy_qp`, which destroys `id->qp`. -/
def rdma_destroy_qp (env : Env) (id : CmId) : Prog Unit := do
  let qp ← deref ((← get).ids id).qp
  let _ ← invoke env (.rdma_destroy_qp id qp)
  modify_id id fun state => { state with qp := none }

def register_message_memory (env : Env) : Prog Unit := do
  let meta_send ← invoke env (.malloc sizeof_meta_message)
  modify_ctx fun ctx => { ctx with meta_send := .set meta_send }
  let meta_recv ← invoke env (.malloc sizeof_meta_message)
  modify_ctx fun ctx => { ctx with meta_recv := .set meta_recv }
  let pd ← deref (← load .pd ConnContext.pd)
  let meta_send_mr ← invoke env (.ibv_reg_mr pd meta_send sizeof_meta_message false)
  modify_ctx fun ctx => { ctx with meta_send_mr := .set meta_send_mr }
  let meta_recv_mr ← invoke env (.ibv_reg_mr pd meta_recv sizeof_meta_message true)
  modify_ctx fun ctx => { ctx with meta_recv_mr := .set meta_recv_mr }

def post_meta_recv_wr (env : Env) : Prog Status := do
  let meta_recv ← load .meta_recv ConnContext.meta_recv
  let meta_recv_mr ← deref (← load .meta_recv_mr ConnContext.meta_recv_mr)
  let wr := meta_recv_wr (← this) (env.address meta_recv) (env.lkey meta_recv_mr)
  let qp ← deref (← load .qp ConnContext.qp)
  return .of_call (← invoke env (.ibv_post_recv qp wr))

/-- The body of `post_meta_send_wr`. -/
def send_meta_message (env : Env) : Prog Status := do
  let meta_send ← load .meta_send ConnContext.meta_send
  let meta_send_mr ← deref (← load .meta_send_mr ConnContext.meta_send_mr)
  let wr := meta_send_wr (← this) (env.address meta_send) (env.lkey meta_send_mr)
  check (← get).conn.conn_params.connected .assertion_connected
  let qp ← deref (← load .qp ConnContext.qp)
  return .of_call (← invoke env (.ibv_post_send qp wr))

def post_meta_send_wr (env : Env) : Prog Status := do
  record (.entered .post_meta_send_wr)
  send_meta_message env

/-- The body of `destroy_connection`. -/
def release_connection (env : Env) : Prog Unit := do
  let cm_id ← load .cm_id ConnContext.cm_id
  rdma_destroy_qp env cm_id
  let meta_send_mr ← deref (← load .meta_send_mr ConnContext.meta_send_mr)
  let _ ← invoke env (.ibv_dereg_mr meta_send_mr)
  let meta_recv_mr ← deref (← load .meta_recv_mr ConnContext.meta_recv_mr)
  let _ ← invoke env (.ibv_dereg_mr meta_recv_mr)
  let meta_send ← load .meta_send ConnContext.meta_send
  let _ ← invoke env (.free meta_send)
  let meta_recv ← load .meta_recv ConnContext.meta_recv
  let _ ← invoke env (.free meta_recv)
  let cm_id ← load .cm_id ConnContext.cm_id
  let _ ← invoke env (.rdma_destroy_id cm_id)

def destroy_connection (env : Env) : Prog Unit := do
  record (.entered .destroy_connection)
  release_connection env

/-- Part 1 of `build_connection`: whether the device is accepted. -/
def build_context (env : Env) (id : CmId) : Prog Bool := do
  match ← load .context ConnContext.context with
  | some context => return decide (context = env.verbs id)
  | none =>
    modify_ctx fun ctx => { ctx with context := .set (some (env.verbs id)) }
    return true

/-- The protection domain and the completion channel of part 1. -/
def build_domain (env : Env) : Prog Unit := do
  let context ← deref (← load .context ConnContext.context)
  let pd ← invoke env (.ibv_alloc_pd context)
  modify_ctx fun ctx => { ctx with pd := .set pd }
  let comp_channel ← invoke env (.ibv_create_comp_channel context)
  modify_ctx fun ctx => { ctx with comp_channel := .set comp_channel }

/-- The completion queue of part 1, which is armed. -/
def build_completion_queue (env : Env) : Prog Unit := do
  let context ← deref (← load .context ConnContext.context)
  let comp_channel ← load .comp_channel ConnContext.comp_channel
  let wr_cq_number := (← get).conn.conn_params.wr_cq_number
  let cq ← invoke env (.ibv_create_cq context wr_cq_number comp_channel)
  modify_ctx fun ctx => { ctx with cq := .set cq }
  let cq ← deref cq
  let _ ← invoke env (.ibv_req_notify_cq cq)

/-- Part 2: the thread that polls the completion queue. -/
def build_poller (env : Env) : Prog Unit := do
  match ← invoke env .pthread_create with
  | some thread => modify_ctx fun ctx => { ctx with cq_poller_thread := .set thread }
  | none => return ()

/-- Part 3: whether the queue pair was created, which sets `id->qp`. -/
def build_queue_pair (env : Env) (id : CmId) : Prog Bool := do
  let cq ← load .cq ConnContext.cq
  let wr_cq_number := (← get).conn.conn_params.wr_cq_number
  let qp_attr : IbvQpInitAttr :=
    { send_cq := cq
      recv_cq := cq
      max_send_wr := wr_cq_number
      max_recv_wr := wr_cq_number
      max_send_sge := 1
      max_recv_sge := 1
      sq_sig_all := 0 }
  let pd ← load .pd ConnContext.pd
  match ← invoke env (.rdma_create_qp id pd qp_attr) with
  | some qp =>
    modify_id id fun state => { state with qp := some qp }
    return true
  | none => return false

/-- Part 4: the id and the object are tied to each other. -/
def attach (id : CmId) : Prog Unit := do
  let this ← this
  modify_id id fun state => { state with context := some this }
  let cm_id ← load .cm_id ConnContext.cm_id
  check (decide (cm_id = id)) .assertion_cm_id
  let qp := ((← get).ids id).qp
  modify_ctx fun ctx => { ctx with qp := .set qp }
  set_connected false

/-- Part 5: `n` meta receives, whose results are not looked at. -/
def post_meta_recv_wrs (env : Env) : Nat → Prog Unit
  | 0 => return ()
  | n + 1 => do
    let _ ← post_meta_recv_wr env
    post_meta_recv_wrs env n

/-- Parts 4 and 5: the connection context, the meta messages and their
receives. -/
def build_meta (env : Env) (id : CmId) : Prog Unit := do
  attach id
  register_message_memory env
  post_meta_recv_wrs env (← get).conn.conn_params.wr_cq_number

def build_parts (env : Env) (id : CmId) : Prog Status := do
  if !(← build_context env id) then
    return .FAILURE
  build_domain env
  build_completion_queue env
  build_poller env
  if !(← build_queue_pair env id) then
    return .FAILURE
  build_meta env id
  return .SUCCESS

def build_connection (env : Env) (id : CmId) : Prog Status := do
  let ret ← build_parts env id
  record (.build_connection_returned id ret)
  return ret

end tc_rdma.rdma_com
