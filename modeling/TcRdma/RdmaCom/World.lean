import TcRdma.Machine.Program
import TcRdma.RdmaCom.WorkRequest

open tc_rdma.machine

namespace tc_rdma.rdma_com

/-- An object created by a call is named by the number of that call. A
pointer to it is `none` when it is null. -/
abbrev Handle := Nat

abbrev Ptr := Option Handle

/-- The address of an `rdma_cm_id`. -/
abbrev CmId := Nat

/-- An `ibv_context`. -/
abbrev Device := Nat

/-- The `int16_t` results. -/
inductive Status where
  | SUCCESS
  | FAILURE
  deriving DecidableEq, Repr

inductive MachineType where
  | SERVER
  | CLIENT
  deriving DecidableEq, Repr

/-- `env_basic_param`, with the fields that a connection reads. -/
structure EnvBasicParam where
  server_ip : Option String
  server_port : Int
  machine : MachineType
  deriving DecidableEq, Repr

/-- `conn_parameter`. -/
structure ConnParameter where
  env : EnvBasicParam
  connected : Bool
  num_of_qps : Nat
  wr_cq_number : Nat
  deriving DecidableEq, Repr

/-- A member that no constructor initializes. -/
inductive Cell (α : Type) where
  | indeterminate
  | set (value : α)
  deriving DecidableEq, Repr

/-- `conn_context`. -/
structure ConnContext where
  cm_id_control : Cell CmId
  cm_id : Cell CmId
  cm_channel : Cell Ptr
  context : Cell (Option Device)
  comp_channel : Cell Ptr
  pd : Cell Ptr
  cq : Cell Ptr
  qp : Cell Ptr
  meta_recv_mr : Cell Ptr
  meta_send_mr : Cell Ptr
  meta_recv : Cell Ptr
  meta_send : Cell Ptr
  cq_poller_thread : Cell Handle
  deriving DecidableEq, Repr

def ConnContext.uninitialized : ConnContext :=
  { cm_id_control := .indeterminate
    cm_id := .indeterminate
    cm_channel := .indeterminate
    context := .indeterminate
    comp_channel := .indeterminate
    pd := .indeterminate
    cq := .indeterminate
    qp := .indeterminate
    meta_recv_mr := .indeterminate
    meta_send_mr := .indeterminate
    meta_recv := .indeterminate
    meta_send := .indeterminate
    cq_poller_thread := .indeterminate }

/-- The members of `conn_context` that are read. -/
inductive Member where
  | cm_id_control
  | cm_id
  | cm_channel
  | context
  | comp_channel
  | pd
  | cq
  | qp
  | meta_recv_mr
  | meta_send_mr
  | meta_recv
  | meta_send
  deriving DecidableEq, Repr

/-- `ConnectionProc`, at the address `this`. -/
structure ConnectionProc where
  this : UInt64
  conn_params : ConnParameter
  conn_ctx : ConnContext
  deriving DecidableEq, Repr

inductive RdmaCmEventType where
  | RDMA_CM_EVENT_ADDR_RESOLVED
  | RDMA_CM_EVENT_ADDR_ERROR
  | RDMA_CM_EVENT_ROUTE_RESOLVED
  | RDMA_CM_EVENT_ROUTE_ERROR
  | RDMA_CM_EVENT_CONNECT_REQUEST
  | RDMA_CM_EVENT_CONNECT_RESPONSE
  | RDMA_CM_EVENT_CONNECT_ERROR
  | RDMA_CM_EVENT_UNREACHABLE
  | RDMA_CM_EVENT_REJECTED
  | RDMA_CM_EVENT_ESTABLISHED
  | RDMA_CM_EVENT_DISCONNECTED
  | RDMA_CM_EVENT_DEVICE_REMOVAL
  | RDMA_CM_EVENT_MULTICAST_JOIN
  | RDMA_CM_EVENT_MULTICAST_ERROR
  | RDMA_CM_EVENT_ADDR_CHANGE
  | RDMA_CM_EVENT_TIMEWAIT_EXIT
  deriving DecidableEq, Repr

/-- `rdma_cm_event`. -/
structure RdmaCmEvent where
  event : RdmaCmEventType
  id : CmId
  deriving DecidableEq, Repr

/-- `rdma_conn_param`; what is not set is zero. -/
structure RdmaConnParam where
  initiator_depth : Nat
  responder_resources : Nat
  retry_count : Nat
  rnr_retry_count : Nat
  deriving DecidableEq, Repr

/-- `ibv_qp_init_attr` of a reliable connection. -/
structure IbvQpInitAttr where
  send_cq : Ptr
  recv_cq : Ptr
  max_send_wr : Nat
  max_recv_wr : Nat
  max_send_sge : Nat
  max_recv_sge : Nat
  sq_sig_all : Nat
  deriving DecidableEq, Repr

/-- The calls that leave the program, with what they are given. The test of
the address family that `getaddrinfo` found is listed as one of them. -/
inductive Call where
  | rdma_create_event_channel
  | rdma_create_id (cm_channel : Handle)
  | asprintf (port : Int)
  | getaddrinfo (servername : Option String) (service : String)
  | ai_family_is_pf_inet
  | freeaddrinfo
  | rdma_bind_addr (id : CmId) (sin_port : UInt16)
  | rdma_listen (id : CmId) (backlog : Nat)
  | rdma_resolve_addr (id : CmId) (sin_port : UInt16) (timeout_ms : Nat)
  | rdma_resolve_route (id : CmId) (timeout_ms : Nat)
  | rdma_connect (id : CmId) (cm_params : RdmaConnParam)
  | rdma_accept (id : CmId) (cm_params : RdmaConnParam)
  | rdma_ack_cm_event (event : Nat)
  | rdma_destroy_id (id : CmId)
  | rdma_destroy_event_channel (cm_channel : Ptr)
  | ibv_alloc_pd (context : Device)
  | ibv_create_comp_channel (context : Device)
  | ibv_create_cq (context : Device) (cqe : Nat) (comp_channel : Ptr)
  | ibv_req_notify_cq (cq : Handle)
  | pthread_create
  | rdma_create_qp (id : CmId) (pd : Ptr) (qp_attr : IbvQpInitAttr)
  | rdma_destroy_qp (id : CmId) (qp : Handle)
  | malloc (size : UInt32)
  | free (memory : Ptr)
  | ibv_reg_mr (pd : Handle) (memory : Ptr) (size : UInt32) (local_write : Bool)
  | ibv_dereg_mr (mr : Handle)
  | ibv_post_recv (qp : Handle) (wr : IbvRecvWr)
  | ibv_post_send (qp : Handle) (wr : IbvSendWr)
  deriving DecidableEq, Repr

/-- The member functions whose calls are recorded. -/
inductive MemberFunction where
  | post_meta_send_wr
  | destroy_connection
  deriving DecidableEq, Repr

/-- What is recorded of a run: the calls with their numbers and outcomes, the
events obtained, the failures of `rdma_get_cm_event`, what is printed on the
error stream, and entries and results of member functions. -/
inductive Op where
  | call (n : Handle) (c : Call) (ok : Bool)
  | obtained (n : Handle) (event : RdmaCmEvent)
  | no_event
  | printed (text : String)
  | entered (f : MemberFunction)
  | build_connection_returned (id : CmId) (ret : Status)
  deriving DecidableEq, Repr

/-- Something recorded, with the object as it was at that moment. -/
structure Entry where
  conn : ConnectionProc
  op : Op
  deriving DecidableEq, Repr

/-- The members of an `rdma_cm_id` that the program changes. -/
structure CmIdState where
  context : Option UInt64
  qp : Ptr
  deriving DecidableEq, Repr

structure World where
  conn : ConnectionProc
  ids : CmId → CmIdState
  log : List Entry

/-- Nothing has been recorded, and no id is tied to an object. -/
def World.start (conn : ConnectionProc) : World :=
  { conn := conn, ids := fun _ => { context := none, qp := none }, log := [] }

/-- What the program does not decide: the outcome of each call after what has
been recorded, the id that `rdma_create_id` creates, the device of an id, the
addresses and keys of memory, and the text of the error of `getaddrinfo`. -/
structure Env where
  succeeds : List Entry → Call → Bool
  new_id : CmId
  verbs : CmId → Device
  addr : Handle → UInt64
  lkey : Handle → UInt32
  gai_strerror : String

/-- Every call succeeds, and every id is on one device. -/
def workingEnv : Env :=
  { succeeds := fun _ _ => true
    new_id := 1
    verbs := fun _ => 0
    addr := fun handle => handle.toUInt64
    lkey := fun handle => handle.toUInt32
    gai_strerror := "Name or service not known" }

/-- Every call succeeds but `rdma_create_qp`. -/
def noQueuePairEnv : Env :=
  { workingEnv with
    succeeds := fun _ c =>
      match c with
      | .rdma_create_qp _ _ _ => false
      | _ => true }

/-- The calls of `rdma_get_cm_event`. -/
inductive Site where
  | server_first
  | server_loop
  | client_addr
  | client_route
  | client_loop
  deriving DecidableEq, Repr

/-- Why a run does not go on: it waits in `rdma_get_cm_event`, an assertion
fails, a member is read before it was set, or a null pointer is followed. -/
inductive Halt where
  | blocked (site : Site)
  | assertion_cm_id
  | assertion_context
  | assertion_connected
  | assertion_machine
  | indeterminate (member : Member)
  | null_pointer
  deriving DecidableEq, Repr

abbrev Prog (α : Type) := Program Halt World α

def World.record (w : World) (op : Op) : World := { w with log := w.log ++ [{ conn := w.conn, op := op }] }

def World.modify_ctx (w : World) (f : ConnContext → ConnContext) : World :=
  { w with conn := { w.conn with conn_ctx := f w.conn.conn_ctx } }

def World.set_connected (w : World) (connected : Bool) : World :=
  { w with conn := { w.conn with conn_params := { w.conn.conn_params with connected := connected } } }

def World.modify_id (w : World) (id : CmId) (f : CmIdState → CmIdState) : World :=
  { w with ids := Function.update w.ids id (f (w.ids id)) }

section Fields

variable (w : World) (op : Op) (f : ConnContext → ConnContext) (connected : Bool) (id : CmId)
  (g : CmIdState → CmIdState)

@[simp] theorem World.record_conn : (w.record op).conn = w.conn := rfl
@[simp] theorem World.record_ids : (w.record op).ids = w.ids := rfl
@[simp] theorem World.record_log : (w.record op).log = w.log ++ [{ conn := w.conn, op := op }] := rfl

@[simp] theorem World.modify_ctx_this : (w.modify_ctx f).conn.this = w.conn.this := rfl
@[simp] theorem World.modify_ctx_conn_params : (w.modify_ctx f).conn.conn_params = w.conn.conn_params := rfl
@[simp] theorem World.modify_ctx_conn_ctx : (w.modify_ctx f).conn.conn_ctx = f w.conn.conn_ctx := rfl
@[simp] theorem World.modify_ctx_ids : (w.modify_ctx f).ids = w.ids := rfl
@[simp] theorem World.modify_ctx_log : (w.modify_ctx f).log = w.log := rfl

@[simp] theorem World.set_connected_this : (w.set_connected connected).conn.this = w.conn.this := rfl
@[simp] theorem World.set_connected_conn_ctx : (w.set_connected connected).conn.conn_ctx = w.conn.conn_ctx := rfl
@[simp] theorem World.set_connected_ids : (w.set_connected connected).ids = w.ids := rfl
@[simp] theorem World.set_connected_log : (w.set_connected connected).log = w.log := rfl

@[simp] theorem World.modify_id_conn : (w.modify_id id g).conn = w.conn := rfl
@[simp] theorem World.modify_id_log : (w.modify_id id g).log = w.log := rfl
@[simp] theorem World.modify_id_self : (w.modify_id id g).ids id = g (w.ids id) := Function.update_self _ _ _

theorem World.modify_id_of_ne {other : CmId} (hne : other ≠ id) : (w.modify_id id g).ids other = w.ids other :=
  Function.update_of_ne hne _ _

end Fields

def record (op : Op) : Prog Unit := modify fun w => w.record op

/-- A call with the outcome that the environment chooses. On success it
returns its number, which names what it created. -/
def invoke (env : Env) (c : Call) : Prog Ptr := do
  let w ← get
  record (.call w.log.length c (env.succeeds w.log c))
  return if env.succeeds w.log c then some w.log.length else none

def modify_ctx (f : ConnContext → ConnContext) : Prog Unit := modify fun w => w.modify_ctx f

def set_connected (connected : Bool) : Prog Unit := modify fun w => w.set_connected connected

def modify_id (id : CmId) (f : CmIdState → CmIdState) : Prog Unit := modify fun w => w.modify_id id f

/-- Reading a member of `conn_ctx`. -/
def load {α : Type} (member : Member) (cell : ConnContext → Cell α) : Prog α := do
  match cell (← get).conn.conn_ctx with
  | .set value => return value
  | .indeterminate => throw (.indeterminate member)

/-- Following a pointer, in the program or in a call that is given it. -/
def deref (pointer : Ptr) : Prog Handle :=
  match pointer with
  | some handle => return handle
  | none => throw .null_pointer

def this : Prog UInt64 := do return (← get).conn.this

def check (condition : Bool) (halt : Halt) : Prog Unit := if condition then return () else throw halt

section Rules

variable {Q : Unit → World → Prop} {E : Halt → World → Prop} {w : World}

theorem wp_record (op : Op) : wp (record op) Q E w ↔ Q () (w.record op) := Iff.rfl

theorem wp_modify_ctx (f : ConnContext → ConnContext) : wp (modify_ctx f) Q E w ↔ Q () (w.modify_ctx f) := Iff.rfl

theorem wp_set_connected (connected : Bool) :
    wp (set_connected connected) Q E w ↔ Q () (w.set_connected connected) := Iff.rfl

theorem wp_modify_id (id : CmId) (f : CmIdState → CmIdState) :
    wp (modify_id id f) Q E w ↔ Q () (w.modify_id id f) := Iff.rfl

theorem wp_invoke (env : Env) (c : Call) {Q : Ptr → World → Prop} :
    wp (invoke env c) Q E w ↔
      Q (if env.succeeds w.log c then some w.log.length else none)
        (w.record (.call w.log.length c (env.succeeds w.log c))) := Iff.rfl

/-- Whatever the environment chooses. -/
theorem wp_invoke_of {env : Env} {c : Call} {Q : Ptr → World → Prop}
    (hQ : ∀ ok, Q (if ok then some w.log.length else none) (w.record (.call w.log.length c ok))) :
    wp (invoke env c) Q E w :=
  (wp_invoke env c).mpr (hQ _)

/-- A call whose failure is tested. -/
theorem wp_invoke_isNone {α : Type} {env : Env} {c : Call} {x y : Prog α} {Q : α → World → Prop}
    (hfail : wp x Q E (w.record (.call w.log.length c false)))
    (hok : wp y Q E (w.record (.call w.log.length c true))) :
    wp (do if (← invoke env c).isNone then x else y) Q E w := by
  rw [wp_bind]
  apply wp_invoke_of
  intro ok
  cases ok with
  | true => exact hok
  | false => exact hfail

theorem wp_load {α : Type} {member : Member} {cell : ConnContext → Cell α} {Q : α → World → Prop} :
    wp (load member cell) Q E w ↔
      match cell w.conn.conn_ctx with
      | .set value => Q value w
      | .indeterminate => E (.indeterminate member) w := by
  unfold load
  rw [wp_bind, wp_get]
  cases cell w.conn.conn_ctx <;> rfl

theorem wp_load_of_set {α : Type} {member : Member} {cell : ConnContext → Cell α} {Q : α → World → Prop} {value : α}
    (hset : cell w.conn.conn_ctx = .set value) (hQ : Q value w) : wp (load member cell) Q E w := by
  rw [wp_load, hset]
  exact hQ

theorem wp_load_any {α : Type} {member : Member} {cell : ConnContext → Cell α} {Q : α → World → Prop}
    (hset : ∀ value, cell w.conn.conn_ctx = .set value → Q value w) (hunset : E (.indeterminate member) w) :
    wp (load member cell) Q E w := by
  rw [wp_load]
  split
  · exact hset _ ‹_›
  · exact hunset

theorem wp_this {Q : UInt64 → World → Prop} : wp this Q E w ↔ Q w.conn.this w := Iff.rfl

theorem wp_deref {pointer : Ptr} {Q : Handle → World → Prop} (hsome : ∀ handle, pointer = some handle → Q handle w)
    (hnull : E .null_pointer w) : wp (deref pointer) Q E w := by
  cases pointer with
  | some handle => exact hsome handle rfl
  | none => exact hnull

theorem wp_deref_some {handle : Handle} {Q : Handle → World → Prop} : wp (deref (some handle)) Q E w ↔ Q handle w :=
  Iff.rfl

theorem wp_check {condition : Bool} {halt : Halt} (htrue : condition = true → Q () w)
    (hfalse : condition = false → E halt w) : wp (check condition halt) Q E w := by
  cases condition with
  | true => exact htrue rfl
  | false => exact hfalse rfl

end Rules

end tc_rdma.rdma_com
