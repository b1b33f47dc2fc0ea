import TcRdma.EnvBasic.ParseParams

open tc_rdma.machine
open tc_rdma.rdma_com (Cell MachineType Status)

namespace tc_rdma.env_basic

inductive IbvPortState where
  | IBV_PORT_NOP
  | IBV_PORT_DOWN
  | IBV_PORT_INIT
  | IBV_PORT_ARMED
  | IBV_PORT_ACTIVE
  | IBV_PORT_ACTIVE_DEFER
  deriving DecidableEq, Repr

def portStates : IbvPortState → String
  | .IBV_PORT_NOP => "Nop"
  | .IBV_PORT_DOWN => "Down"
  | .IBV_PORT_INIT => "Init"
  | .IBV_PORT_ARMED => "Armed"
  | .IBV_PORT_ACTIVE => ""
  | .IBV_PORT_ACTIVE_DEFER => "Active Defer"

/-- `ibv_port_attr`, with the members that are read. -/
structure IbvPortAttr where
  link_layer : Int
  state : IbvPortState
  deriving DecidableEq, Repr

/-- What the process does not decide: the outcomes of its allocations, the
devices, which are known by their names, and what comes of the calls up to the
first use of the parameters in `run`. -/
structure System where
  allocates : Nat → Bool
  num_of_device : Int
  dev_list : List CString
  opens : CString → Bool
  transport_type : CString → Int
  query_port : CString → Int → Option IbvPortAttr
  creates_channel : Bool
  creates_id : Bool

/-- Everything succeeds on a host with one device, which is on Ethernet. -/
def workingSystem (ib_dev : CString) : System :=
  { allocates := fun _ => true
    num_of_device := 1
    dev_list := [ib_dev]
    opens := fun _ => true
    transport_type := fun _ => 0
    query_port := fun _ _ => some ⟨2, .IBV_PORT_ACTIVE⟩
    creates_channel := true
    creates_id := true }

/-- The end of `ctx_find_dev`, which sets the name of the device it found. -/
def select_dev (sys : System) (ib_dev : CString) : Prog (Option CString) := do
  let ib_devname ← GET_STRING sys.allocates ib_dev
  modify_params fun params => { params with ib_devname := .set (some ib_devname) }
  return some ib_dev

/-- `ctx_find_dev` for the member `ib_devname`. -/
def ctx_find_dev (sys : System) : Prog (Option CString) := do
  if sys.num_of_device ≤ 0 then
    print " Did not detect devices \n"
    print " If device exists, check if driver is up\n"
    return none
  match ← load .ib_devname EnvBasicParam.ib_devname with
  | none =>
    match sys.dev_list with
    | [] => do
      print "No IB devices found\n"
      throw .exit_1
    | ib_dev :: _ => select_dev sys ib_dev
  | some ib_devname =>
    if ib_devname ∈ sys.dev_list then select_dev sys ib_devname
    else do
      print ("IB device " ++ String.ofList ib_devname ++ " not found\n")
      return none

/-- The cast to `int8_t`. -/
def int8 (value : Int) : Int := value.bmod (2 ^ 8)

def link_layer_str (link_layer : Int) : String :=
  if link_layer = 0 ∨ link_layer = 1 then "IB"
  else if link_layer = 2 then "Ethernet"
  else "Unknown"

/-- The last tests of `check_env`. -/
def check_state (ib_port : Int) (port_attr : IbvPortAttr) : Prog Status := do
  if port_attr.state ≠ .IBV_PORT_ACTIVE then
    print (" Port number " ++ toString ib_port ++ " state is " ++ portStates port_attr.state ++ "\n")
    return .FAILURE
  let link_type ← load .link_type EnvBasicParam.link_type
  if link_layer_str (int8 link_type) = "Unknown" then
    print ("Link layer on port " ++ toString ib_port ++ " is Unknown\n")
    return .FAILURE
  return .SUCCESS

/-- A link type that is not specified becomes that of the port. -/
def set_link_type (curr_link : Int) (port_attr : IbvPortAttr) : Prog Unit :=
  if curr_link = LINK_UNSPEC then
    modify_params fun params => { params with link_type := .set port_attr.link_layer }
  else return ()

/-- The part of `check_env` after the device has been opened. -/
def check_port (sys : System) (env_context : CString) : Prog Status := do
  modify_params fun params => { params with transport_type := .set (sys.transport_type env_context) }
  let curr_link ← load .link_type EnvBasicParam.link_type
  let ib_port ← load .ib_port EnvBasicParam.ib_port
  match sys.query_port env_context ib_port with
  | none =>
    print (" Unable to query port " ++ toString ib_port ++ " attributes\n")
    return .FAILURE
  | some port_attr =>
    set_link_type (int8 curr_link) port_attr
    check_state ib_port port_attr

def check_env (sys : System) : Prog Status := do
  match ← ctx_find_dev sys with
  | none =>
    print "Unable to find the Infiniband/RoCE device!\n"
    return .FAILURE
  | some ib_dev =>
    if !sys.opens ib_dev then
      print "Couldn't get context for the device!\n"
      return .FAILURE
    check_port sys ib_dev

/-- The parameters as `run` reads them, once its channel and its id exist. The
server does not read `server_ip`. -/
def run_params (sys : System) (machine : MachineType) : Prog (Option rdma_com.EnvBasicParam) := do
  if !sys.creates_channel then
    return none
  if !sys.creates_id then
    return none
  let server_port ← load .server_port EnvBasicParam.server_port
  match machine with
  | .SERVER => return some { server_ip := none, server_port := server_port, machine := .SERVER }
  | .CLIENT =>
    let server_ip ← load .server_ip EnvBasicParam.server_ip
    return some { server_ip := server_ip.map String.ofList, server_port := server_port, machine := .CLIENT }

/-- `main` up to the point where the connection knows its parameters. -/
def main (sys : System) (argc : Int16) (argv : List CString) : Prog (Option rdma_com.EnvBasicParam) := do
  if (← parse_params sys.allocates argc argv) = .FAILURE then
    print "Can't parse input parameters!\n"
    return none
  if (← check_env sys) = .FAILURE then
    print "Checking enviroment fail!\n"
    return none
  let machine ← load .machine EnvBasicParam.machine
  run_params sys machine

end tc_rdma.env_basic
