import Mathlib.Algebra.Group.Nat.Defs
import TcRdma.Machine.Getopt
import TcRdma.RdmaCom.World

open tc_rdma.machine
open tc_rdma.rdma_com (Cell MachineType Status)

namespace tc_rdma.env_basic

/-- `env_basic_param`. None of its members has an initializer. -/
structure EnvBasicParam where
  ib_devname : Cell (Option CString)
  servername : Cell (Option CString)
  server_ip : Cell (Option CString)
  server_port : Cell Int
  ib_port : Cell Int
  link_type : Cell Int
  connection_type : Cell Int
  transport_type : Cell Int
  machine : Cell MachineType
  cache_line_size : Cell Int
  deriving DecidableEq, Repr

/-- The members that are read. -/
inductive Field where
  | ib_devname
  | server_ip
  | server_port
  | ib_port
  | link_type
  | machine
  deriving DecidableEq, Repr

/-- Why the process does not go on: it exits with 1, or it reads a member that
nobody has assigned. -/
inductive Stop where
  | exit_1
  | indeterminate (field : Field)
  deriving DecidableEq, Repr

/-- The parameters of the process, what it has printed on the error stream, and
the number of its allocations. -/
structure Process where
  env_params : EnvBasicParam
  printed : List String
  allocations : Nat
  deriving DecidableEq, Repr

abbrev Prog (α : Type) := Program Stop Process α

def EnvBasicParam.uninitialized : EnvBasicParam :=
  { ib_devname := .indeterminate
    servername := .indeterminate
    server_ip := .indeterminate
    server_port := .indeterminate
    ib_port := .indeterminate
    link_type := .indeterminate
    connection_type := .indeterminate
    transport_type := .indeterminate
    machine := .indeterminate
    cache_line_size := .indeterminate }

def DEF_PORT : Int := 18515

def DEF_IB_PORT : Int := 1

def MIN_IB_PORT : Int := 1

def LINK_UNSPEC : Int := -2

def RC : Int := 0

def DEF_CACHE_LINE_SIZE : Int := 64

def init_env_params (params : EnvBasicParam) : EnvBasicParam :=
  { params with
    server_port := .set DEF_PORT
    ib_port := .set DEF_IB_PORT
    link_type := .set LINK_UNSPEC
    connection_type := .set RC
    machine := .set .SERVER
    cache_line_size := .set DEF_CACHE_LINE_SIZE }

/-- The constructor `EnvironmentProc()`. -/
def Process.start : Process :=
  { env_params := init_env_params .uninitialized, printed := [], allocations := 0 }

def Process.modify_params (process : Process) (f : EnvBasicParam → EnvBasicParam) : Process :=
  { process with env_params := f process.env_params }

def Process.print (process : Process) (text : String) : Process :=
  { process with printed := process.printed ++ [text] }

@[simp] theorem Process.modify_params_env_params (process : Process) (f : EnvBasicParam → EnvBasicParam) :
    (process.modify_params f).env_params = f process.env_params := rfl

def modify_params (f : EnvBasicParam → EnvBasicParam) : Prog Unit := modify fun process => process.modify_params f

def print (text : String) : Prog Unit := modify fun process => process.print text

/-- Reading a member of `env_params`. -/
def load {α : Type} (field : Field) (cell : EnvBasicParam → Cell α) : Prog α := do
  match cell (← get).env_params with
  | .set value => return value
  | .indeterminate => throw (.indeterminate field)

section Rules

variable {Q : Unit → Process → Prop} {E : Stop → Process → Prop} {process : Process}

theorem wp_modify_params (f : EnvBasicParam → EnvBasicParam) :
    wp (modify_params f) Q E process ↔ Q () (process.modify_params f) := Iff.rfl

theorem wp_load_iff {α : Type} {field : Field} {cell : EnvBasicParam → Cell α} {Q : α → Process → Prop} {value : α}
    (hset : cell process.env_params = .set value) : wp (load field cell) Q E process ↔ Q value process := by
  unfold load
  rw [wp_bind, wp_get, hset]
  rfl

theorem wp_load {α : Type} {field : Field} {cell : EnvBasicParam → Cell α} {Q : α → Process → Prop} {value : α}
    (hset : cell process.env_params = .set value) (hQ : Q value process) : wp (load field cell) Q E process :=
  (wp_load_iff hset).mpr hQ

theorem wp_load_unassigned {α : Type} {field : Field} {cell : EnvBasicParam → Cell α} {Q : α → Process → Prop}
    (hunset : cell process.env_params = .indeterminate) :
    wp (load field cell) Q E process ↔ E (.indeterminate field) process := by
  unfold load
  rw [wp_bind, wp_get, hunset]
  rfl

end Rules

/-- Whether the next allocation succeeds, which the caller has decided. -/
def allocate (allocates : Nat → Bool) : Prog Bool := do
  let n := (← get).allocations
  modify fun process => { process with allocations := n + 1 }
  return allocates n

def GET_STRING (allocates : Nat → Bool) (temp : CString) : Prog CString := do
  if !(← allocate allocates) then
    print " Cannot Allocate\n"
    throw .exit_1
  return temp

/-- The cast to `uint8_t`. -/
def uint8 (value : Int) : Int := value % 2 ^ 8

/-- The cast to `int`. -/
def int32 (value : Int) : Int := value.bmod (2 ^ 32)

/-- The macro `CHECK_VALUE`: whether the number is all of the argument. The
member is assigned before that is tested. -/
def CHECK_VALUE (arg : Int → EnvBasicParam → EnvBasicParam) (cast : Int → Int) (type name : String)
    (optarg : CString) : Prog Bool := do
  modify_params (arg (cast (strtol optarg).1))
  if (strtol optarg).2 ≠ [] then
    print (" " ++ name ++ " argument " ++ String.ofList optarg ++ " should be " ++ type ++ "\n")
    return false
  return true

/-- One pass of the loop of `parse_params`: whether it goes on. -/
def parse_option (allocates : Nat → Bool) (answer : Answer) : Prog Bool :=
  match answer.ch with
  | 'd' => do
    let ib_devname ← GET_STRING allocates answer.optarg
    modify_params fun params => { params with ib_devname := .set (some ib_devname) }
    return true
  | 'i' => do
    if !(← CHECK_VALUE (fun value params => { params with ib_port := .set value }) uint8 "uint8_t" "IB Port"
        answer.optarg) then
      return false
    if (← load .ib_port EnvBasicParam.ib_port) < MIN_IB_PORT then
      print ("IB Port can't be less than " ++ toString MIN_IB_PORT ++ "\n")
      return false
    return true
  | 'J' => do
    let copied ← allocate allocates
    modify_params fun params => { params with server_ip := .set (if copied then some answer.optarg else none) }
    return true
  | 'j' => return true
  | 'K' =>
    CHECK_VALUE (fun value params => { params with server_port := .set value }) int32 "int" "Server Port" answer.optarg
  | 'k' => return true
  | 'Z' => do
    modify_params fun params => { params with machine := .set .SERVER }
    return true
  | 'P' => do
    modify_params fun params => { params with machine := .set .CLIENT }
    return true
  | _ => return false

/-- The loop of `parse_params` over what `getopt_long` returns. -/
def parse_options (allocates : Nat → Bool) : List Answer → Prog Status
  | [] => return .SUCCESS
  | answer :: rest => do
    if !(← parse_option allocates answer) then
      return .FAILURE
    parse_options allocates rest

def optstring : CString := "p:d:i:c:J:j:K:k:ZP".toList

def long_options : List LongOption :=
  [⟨"ib-dev".toList, true, 'd'⟩, ⟨"ib-port".toList, true, 'i'⟩, ⟨"dest_ip".toList, true, 'J'⟩,
    ⟨"source_ip".toList, true, 'j'⟩, ⟨"dest_port".toList, true, 'K'⟩, ⟨"source_port".toList, true, 'k'⟩,
    ⟨"server".toList, false, 'Z'⟩, ⟨"client".toList, false, 'P'⟩]

/-- The options that the first `argc` elements hold behind the name of the
program. -/
def options (argc : Int16) (argv : List CString) : List Answer :=
  getopt_long optstring long_options none ((argv.take argc.toInt.toNat).drop 1)

def parse_params (allocates : Nat → Bool) (argc : Int16) (argv : List CString) : Prog Status :=
  parse_options allocates (options argc argv)

end tc_rdma.env_basic
