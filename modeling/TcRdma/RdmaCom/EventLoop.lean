import TcRdma.RdmaCom.Connection

open tc_rdma.machine

namespace tc_rdma.rdma_com

/-- The value of the enumeration, as it is printed. -/
def RdmaCmEventType.code : RdmaCmEventType → Nat
  | .RDMA_CM_EVENT_ADDR_RESOLVED => 0
  | .RDMA_CM_EVENT_ADDR_ERROR => 1
  | .RDMA_CM_EVENT_ROUTE_RESOLVED => 2
  | .RDMA_CM_EVENT_ROUTE_ERROR => 3
  | .RDMA_CM_EVENT_CONNECT_REQUEST => 4
  | .RDMA_CM_EVENT_CONNECT_RESPONSE => 5
  | .RDMA_CM_EVENT_CONNECT_ERROR => 6
  | .RDMA_CM_EVENT_UNREACHABLE => 7
  | .RDMA_CM_EVENT_REJECTED => 8
  | .RDMA_CM_EVENT_ESTABLISHED => 9
  | .RDMA_CM_EVENT_DISCONNECTED => 10
  | .RDMA_CM_EVENT_DEVICE_REMOVAL => 11
  | .RDMA_CM_EVENT_MULTICAST_JOIN => 12
  | .RDMA_CM_EVENT_MULTICAST_ERROR => 13
  | .RDMA_CM_EVENT_ADDR_CHANGE => 14
  | .RDMA_CM_EVENT_TIMEWAIT_EXIT => 15

/-- The events still to come on a channel, where `none` is a failure of
`rdma_get_cm_event`. When there are no more, the program waits. -/
abbrev Events := List (Option RdmaCmEvent)

def RDMA_TIMEOUT_IN_MS : Nat := 1000

def NUM_OF_RETRIES : Nat := 10

/-- An event is obtained; the number names it until it is acknowledged. -/
def obtain_event (event : RdmaCmEvent) : Prog Handle := do
  let n := (← get).log.length
  record (.obtained n event)
  return n

def rdma_ack_cm_event (env : Env) (event : Handle) : Prog Unit := do
  let _ ← invoke env (.rdma_ack_cm_event event)

/-- What is asked of each result, for one of them. -/
theorem of_success {P Q : Prop} (h : P) : (Status.SUCCESS = .SUCCESS → P) ∧ (Status.SUCCESS = .FAILURE → Q) :=
  ⟨fun _ => h, nofun⟩

theorem of_failure {P Q : Prop} (h : Q) : (Status.FAILURE = .SUCCESS → P) ∧ (Status.FAILURE = .FAILURE → Q) :=
  ⟨nofun, fun _ => h⟩

/-- A result that is tested for failure. -/
theorem wp_if_failure {α : Type} {ret : Status} {x y : Prog α} {Q : α → World → Prop} {E : Halt → World → Prop}
    {w : World} (hfailure : ret = .FAILURE → wp x Q E w) (hsuccess : ret = .SUCCESS → wp y Q E w) :
    wp (if ret = .FAILURE then x else y) Q E w := by
  cases ret with
  | SUCCESS => exact hsuccess rfl
  | FAILURE => exact hfailure rfl

theorem wp_obtain_event {event : RdmaCmEvent} {Q : Handle → World → Prop} {E : Halt → World → Prop} {w : World} :
    wp (obtain_event event) Q E w ↔ Q w.log.length (w.record (.obtained w.log.length event)) := Iff.rfl

theorem wp_obtain_event_of {event : RdmaCmEvent} {Q : Handle → World → Prop} {E : Halt → World → Prop} {w : World}
    (hQ : ∀ n, Q n (w.record (.obtained n event))) : wp (obtain_event event) Q E w :=
  hQ _

theorem wp_rdma_ack_cm_event {env : Env} {n : Handle} {Q : Unit → World → Prop} {E : Halt → World → Prop} {w : World}
    (hQ : ∀ m ok, Q () (w.record (.call m (.rdma_ack_cm_event n) ok))) :
    wp (rdma_ack_cm_event env n) Q E w :=
  hQ _ _

/-- `check_add_port`. The service is the decimal text of the port. -/
def check_add_port (env : Env) (port : Int) (servername : Option String) : Prog Status := do
  if (← invoke env (.asprintf port)).isNone then
    return .FAILURE
  if (← invoke env (.getaddrinfo servername (toString port))).isNone then
    record (.printed (env.gai_strerror ++ " for " ++ servername.getD "(null)" ++ ":" ++ toString port ++ "\n"))
    return .FAILURE
  return .SUCCESS

/-- What neither its calls nor its message change holds after `check_add_port`. -/
theorem wp_check_add_port {env : Env} {port : Int} {servername : Option String} {P : World → Prop} {w : World}
    (hprintf : ∀ w n ok, P w → P (w.record (.call n (.asprintf port) ok)))
    (hinfo : ∀ w n ok, P w → P (w.record (.call n (.getaddrinfo servername (toString port)) ok)))
    (hprinted : ∀ w text, P w → P (w.record (.printed text))) (h : P w) :
    wp (check_add_port env port servername) (fun _ => P) (fun _ _ => False) w := by
  unfold check_add_port
  refine wp_invoke_isNone (hprintf _ _ _ h) ?_
  exact wp_invoke_isNone (hprinted _ _ (hinfo _ _ _ (hprintf _ _ _ h))) (hinfo _ _ _ (hprintf _ _ _ h))

/-- The call of `check_add_port`, and the test of what it found. The port of
the address is the low half of the parameter. -/
def resolve_port (env : Env) (servername : Option String) : Prog (Option UInt16) := do
  let port := (← get).conn.conn_params.env.server_port
  if (← check_add_port env port servername) = .FAILURE then
    record (.printed "Problem in resolving basic address and port\n")
    return none
  if (← invoke env .ai_family_is_pf_inet).isNone then
    return none
  return some (UInt16.ofInt port)

/-- One pass of the loop "working on cm_event": the event is copied and
acknowledged before its handler runs. -/
def handle_cm_event (env : Env) (on_event : RdmaCmEvent → Prog Status) (event : RdmaCmEvent) : Prog Status := do
  let n ← obtain_event event
  rdma_ack_cm_event env n
  on_event event

theorem wp_handle_cm_event {env : Env} {on_event : RdmaCmEvent → Prog Status} {event : RdmaCmEvent}
    {Q : Status → World → Prop} {E : Halt → World → Prop} {w : World}
    (hhandler : ∀ m ok, wp (on_event event) Q E
      ((w.record (.obtained w.log.length event)).record (.call m (.rdma_ack_cm_event w.log.length) ok))) :
    wp (handle_cm_event env on_event event) Q E w := by
  unfold handle_cm_event
  rw [wp_bind, wp_obtain_event, wp_bind]
  exact wp_rdma_ack_cm_event hhandler

/-- The loop "working on cm_event" of both sides, which a failing handler ends. -/
def working_on_cm_event (env : Env) (site : Site) (on_event : RdmaCmEvent → Prog Status) : Events → Prog Unit
  | [] => throw (.blocked site)
  | none :: _ => record .no_event
  | some event :: rest => do
    if (← handle_cm_event env on_event event) = .FAILURE then
      return ()
    working_on_cm_event env site on_event rest

/-- `on_connection` of both sides. -/
def on_connection (env : Env) : Prog Status := do
  set_connected true
  let _ ← post_meta_send_wr env
  return .SUCCESS

/-- `on_disconnect` of both sides; its result ends the event loop. -/
def on_disconnect (env : Env) (id : CmId) : Prog Status := do
  let w ← get
  check (decide ((w.ids id).context = some w.conn.this)) .assertion_context
  destroy_connection env
  return .FAILURE

end tc_rdma.rdma_com
