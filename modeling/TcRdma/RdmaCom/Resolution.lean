import Mathlib.Algebra.BigOperators.Group.List.Basic
import Mathlib.Algebra.Ring.Int.Defs
import TcRdma.RdmaCom.Loops

open tc_rdma.machine

namespace tc_rdma.rdma_com

variable {env : Env} {conn : ConnectionProc} {events : Events} {w : World} {C : List Concern}

/-- What an operation adds to the requests that wait for their answer. -/
def Op.outstanding : Op → Int
  | .call _ (.rdma_resolve_addr _ _ _) true => 1
  | .call _ (.rdma_resolve_route _ _) true => 1
  | .obtained _ _ => -1
  | _ => 0

/-- The resolution requests that were issued less the events that answered
them. -/
def outstanding (log : List Entry) : Int := (log.map fun entry => entry.op.outstanding).sum

theorem outstanding_record (w : World) (op : Op) :
    outstanding (w.record op).log = outstanding w.log + op.outstanding := by
  simp [outstanding]

theorem Op.outstanding_eq_zero {op : Op} (h : op.concern ∉ [.resolution, .event]) : op.outstanding = 0 := by
  cases op with
  | call n c ok => cases c <;> first | rfl | simp [Op.concern, Call.concern] at h
  | obtained n event => simp [Op.concern] at h
  | _ => rfl

theorem outstanding_of_extends {log log' : List Entry} (h : Extends (fun entry => entry.op.concern ∈ C) log log')
    (hother : ∀ c ∈ C, c ∉ [.resolution, .event]) : outstanding log' = outstanding log := by
  obtain ⟨added, rfl, hadded⟩ := h
  have hzero : ∀ n ∈ added.map fun entry => entry.op.outstanding, n = 0 := by
    intro n hn
    obtain ⟨entry, hentry, rfl⟩ := List.mem_map.mp hn
    exact Op.outstanding_eq_zero (hother _ (hadded entry hentry))
  rw [outstanding, List.map_append, List.sum_append, List.sum_eq_zero hzero, add_zero, outstanding]

/-- The failures of the route resolution among the events. -/
def routeErrors (events : Events) : Nat :=
  events.countP fun event => event.map RdmaCmEvent.event = some .RDMA_CM_EVENT_ROUTE_ERROR

theorem routeErrors_cons_of_ne {event : RdmaCmEvent} (h : event.event ≠ .RDMA_CM_EVENT_ROUTE_ERROR) :
    routeErrors (some event :: events) = routeErrors events := by
  simp [routeErrors, h]

theorem routeErrors_eq_zero :
    routeErrors events = 0 ↔ ∀ event, some event ∈ events → event.event ≠ .RDMA_CM_EVENT_ROUTE_ERROR := by
  rw [routeErrors, List.countP_eq_zero]
  constructor
  · intro h event hevent herror
    exact h (some event) hevent (by simp [herror])
  · intro h event hevent herror
    cases event with
    | none => simp at herror
    | some event => exact h event hevent (by simpa using herror)

/-- The handler of the first loop asks for the route once. -/
theorem RDMAClient.on_addr_resolved_requests (id : CmId) :
    wp (RDMAClient.on_addr_resolved env id)
      (fun ret w' => ret = .SUCCESS → outstanding w'.log = outstanding w.log + 1) (fun halt _ => ¬ halt.Waits) w := by
  unfold RDMAClient.on_addr_resolved
  rw [wp_bind, wp_get, wp_bind]
  refine wp_check (fun _ => ?_) (fun _ => nofun)
  apply wp_bind_of (build_connection_leaves id w) _ (fun _ _ h => h.1)
  intro ret w₁ hfoot
  have hsame : outstanding w₁.log = outstanding w.log := outstanding_of_extends hfoot.log (by simp)
  refine wp_invoke_isNone nofun fun _ => ?_
  rw [outstanding_record, hsame]
  rfl

/-- The client in its first loop, with `asked` requests that wait for their
answer and `errors` failures of the route still to come. -/
structure RDMAClient.Asking (env : Env) (asked : Int) (errors : Nat) (events : Events) (w : World) : Prop where
  cm_id : w.conn.conn_ctx.cm_id = .set env.new_id
  asked : outstanding w.log = asked
  errors : routeErrors events = errors

/-- Each pass of the first loop asks for the address again. -/
theorem RDMAClient.asking_addrLoop (errors : Nat) :
    RDMAClient.AddrLoop env (RDMAClient.Asking env 0 errors) (RDMAClient.Asking env 1 errors)
      (fun left w => ∀ retries rest, left = some (retries, rest) →
        outstanding w.log = 1 ∧ routeErrors rest = errors)
      (fun halt w => ∀ site, halt = .blocked site → outstanding w.log = 1 - errors) where
  cm_id := RDMAClient.Asking.cm_id
  exhausted _ _ := nofun
  unasked _ _ _ _ := nofun
  asked h n sin_port := by
    refine ⟨h.cm_id, ?_, h.errors⟩
    rw [outstanding_record, h.asked]
    rfl
  blocked h _ _ := by
    rw [h.asked, ← h.errors]
    rfl
  no_event _ _ := nofun
  retry h herror m ok := by
    refine ⟨h.cm_id, ?_, ?_⟩
    · simp only [outstanding_record, h.asked]
      rfl
    · rw [← h.errors, routeErrors_cons_of_ne (by rw [herror]; nofun)]
  unexpected _ _ _ := nofun
  resolved := by
    intro event rest w h hresolved m ok
    apply wp_mono (RDMAClient.on_addr_resolved_requests event.id)
    · intro ret w₁ hrequests
      refine ⟨fun hsuccess retries => ?_, fun _ => nofun⟩
      rintro _ _ ⟨⟩
      constructor
      · rw [hrequests hsuccess]
        simp only [outstanding_record, World.modify_ctx_log, h.asked]
        rfl
      · rw [← h.errors, routeErrors_cons_of_ne (by rw [hresolved]; nofun)]
    · intro halt w₁ hhalt site hsite
      exact absurd ⟨site, hsite⟩ hhalt

/-- The second loop only takes the events, so that each failure of the route
leaves one request less than the loop waits for. -/
theorem RDMAClient.waiting_routeLoop (total : Int) :
    RDMAClient.RouteLoop env (fun events w => outstanding w.log - routeErrors events = total) (fun _ _ => True)
      (fun halt w => ∀ site, halt = .blocked site → outstanding w.log = total) where
  exhausted _ _ := trivial
  blocked h _ _ := by
    rw [← h]
    simp [routeErrors]
  no_event _ _ := trivial
  retry {event rest w} h herror m ok := by
    have hcons : routeErrors (some event :: rest) = routeErrors rest + 1 := by simp [routeErrors, herror]
    simp only [outstanding_record, Op.outstanding]
    omega
  unexpected _ _ _ _ := trivial
  resolved := by
    intro event rest w h _ m ok
    apply wp_mono (RDMAClient.on_route_resolved_leaves event.id _)
    · exact fun _ _ _ => ⟨fun _ => trivial, fun _ => trivial⟩
    · intro halt w₁ hhalt site hsite
      exact absurd ⟨site, hsite⟩ hhalt.1

theorem RDMAClient.work_waits_in_loop :
    wp (RDMAClient.work env events) (fun _ _ => True) (fun halt _ => ∀ site, halt = .blocked site → site = .client_loop)
      w := by
  apply wp_bind_of (wp_working_on_cm_event (I := fun _ => True) (Q := fun _ => True)
    (E := fun halt _ => ∀ site, halt = .blocked site → site = .client_loop) ?_ (fun _ _ => trivial) ?_ trivial)
    ?_ (fun _ _ h => h)
  · intro w _ site hsite
    cases hsite
    rfl
  · intro w event _ _
    apply wp_mono (handle_cm_event_leaves RDMAClient.on_event_leaves event w) _ _
    · intro ret w' _
      exact ⟨fun _ => trivial, fun _ => trivial⟩
    · intro halt w' hhalt site hsite
      exact absurd ⟨site, hsite⟩ hhalt.1
  · intro _ w _
    apply wp_mono (RDMAClient.close_leaves w) (fun _ _ _ => trivial)
    intro halt w' hhalt site hsite
    exact absurd ⟨site, hsite⟩ hhalt.1

/-- Wherever the client waits before its event loop, a request is missing for
each failure of the route so far. -/
theorem RDMAClient.run_requests (conn : ConnectionProc) :
    wp (RDMAClient.run env events) (fun _ _ => True)
      (fun halt w => ∀ site, halt = .blocked site → site ≠ .client_loop → outstanding w.log = 1 - routeErrors events)
      (.start conn) := by
  apply RDMAClient.wp_run_of
  · exact fun _ _ => trivial
  · intro w sin_port hsetup hcm
    have hnone : outstanding w.log = 0 := (outstanding_of_extends hsetup.log (by simp)).trans rfl
    apply wp_mono (RDMAClient.wp_resolve_addr_of (RDMAClient.asking_addrLoop (routeErrors events)) sin_port
      NUM_OF_RETRIES ⟨hcm, hnone, rfl⟩) (fun _ _ h => h)
    exact fun _ _ h site hsite _ => h site hsite
  · exact fun _ _ => trivial
  · intro w num_of_retry rest h
    obtain ⟨hone, hrest⟩ := h num_of_retry rest rfl
    have htotal : outstanding w.log - routeErrors rest = 1 - routeErrors events := by rw [hone, hrest]
    apply wp_mono (RDMAClient.wp_resolve_route_of (RDMAClient.waiting_routeLoop _) num_of_retry htotal) (fun _ _ h => h)
    exact fun _ _ h site hsite _ => h site hsite
  · exact fun _ _ => trivial
  · intro w rest _
    apply wp_mono RDMAClient.work_waits_in_loop (fun _ _ h => h)
    intro halt w₁ hloop site hsite hother
    exact absurd (hloop site hsite) hother

/-- A client that waits in its resolution loops waits for the answer to one
request, unless the route has failed before. -/
theorem RDMAClient.one_outstanding_iff {site : Site}
    (hwaits : RDMAClient.run env events (.start conn) = .error (.blocked site) w)
    (hsite : site = .client_addr ∨ site = .client_route) :
    outstanding w.log = 1 ↔ ∀ event, some event ∈ events → event.event ≠ .RDMA_CM_EVENT_ROUTE_ERROR := by
  have hmissing : outstanding w.log = 1 - routeErrors events := by
    apply wp_error (RDMAClient.run_requests conn) hwaits site rfl
    rcases hsite with rfl | rfl <;> nofun
  rw [hmissing, ← routeErrors_eq_zero]
  omega

/-- An address that could not be resolved at first. -/
def resolving : Events := [.RDMA_CM_EVENT_ADDR_ERROR, .RDMA_CM_EVENT_ADDR_RESOLVED].map fun event => some ⟨event, 1⟩

theorem RDMAClient.one_outstanding_iff_resolving :
    ∃ w, RDMAClient.run workingEnv resolving (.start clientConn) = .error (.blocked .client_route) w ∧
      outstanding w.log = 1 := by
  have hruns : (RDMAClient.run workingEnv resolving).halts (.start clientConn)
      (fun halt _ => decide (halt = .blocked .client_route)) = true := by
    decide +kernel
  obtain ⟨halt, w, hrun, hdecided⟩ := Program.exists_of_halts hruns
  cases of_decide_eq_true hdecided
  refine ⟨w, hrun, (RDMAClient.one_outstanding_iff hrun (.inr rfl)).mpr ?_⟩
  simp [resolving]

/-- After the route has failed, the client waits and nobody was asked. -/
theorem RDMAClient.waits_unasked :
    ∃ w, RDMAClient.run workingEnv (resolving ++ [some ⟨.RDMA_CM_EVENT_ROUTE_ERROR, 1⟩]) (.start clientConn) =
      .error (.blocked .client_route) w ∧ outstanding w.log = 0 := by
  have hruns : (RDMAClient.run workingEnv (resolving ++ [some ⟨.RDMA_CM_EVENT_ROUTE_ERROR, 1⟩])).halts
      (.start clientConn) (fun halt w => decide (halt = .blocked .client_route ∧ outstanding w.log = 0)) = true := by
    decide +kernel
  obtain ⟨halt, w, hrun, hdecided⟩ := Program.exists_of_halts hruns
  obtain ⟨rfl, hnone⟩ := of_decide_eq_true hdecided
  exact ⟨w, hrun, hnone⟩

end tc_rdma.rdma_com
