import TcRdma.RdmaCom.Client
import TcRdma.RdmaCom.Footprint
import TcRdma.RdmaCom.Server

open tc_rdma.machine

namespace tc_rdma.rdma_com

variable {env : Env} {site : Site} {on_event : RdmaCmEvent → Prog Status} {events : Events}

/-- The events are all for the one id that the client creates. -/
def RDMAClient.Own (env : Env) (events : Events) : Prop := ∀ event, some event ∈ events → event.id = env.new_id

theorem RDMAClient.Own.head {event : RdmaCmEvent} (h : RDMAClient.Own env (some event :: events)) :
    event.id = env.new_id := h event (.head _)

theorem RDMAClient.Own.tail {event : RdmaCmEvent} (h : RDMAClient.Own env (some event :: events)) :
    RDMAClient.Own env events := fun other hother => h other (.tail _ hother)

abbrev RDMAServer.handling : List Concern := building ++ [.result, .handshake, .entry, .sending, .releasing]

abbrev RDMAClient.handling : List Concern :=
  building ++ [.result, .resolution, .text, .handshake, .entry, .sending, .releasing]

theorem RDMAServer.on_connect_request_leaves (id : CmId) :
    Leaves (building ++ [.result, .handshake]) (RDMAServer.on_connect_request env id) := by
  apply ((build_connection_leaves id).mono (by simp)).bind
  intro built
  cases built with
  | FAILURE => exact leaves_pure _
  | SUCCESS =>
    apply Leaves.bind (leaves_invoke (by simp [Call.concern]))
    intro accepted
    cases accepted <;> exact leaves_pure _

theorem RDMAServer.on_event_leaves (event : RdmaCmEvent) :
    Leaves RDMAServer.handling (RDMAServer.on_event env event) := by
  unfold RDMAServer.on_event
  split
  · exact (RDMAServer.on_connect_request_leaves event.id).mono (by simp)
  · exact on_connection_leaves.mono (by simp)
  · exact (on_disconnect_leaves event.id).mono (by simp)
  · exact leaves_pure _

theorem RDMAClient.on_addr_resolved_leaves (id : CmId) :
    Leaves (building ++ [.result, .resolution, .text]) (RDMAClient.on_addr_resolved env id) := by
  refine leaves_get.bind fun w => (leaves_check _ .assertion_machine nofun).bind fun _ => ?_
  apply ((build_connection_leaves id).mono (by simp)).bind
  intro _
  apply Leaves.bind (leaves_invoke (by simp [Call.concern]))
  intro resolving
  cases resolving with
  | none => exact Leaves.bind (leaves_record (by simp [Op.concern])) fun _ => leaves_pure _
  | some _ => exact leaves_pure _

theorem RDMAClient.on_route_resolved_leaves (id : CmId) :
    Leaves [.handshake] (RDMAClient.on_route_resolved env id) := by
  apply Leaves.bind (leaves_invoke (.head _))
  intro connecting
  cases connecting <;> exact leaves_pure _

theorem RDMAClient.on_event_leaves (event : RdmaCmEvent) :
    Leaves RDMAClient.handling (RDMAClient.on_event env event) := by
  unfold RDMAClient.on_event
  split
  · exact (RDMAClient.on_addr_resolved_leaves event.id).mono (by simp)
  · exact (RDMAClient.on_route_resolved_leaves event.id).mono (by simp)
  · exact on_connection_leaves.mono (by simp)
  · exact (on_disconnect_leaves event.id).mono (by simp)
  · exact leaves_pure _

theorem RDMAServer.close_leaves : Leaves [.releasing] (RDMAServer.close env) :=
  leaves_load.bind fun _ => (leaves_invoke (.head _)).bind fun _ => leaves_load.bind fun _ =>
    (leaves_invoke (.head _)).bind fun _ => leaves_pure _

theorem RDMAClient.close_leaves : Leaves [.releasing] (RDMAClient.close env) :=
  leaves_load.bind fun _ => (leaves_invoke (.head _)).bind fun _ => leaves_pure _

/-- A property that each pass of the loop keeps while its handler succeeds
holds where the loop waits, and where `rdma_get_cm_event` fails. -/
theorem wp_working_on_cm_event {I Q : World → Prop} {E : Halt → World → Prop}
    (hwait : ∀ w, I w → E (.blocked site) w) (hnone : ∀ w, I w → Q (w.record .no_event))
    (hsome : ∀ w event, some event ∈ events → I w →
      wp (handle_cm_event env on_event event) (fun ret w' => (ret = .SUCCESS → I w') ∧ (ret = .FAILURE → Q w')) E w)
    {w : World} (hw : I w) : wp (working_on_cm_event env site on_event events) (fun _ => Q) E w := by
  induction events generalizing w with
  | nil => exact hwait w hw
  | cons head rest ih =>
    cases head with
    | none => exact hnone w hw
    | some event =>
      apply wp_bind_of (hsome w event (.head _) hw) _ (fun _ _ h => h)
      rintro ret w' ⟨hsuccess, hfailure⟩
      cases ret with
      | SUCCESS => exact ih (fun u other hother => hsome u other (.tail _ hother)) (hsuccess rfl)
      | FAILURE => exact hfailure rfl

theorem obtain_event_leaves (event : RdmaCmEvent) : Leaves [.event] (obtain_event event) :=
  leaves_get.bind fun _ => (leaves_record (.head _)).bind fun _ => leaves_pure _

theorem rdma_ack_cm_event_leaves (n : Handle) : Leaves [.event] (rdma_ack_cm_event env n) :=
  (leaves_invoke (.head _)).bind fun _ => leaves_pure _

theorem handle_cm_event_leaves {C : List Concern} (hhandler : ∀ event, Leaves C (on_event event))
    (event : RdmaCmEvent) : Leaves (.event :: C) (handle_cm_event env on_event event) := by
  have hevent : ∀ c ∈ [Concern.event], c ∈ .event :: C := by simp
  apply ((obtain_event_leaves event).mono hevent).bind
  intro n
  apply ((rdma_ack_cm_event_leaves n).mono hevent).bind
  intro _
  exact (hhandler event).mono fun c hc => .tail _ hc

/-- The loop takes up where it waited when more events come. -/
theorem working_on_cm_event_resumes {C : List Concern} (hhandler : ∀ event, Leaves C (on_event event))
    {events : Events} {w w' : World} {site' : Site}
    (hblocked : working_on_cm_event env site on_event events w = .error (.blocked site') w') (more : Events) :
    working_on_cm_event env site on_event (events ++ more) w = working_on_cm_event env site on_event more w' := by
  induction events generalizing w with
  | nil =>
    cases hblocked
    rfl
  | cons head rest ih =>
    cases head with
    | none => cases hblocked
    | some event =>
      cases hhandled : handle_cm_event env on_event event w with
      | error halt w₁ =>
        have hwaits := (wp_error (handle_cm_event_leaves hhandler event w) hhandled).1
        have hhalt := (bind_of_error hhandled _).symm.trans hblocked
        cases hhalt
        exact absurd ⟨_, rfl⟩ hwaits
      | ok ret w₁ =>
        have hgo := (bind_of_ok hhandled _).symm.trans hblocked
        apply (bind_of_ok hhandled _).trans
        cases ret with
        | FAILURE => cases hgo
        | SUCCESS => exact ih hgo

end tc_rdma.rdma_com
