import TcRdma.RdmaCom.Loops
import TcRdma.RdmaCom.MetaSend

open tc_rdma.machine

namespace tc_rdma.rdma_com

variable {env : Env} {id : CmId} {w : World} {N : Nat} {events : Events} {event : RdmaCmEvent}

/-- A handler keeps the side engaged while the loop goes on. -/
abbrev Handled (I : World → Prop) (N : Nat) (ret : Status) (w : World) : Prop :=
  (ret = .SUCCESS → I w) ∧ (ret = .FAILURE → Always (Permitted N) w.log)

theorem RDMAClient.on_addr_resolved_engaged (hworks : env.Reliable) (h : Steady N w)
    (hready : ¬ Refused env id w ∨ Engaged id N w) :
    wp (RDMAClient.on_addr_resolved env id) (fun _ => Engaged id N) (fun _ w' => Always (Permitted N) w'.log) w := by
  unfold RDMAClient.on_addr_resolved
  rw [wp_bind, wp_get, wp_bind]
  refine wp_check (fun _ => ?_) (fun _ => h.permitted)
  apply wp_bind_of (wp_build_connection_steady hworks h) _ (fun _ _ h => h)
  rintro ret w₁ ⟨-, hresult⟩
  have hengaged : Engaged id N w₁ := by
    cases ret with
    | SUCCESS => exact hresult
    | FAILURE =>
      obtain ⟨hrefused, rfl⟩ := hresult
      rcases hready with haccepted | hengaged
      · exact absurd hrefused haccepted
      · exact hengaged.record _ (by simp [Op.concern])
  apply wp_invoke_isNone
  · exact (hengaged.record _ (by simp [Op.concern, Call.concern])).record _ (by simp [Op.concern])
  · exact hengaged.record _ (by simp [Op.concern, Call.concern])

/-- The connection is opened on the receives of its id. -/
theorem RDMAClient.on_route_resolved_engaged (h : Engaged id N w) :
    wp (RDMAClient.on_route_resolved env id) (fun _ => Engaged id N) (fun _ w' => Always (Permitted N) w'.log) w := by
  have hconnect : ∀ n cm_params ok, Engaged id N (w.record (.call n (.rdma_connect id cm_params) ok)) := by
    intro n cm_params ok
    constructor
    · refine ⟨always_concat.mpr ⟨h.steady.permitted, h.equipped⟩, ?_, ?_, h.steady.number⟩
      · exact h.steady.unreleased.extend (C := [.handshake]) (Extends.one (.head _)) (by simp)
      · rw [sends, established, tally_record, tally_record]
        exact h.steady.balance
    · exact h.equipped.record _
  unfold RDMAClient.on_route_resolved
  exact wp_invoke_isNone (hconnect _ _ _) (hconnect _ _ _)

theorem RDMAClient.on_event_engaged (hworks : env.Reliable) (h : Engaged event.id N w)
    (howed : event.event = .RDMA_CM_EVENT_ESTABLISHED → sends w.log < established w.log) :
    wp (RDMAClient.on_event env event) (Handled (Engaged event.id N) N)
      (fun _ w' => Always (Permitted N) w'.log) w := by
  have hkeeps : ∀ {x : Prog Status},
      wp x (fun _ => Engaged event.id N) (fun _ w' => Always (Permitted N) w'.log) w →
      wp x (Handled (Engaged event.id N) N) (fun _ w' => Always (Permitted N) w'.log) w :=
    fun hx => wp_mono hx (fun _ _ h => ⟨fun _ => h, fun _ => h.steady.permitted⟩) (fun _ _ h => h)
  unfold RDMAClient.on_event
  split
  · exact hkeeps (RDMAClient.on_addr_resolved_engaged hworks h.steady (.inr h))
  · exact hkeeps (RDMAClient.on_route_resolved_engaged h)
  · rename_i hestablished
    exact hkeeps (wp_on_connection_engaged h (howed hestablished))
  · apply wp_mono (wp_on_disconnect_permitted h.steady.permitted event.id) _ (fun _ _ h => h)
    rintro ret w' ⟨rfl, hpermitted⟩
    exact of_failure hpermitted
  · exact of_failure h.steady.permitted

theorem Engaged.obtained (h : Engaged id N w) (n : Handle) (event : RdmaCmEvent) :
    Engaged id N (w.record (.obtained n event)) :=
  h.record _ (by simp [Op.concern])

theorem Engaged.acknowledged (h : Engaged id N w) (m n : Handle) (ok : Bool) :
    Engaged id N (w.record (.call m (.rdma_ack_cm_event n) ok)) :=
  h.record _ (by simp [Op.concern, Call.concern])

/-- A message is owed for each connection that the side has just been told of. -/
theorem Steady.owed (h : Steady N w) {m n : Handle} {ok : Bool} (hevent : event.event = .RDMA_CM_EVENT_ESTABLISHED) :
    sends ((w.record (.obtained n event)).record (.call m (.rdma_ack_cm_event n) ok)).log <
      established ((w.record (.obtained n event)).record (.call m (.rdma_ack_cm_event n) ok)).log := by
  have hdelivers : Op.delivers .RDMA_CM_EVENT_ESTABLISHED (.obtained n event) = true := by simp [Op.delivers, hevent]
  simp only [sends, established, tally_record, hdelivers]
  exact Nat.lt_succ_of_le h.balance

theorem RDMAClient.handle_cm_event_engaged (hworks : env.Reliable) (h : Engaged event.id N w) :
    wp (handle_cm_event env (RDMAClient.on_event env) event) (Handled (Engaged event.id N) N)
      (fun _ w' => Always (Permitted N) w'.log) w := by
  apply wp_handle_cm_event
  intro m ok
  exact RDMAClient.on_event_engaged hworks ((h.obtained _ event).acknowledged m _ ok) h.steady.owed

theorem RDMAClient.work_permitted (hworks : env.Reliable) (hown : RDMAClient.Own env events)
    (h : Engaged env.new_id N w) :
    wp (RDMAClient.work env events) (fun _ w' => Always (Permitted N) w'.log)
      (fun _ w' => Always (Permitted N) w'.log) w := by
  apply wp_bind_of (wp_working_on_cm_event (I := Engaged env.new_id N) (Q := fun u => Always (Permitted N) u.log)
    (E := fun _ u => Always (Permitted N) u.log) ?_ ?_ ?_ h) ?_ (fun _ _ h => h)
  · intro u hu
    exact hu.steady.permitted
  · intro u hu
    exact (hu.record .no_event (by simp [Op.concern])).steady.permitted
  · intro u event hevent hu
    rw [← hown event hevent] at hu ⊢
    exact RDMAClient.handle_cm_event_engaged hworks hu
  · intro _ u hu
    apply wp_mono (RDMAClient.close_leaves u)
    · intro _ u' hfoot
      exact permitted_of_footprint hu hfoot (by simp)
    · intro halt u' hfoot
      exact permitted_of_footprint hu hfoot.2 (by simp)

/-- A resolution loop either fails, or it leaves the client engaged for the
events that are left. -/
def RDMAClient.Engages {α : Type} (env : Env) (N : Nat) (rest : α → Events) (left : Option α) (w : World) : Prop :=
  match left with
  | none => Always (Permitted N) w.log
  | some a => Engaged env.new_id N w ∧ RDMAClient.Own env (rest a)

theorem Steady.record (h : Steady N w) (op : Op) (hop : op.concern ∉ [.handshake, .sending, .releasing]) :
    Steady N (w.record op) :=
  h.footprint (C := [op.concern]) (Footprint.record w (.head _)) (by simpa using hop)

theorem Steady.modify_ctx (h : Steady N w) (f : ConnContext → ConnContext) : Steady N (w.modify_ctx f) :=
  ⟨h.permitted, h.unreleased, h.balance, h.number⟩

/-- The client in its first loop. -/
structure RDMAClient.Resolving (env : Env) (N : Nat) (events : Events) (w : World) : Prop where
  steady : Steady N w
  cm_id : w.conn.conn_ctx.cm_id = .set env.new_id
  own : RDMAClient.Own env events

theorem RDMAClient.Resolving.permitted (h : RDMAClient.Resolving env N events w) (op : Op)
    (hop : op.concern ∉ [.handshake, .sending, .releasing]) : Always (Permitted N) (w.record op).log :=
  (h.steady.record op hop).permitted

theorem RDMAClient.Resolving.record (h : RDMAClient.Resolving env N events w) (op : Op)
    (hop : op.concern ∉ [.handshake, .sending, .releasing]) : RDMAClient.Resolving env N events (w.record op) :=
  ⟨h.steady.record op hop, h.cm_id, h.own⟩

theorem RDMAClient.resolving_addrLoop (hworks : env.Reliable) :
    RDMAClient.AddrLoop env (RDMAClient.Resolving env N) (RDMAClient.Resolving env N)
      (RDMAClient.Engages env N Prod.snd) (fun _ w => Always (Permitted N) w.log) where
  cm_id := RDMAClient.Resolving.cm_id
  exhausted h _ := h.permitted _ (by simp [Op.concern])
  unasked h _ _ _ := (h.record _ (by simp [Op.concern, Call.concern])).permitted _ (by simp [Op.concern])
  asked h _ _ := h.record _ (by simp [Op.concern, Call.concern])
  blocked h := h.steady.permitted
  no_event h _ := (h.record .no_event (by simp [Op.concern])).permitted _ (by simp [Op.concern])
  retry h _ _ _ :=
    { (h.record _ (by simp [Op.concern])).record _ (by simp [Op.concern, Call.concern]) with own := h.own.tail }
  unexpected h _ _ := (h.record _ (by simp [Op.concern])).permitted _ (by simp [Op.concern, Call.concern])
  resolved := by
    intro event rest w h _ m ok
    rw [h.own.head]
    have hobtained := h.steady.record (.obtained w.log.length event) (by simp [Op.concern])
    apply wp_mono (RDMAClient.on_addr_resolved_engaged (N := N) hworks _ (.inl _)) _ (fun _ _ h => h)
    · exact (hobtained.modify_ctx _).record _ (by simp [Op.concern, Call.concern])
    · -- the stored device is the one of the id
      rintro ⟨other, hother, hne⟩
      cases hother
      exact hne rfl
    · intro ret w₁ hengaged
      exact ⟨fun _ _ => ⟨hengaged, h.own.tail⟩, fun _ => hengaged.steady.permitted⟩

theorem RDMAClient.engaged_routeLoop :
    RDMAClient.RouteLoop env (fun events w => Engaged env.new_id N w ∧ RDMAClient.Own env events)
      (RDMAClient.Engages env N fun rest => rest) (fun _ w => Always (Permitted N) w.log) where
  exhausted h _ := (h.1.record _ (by simp [Op.concern])).steady.permitted
  blocked h := h.1.steady.permitted
  no_event h _ := ((h.1.record .no_event (by simp [Op.concern])).record _ (by simp [Op.concern])).steady.permitted
  retry h _ m ok := ⟨(h.1.obtained _ _).acknowledged m _ ok, h.2.tail⟩
  unexpected h m ok _ :=
    (((h.1.obtained _ _).record _ (by simp [Op.concern])).acknowledged m _ ok).steady.permitted
  resolved := by
    intro event rest w hresolving _ m ok
    obtain ⟨h, hown⟩ := hresolving
    rw [hown.head]
    apply wp_mono (RDMAClient.on_route_resolved_engaged ((h.obtained _ event).acknowledged m _ ok)) _
      (fun _ _ h => h)
    intro ret w₁ hengaged
    exact ⟨fun _ => ⟨hengaged, hown.tail⟩, fun _ => hengaged.steady.permitted⟩

theorem steady_of_setUp {conn : ConnectionProc} (hsetup : SetUp (.start conn) w) :
    Steady conn.conn_params.wr_cq_number w := by
  have hlog : Extends (fun entry => entry.op.concern ∈ [.setup, .text]) [] w.log := hsetup.log
  constructor
  · exact permitted_of_extends always_nil hlog (by simp)
  · exact Unreleased.extend (by intro _ hentry; cases hentry) hlog (by simp)
  · rw [sends_of_extends hlog (by simp)]
    exact Nat.zero_le _
  · rw [hsetup.conn_params]
    rfl

/-- Whatever becomes of its calls and events, the client opens its connection
and sends its meta message only when it has all that this takes. -/
theorem RDMAClient.run_permitted (hworks : env.Reliable) (conn : ConnectionProc) (hown : RDMAClient.Own env events) :
    Always (Permitted conn.conn_params.wr_cq_number) ((RDMAClient.run env events).final (.start conn)).log := by
  apply wp_final (I := fun w : World => Always (Permitted conn.conn_params.wr_cq_number) w.log)
  apply RDMAClient.wp_run_of
  · intro w hsetup
    exact (steady_of_setUp hsetup).permitted
  · intro w sin_port hsetup hcm
    exact RDMAClient.wp_resolve_addr_of (RDMAClient.resolving_addrLoop hworks) sin_port NUM_OF_RETRIES
      ⟨steady_of_setUp hsetup, hcm, hown⟩
  · exact fun _ h => h
  · intro w num_of_retry rest h
    exact RDMAClient.wp_resolve_route_of RDMAClient.engaged_routeLoop num_of_retry h
  · exact fun _ h => h
  · intro w rest h
    exact RDMAClient.work_permitted hworks h.2 h.1

/-- A server that has obtained a request and is equipped for its connection. -/
def RDMAServer.Serving (N : Nat) (w : World) : Prop := 0 < requested w.log ∧ ∃ id, Engaged id N w

theorem requested_record (w : World) (op : Op) (h : 0 < requested w.log) : 0 < requested (w.record op).log :=
  Nat.lt_of_lt_of_le h (tally_le_of_isPrefix (List.prefix_append _ _))

theorem RDMAServer.on_connect_request_serving (hworks : env.Reliable) (h : Steady N w)
    (hrequested : 0 < requested w.log) :
    wp (RDMAServer.on_connect_request env id) (Handled (RDMAServer.Serving N) N)
      (fun _ w' => Always (Permitted N) w'.log) w := by
  apply wp_bind_of (wp_and (wp_build_connection_steady hworks h) (build_connection_leaves id w)) _ (fun _ _ h => h.1)
  rintro ret w₁ ⟨⟨hsteady, hresult⟩, hfoot⟩
  cases ret with
  | FAILURE => exact of_failure hsteady.permitted
  | SUCCESS =>
    have hrequested₁ : 0 < requested w₁.log := Nat.lt_of_lt_of_le hrequested (tally_le_of_isPrefix hfoot.log.isPrefix)
    have haccept : ∀ n cm_params ok, Engaged id N (w₁.record (.call n (.rdma_accept id cm_params) ok)) := by
      intro n cm_params ok
      constructor
      · refine ⟨always_concat.mpr ⟨hsteady.permitted, hresult.equipped, hrequested₁⟩, ?_, ?_, hsteady.number⟩
        · exact hsteady.unreleased.extend (C := [.handshake]) (Extends.one (.head _)) (by simp)
        · rw [sends, established, tally_record, tally_record]
          exact hsteady.balance
      · exact hresult.equipped.record _
    apply wp_invoke_isNone
    · exact of_failure (haccept _ _ _).steady.permitted
    · exact of_success ⟨requested_record _ _ hrequested₁, id, haccept _ _ _⟩

theorem RDMAServer.on_event_serving (hworks : env.Reliable) (h : RDMAServer.Serving N w)
    (howed : event.event = .RDMA_CM_EVENT_ESTABLISHED → sends w.log < established w.log) :
    wp (RDMAServer.on_event env event) (Handled (RDMAServer.Serving N) N) (fun _ w' => Always (Permitted N) w'.log)
      w := by
  obtain ⟨hrequested, id, hengaged⟩ := h
  unfold RDMAServer.on_event
  split
  · exact RDMAServer.on_connect_request_serving hworks hengaged.steady hrequested
  · rename_i hestablished
    apply wp_mono (wp_and (wp_on_connection_engaged hengaged (howed hestablished)) (on_connection_leaves w)) _
      (fun _ _ h => h.1)
    rintro ret w' ⟨hengaged', hfoot⟩
    refine ⟨fun _ => ⟨?_, id, hengaged'⟩, fun _ => hengaged'.steady.permitted⟩
    exact Nat.lt_of_lt_of_le hrequested (tally_le_of_isPrefix hfoot.log.isPrefix)
  · apply wp_mono (wp_on_disconnect_permitted hengaged.steady.permitted event.id) _ (fun _ _ h => h)
    rintro ret w' ⟨rfl, hpermitted⟩
    exact of_failure hpermitted
  · exact of_failure hengaged.steady.permitted

theorem RDMAServer.handle_cm_event_serving (hworks : env.Reliable) (h : RDMAServer.Serving N w) :
    wp (handle_cm_event env (RDMAServer.on_event env) event) (Handled (RDMAServer.Serving N) N)
      (fun _ w' => Always (Permitted N) w'.log) w := by
  obtain ⟨hrequested, id, hengaged⟩ := h
  apply wp_handle_cm_event
  intro m ok
  have hobtained := requested_record w (.obtained w.log.length event) hrequested
  have hacked := requested_record _ (.call m (.rdma_ack_cm_event w.log.length) ok) hobtained
  have hengaged' := (hengaged.obtained w.log.length event).acknowledged m w.log.length ok
  exact RDMAServer.on_event_serving hworks ⟨hacked, id, hengaged'⟩ hengaged.steady.owed

theorem RDMAServer.serve_permitted (hworks : env.Reliable) (h : RDMAServer.Serving N w) :
    wp (RDMAServer.serve env events) (fun _ w' => Always (Permitted N) w'.log)
      (fun _ w' => Always (Permitted N) w'.log) w := by
  apply wp_bind_of (wp_working_on_cm_event (I := RDMAServer.Serving N) (Q := fun u => Always (Permitted N) u.log)
    (E := fun _ u => Always (Permitted N) u.log) ?_ ?_ ?_ h) ?_ (fun _ _ h => h)
  · rintro u ⟨-, id, hu⟩
    exact hu.steady.permitted
  · rintro u ⟨-, id, hu⟩
    exact (hu.record .no_event (by simp [Op.concern])).steady.permitted
  · intro u event _ hu
    exact RDMAServer.handle_cm_event_serving hworks hu
  · intro _ u hu
    apply wp_mono (RDMAServer.close_leaves u)
    · intro _ u' hfoot
      exact permitted_of_footprint hu hfoot (by simp)
    · intro halt u' hfoot
      exact permitted_of_footprint hu hfoot.2 (by simp)

/-- The first request is accepted on the receives of its id. -/
theorem RDMAServer.first_event_serving (hworks : env.Reliable) (h : Steady N w) :
    wp (RDMAServer.first_event env event) (Handled (RDMAServer.Serving N) N)
      (fun _ w' => Always (Permitted N) w'.log) w := by
  unfold RDMAServer.first_event
  rw [wp_bind]
  apply wp_obtain_event_of
  intro n
  have hobtained := h.record (.obtained n event) (by simp [Op.concern])
  rw [wp_ite]
  refine ⟨fun _ => ?_, fun hrequest => ?_⟩
  · exact of_failure (hobtained.record (.printed _) (by simp [Op.concern])).permitted
  · have hrequest : event.event = .RDMA_CM_EVENT_CONNECT_REQUEST := not_not.mp hrequest
    have hrequested : 0 < requested (w.record (.obtained n event)).log := by
      have hdelivers : Op.delivers .RDMA_CM_EVENT_CONNECT_REQUEST (.obtained n event) = true := by
        simp [Op.delivers, hrequest]
      rw [requested, tally_record, hdelivers]
      exact Nat.succ_pos _
    rw [wp_bind, wp_modify_ctx]
    apply wp_bind_of (RDMAServer.on_connect_request_serving hworks (hobtained.modify_ctx _) hrequested) _
      (fun _ _ h => h)
    rintro ret w₁ ⟨hserving, hpermitted⟩
    apply wp_if_failure
    · intro hfailure
      exact of_failure (hpermitted hfailure)
    · intro hsuccess
      obtain ⟨hrequested₁, id, hengaged⟩ := hserving hsuccess
      rw [wp_bind]
      apply wp_rdma_ack_cm_event
      intro m ok
      exact of_success ⟨requested_record _ _ hrequested₁, id, hengaged.acknowledged m n ok⟩

/-- The server accepts a connection and sends its meta message only when it
has all that this takes. -/
theorem RDMAServer.run_permitted (hworks : env.Reliable) (conn : ConnectionProc) :
    Always (Permitted conn.conn_params.wr_cq_number) ((RDMAServer.run env events).final (.start conn)).log := by
  apply wp_final (I := fun w : World => Always (Permitted conn.conn_params.wr_cq_number) w.log)
  apply RDMAServer.wp_run_of (S := RDMAServer.Serving conn.conn_params.wr_cq_number)
  · intro w hsetup
    exact (steady_of_setUp hsetup).permitted
  · intro w hsetup
    exact (steady_of_setUp hsetup).permitted
  · intro w text hsetup
    have hnone := (steady_of_setUp hsetup).record .no_event (by simp [Op.concern])
    exact (hnone.record (.printed text) (by simp [Op.concern])).permitted
  · intro w event hsetup
    exact RDMAServer.first_event_serving hworks (steady_of_setUp hsetup)
  · intro w rest h
    exact RDMAServer.serve_permitted hworks h

end tc_rdma.rdma_com
