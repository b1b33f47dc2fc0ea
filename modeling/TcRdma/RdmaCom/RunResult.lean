import TcRdma.RdmaCom.RunEnds
import TcRdma.RdmaCom.TwoParty

open tc_rdma.machine

namespace tc_rdma.rdma_com

variable {env : Env} {events : Events} {w : World} {id : CmId} {event : RdmaCmEvent}

/-- `build_connection` succeeds only for the stored id. -/
theorem RDMAServer.wp_on_connect_request_stored : wp (RDMAServer.on_connect_request env id)
    (fun ret _ => ret = .SUCCESS → w.conn.conn_ctx.cm_id = .set id) (fun _ _ => True) w := by
  apply wp_bind_of (wp_build_connection env id w) _ (fun _ _ _ => trivial)
  rintro ret w₁ ⟨last, hreturns, -, -⟩
  apply wp_if_failure
  · intro _ hsuccess
    cases hsuccess
  rintro rfl
  cases hreturns with
  | built _ _ _ _ hcm _ _ => exact wp_invoke_isNone (fun _ => hcm) fun _ => hcm

theorem RDMAServer.handling_on_event : Handling env (building ++ [.result, .handshake, .entry, .sending])
    (RDMAServer.on_event env) where
  leaves := by
    intro event hevent
    unfold RDMAServer.on_event
    split
    · exact (RDMAServer.on_connect_request_leaves event.id).mono (by simp)
    · exact on_connection_leaves.mono (by simp)
    · exact absurd ‹_› hevent
    · exact leaves_pure _
  no_event := by simp
  no_setup := by simp
  no_releasing := by simp
  on_disconnect := by
    intro event hevent
    rw [RDMAServer.on_event, hevent]
    rfl
  request := by
    intro event w hevent
    rw [RDMAServer.on_event, hevent]
    exact RDMAServer.wp_on_connect_request_stored

theorem RDMAClient.handling_on_event :
    Handling env (building ++ [.result, .resolution, .text, .handshake, .entry, .sending])
      (RDMAClient.on_event env) where
  leaves := by
    intro event hevent
    unfold RDMAClient.on_event
    split
    · exact (RDMAClient.on_addr_resolved_leaves event.id).mono (by simp)
    · exact (RDMAClient.on_route_resolved_leaves event.id).mono (by simp)
    · exact on_connection_leaves.mono (by simp)
    · exact absurd ‹_› hevent
    · exact leaves_pure _
  no_event := by simp
  no_setup := by simp
  no_releasing := by simp
  on_disconnect := by
    intro event hevent
    rw [RDMAClient.on_event, hevent]
    rfl
  request := by
    intro event w hevent
    rw [RDMAClient.on_event, hevent]
    intro hsuccess
    cases hsuccess

/-- Before the handshake: what is open, and that no connection is. -/
structure Opening (env : Env) (conn : Fixed) (objects : List CmObject) (w : World) : Prop where
  opened : Opened env conn objects w
  unjoined : ¬ Joined w.log

variable {conn : Fixed} {objects : List CmObject} {C : List Concern} {w' : World} {ch : Handle}
  {fresh : Prop}

theorem not_joined_of_extends {log log' : List Entry} (h : Extends (fun entry => entry.op.concern ∈ C) log log')
    (hhandshake : .handshake ∉ C) (hjoined : ¬ Joined log) : ¬ Joined log' := by
  rw [Joined, outcomes_of_extends h hhandshake]
  exact hjoined

theorem Opening.extend (h : Opening env conn objects w) (hfoot : Footprint C w w') (hevent : .event ∉ C)
    (hsetup : .setup ∉ C) (hreleasing : .releasing ∉ C) (hhandshake : .handshake ∉ C) :
    Opening env conn objects w' where
  opened := h.opened.extend hfoot.fixed hfoot.log hevent hsetup hreleasing
  unjoined := not_joined_of_extends hfoot.log hhandshake h.unjoined

/-- An event that is no connect request creates nothing. -/
theorem Opening.obtain (h : Opening env conn objects w) (hrequest : event.event ≠ .RDMA_CM_EVENT_CONNECT_REQUEST)
    (n : Handle) : Opening env conn objects (w.record (.obtained n event)) where
  opened := h.opened.record (by simp [Op.creates, hrequest]) rfl
  unjoined := not_joined_of_extends (C := [.event]) (Extends.one (.head _)) (by simp) h.unjoined

theorem Opening.ack (h : Opening env conn objects w) (n m : Handle) (ok : Bool) :
    Opening env conn objects (w.record (.call m (.rdma_ack_cm_event n) ok)) where
  opened := h.opened.record rfl rfl
  unjoined := not_joined_of_extends (C := [.event]) (Extends.one (.head _)) (by simp) h.unjoined

/-- Going no further leaves the channel behind, whatever was recorded since. -/
theorem Opening.early (h : Opening env conn objects w) {log' : List Entry}
    (hlog : Extends (fun entry => entry.op.concern ∈ C) w.log log') (hreleasing : .releasing ∉ C)
    (hhandshake : .handshake ∉ C) {object : CmObject} (hobject : object ∈ objects) :
    RunEnds env fresh log' .FAILURE := by
  refine .early ?_ (not_joined_of_extends hlog hhandshake h.unjoined)
    (not_cleanedUp (created_subset hlog.isPrefix (h.opened.all hobject)) ?_)
  · obtain ⟨added, rfl, -⟩ := hlog
    rw [Unopened, outcomes_head_append h.opened.opened]
    simp
  · rw [destroyed_of_extends hlog hreleasing, h.opened.untouched]
    simp

theorem Opening.no_event (h : Opening env conn objects w) {object : CmObject} (hobject : object ∈ objects)
    (text : String) : RunEnds env fresh ((w.record .no_event).record (.printed text)).log .FAILURE := by
  refine h.early (C := [.no_event, .text]) ?_ (by simp) (by simp) hobject
  exact (extends_record _ (by simp [Op.concern])).trans (extends_record _ (by simp [Op.concern]))

theorem Opening.exhausted (h : Opening env conn objects w) {object : CmObject} (hobject : object ∈ objects)
    (text : String) : RunEnds env fresh (w.record (.printed text)).log .FAILURE :=
  h.early (C := [.text]) (extends_record _ (.head _)) (by simp) (by simp) hobject

theorem not_joined_of_setUp {conn : ConnectionProc} (hsetup : SetUp (.start conn) w) : ¬ Joined w.log :=
  not_joined_of_extends hsetup.log (by simp) (by simp [Joined, outcomes, picked, World.start])

theorem RDMAServer.wp_on_connect_request_joined (hunjoined : ¬ Joined w.log) : wp (RDMAServer.on_connect_request env id)
    (fun ret w' => (ret = .SUCCESS → Joined w'.log) ∧ (ret = .FAILURE → ¬ Joined w'.log)) (fun _ _ => True) w := by
  apply wp_bind_of (build_connection_leaves id w) _ (fun _ _ _ => trivial)
  intro ret w₁ hfoot
  have hsame := not_joined_of_extends hfoot.log (by simp) hunjoined
  apply wp_if_failure
  · exact fun _ => of_failure hsame
  intro _
  refine wp_invoke_isNone (of_failure ?_) (of_success ?_)
  · rw [Joined, outcomes_record_call]
    simpa [Call.concern, Joined] using hsame
  · rw [Joined, outcomes_record_call]
    simp [Call.concern]

/-- What the server works on in its loop, and what it has created for it. -/
def RDMAServer.Serves (env : Env) (fresh : Prop) (w : World) : Prop :=
  ∃ ch id conn, (fresh → id ≠ env.new_id) ∧ conn.cm_id_control = .set env.new_id ∧ conn.cm_channel = .set (some ch) ∧
    conn.cm_id = .set id ∧ Working env conn [.channel ch, .id env.new_id, .id id] w

theorem RDMAServer.wp_first_event_ends (h : RDMAServer.Listens env w) (hunjoined : ¬ Joined w.log)
    (hfresh : fresh → event.event = .RDMA_CM_EVENT_CONNECT_REQUEST → event.id ≠ env.new_id) :
    wp (RDMAServer.first_event env event)
      (fun ret w' => (ret = .SUCCESS → RDMAServer.Serves env fresh w') ∧
        (ret = .FAILURE → RunEnds env fresh w'.log .FAILURE))
      (fun _ _ => True) w := by
  obtain ⟨ch, hcontrol, hchannel, hopened⟩ := h
  unfold RDMAServer.first_event
  rw [wp_bind, wp_obtain_event, wp_ite]
  refine ⟨fun _ => ?_, fun hrequest => ?_⟩
  · rw [wp_bind, wp_record, wp_pure]
    apply of_failure
    refine Opening.early (C := [.event, .text]) ⟨hopened, hunjoined⟩ ?_ (by simp) (by simp) (.head _)
    exact (extends_record _ (by simp [Op.concern])).trans (extends_record _ (by simp [Op.concern]))
  · have hrequest : event.event = .RDMA_CM_EVENT_CONNECT_REQUEST := not_not.mp hrequest
    have hcreated : Opened env _ ([.channel ch, .id env.new_id] ++ [.id event.id]) _ :=
      (hopened.create (by simp [Op.creates, hrequest]) rfl : Opened env _ _
        (w.record (.obtained w.log.length event))).modify_ctx fun ctx =>
          { ctx with cm_id := .set event.id, context := .set (some (env.verbs event.id)) }
    have hlast : last_event (w.record (.obtained w.log.length event)).log = some event.event := last_event_obtained _
    have hnot : ¬ Joined (w.record (.obtained w.log.length event)).log :=
      not_joined_of_extends (C := [.event]) (Extends.one (.head _)) (by simp) hunjoined
    rw [wp_bind, wp_modify_ctx]
    refine wp_bind_of (wp_and (RDMAServer.wp_on_connect_request_joined ?_)
      (RDMAServer.on_connect_request_leaves event.id _)) ?_ (fun _ _ _ => trivial)
    · exact hnot
    rintro ret w₁ ⟨⟨hsuccess, hfailure⟩, hfoot⟩
    have hopened₁ := hcreated.extend hfoot.fixed hfoot.log (by simp) (by simp) (by simp)
    apply wp_if_failure
    · exact fun hret => of_failure (hopened₁.early (hfailure hret) (.head _))
    intro hret
    rw [wp_bind]
    apply wp_rdma_ack_cm_event
    intro m ok
    have hlast₁ : last_event w₁.log = some event.event := (last_event_of_extends hfoot.log (by simp)).trans hlast
    apply of_success
    refine ⟨ch, event.id, _, fun hids => hfresh hids hrequest, ?_, ?_, ?_, hopened₁.record rfl rfl, ?_, ?_⟩
    · exact hcontrol
    · exact hchannel
    · rfl
    · exact (hsuccess hret).of_isPrefix (List.prefix_append _ _)
    · rw [last_event_call, hlast₁, hrequest]
      simp

theorem RDMAServer.wp_close_ends {conn : Fixed} (hcontrol : conn.cm_id_control = .set env.new_id)
    (hchannel : conn.cm_channel = .set (some ch)) (hcm : conn.cm_id = .set id) (hne : fresh → id ≠ env.new_id)
    (h : Worked env conn [.channel ch, .id env.new_id, .id id] w) :
    wp (RDMAServer.close env) (fun ret w' => RunEnds env fresh w'.log ret) (fun _ _ => True) w := by
  have hcontrol : w.conn.conn_ctx.cm_id_control = .set env.new_id :=
    (congrArg Fixed.cm_id_control h.fixed).trans hcontrol
  have hchannel : w.conn.conn_ctx.cm_channel = .set (some ch) := (congrArg Fixed.cm_channel h.fixed).trans hchannel
  unfold RDMAServer.close
  rw [wp_bind]
  apply wp_load_of_set hcontrol
  rw [wp_bind, wp_invoke, wp_bind]
  refine wp_load_of_set hchannel ?_
  rw [wp_bind, wp_invoke, wp_pure]
  have hrest : ∀ n m ok ok', destroyed ((w.record (.call n (.rdma_destroy_id env.new_id) ok)).record
      (.call m (.rdma_destroy_event_channel (some ch)) ok')).log =
        destroyed w.log ++ [.id env.new_id, .channel ch] := by
    intro n m ok ok'
    rw [destroyed_record, destroyed_record, List.append_assoc]
    rfl
  refine h.ends ((Extends.one (.head _)).trans (Extends.one (.head _))) (hrest _ _ _ _) hcm (by simp) ?_ ?_ ?_
  · exact fun hfresh => by simpa using hne hfresh
  · exact fun hfresh => by simp [hne hfresh, (hne hfresh).symm]
  · simp

/-- A connect request comes with an id of its own, not that of the listener. -/
def FreshIds (env : Env) (events : Events) : Prop :=
  ∀ event, some event ∈ events → event.event = .RDMA_CM_EVENT_CONNECT_REQUEST → event.id ≠ env.new_id

theorem RDMAServer.wp_run_ends (conn : ConnectionProc) :
    wp (RDMAServer.run env events) (fun ret w => RunEnds env (FreshIds env events) w.log ret) (fun _ _ => True)
      (.start conn) := by
  refine RDMAServer.wp_run_from (L := fun w => RDMAServer.Listens env w ∧ ¬ Joined w.log)
    (S := RDMAServer.Serves env (FreshIds env events)) ?_ (fun _ _ => trivial) ?_ ?_ ?_
  · apply wp_mono (wp_and (RDMAServer.wp_listen_opens env (FreshIds env events) conn) (RDMAServer.wp_listen env _)) _
      (fun _ _ h => h.1.elim)
    rintro ret w ⟨⟨hlistens, hfails⟩, hset, -⟩
    exact ⟨fun hret => ⟨hlistens hret, not_joined_of_setUp hset⟩, fun hret => hfails hret (not_joined_of_setUp hset)⟩
  · rintro w text ⟨⟨ch, -, -, hopened⟩, hunjoined⟩
    exact Opening.no_event ⟨hopened, hunjoined⟩ (.head _) text
  · rintro w event hevent ⟨hlistens, hunjoined⟩
    exact RDMAServer.wp_first_event_ends hlistens hunjoined fun hfresh => hfresh event hevent
  · rintro w rest - ⟨ch, id, conn, hne, hcontrol, hchannel, hcm, hworking⟩
    apply wp_bind_of (hworking.wp_working_on_cm_event RDMAServer.handling_on_event hcm (by simp)) _ (fun _ _ h => h)
    exact fun _ w₁ hworked => RDMAServer.wp_close_ends hcontrol hchannel hcm hne hworked

section Client

variable {I : World → Prop}

theorem RDMAClient.wp_on_route_resolved_joined (hunjoined : ¬ Joined w.log) : wp (RDMAClient.on_route_resolved env id)
    (fun ret w' => (ret = .SUCCESS → Joined w'.log) ∧ (ret = .FAILURE → ¬ Joined w'.log)) (fun _ _ => True) w := by
  unfold RDMAClient.on_route_resolved
  refine wp_invoke_isNone (of_failure ?_) (of_success ?_)
  · rw [Joined, outcomes_record_call]
    simpa [Call.concern, Joined] using hunjoined
  · rw [Joined, outcomes_record_call]
    simp [Call.concern]

/-- The first loop of the client opens nothing and joins nothing. -/
theorem RDMAClient.opening_addrLoop (fresh : Prop) (hcm : conn.cm_id = .set env.new_id) {object : CmObject}
    (hobject : object ∈ objects) :
    RDMAClient.AddrLoop env (fun _ w => Opening env conn objects w) (fun _ w => Opening env conn objects w)
      (fun left w => match left with
        | none => RunEnds env fresh w.log .FAILURE
        | some _ => Opening env conn objects w) (fun _ _ => True) where
  cm_id h := (congrArg Fixed.cm_id h.opened.fixed).trans hcm
  exhausted := fun h text => h.exhausted hobject text
  unasked := by
    intro events w h n sin_port text
    refine h.early (C := [.resolution, .text]) ?_ (by simp) (by simp) hobject
    exact (extends_record _ (by simp [Op.concern, Call.concern])).trans (extends_record _ (by simp [Op.concern]))
  asked := by
    intro events w h n sin_port
    have hfoot : Footprint [.resolution] w
        (w.record (.call n (.rdma_resolve_addr env.new_id sin_port RDMA_TIMEOUT_IN_MS) true)) :=
      Footprint.record w (.head _)
    exact h.extend hfoot (by simp) (by simp) (by simp) (by simp)
  blocked := fun _ => trivial
  no_event := fun h text => h.no_event hobject text
  retry := fun h hevent m ok => (h.obtain (by simp [hevent]) _).ack _ m ok
  unexpected := by
    intro event rest w h m ok
    refine h.early (C := [.event]) ?_ (by simp) (by simp) hobject
    exact (extends_record _ (by simp [Op.concern])).trans (extends_record _ (by simp [Op.concern, Call.concern]))
  resolved := by
    intro event rest w h hevent m ok
    have hopening : Opening env conn objects
        (((w.record (.obtained w.log.length event)).modify_ctx fun ctx =>
          { ctx with context := .set (some (env.verbs env.new_id)) }).record
            (.call m (.rdma_ack_cm_event w.log.length) ok)) := by
      have hobtained : Opening env conn objects (w.record (.obtained w.log.length event)) :=
        h.obtain (by simp [hevent]) _
      refine Opening.ack (hobtained.extend (C := []) ?_ (by simp) (by simp) (by simp) (by simp)) _ m ok
      exact Footprint.modify_ctx _
    apply wp_mono (RDMAClient.on_addr_resolved_leaves event.id _) _ (fun _ _ _ => trivial)
    intro ret w' hfoot
    refine ⟨fun _ _ => hopening.extend hfoot (by simp) (by simp) (by simp) (by simp), fun _ => ?_⟩
    exact hopening.early hfoot.log (by simp) (by simp) hobject

/-- The second loop of the client ends with the connection opened, or early. -/
theorem RDMAClient.opening_routeLoop (fresh : Prop) {object : CmObject} (hobject : object ∈ objects) :
    RDMAClient.RouteLoop env (fun _ w => Opening env conn objects w)
      (fun left w => match left with
        | none => RunEnds env fresh w.log .FAILURE
        | some _ => Working env conn objects w) (fun _ _ => True) where
  exhausted := fun h text => h.exhausted hobject text
  blocked := fun _ => trivial
  no_event := fun h text => h.no_event hobject text
  retry := fun h hevent m ok => (h.obtain (by simp [hevent]) _).ack _ m ok
  unexpected := by
    intro event rest w h m ok text
    have hprinted : Extends (fun entry => entry.op.concern ∈ [.event, .text]) w.log
        ((w.record (.obtained w.log.length event)).record (.printed text)).log :=
      (extends_record _ (by simp [Op.concern])).trans (extends_record _ (by simp [Op.concern]))
    exact h.early (hprinted.trans (extends_record _ (by simp [Op.concern, Call.concern]))) (by simp) (by simp) hobject
  resolved := by
    intro event rest w h hevent m ok
    have hacked : Opening env conn objects (w.acked event m ok) := (h.obtain (by simp [hevent]) _).ack _ m ok
    apply wp_mono (wp_and (RDMAClient.wp_on_route_resolved_joined hacked.unjoined)
      (RDMAClient.on_route_resolved_leaves event.id _)) _ (fun _ _ _ => trivial)
    rintro ret w' ⟨⟨hsuccess, hfailure⟩, hfoot⟩
    have hopened := hacked.opened.extend hfoot.fixed hfoot.log (by simp) (by simp) (by simp)
    refine ⟨fun hret => ⟨hopened, hsuccess hret, ?_⟩, fun hret => hopened.early (hfailure hret) hobject⟩
    rw [last_event_of_extends hfoot.log (by simp), last_event_acked, hevent]
    simp

theorem RDMAClient.wp_close_ends (hchannel : conn.cm_channel = .set (some ch)) (hcm : conn.cm_id = .set env.new_id)
    (h : Worked env conn [.channel ch, .id env.new_id] w) :
    wp (RDMAClient.close env) (fun ret w' => RunEnds env fresh w'.log ret) (fun _ _ => True) w := by
  have hchannel : w.conn.conn_ctx.cm_channel = .set (some ch) := (congrArg Fixed.cm_channel h.fixed).trans hchannel
  unfold RDMAClient.close
  rw [wp_bind]
  apply wp_load_of_set hchannel
  rw [wp_bind, wp_invoke, wp_pure]
  have hrest : ∀ n ok, destroyed (w.record (.call n (.rdma_destroy_event_channel (some ch)) ok)).log =
      destroyed w.log ++ [.channel ch] := fun n ok => destroyed_record w _
  refine h.ends (Extends.one (.head _)) (hrest _ _) hcm (by simp) ?_ ?_ ?_
  · simp
  · simp
  · simp

/-- The client's channel and id are open, and `P` holds of them. -/
def RDMAClient.With (env : Env) (P : Fixed → List CmObject → World → Prop) (w : World) : Prop :=
  ∃ ch conn, conn.cm_id = .set env.new_id ∧ conn.cm_channel = .set (some ch) ∧ P conn [.channel ch, .id env.new_id] w

theorem RDMAClient.wp_run_ends (fresh : Prop) (conn : ConnectionProc) :
    wp (RDMAClient.run env events) (fun ret w => RunEnds env fresh w.log ret) (fun _ _ => True) (.start conn) := by
  refine RDMAClient.wp_run_from (S := RDMAClient.With env (Opening env))
    (L := fun left w => match left with
      | none => RunEnds env fresh w.log .FAILURE
      | some _ => RDMAClient.With env (Opening env) w)
    (M := fun left w => match left with
      | none => RunEnds env fresh w.log .FAILURE
      | some _ => RDMAClient.With env (Working env) w) ?_ ?_ (fun _ h => h) ?_ (fun _ h => h) ?_
  · apply wp_mono (wp_and (RDMAClient.wp_create_opens env fresh conn) (RDMAClient.wp_create env _)) _
      (fun _ _ h => h.1.elim)
    rintro port w ⟨⟨hfails, hopens⟩, hset, -⟩
    refine ⟨fun hnone => hfails hnone (not_joined_of_setUp hset), fun sin_port hport => ?_⟩
    obtain ⟨ch, hcm, hchannel, hopened⟩ := hopens sin_port hport
    exact ⟨ch, _, hcm, hchannel, hopened, not_joined_of_setUp hset⟩
  · rintro w sin_port ⟨ch, conn, hcm, hchannel, hopening⟩
    apply wp_mono (RDMAClient.wp_resolve_addr_of (RDMAClient.opening_addrLoop fresh hcm (.head _)) sin_port NUM_OF_RETRIES
      hopening) _ (fun _ _ h => h)
    intro left w' h
    cases left with
    | none => exact h
    | some _ => exact ⟨ch, conn, hcm, hchannel, h⟩
  · rintro w num_of_retry rest ⟨ch, conn, hcm, hchannel, hopening⟩
    apply wp_mono (RDMAClient.wp_resolve_route_of (RDMAClient.opening_routeLoop fresh (.head _)) num_of_retry hopening) _
      (fun _ _ h => h)
    intro left w' h
    cases left with
    | none => exact h
    | some _ => exact ⟨ch, conn, hcm, hchannel, h⟩
  · rintro w rest ⟨ch, conn, hcm, hchannel, hworking⟩
    apply wp_bind_of (hworking.wp_working_on_cm_event RDMAClient.handling_on_event hcm (by simp)) _ (fun _ _ h => h)
    exact fun _ w₁ hworked => RDMAClient.wp_close_ends hchannel hcm hworked

end Client

def Side.run (side : Side) (env : Env) (events : Events) : Prog Status :=
  match side with
  | .client => RDMAClient.run env events
  | .server => RDMAServer.run env events

theorem Side.run_ends {side : Side} {conn : ConnectionProc} {ret : Status} {w' : World}
    (hrun : side.run env events (.start conn) = .ok ret w') : RunEnds env (FreshIds env events) w'.log ret := by
  cases side with
  | client =>
    have hends := wp_ok (RDMAClient.wp_run_ends (FreshIds env events) conn) hrun
    exact hends
  | server =>
    have hends := wp_ok (RDMAServer.wp_run_ends conn) hrun
    exact hends

/-- When a run returns, everything has been destroyed if and only if its
channel could not be created, or its event loop was left because of
`RDMA_CM_EVENT_DISCONNECTED`. -/
theorem Side.cleanedUp_iff {side : Side} {conn : ConnectionProc} (hfresh : FreshIds env events) {ret : Status}
    {w' : World} (hrun : side.run env events (.start conn) = .ok ret w') :
    CleanedUp env w'.log ↔ Unopened w'.log ∨ Left w'.log := by
  cases Side.run_ends hrun with
  | unopened hopened _ hclean => exact ⟨fun _ => .inl hopened, fun _ => hclean⟩
  | early hopened hjoined hclean =>
    refine ⟨fun h => absurd h hclean, ?_⟩
    rintro (hnot | hleft)
    · exact absurd hnot hopened
    · exact absurd hleft.1 hjoined
  | stopped hopened hjoined hlast hclean =>
    refine ⟨fun h => absurd h (hclean hfresh), ?_⟩
    rintro (hnot | hleft)
    · exact absurd hnot hopened
    · exact absurd hleft.2 hlast
  | left _ hleft hclean => exact ⟨fun _ => .inr hleft, fun _ => hclean hfresh⟩

/-- A connection that is established and disconnected. -/
def wholeConnection : Events :=
  [.RDMA_CM_EVENT_CONNECT_REQUEST, .RDMA_CM_EVENT_ESTABLISHED, .RDMA_CM_EVENT_DISCONNECTED].map
    fun event => some ⟨event, 2⟩

theorem Side.cleanedUp_iff_wholeConnection :
    ∃ w', Side.server.run workingEnv wholeConnection (.start serverConn) = .ok .SUCCESS w' ∧
      CleanedUp workingEnv w'.log := by
  have hruns : (Side.server.run workingEnv wholeConnection).returns (.start serverConn) (fun ret w' =>
      decide (ret = .SUCCESS ∧ Left w'.log)) = true := by
    decide +kernel
  obtain ⟨ret, w', hrun, hdecided⟩ := Program.exists_of_returns hruns
  obtain ⟨rfl, hleft⟩ := of_decide_eq_true hdecided
  have hfresh : FreshIds workingEnv wholeConnection := by simp [FreshIds, wholeConnection, workingEnv]
  exact ⟨w', hrun, (Side.cleanedUp_iff hfresh hrun).mpr (.inr hleft)⟩

/-- The server returns early when the queue pair cannot be created, and leaves
its channel and both ids behind. -/
theorem Side.not_cleanedUp_no_queue_pair :
    ¬ ∀ (side : Side) (env : Env) (conn : ConnectionProc) (events : Events) (ret : Status) (w' : World),
      FreshIds env events → side.run env events (.start conn) = .ok ret w' → CleanedUp env w'.log := by
  intro hclean
  have hruns : (Side.server.run noQueuePairEnv firstRequest).returns (.start serverConn) (fun ret w' =>
      decide (ret = .FAILURE ∧ created noQueuePairEnv w'.log = [.channel 0, .id 1, .id 2] ∧ destroyed w'.log = [])) =
        true := by
    decide +kernel
  obtain ⟨ret, w', hrun, hdecided⟩ := Program.exists_of_returns hruns
  obtain ⟨-, hcreated, hdestroyed⟩ := of_decide_eq_true hdecided
  have hfresh : FreshIds noQueuePairEnv firstRequest := by
    simp [FreshIds, firstRequest, noQueuePairEnv, workingEnv]
  have hleft : (.channel 0 : CmObject) ∉ destroyed w'.log := by simp [hdestroyed]
  exact not_cleanedUp (by simp [hcreated]) hleft (hclean _ _ _ _ _ w' hfresh hrun)

/-- The connection was established, and its end was an orderly one. -/
def Orderly (log : List Entry) : Prop := 0 < established log ∧ Left log

instance (log : List Entry) : Decidable (Orderly log) := inferInstanceAs (Decidable (_ ∧ _))

/-- The result of a run that returns is right, `SUCCESS` for an orderly end and
`FAILURE` for any other, if and only if the run never came to its event loop
or ended in order. -/
theorem Side.success_iff {side : Side} {conn : ConnectionProc} {ret : Status} {w' : World}
    (hrun : side.run env events (.start conn) = .ok ret w') :
    (ret = .SUCCESS ↔ Orderly w'.log) ↔ ¬ Joined w'.log ∨ Orderly w'.log := by
  have hsuccess : ret = .SUCCESS ↔ Joined w'.log := by
    cases Side.run_ends hrun with
    | unopened _ hjoined _ => exact ⟨by simp, fun h => absurd h hjoined⟩
    | early _ hjoined _ => exact ⟨by simp, fun h => absurd h hjoined⟩
    | stopped _ hjoined _ _ => exact ⟨fun _ => hjoined, fun _ => rfl⟩
    | left _ hleft _ => exact ⟨fun _ => hleft.1, fun _ => rfl⟩
  rw [hsuccess]
  constructor
  · intro hiff
    by_cases hjoined : Joined w'.log
    · exact .inr (hiff.mp hjoined)
    · exact .inl hjoined
  · rintro (hjoined | horderly)
    · exact ⟨fun h => absurd h hjoined, fun h => h.2.1⟩
    · exact ⟨fun _ => horderly, fun h => h.2.1⟩

theorem Side.success_iff_wholeConnection :
    ∃ w', Side.server.run workingEnv wholeConnection (.start serverConn) = .ok .SUCCESS w' ∧ Orderly w'.log := by
  have hruns : (Side.server.run workingEnv wholeConnection).returns (.start serverConn) (fun ret w' =>
      decide (ret = .SUCCESS ∧ Orderly w'.log)) = true := by
    decide +kernel
  obtain ⟨ret, w', hrun, hdecided⟩ := Program.exists_of_returns hruns
  obtain ⟨rfl, horderly⟩ := of_decide_eq_true hdecided
  exact ⟨w', hrun, ((Side.success_iff hrun).mpr (.inr horderly)).mp rfl⟩

/-- The client's connect request is rejected, and its run reports success. -/
theorem Side.success_when_rejected :
    ¬ ∀ (side : Side) (env : Env) (conn : ConnectionProc) (events : Events) (ret : Status) (w' : World),
      side.run env events (.start conn) = .ok ret w' → (ret = .SUCCESS ↔ Orderly w'.log) := by
  intro hright
  have hruns : (Side.client.run workingEnv ([.RDMA_CM_EVENT_ADDR_RESOLVED, .RDMA_CM_EVENT_ROUTE_RESOLVED,
      .RDMA_CM_EVENT_REJECTED].map fun event => some ⟨event, 1⟩)).returns (.start clientConn) (fun ret w' =>
      decide (ret = .SUCCESS ∧ ¬ Orderly w'.log)) = true := by
    decide +kernel
  obtain ⟨ret, w', hrun, hdecided⟩ := Program.exists_of_returns hruns
  obtain ⟨hsuccess, hnot⟩ := of_decide_eq_true hdecided
  exact hnot ((hright _ _ _ _ _ w' hrun).mp hsuccess)

end tc_rdma.rdma_com
