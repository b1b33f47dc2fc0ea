import TcRdma.RdmaCom.ConnectedBuild
import TcRdma.RdmaCom.RunResult

open tc_rdma.machine

namespace tc_rdma.rdma_com

variable {α : Type} {env : Env} {C : List Concern} {w w' : World} {id : CmId} {event : RdmaCmEvent} {events : Events}
  {on_event : RdmaCmEvent → Prog Status} {x : Prog α} {Q : α → World → Prop} {E : Halt → World → Prop}

/-- The connection is used only when its meta messages could be registered,
and released only while the flag is down. -/
def Timely (log : List Entry) : Prop :=
  Always (fun front entry =>
    (entry.op = .entered .post_meta_send_wr → Stocked front) ∧
    (entry.op = .entered .destroy_connection → entry.conn.conn_params.connected = false)) log

/-- A specification that is needed only for timely runs. -/
theorem wp_of_timely (hleaves : Leaves C x) (hx : Timely w.log → wp x Q E w) :
    wp x (fun a w' => Timely w'.log → Q a w') (fun halt w' => Timely w'.log → E halt w') w := by
  by_cases htimely : Timely w.log
  · exact wp_mono (hx htimely) (fun _ _ h _ => h) (fun _ _ h _ => h)
  · have hnever : ∀ w', Footprint C w w' → ¬ Timely w'.log := by
      intro w' hfoot hlater
      obtain ⟨added, hadded⟩ := hfoot.log.isPrefix
      rw [← hadded] at hlater
      exact htimely (Always.of_append hlater)
    exact wp_mono (hleaves w) (fun _ w' h htimely' => absurd htimely' (hnever w' h))
      fun _ w' h htimely' => absurd htimely' (hnever w' h.2)

theorem wp_on_connection_sound (h : w.Sound) :
    wp (on_connection env) (fun _ w' => Timely w'.log → w'.Sound) (fun _ w' => Timely w'.log → w'.Truthful) w := by
  unfold on_connection post_meta_send_wr
  rw [wp_bind, wp_set_connected, wp_bind, wp_bind, wp_record]
  have hrest : Leaves [.sending] (send_meta_message env) := send_meta_message_leaves
  apply wp_mono (wp_of_timely hrest _) (fun _ _ h => h) (fun _ _ h => h)
  intro htimely
  apply send_meta_message_keepsSound
  have hlive : w.conn.held.Live w.log := h.stocked ((always_concat.mp htimely).2.1 rfl)
  have hraised : (w.set_connected true).conn.held.Live w.log :=
    ⟨hlive.qp, hlive.meta_recv_mr, hlive.meta_send_mr, hlive.meta_recv, hlive.meta_send⟩
  have hreleased : released ((w.set_connected true).record (.entered .post_meta_send_wr)).log = released w.log := by
    rw [released, picked_record]
    exact List.append_nil _
  have hnow := hraised.grow (List.prefix_append _ _) hreleased
  refine ⟨⟨always_concat.mpr ⟨h.entries, fun _ => hraised, ?_⟩, fun _ => hnow⟩, hreleased.trans h.unreleased,
    fun _ => hnow⟩
  exact Entry.sendsConnected_of_concern (by simp [Op.concern])

/-- The members are released without the flag, when it was down before. -/
theorem wp_on_disconnect_truthful (h : w.Sound) :
    wp (on_disconnect env id) (fun ret w' => ret = .FAILURE ∧ (Timely w'.log → w'.Truthful))
      (fun _ w' => Timely w'.log → w'.Truthful) w := by
  unfold on_disconnect destroy_connection
  rw [wp_bind, wp_get, wp_bind]
  refine wp_check (fun _ => ?_) fun _ _ => h.toTruthful
  rw [wp_bind, wp_bind, wp_record]
  have hentered : (w.record (.entered .destroy_connection)).Sound := h.record (by simp [Op.concern])
  have hrest : wp (release_connection env) (fun _ w' => Timely w'.log → w'.Truthful)
      (fun _ w' => Timely w'.log → w'.Truthful) (w.record (.entered .destroy_connection)) := by
    apply wp_of_timely release_connection_leaves
    intro htimely
    have hunset : w.conn.conn_params.connected = false := (always_concat.mp htimely).2.2 rfl
    apply wp_mono (wp_and (release_connection_undisturbing _) (release_connection_leaves _))
    · rintro _ w' ⟨hsame, hfoot⟩
      exact hentered.toTruthful.extend_unset hunset hsame hfoot.log (by simp)
    · rintro _ w' ⟨⟨-, hsame⟩, -, hfoot⟩
      exact hentered.toTruthful.extend_unset hunset hsame hfoot.log (by simp)
  exact wp_mono hrest (fun _ _ h => ⟨rfl, h⟩) fun _ _ h => h

/-- A handler keeps everything sound as long as the loop goes on. -/
def HandlesSound (on_event : RdmaCmEvent → Prog Status) : Prop :=
  ∀ event w, w.Sound → wp (on_event event)
    (fun ret w' => (ret = .SUCCESS → Timely w'.log → w'.Sound) ∧ (ret = .FAILURE → Timely w'.log → w'.Truthful))
    (fun _ w' => Timely w'.log → w'.Truthful) w

theorem wp_of_keepsSound {x : Prog Status} (hx : KeepsSound x) (h : w.Sound) :
    wp x (fun ret w' => (ret = .SUCCESS → Timely w'.log → w'.Sound) ∧ (ret = .FAILURE → Timely w'.log → w'.Truthful))
      (fun _ w' => Timely w'.log → w'.Truthful) w :=
  wp_mono (hx w h) (fun _ _ h => ⟨fun _ _ => h, fun _ _ => h.toTruthful⟩) fun _ _ h _ => h

theorem RDMAServer.on_connect_request_keepsSound (id : CmId) : KeepsSound (RDMAServer.on_connect_request env id) := by
  apply (build_connection_keepsSound id).bind
  intro built
  cases built with
  | FAILURE => exact keepsSound_pure _
  | SUCCESS =>
    apply (keepsSound_invoke (by simp [Call.concern])).bind
    intro accepted
    cases accepted with
    | none => exact keepsSound_pure _
    | some _ => exact keepsSound_pure _

theorem RDMAClient.on_addr_resolved_keepsSound (id : CmId) : KeepsSound (RDMAClient.on_addr_resolved env id) := by
  intro w h
  unfold RDMAClient.on_addr_resolved
  rw [wp_bind, wp_get]
  refine (keepsSound_check _ _).bind (fun _ => ?_) w h
  apply (build_connection_keepsSound id).bind
  intro _
  apply (keepsSound_invoke (by simp [Call.concern])).bind
  intro resolving
  cases resolving with
  | none => exact (keepsSound_record (by simp [Op.concern])).bind fun _ => keepsSound_pure _
  | some _ => exact keepsSound_pure _

theorem RDMAClient.on_route_resolved_keepsSound (id : CmId) : KeepsSound (RDMAClient.on_route_resolved env id) := by
  apply (keepsSound_invoke (by simp [Call.concern])).bind
  intro connecting
  cases connecting with
  | none => exact keepsSound_pure _
  | some _ => exact keepsSound_pure _

theorem wp_on_connection_handles (h : w.Sound) :
    wp (on_connection env)
      (fun ret w' => (ret = .SUCCESS → Timely w'.log → w'.Sound) ∧ (ret = .FAILURE → Timely w'.log → w'.Truthful))
      (fun _ w' => Timely w'.log → w'.Truthful) w :=
  wp_mono (wp_on_connection_sound h) (fun _ _ h => ⟨fun _ => h, fun _ htimely => (h htimely).toTruthful⟩) fun _ _ h => h

theorem wp_on_disconnect_handles (h : w.Sound) :
    wp (on_disconnect env id)
      (fun ret w' => (ret = .SUCCESS → Timely w'.log → w'.Sound) ∧ (ret = .FAILURE → Timely w'.log → w'.Truthful))
      (fun _ w' => Timely w'.log → w'.Truthful) w := by
  apply wp_mono (wp_on_disconnect_truthful h) _ (fun _ _ h => h)
  rintro ret w' ⟨rfl, htruthful⟩
  exact of_failure htruthful

theorem RDMAServer.on_event_handlesSound : HandlesSound (RDMAServer.on_event env) := by
  intro event w h
  unfold RDMAServer.on_event
  split
  · exact wp_of_keepsSound (RDMAServer.on_connect_request_keepsSound _) h
  · exact wp_on_connection_handles h
  · exact wp_on_disconnect_handles h
  · exact wp_of_keepsSound (keepsSound_pure _) h

theorem RDMAClient.on_event_handlesSound : HandlesSound (RDMAClient.on_event env) := by
  intro event w h
  unfold RDMAClient.on_event
  split
  · exact wp_of_keepsSound (RDMAClient.on_addr_resolved_keepsSound _) h
  · exact wp_of_keepsSound (RDMAClient.on_route_resolved_keepsSound _) h
  · exact wp_on_connection_handles h
  · exact wp_on_disconnect_handles h
  · exact wp_of_keepsSound (keepsSound_pure _) h

/-- The loop goes on only from sound states, and however it ends, the flag has
been truthful. -/
theorem wp_working_on_cm_event_truthful {site : Site} (hon_event : HandlesSound on_event)
    (hleaves : ∀ event, Leaves C (on_event event)) (h : w.Sound) :
    wp (working_on_cm_event env site on_event events) (fun _ w' => Timely w'.log → w'.Truthful)
      (fun _ w' => Timely w'.log → w'.Truthful) w := by
  refine wp_working_on_cm_event (I := fun w => Timely w.log → w.Sound) ?_ ?_ ?_ fun _ => h
  · exact fun w h htimely => (h htimely).toTruthful
  · intro w h htimely
    exact (h (Always.of_append htimely)).no_event.toTruthful
  · intro w event _ h
    have hpass : Timely w.log → wp (handle_cm_event env on_event event)
        (fun ret w' => (ret = .SUCCESS → Timely w'.log → w'.Sound) ∧ (ret = .FAILURE → Timely w'.log → w'.Truthful))
        (fun _ w' => Timely w'.log → w'.Truthful) w := by
      intro htimely
      apply wp_handle_cm_event
      intro m ok
      exact hon_event event _ (((h htimely).obtained _ _).acked _ _ _)
    apply wp_mono (wp_of_timely (handle_cm_event_leaves hleaves event) hpass) _ fun _ _ h htimely => h htimely htimely
    intro ret w' h
    exact ⟨fun hret htimely => (h htimely).1 hret htimely, fun hret htimely => (h htimely).2 hret htimely⟩

theorem World.Truthful.invoke (h : w.Truthful) {c : Call} (hreleases : c.releases = none)
    (hsending : c.concern ≠ .sending) (n : Handle) (ok : Bool) : (w.record (.call n c ok)).Truthful :=
  h.record hreleases (Entry.sendsConnected_of_concern hsending)

/-- The ids and the channel are not what the flag speaks for. -/
theorem RDMAServer.wp_close_truthful (h : w.Truthful) :
    wp (RDMAServer.close env) (fun _ w' => w'.Truthful) (fun _ w' => w'.Truthful) w := by
  unfold RDMAServer.close
  rw [wp_bind]
  refine wp_load_any (fun cm_id_control _ => ?_) h
  rw [wp_bind]
  apply wp_invoke_of
  intro ok
  have h₁ : (w.record (.call w.log.length (.rdma_destroy_id cm_id_control) ok)).Truthful :=
    h.invoke rfl (by simp [Call.concern]) _ _
  rw [wp_bind]
  refine wp_load_any (fun cm_channel _ => ?_) h₁
  rw [wp_bind]
  exact wp_invoke_of fun ok => h₁.invoke rfl (by simp [Call.concern]) _ ok

theorem RDMAClient.wp_close_truthful (h : w.Truthful) :
    wp (RDMAClient.close env) (fun _ w' => w'.Truthful) (fun _ w' => w'.Truthful) w := by
  unfold RDMAClient.close
  rw [wp_bind]
  refine wp_load_any (fun cm_channel _ => ?_) h
  rw [wp_bind]
  exact wp_invoke_of fun ok => h.invoke rfl (by simp [Call.concern]) _ ok

/-- Nothing has been created, and the constructors leave the flag down. -/
theorem sound_start {conn : ConnectionProc} (hunset : conn.conn_params.connected = false) :
    (World.start conn).Sound where
  entries := always_nil
  now := fun hconnected => absurd (hconnected.symm.trans hunset) (by simp)
  unreleased := rfl
  stocked := by
    intro hstocked
    have hlength := hstocked.length_le
    simp [outcomes, picked, World.start] at hlength

theorem RDMAServer.first_event_keepsSound (event : RdmaCmEvent) : KeepsSound (RDMAServer.first_event env event) := by
  intro w h
  unfold RDMAServer.first_event
  have hobtained := h.obtained w.log.length event
  rw [wp_bind, wp_obtain_event, wp_ite]
  refine ⟨fun _ => ?_, fun _ => ?_⟩
  · exact (keepsSound_record (by simp [Op.concern])).bind (fun _ => keepsSound_pure _) _ hobtained
  · rw [wp_bind, wp_modify_ctx]
    refine (RDMAServer.on_connect_request_keepsSound _).bind (fun ret => ?_) _ hobtained.modify_ctx
    cases ret with
    | FAILURE => exact keepsSound_pure _
    | SUCCESS =>
      exact ((keepsSound_invoke (by simp [Call.concern])).bind fun _ => keepsSound_pure _).bind fun _ =>
        keepsSound_pure _

theorem RDMAServer.wp_run_truthful {conn : ConnectionProc} (hunset : conn.conn_params.connected = false) :
    wp (RDMAServer.run env events) (fun _ w' => Timely w'.log → w'.Truthful) (fun _ w' => Timely w'.log → w'.Truthful)
      (.start conn) := by
  apply RDMAServer.wp_run_from (L := World.Sound) (S := World.Sound)
  · apply wp_mono (wp_and (RDMAServer.listen_undisturbing _) (RDMAServer.wp_listen env _)) _ (fun _ _ h => h.2.elim)
    rintro ret w ⟨hsame, hsetup, -⟩
    have hsound := (sound_start hunset).extend hsame hsetup.log (by simp) (by simp) (by simp)
    exact ⟨fun _ => hsound, fun _ _ => hsound.toTruthful⟩
  · exact fun w h _ => h.toTruthful
  · exact fun w text h _ => (h.no_event.printed text).toTruthful
  · intro w event _ h
    apply wp_mono (RDMAServer.first_event_keepsSound event w h)
    · exact fun _ _ h => ⟨fun _ => h, fun _ _ => h.toTruthful⟩
    · exact fun _ _ h _ => h
  · intro w rest _ h
    apply wp_bind_of (wp_working_on_cm_event_truthful RDMAServer.on_event_handlesSound RDMAServer.on_event_leaves h) _
      (fun _ _ h => h)
    exact fun _ w₁ h₁ => wp_of_timely RDMAServer.close_leaves fun htimely => RDMAServer.wp_close_truthful (h₁ htimely)

theorem RDMAClient.sound_addrLoop : RDMAClient.AddrLoop env
    (fun _ w => w.Sound ∧ w.conn.conn_ctx.cm_id = .set env.new_id)
    (fun _ w => w.Sound ∧ w.conn.conn_ctx.cm_id = .set env.new_id) (fun _ w => w.Sound)
    (fun _ w' => Timely w'.log → w'.Truthful) where
  cm_id h := h.2
  exhausted h text := h.1.printed text
  unasked := by
    rintro events w ⟨h, -⟩ n sin_port text
    have hasked : (w.record (.call n (.rdma_resolve_addr env.new_id sin_port RDMA_TIMEOUT_IN_MS) false)).Sound :=
      h.record (by simp [Op.concern, Call.concern])
    exact hasked.printed text
  asked := by
    rintro events w ⟨h, hcm⟩ n sin_port
    exact ⟨h.record (by simp [Op.concern, Call.concern]), hcm⟩
  blocked h _ := h.1.toTruthful
  no_event := by
    rintro rest w ⟨h, -⟩ text
    exact h.no_event.printed text
  retry := by
    rintro event rest w ⟨h, hcm⟩ - m ok
    exact ⟨(h.obtained _ _).acked _ _ _, hcm⟩
  unexpected := by
    rintro event rest w ⟨h, -⟩ m ok
    exact (h.obtained _ _).acked _ _ _
  resolved := by
    rintro event rest w ⟨h, -⟩ - m ok
    have hobtained := h.obtained w.log.length event
    refine wp_mono (RDMAClient.on_addr_resolved_keepsSound event.id _ (hobtained.modify_ctx.acked _ _ _)) ?_
      (fun _ _ h _ => h)
    exact fun _ _ h => ⟨fun _ _ => h, fun _ => h⟩

theorem RDMAClient.sound_routeLoop :
    RDMAClient.RouteLoop env (fun _ w => w.Sound) (fun _ w => w.Sound) (fun _ w' => Timely w'.log → w'.Truthful) where
  exhausted h text := h.printed text
  blocked h _ := h.toTruthful
  no_event h text := h.no_event.printed text
  retry h _ m ok := (h.obtained _ _).acked _ _ _
  unexpected h m ok text := ((h.obtained _ _).printed text).acked _ _ _
  resolved := by
    intro event rest w h _ m ok
    have hobtained := h.obtained w.log.length event
    refine wp_mono (RDMAClient.on_route_resolved_keepsSound event.id _ (hobtained.acked _ _ _)) ?_ (fun _ _ h _ => h)
    exact fun _ _ h => ⟨fun _ => h, fun _ => h⟩

theorem RDMAClient.wp_run_truthful {conn : ConnectionProc} (hunset : conn.conn_params.connected = false) :
    wp (RDMAClient.run env events) (fun _ w' => Timely w'.log → w'.Truthful) (fun _ w' => Timely w'.log → w'.Truthful)
      (.start conn) := by
  apply RDMAClient.wp_run_from (S := fun w => w.Sound ∧ w.conn.conn_ctx.cm_id = .set env.new_id)
    (L := fun _ w => w.Sound)
    (M := fun _ w => w.Sound)
  · apply wp_mono (wp_and (RDMAClient.create_undisturbing _) (RDMAClient.wp_create env _)) _ (fun _ _ h => h.2.elim)
    rintro port w ⟨hsame, hsetup, hset⟩
    have hsound := (sound_start hunset).extend hsame hsetup.log (by simp) (by simp) (by simp)
    refine ⟨fun _ _ => hsound.toTruthful, ?_⟩
    rintro sin_port rfl
    exact ⟨hsound, (hset rfl).1⟩
  · exact fun w sin_port h => RDMAClient.wp_resolve_addr_of RDMAClient.sound_addrLoop sin_port NUM_OF_RETRIES h
  · exact fun w h _ => h.toTruthful
  · exact fun w num_of_retry rest h => RDMAClient.wp_resolve_route_of RDMAClient.sound_routeLoop num_of_retry h
  · exact fun w h _ => h.toTruthful
  · intro w rest h
    apply wp_bind_of (wp_working_on_cm_event_truthful RDMAClient.on_event_handlesSound RDMAClient.on_event_leaves h) _
      (fun _ _ h => h)
    exact fun _ w₁ h₁ => wp_of_timely RDMAClient.close_leaves fun htimely => RDMAClient.wp_close_truthful (h₁ htimely)

def Side.new (side : Side) (this : UInt64) (env : EnvBasicParam) : Option ConnectionProc :=
  match side with
  | .client => RDMAClient.new this env
  | .server => RDMAServer.new this env

theorem Side.new_connected {side : Side} {this : UInt64} {params : EnvBasicParam} {conn : ConnectionProc}
    (hnew : side.new this params = some conn) : conn.conn_params.connected = false := by
  cases side with
  | client => rw [RDMAClient.new_conn_params hnew]
  | server => rw [RDMAServer.new_conn_params hnew]

/-- Whatever a queue pair is used for, it is live, and so is everything else
that belongs to the connection. -/
def SendsLive (log : List Entry) : Prop :=
  Always (fun front entry => ∀ n qp wr ok, entry.op = .call n (.ibv_post_send qp wr) ok →
    LiveIn front .qp (.set (some qp)) ∧ entry.conn.held.Live front) log

/-- The assertion on `connected` is enough where the flag is truthful. -/
theorem World.Truthful.sendsLive (h : w.Truthful) : SendsLive w.log := by
  refine Always.mono h.entries ?_
  rintro front entry ⟨htruthful, hsends⟩ n qp wr ok hop
  obtain ⟨hconnected, hqp⟩ := hsends n qp wr ok hop
  have hlive := htruthful hconnected
  exact ⟨hqp ▸ hlive.qp, hlive⟩

/-- Over every run of a constructed object, in each state on the way and in the
one where it returns, waits or halts, the flag is truthful if the connection is
used and released only in time. -/
theorem Side.truthful_of_timely {side : Side} {this : UInt64} {params : EnvBasicParam} {conn : ConnectionProc}
    (hnew : side.new this params = some conn) (htimely : Timely ((side.run env events).final (.start conn)).log) :
    ((side.run env events).final (.start conn)).Truthful ∧
      SendsLive ((side.run env events).final (.start conn)).log := by
  have hunset := Side.new_connected hnew
  have htruthful : ((side.run env events).final (.start conn)).Truthful := by
    cases side with
    | client => exact wp_final (RDMAClient.wp_run_truthful hunset) htimely
    | server => exact wp_final (RDMAServer.wp_run_truthful hunset) htimely
  exact ⟨htruthful, htruthful.sendsLive⟩

instance (log : List Entry) : Decidable (Stocked log) :=
  inferInstanceAs (Decidable (List.replicate 4 true <:+ outcomes .memory log))

instance (log : List Entry) : Decidable (Timely log) :=
  inferInstanceAs (Decidable (Always (fun front entry =>
    (entry.op = .entered .post_meta_send_wr → Stocked front) ∧
    (entry.op = .entered .destroy_connection → entry.conn.conn_params.connected = false)) log))

/-- The connection is established, and the server waits for the next event. -/
theorem Side.truthful_of_timely_established :
    ∃ w', Side.server.run workingEnv (wholeConnection.take 2) (.start serverConn) = .error (.blocked .server_loop) w' ∧
      w'.conn.conn_params.connected = true ∧ w'.Truthful := by
  have hruns : (Side.server.run workingEnv (wholeConnection.take 2)).halts (.start serverConn) (fun halt w' =>
      decide (halt = .blocked .server_loop ∧ w'.conn.conn_params.connected = true ∧ Timely w'.log)) = true := by
    decide +kernel
  obtain ⟨halt, w', hrun, hdecided⟩ := Program.exists_of_halts hruns
  obtain ⟨rfl, hconnected, htimely⟩ := of_decide_eq_true hdecided
  have hnew : Side.server.new 64 serverConn.conn_params.env = some serverConn := rfl
  have hfinal := Program.final_of_error hrun
  rw [← hfinal] at htimely
  have htruthful := (Side.truthful_of_timely hnew htimely).1
  rw [hfinal] at htruthful
  exact ⟨w', hrun, hconnected, htruthful⟩

/-- After an orderly end the flag is still up, and nothing is live. -/
theorem Side.connected_after_release :
    ¬ ∀ (side : Side) (this : UInt64) (params : EnvBasicParam) (conn : ConnectionProc) (env : Env) (events : Events),
      side.new this params = some conn → ((side.run env events).final (.start conn)).Truthful := by
  intro htruthful
  have hnew : Side.server.new 64 serverConn.conn_params.env = some serverConn := rfl
  have hruns : (Side.server.run workingEnv wholeConnection).returns (.start serverConn) (fun _ w' =>
      decide (w'.conn.conn_params.connected = true ∧ w'.conn.conn_ctx.meta_send = .set (some 15) ∧
        (.memory, 15) ∈ released w'.log)) = true := by
    decide +kernel
  obtain ⟨ret, w', hrun, hdecided⟩ := Program.exists_of_returns hruns
  obtain ⟨hconnected, hset, hreleased⟩ := of_decide_eq_true hdecided
  have hnow := (htruthful _ _ _ _ workingEnv wholeConnection hnew).now
  rw [Program.final_of_ok hrun] at hnow
  obtain ⟨handle, hhandle, -, hlive⟩ := (hnow hconnected).meta_send
  have hsame : Cell.set (some 15) = Cell.set (some handle) := hset.symm.trans hhandle
  cases hsame
  exact hlive hreleased

end tc_rdma.rdma_com
