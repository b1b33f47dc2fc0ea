import TcRdma.RdmaCom.Guarded
import TcRdma.RdmaCom.Loops

open tc_rdma.machine

namespace tc_rdma.rdma_com

variable {env : Env} {w w' : World} {C : List Concern} {events : Events}

/-- The client before it has resolved its address. -/
structure RDMAClient.Before (env : Env) (w : World) : Prop where
  cm_id : w.conn.conn_ctx.cm_id = .set env.new_id
  guarded : Guarded w.log
  unbuilt : ∀ id, ¬ Built id w.log
  outcome : outcomes .queue_pair w.log = []

/-- The client once `build_connection` has succeeded. -/
structure RDMAClient.Ready (env : Env) (w : World) : Prop where
  cm_id : w.conn.conn_ctx.cm_id = .set env.new_id
  assigned : w.conn.conn_ctx.Assigned
  attached : w.Attached env.new_id
  built : Built env.new_id w.log
  guarded : Guarded w.log
  outcome : (outcomes .queue_pair w.log).head? = some true

theorem RDMAClient.Before.unbroken (h : RDMAClient.Before env w) : Unbroken w.log :=
  ⟨h.guarded, by rw [h.outcome]; nofun⟩

theorem RDMAClient.Ready.unbroken (h : RDMAClient.Ready env w) : Unbroken w.log :=
  ⟨h.guarded, by rw [h.outcome]; nofun⟩

theorem not_built_of_extends {id : CmId} {log log' : List Entry} (h : ¬ Built id log)
    (hlog : Extends (fun entry => entry.op.concern ∈ C) log log') (hother : .result ∉ C) :
    ¬ Built id log' := by
  obtain ⟨added, rfl, hadded⟩ := hlog
  rintro ⟨entry, hentry, hop⟩
  rcases List.mem_append.mp hentry with hold | hnew
  · exact h ⟨entry, hold, hop⟩
  · have hconcern : entry.op.concern ∈ C := hadded entry hnew
    rw [hop] at hconcern
    exact hother hconcern

theorem RDMAClient.Before.footprint (h : RDMAClient.Before env w) (hfoot : Footprint C w w')
    (hother : ∀ c ∈ C, c ∉ [.resolution, .handshake, .entry, .result, .queue_pair]) :
    RDMAClient.Before env w' where
  cm_id := (congrArg Fixed.cm_id hfoot.fixed).trans h.cm_id
  guarded := h.guarded.extend hfoot.log fun c hc hin => hother c hc (by simp at hin ⊢; tauto)
  unbuilt := fun id => not_built_of_extends (h.unbuilt id) hfoot.log fun hin => hother _ hin (by simp)
  outcome := by rw [outcomes_of_extends hfoot.log fun hin => hother _ hin (by simp), h.outcome]

/-- Asking for the address needs no connection. -/
theorem RDMAClient.Before.resolve_addr (h : RDMAClient.Before env w) (n : Handle) (id : CmId) (sin_port : UInt16)
    (timeout : Nat) (ok : Bool) :
    RDMAClient.Before env (w.record (.call n (.rdma_resolve_addr id sin_port timeout) ok)) where
  cm_id := h.cm_id
  guarded := by
    apply always_concat.mpr ⟨h.guarded, _⟩
    intro cell hneeds
    cases hneeds
  unbuilt := by
    rintro id ⟨entry, hentry, hop⟩
    rcases List.mem_append.mp hentry with hold | hnew
    · exact h.unbuilt id ⟨entry, hold, hop⟩
    · rw [List.mem_singleton.mp hnew] at hop
      cases hop
  outcome := by
    rw [outcomes_record_call, h.outcome]
    rfl

theorem RDMAClient.Ready.footprint (h : RDMAClient.Ready env w) (hfoot : Footprint C w w')
    (hother : ∀ c ∈ C, c ∉ [.resolution, .handshake, .entry]) : RDMAClient.Ready env w' where
  cm_id := (congrArg Fixed.cm_id hfoot.fixed).trans h.cm_id
  assigned := hfoot.assigned h.assigned
  attached := hfoot.attached _ h.attached
  built := by
    obtain ⟨added, hadded, _⟩ := hfoot.log
    rw [hadded]
    exact h.built.append
  guarded := h.guarded.extend hfoot.log hother
  outcome := by
    obtain ⟨added, hadded, _⟩ := hfoot.log
    rw [hadded]
    exact outcomes_head_append h.outcome

/-- What needs the connection of the client may be recorded now. -/
theorem RDMAClient.Ready.record (h : RDMAClient.Ready env w) (op : Op)
    (hneeds : ({ conn := w.conn, op := op } : Entry).needs = some (.set env.new_id)) :
    RDMAClient.Ready env (w.record op) where
  cm_id := h.cm_id
  assigned := h.assigned
  attached := h.attached
  built := h.built.append
  guarded := h.guarded.concat hneeds h.built
  outcome := outcomes_head_append h.outcome

/-- A handler of a ready client leaves it ready, and it never stops at what
the client must avoid. -/
def RDMAClient.KeepsReady {α : Type} (env : Env) (x : Prog α) : Prop :=
  ∀ w, RDMAClient.Ready env w →
    wp x (fun _ => RDMAClient.Ready env) (fun halt w' => halt.Benign ∧ RDMAClient.Ready env w') w

theorem RDMAClient.on_addr_resolved_keeps_ready :
    RDMAClient.KeepsReady env (RDMAClient.on_addr_resolved env env.new_id) := by
  intro w h
  unfold RDMAClient.on_addr_resolved
  rw [wp_bind, wp_get, wp_bind]
  refine wp_check (fun _ => ?_) (fun _ => ⟨⟨nofun, nofun⟩, h⟩)
  apply wp_bind_of (wp_and (wp_build_connection env env.new_id w) (build_connection_leaves env.new_id w)) _ _
  · rintro ret w₁ ⟨-, hfoot⟩
    have h₁ := h.footprint hfoot (by simp)
    refine wp_invoke_isNone ?_ (h₁.record _ rfl)
    exact (h₁.record _ rfl).footprint (C := [.text]) (Footprint.record _ (.head _)) (by simp)
  · rintro halt w₁ ⟨⟨hhalts, hfoot⟩, -⟩
    exact ⟨hhalts.benign, h.footprint hfoot (by simp)⟩

theorem RDMAClient.on_route_resolved_keeps_ready :
    RDMAClient.KeepsReady env (RDMAClient.on_route_resolved env env.new_id) := by
  intro w h
  exact wp_invoke_isNone (h.record _ rfl) (h.record _ rfl)

theorem RDMAClient.on_connection_keeps_ready : RDMAClient.KeepsReady env (rdma_com.on_connection env) := by
  intro w h
  unfold rdma_com.on_connection post_meta_send_wr
  have hconnected := h.footprint (C := []) (leaves_set_connected true w) (by simp)
  rw [wp_bind, wp_set_connected, wp_bind, wp_bind, wp_record]
  have hentered := hconnected.record (.entered .post_meta_send_wr) (congrArg some hconnected.cm_id)
  apply wp_mono (wp_and (wp_send_meta_message hentered.assigned) (send_meta_message_leaves _)) _ _
  · rintro _ w₁ ⟨-, hfoot⟩
    exact hentered.footprint hfoot (by simp)
  · rintro halt w₁ ⟨hbenign, -, hfoot⟩
    exact ⟨hbenign, hentered.footprint hfoot (by simp)⟩

/-- The assertion of `on_disconnect` holds, since `build_connection` has tied
the id to the client. -/
theorem RDMAClient.on_disconnect_keeps_ready :
    RDMAClient.KeepsReady env (rdma_com.on_disconnect env env.new_id) := by
  intro w h
  unfold rdma_com.on_disconnect destroy_connection
  rw [wp_bind, wp_get, wp_bind]
  refine wp_check (fun _ => ?_) ?_
  swap
  · intro hfalse
    have hdetached := of_decide_eq_false hfalse
    exact absurd h.attached hdetached
  rw [wp_bind, wp_bind, wp_record]
  have hentered := h.record (.entered .destroy_connection) (congrArg some h.cm_id)
  apply wp_mono (wp_and (wp_release_connection hentered.assigned hentered.cm_id) (release_connection_leaves _)) _ _
  · rintro _ w₁ ⟨-, hfoot⟩
    exact hentered.footprint hfoot (by simp)
  · rintro halt w₁ ⟨hbenign, -, hfoot⟩
    exact ⟨hbenign, hentered.footprint hfoot (by simp)⟩

theorem RDMAClient.on_event_keeps_ready {event : RdmaCmEvent} (hid : event.id = env.new_id) :
    RDMAClient.KeepsReady env (RDMAClient.on_event env event) := by
  unfold RDMAClient.on_event
  rw [hid]
  split
  · exact RDMAClient.on_addr_resolved_keeps_ready
  · exact RDMAClient.on_route_resolved_keeps_ready
  · exact RDMAClient.on_connection_keeps_ready
  · exact RDMAClient.on_disconnect_keeps_ready
  · exact fun w h => h

/-- The client is ready, or it has gone on without a queue pair. -/
def RDMAClient.Resolved (env : Env) (w : World) : Prop := RDMAClient.Ready env w ∨ Broken w.log

/-- What may be found wherever the run stops. -/
def RDMAClient.Outcome (w : World) : Prop := Unbroken w.log ∨ Broken w.log

def RDMAClient.HaltOutcome (halt : Halt) (w : World) : Prop := halt.Benign ∧ Unbroken w.log ∨ Broken w.log

theorem RDMAClient.Resolved.outcome (h : RDMAClient.Resolved env w) : RDMAClient.Outcome w := by
  rcases h with hready | hbroken
  · exact .inl hready.unbroken
  · exact .inr hbroken

/-- The first `build_connection` of the client decides: its result is not
looked at, and the route is asked for even if there is no queue pair. -/
theorem RDMAClient.wp_first_on_addr_resolved (h : RDMAClient.Before env w)
    (hcontext : w.conn.conn_ctx.context = .set (some (env.verbs env.new_id))) :
    wp (RDMAClient.on_addr_resolved env env.new_id) (fun _ => RDMAClient.Resolved env) RDMAClient.HaltOutcome w := by
  unfold RDMAClient.on_addr_resolved
  rw [wp_bind, wp_get, wp_bind]
  refine wp_check (fun _ => ?_) (fun _ => .inl ⟨⟨nofun, nofun⟩, h.unbroken⟩)
  apply wp_bind_of (wp_build_connection env env.new_id w) _ _
  · rintro ret w₁ ⟨last, hreturns, hfoot, rfl⟩
    have hguarded : Guarded last.log := h.guarded.extend hfoot.log (by simp)
    have hreturned : ∀ ret, Guarded (last.record (.build_connection_returned env.new_id ret)).log :=
      fun ret => hguarded.extend (C := [.result]) (Footprint.record _ (.head _)).log (by simp)
    cases hreturns with
    | refused hrefused =>
      obtain ⟨other, hother, hne⟩ := hrefused
      rw [hcontext] at hother
      cases hother
      exact absurd rfl hne
    | no_queue_pair _ hrefused hcq hqp =>
      rw [h.outcome, List.nil_append] at hqp
      have hunbuilt : ∀ id, ¬ Built id (last.record (.build_connection_returned env.new_id .FAILURE)).log := by
        rintro id ⟨entry, hentry, hop⟩
        rcases List.mem_append.mp hentry with hold | hnew
        · exact not_built_of_extends (h.unbuilt id) hfoot.log (by simp) ⟨entry, hold, hop⟩
        · rw [List.mem_singleton.mp hnew] at hop
          cases hop
      have hbroken : ∀ n ok, Broken ((last.record (.build_connection_returned env.new_id .FAILURE)).record
          (.call n (.rdma_resolve_route env.new_id RDMA_TIMEOUT_IN_MS) ok)).log :=
        fun n ok => broken_of_unbuilt hunbuilt (outcomes_head_append (by rw [hqp]; rfl)) rfl
      exact wp_invoke_isNone (.inr (hbroken _ false).append) (.inr (hbroken _ true))
    | built _ hrefused hcq hqp hcm hassigned hattached =>
      rw [h.outcome, List.nil_append] at hqp
      have hready : RDMAClient.Ready env (last.record (.build_connection_returned env.new_id .SUCCESS)) :=
        { cm_id := (congrArg Fixed.cm_id hfoot.fixed).trans h.cm_id
          assigned := hassigned
          attached := hattached
          built := ⟨_, List.mem_append_right _ (.head _), rfl⟩
          guarded := hreturned _
          outcome := outcomes_head_append (by rw [hqp]; rfl) }
      refine wp_invoke_isNone (.inl ?_) (.inl (hready.record _ rfl))
      exact (hready.record _ rfl).footprint (C := [.text]) (Footprint.record _ (.head _)) (by simp)
  · rintro halt w₁ ⟨hhalts, hfoot⟩
    refine .inl ⟨hhalts.benign, h.guarded.extend hfoot.log (by simp), ?_⟩
    rcases hhalts.outcome with heq | heq
    · rw [heq, h.outcome]
      nofun
    · rw [heq, h.outcome]
      nofun

theorem RDMAClient.Before.event (h : RDMAClient.Before env w) (op : Op) (hop : op.concern = .event) :
    RDMAClient.Before env (w.record op) :=
  h.footprint (C := [.event]) (Footprint.record _ (by simp [hop])) (by simp)

theorem RDMAClient.Before.no_event (h : RDMAClient.Before env w) : RDMAClient.Before env (w.record .no_event) :=
  h.footprint (C := [.no_event]) (Footprint.record _ (.head _)) (by simp)

theorem RDMAClient.Before.printed (h : RDMAClient.Before env w) (text : String) :
    RDMAClient.Before env (w.record (.printed text)) :=
  h.footprint (C := [.text]) (Footprint.record _ (.head _)) (by simp)

/-- A failing loop returns nothing; otherwise what is left of the events is
for a client that has gone on. -/
def RDMAClient.Passed {α : Type} (env : Env) (rest : α → Events) (result : Option α) (w : World) : Prop :=
  match result with
  | none => RDMAClient.Outcome w
  | some a => RDMAClient.Resolved env w ∧ RDMAClient.Own env (rest a)

theorem RDMAClient.before_addrLoop :
    RDMAClient.AddrLoop env (fun events w => RDMAClient.Before env w ∧ RDMAClient.Own env events)
      (fun events w => RDMAClient.Before env w ∧ RDMAClient.Own env events) (RDMAClient.Passed env Prod.snd)
      RDMAClient.HaltOutcome where
  cm_id h := h.1.cm_id
  exhausted h text := .inl (h.1.printed text).unbroken
  unasked h n sin_port text := .inl ((h.1.resolve_addr n _ sin_port _ false).printed text).unbroken
  asked h n sin_port := ⟨h.1.resolve_addr n _ sin_port _ true, h.2⟩
  blocked h := .inl ⟨benign_blocked _, h.1.unbroken⟩
  no_event h text := .inl (h.1.no_event.printed text).unbroken
  retry h _ _ _ := ⟨(h.1.event _ rfl).event _ rfl, h.2.tail⟩
  unexpected h _ _ := .inl ((h.1.event _ rfl).event _ rfl).unbroken
  resolved := by
    intro event rest w hresolving _ m ok
    obtain ⟨h, hown⟩ := hresolving
    have hstored := (h.event (.obtained w.log.length event) rfl).footprint (C := []) (Footprint.modify_ctx (f :=
      fun ctx => { ctx with context := .set (some (env.verbs env.new_id)) }) _) (by simp)
    have hacked := hstored.event (.call m (.rdma_ack_cm_event w.log.length) ok) rfl
    rw [hown.head]
    apply wp_mono (RDMAClient.wp_first_on_addr_resolved hacked rfl) _ (fun _ _ h => h)
    intro ret w₁ hresolved
    exact ⟨fun _ _ => ⟨hresolved, hown.tail⟩, fun _ => hresolved.outcome⟩

theorem RDMAClient.Resolved.footprint (h : RDMAClient.Resolved env w) (hfoot : Footprint C w w')
    (hother : ∀ c ∈ C, c ∉ [.resolution, .handshake, .entry]) : RDMAClient.Resolved env w' := by
  rcases h with hready | hbroken
  · exact .inl (hready.footprint hfoot hother)
  · exact .inr (hbroken.of_isPrefix hfoot.log.isPrefix)

/-- What keeps a ready client ready keeps a resolved one resolved. -/
theorem RDMAClient.KeepsReady.resolved {α : Type} {x : Prog α} (hkeeps : RDMAClient.KeepsReady env x)
    (hleaves : Leaves C x) (h : RDMAClient.Resolved env w) :
    wp x (fun _ => RDMAClient.Resolved env) RDMAClient.HaltOutcome w := by
  rcases h with hready | hbroken
  · apply wp_mono (hkeeps w hready) (fun _ _ h => .inl h)
    intro halt w' h
    exact .inl ⟨h.1, h.2.unbroken⟩
  · apply wp_mono (hleaves w) _ _
    · intro _ w' hfoot
      exact .inr (hbroken.of_isPrefix hfoot.log.isPrefix)
    · intro halt w' hfoot
      exact .inr (hbroken.of_isPrefix hfoot.2.log.isPrefix)

theorem RDMAClient.Resolved.record (h : RDMAClient.Resolved env w) (op : Op)
    (hop : op.concern ∈ [.text, .event, .no_event]) : RDMAClient.Resolved env (w.record op) :=
  h.footprint (Footprint.record w hop) (by simp)

theorem RDMAClient.Resolved.blocked (h : RDMAClient.Resolved env w) (site : Site) :
    RDMAClient.HaltOutcome (.blocked site) w := by
  rcases h with hready | hbroken
  · exact .inl ⟨benign_blocked site, hready.unbroken⟩
  · exact .inr hbroken

theorem RDMAClient.resolved_routeLoop :
    RDMAClient.RouteLoop env (fun events w => RDMAClient.Resolved env w ∧ RDMAClient.Own env events)
      (RDMAClient.Passed env id) RDMAClient.HaltOutcome where
  exhausted h _ := (h.1.record _ (.head _)).outcome
  blocked h := h.1.blocked _
  no_event h _ := ((h.1.record .no_event (by simp [Op.concern])).record _ (.head _)).outcome
  retry h _ _ _ := ⟨(h.1.record _ (by simp [Op.concern])).record _ (by simp [Op.concern, Call.concern]), h.2.tail⟩
  unexpected h _ _ _ :=
    (((h.1.record _ (by simp [Op.concern])).record _ (.head _)).record _ (by simp [Op.concern, Call.concern])).outcome
  resolved := by
    intro event rest w hresolving _ m ok
    obtain ⟨h, hown⟩ := hresolving
    have hobtained := h.record (.obtained w.log.length event) (by simp [Op.concern])
    have hacked := hobtained.record (.call m (.rdma_ack_cm_event w.log.length) ok) (by simp [Op.concern, Call.concern])
    rw [hown.head]
    apply wp_mono (RDMAClient.on_route_resolved_keeps_ready.resolved
      (RDMAClient.on_route_resolved_leaves env.new_id) hacked) _ (fun _ _ h => h)
    intro ret w₁ hresolved
    exact ⟨fun _ => ⟨hresolved, hown.tail⟩, fun _ => hresolved.outcome⟩

theorem RDMAClient.handle_cm_event_keeps_ready {event : RdmaCmEvent} (hid : event.id = env.new_id) :
    RDMAClient.KeepsReady env (handle_cm_event env (RDMAClient.on_event env) event) := by
  intro w h
  apply wp_handle_cm_event
  intro m ok
  apply RDMAClient.on_event_keeps_ready hid
  apply RDMAClient.Ready.footprint (C := [.event]) _ (Footprint.record _ (.head _)) (by simp)
  exact h.footprint (C := [.event]) (Footprint.record _ (.head _)) (by simp)

theorem RDMAClient.close_keeps_ready : RDMAClient.KeepsReady env (RDMAClient.close env) := by
  intro w h
  unfold RDMAClient.close
  rw [wp_bind, wp_load]
  split
  · rw [wp_bind, wp_invoke, wp_pure]
    exact h.footprint (C := [.releasing]) (Footprint.record _ (.head _)) (by simp)
  · exact ⟨⟨nofun, by simp [metaMembers]⟩, h⟩

/-- The event loop, which a failing handler ends, and what follows it. -/
theorem RDMAClient.wp_work (hown : RDMAClient.Own env events) (h : RDMAClient.Resolved env w) :
    wp (RDMAClient.work env events) (fun _ => RDMAClient.Outcome) RDMAClient.HaltOutcome w := by
  unfold RDMAClient.work
  apply wp_bind_of (wp_working_on_cm_event (I := RDMAClient.Resolved env) (Q := RDMAClient.Resolved env)
    (E := RDMAClient.HaltOutcome) ?_ ?_ ?_ h) ?_ (fun _ _ h => h)
  · intro w h
    exact h.blocked _
  · intro w h
    exact h.record .no_event (by simp [Op.concern])
  · intro w event hevent h
    apply wp_mono ((RDMAClient.handle_cm_event_keeps_ready (hown event hevent)).resolved
      (handle_cm_event_leaves RDMAClient.on_event_leaves event) h) ?_ (fun _ _ h => h)
    intro ret w' h
    exact ⟨fun _ => h, fun _ => h⟩
  · intro _ w h
    apply wp_mono (RDMAClient.close_keeps_ready.resolved RDMAClient.close_leaves h) _ (fun _ _ h => h)
    intro _ w' h
    exact h.outcome

theorem RDMAClient.before_of_setUp {conn : ConnectionProc} (hsetup : SetUp (.start conn) w)
    (hcm : w.conn.conn_ctx.cm_id = .set env.new_id) : RDMAClient.Before env w := by
  have hlog : Extends (fun entry => entry.op.concern ∈ [.setup, .text]) [] w.log := hsetup.log
  exact
    { cm_id := hcm
      guarded := Guarded.extend always_nil hlog (by simp)
      unbuilt := fun id => not_built_of_extends (by rintro ⟨_, hentry, _⟩; cases hentry) hlog (by simp)
      outcome := by rw [outcomes_of_extends hlog (by simp)]; rfl }

theorem RDMAClient.wp_run (conn : ConnectionProc) (hown : RDMAClient.Own env events) :
    wp (RDMAClient.run env events) (fun _ => RDMAClient.Outcome) RDMAClient.HaltOutcome (.start conn) := by
  apply RDMAClient.wp_run_of
  · intro w hsetup
    have hlog : Extends (fun entry => entry.op.concern ∈ [.setup, .text]) [] w.log := hsetup.log
    refine .inl ⟨Guarded.extend always_nil hlog (by simp), ?_⟩
    rw [outcomes_of_extends hlog (by simp)]
    nofun
  · intro w sin_port hsetup hcm
    exact RDMAClient.wp_resolve_addr_of RDMAClient.before_addrLoop sin_port NUM_OF_RETRIES
      ⟨RDMAClient.before_of_setUp hsetup hcm, hown⟩
  · exact fun _ h => h
  · intro w num_of_retry rest h
    exact RDMAClient.wp_resolve_route_of RDMAClient.resolved_routeLoop num_of_retry h
  · exact fun _ h => h
  · intro w rest h
    exact RDMAClient.wp_work h.2 h.1

/-- The run does nothing for a connection before it is there, and it stops at
no assertion about it and at no member of it that is not set. -/
def RDMAClient.Safe (env : Env) (conn : ConnectionProc) (events : Events) : Prop :=
  Guarded ((RDMAClient.run env events).final (.start conn)).log ∧
    ∀ halt w, RDMAClient.run env events (.start conn) = .error halt w → halt.Benign

/-- What the first `rdma_create_qp` of the run meets with, if there is one. -/
def RDMAClient.first_queue_pair (env : Env) (conn : ConnectionProc) (events : Events) : Option Bool :=
  (outcomes .queue_pair ((RDMAClient.run env events).final (.start conn)).log).head?

/-- The outcome of the first `rdma_create_qp` decides, since
`on_addr_resolved` does not look at the result of `build_connection`. -/
theorem RDMAClient.safe_iff (conn : ConnectionProc) (hown : RDMAClient.Own env events) :
    RDMAClient.Safe env conn events ↔ RDMAClient.first_queue_pair env conn events ≠ some false := by
  have hrun := RDMAClient.wp_run conn hown
  cases hresult : RDMAClient.run env events (.start conn) with
  | ok ret w =>
    rw [RDMAClient.Safe, RDMAClient.first_queue_pair, Program.final_of_ok hresult, hresult]
    rcases wp_ok hrun hresult with hunbroken | hbroken
    · refine ⟨fun _ => hunbroken.2, fun _ => ⟨hunbroken.1, ?_⟩⟩
      intro halt w' heq
      cases heq
    · exact ⟨fun hsafe => absurd hsafe.1 hbroken.1, fun hne => absurd hbroken.2 hne⟩
  | error halt w =>
    rw [RDMAClient.Safe, RDMAClient.first_queue_pair, Program.final_of_error hresult, hresult]
    rcases wp_error hrun hresult with ⟨hbenign, hunbroken⟩ | hbroken
    · refine ⟨fun _ => hunbroken.2, fun _ => ⟨hunbroken.1, ?_⟩⟩
      intro halt' w' heq
      cases heq
      exact hbenign
    · exact ⟨fun hsafe => absurd hsafe.1 hbroken.1, fun hne => absurd hbroken.2 hne⟩

theorem RDMAClient.safe_iff_establishing : RDMAClient.Safe workingEnv clientConn establishing := by
  apply (RDMAClient.safe_iff clientConn _).mpr
  · decide +kernel
  · unfold RDMAClient.Own establishing
    simp [workingEnv]

/-- Without a queue pair the client goes on to `post_meta_send_wr`, where it
reads `meta_send`, which was never assigned. -/
theorem RDMAClient.unsafe_without_queue_pair :
    (∃ w, RDMAClient.run noQueuePairEnv establishing (.start clientConn) = .error (.indeterminate .meta_send) w) ∧
      ¬ RDMAClient.Safe noQueuePairEnv clientConn establishing := by
  have hruns : (RDMAClient.run noQueuePairEnv establishing).halts (.start clientConn)
      (fun halt _ => decide (halt = .indeterminate .meta_send)) = true := by
    decide +kernel
  obtain ⟨halt, w, hrun, hdecided⟩ := Program.exists_of_halts hruns
  cases of_decide_eq_true hdecided
  refine ⟨⟨w, hrun⟩, ?_⟩
  intro hsafe
  exact (hsafe.2 _ w hrun).2 .meta_send (by simp [metaMembers]) rfl

end tc_rdma.rdma_com
