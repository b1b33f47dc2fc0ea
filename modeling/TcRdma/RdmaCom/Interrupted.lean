import TcRdma.RdmaCom.Handshake

open tc_rdma.machine

namespace tc_rdma.rdma_com

variable {α β : Type} {env : Env} {events rest : Events} {event : RdmaCmEvent} {id : CmId} {C : List Concern}
  {w w' : World} {b full still : Behaviour} {front : List Action} {last : RunEnd}

/-- A behaviour that stops early, or one that is the full one. It stops for good. -/
def Behaviour.Within (b full : Behaviour) : Prop := b.1 <+: full.1 ∧ (b.2.waits = true → b = full)

/-- Nothing has been done that does not belong to the behaviour. -/
def Cut (b : Behaviour) (w : World) : Prop := actions w.log <+: b.1

/-- The run may end so, if calls may fail. -/
abbrev StopsAs (b : Behaviour) (w : World) (last : RunEnd) : Prop := Behaviour.Within (actions w.log, last) b

theorem Owes.cut_of (h : Owes b w (emit front still)) (hdone : actions w'.log <+: actions w.log ++ front) :
    Cut b w' := by
  rw [Cut, h]
  exact hdone.trans (by simp [emit])

theorem Owes.cut (h : Owes b w still) (hdone : actions w'.log = actions w.log) : Cut b w' := by
  rw [Cut, h, hdone]
  exact List.prefix_append _ _

theorem Cut.same (h : Cut b w) (hdone : actions w'.log = actions w.log) : Cut b w' := by
  rw [Cut, hdone]
  exact h

theorem Cut.returned (h : Cut b w) (ret : Status) : StopsAs b w (.returned ret) := ⟨h, nofun⟩

theorem Cut.halted (h : Cut b w) {halt : Halt} (hhalt : ¬ halt.Waits) : StopsAs b w (.halted halt) := by
  refine ⟨h, fun hwaits => ?_⟩
  cases halt with
  | blocked site => exact absurd ⟨site, rfl⟩ hhalt
  | _ => cases hwaits

theorem Cut.indeterminate (h : Cut b w) (member : Member) : StopsAs b w (.halted (.indeterminate member)) :=
  h.halted nofun

theorem EndsAs.stops (h : EndsAs b w last) : StopsAs b w last := by
  rw [EndsAs] at h
  subst h
  exact ⟨List.prefix_rfl, fun _ => rfl⟩

/-- The program does nothing that is an action, and it does not wait. -/
abbrev Silent (x : Prog α) : Prop :=
  Guarantees (fun w w' => actions w'.log = actions w.log) (fun halt => ¬ halt.Waits) x

theorem Silent.bind {x : Prog α} {f : α → Prog β} (hx : Silent x) (hf : ∀ a, Silent (f a)) : Silent (x >>= f) :=
  Guarantees.bind (fun hab hbc => hbc.trans hab) hx hf

theorem silent_pure (a : α) : Silent (pure a : Prog α) := fun _ => rfl

theorem silent_load {member : Member} {cell : ConnContext → Cell α} : Silent (load member cell) :=
  fun _ => wp_load_any (fun _ _ => rfl) ⟨nofun, rfl⟩

theorem silent_deref (pointer : Ptr) : Silent (deref pointer) := fun _ => wp_deref (fun _ _ => rfl) ⟨nofun, rfl⟩

theorem silent_invoke {c : Call} (hc : c.action = none) : Silent (invoke env c) :=
  fun w => wp_invoke_of fun _ => actions_record_none w hc

theorem Leaves.silent {x : Prog α} (hx : Leaves C x)
    (hother : ∀ c ∈ C, c ∉ [.resolution, .handshake, .sending, .releasing]) : Silent x :=
  fun w => wp_mono (hx w) (fun _ _ h => actions_of_footprint h hother)
    fun _ _ h => ⟨h.1, actions_of_footprint h.2 hother⟩

/-- The program does this one action when it returns, and no other in any case. -/
def Acts (action : Action) (x : Prog α) : Prop :=
  ∀ w, wp x (fun _ w' => actions w'.log = actions w.log ++ [action])
    (fun halt w' => ¬ halt.Waits ∧ actions w'.log <+: actions w.log ++ [action]) w

theorem acts_invoke {c : Call} {action : Action} (hc : c.action = some action) : Acts action (invoke env c) := by
  intro w
  apply wp_invoke_of
  intro ok
  rw [actions_record, Op.action, hc]
  rfl

theorem Silent.bind_acts {action : Action} {x : Prog α} {f : α → Prog β} (hx : Silent x)
    (hf : ∀ a, Acts action (f a)) : Acts action (x >>= f) := by
  intro w
  apply wp_bind_of (hx w)
  · intro a w₁ hsame
    rw [← hsame]
    exact hf a w₁
  · rintro halt w₁ ⟨hhalt, hsame⟩
    rw [hsame]
    exact ⟨hhalt, List.prefix_append _ _⟩

theorem Acts.bind_silent {action : Action} {x : Prog α} {f : α → Prog β} (hx : Acts action x)
    (hf : ∀ a, Silent (f a)) : Acts action (x >>= f) := by
  intro w
  apply wp_bind_of (hx w) _ (fun _ _ h => h)
  intro a w₁ hdone
  rw [← hdone]
  apply wp_mono (hf a w₁) (fun _ _ h => h)
  rintro halt w₂ ⟨hhalt, hsame⟩
  rw [hsame]
  exact ⟨hhalt, List.prefix_rfl⟩

theorem silent_get : Silent (get : Prog World) := fun _ => rfl

theorem silent_this : Silent this := fun _ => rfl

theorem silent_check (condition : Bool) (halt : Halt) (hhalt : ¬ halt.Waits) : Silent (check condition halt) :=
  fun _ => wp_check (fun _ => rfl) (fun _ => ⟨hhalt, rfl⟩)

theorem silent_record {op : Op} (hop : op.action = none) : Silent (record op) := fun w => actions_record_none w hop

theorem on_connection_acts : Acts .send (on_connection env) := by
  have hconnected : Silent (set_connected true) := fun _ => rfl
  apply hconnected.bind_acts
  intro _
  apply Acts.bind_silent _ (fun _ => silent_pure _)
  apply Silent.bind_acts (silent_record rfl)
  intro _
  refine silent_load.bind_acts fun _ => silent_load.bind_acts fun _ => (silent_deref _).bind_acts fun _ => ?_
  refine silent_this.bind_acts fun _ => silent_get.bind_acts fun _ => ?_
  refine (silent_check _ .assertion_connected nofun).bind_acts fun _ => ?_
  refine silent_load.bind_acts fun _ => (silent_deref _).bind_acts fun _ => ?_
  exact (acts_invoke rfl).bind_silent fun _ => silent_pure _

/-- Only the queue pair is destroyed in the terms of actions. -/
theorem release_connection_acts : Acts .destroy_qp (release_connection env) := by
  apply silent_load.bind_acts
  intro cm_id
  apply Acts.bind_silent
  · refine silent_get.bind_acts fun _ => (silent_deref _).bind_acts fun _ => ?_
    exact (acts_invoke rfl).bind_silent fun _ => fun _ => rfl
  · intro _
    refine silent_load.bind fun _ => (silent_deref _).bind fun _ => (silent_invoke rfl).bind fun _ => ?_
    refine silent_load.bind fun _ => (silent_deref _).bind fun _ => (silent_invoke rfl).bind fun _ => ?_
    refine silent_load.bind fun _ => (silent_invoke rfl).bind fun _ => ?_
    refine silent_load.bind fun _ => (silent_invoke rfl).bind fun _ => ?_
    exact silent_load.bind fun _ => (silent_invoke rfl).bind fun _ => silent_pure _

theorem on_disconnect_acts (id : CmId) : Acts .destroy_qp (on_disconnect env id) := by
  apply silent_get.bind_acts
  intro _
  apply (silent_check _ .assertion_context nofun).bind_acts
  intro _
  apply Acts.bind_silent _ (fun _ => silent_pure _)
  exact (silent_record rfl).bind_acts fun _ => release_connection_acts

theorem wp_true (x : Prog α) : wp x (fun _ _ => True) (fun _ _ => True) w := by
  unfold wp
  split <;> trivial

theorem wp_on_disconnect_fails (id : CmId) :
    wp (on_disconnect env id) (fun ret _ => ret = .FAILURE) (fun _ _ => True) w :=
  wp_bind_of (wp_true _) (fun _ _ _ => wp_bind_of (wp_true _) (fun _ _ _ => wp_bind_of (wp_true _) (fun _ _ _ => rfl)
    fun _ _ _ => trivial) fun _ _ _ => trivial) fun _ _ _ => trivial

theorem build_connection_silent (id : CmId) : Silent (build_connection env id) :=
  (build_connection_leaves id).silent (by simp)

theorem RDMAClient.on_addr_resolved_acts (id : CmId) : Acts .resolve_route (RDMAClient.on_addr_resolved env id) := by
  apply silent_get.bind_acts
  intro _
  apply (silent_check _ .assertion_machine nofun).bind_acts
  intro _
  apply (build_connection_silent id).bind_acts
  intro _
  apply (acts_invoke rfl).bind_silent
  intro resolving
  cases resolving with
  | none => exact (silent_record rfl).bind fun _ => silent_pure _
  | some _ => exact silent_pure _

theorem RDMAClient.on_route_resolved_acts (id : CmId) : Acts .connect (RDMAClient.on_route_resolved env id) := by
  apply (acts_invoke rfl).bind_silent
  intro connecting
  cases connecting <;> exact silent_pure _

/-- A handler that does one action of the behaviour leaves the rest of it, or
the behaviour is cut short. -/
theorem Owes.wp_acts {action : Action} {x : Prog Status} (hx : Acts action x) (h : Owes b w (emit [action] still)) :
    wp x (fun ret w' => (ret = .SUCCESS → Owes b w' still) ∧ (ret = .FAILURE → Cut b w'))
      (fun halt w' => ¬ halt.Waits ∧ Cut b w') w := by
  apply wp_mono (hx w)
  · intro ret w' hdone
    exact ⟨fun _ => h.next hdone, fun _ => h.cut_of (hdone ▸ List.prefix_rfl)⟩
  · rintro halt w' ⟨hhalt, hdone⟩
    exact ⟨hhalt, h.cut_of hdone⟩

/-- The handler of the end of a connection ends the loop in any case. -/
theorem Owes.wp_on_disconnect (h : Owes b w ([.destroy_qp], last)) :
    wp (on_disconnect env id) (fun ret w' => ret = .FAILURE ∧ Cut b w') (fun halt w' => ¬ halt.Waits ∧ Cut b w') w := by
  have h : Owes b w (emit [.destroy_qp] ([], last)) := h
  apply wp_mono (wp_and (h.wp_acts (on_disconnect_acts id)) (wp_on_disconnect_fails id)) _ (fun _ _ h => h.1)
  rintro _ w' ⟨⟨-, hcut⟩, rfl⟩
  exact ⟨rfl, hcut rfl⟩

/-- One event of the loop of the client, for any id. -/
theorem RDMAClient.wp_on_event_interrupted (h : Owes b w (RDMAClient.protocol_loop (some event :: rest))) :
    wp (RDMAClient.on_event env event)
      (fun ret w' => (ret = .SUCCESS → Owes b w' (RDMAClient.protocol_loop rest)) ∧ (ret = .FAILURE → Cut b w'))
      (fun halt w' => ¬ halt.Waits ∧ Cut b w') w := by
  unfold RDMAClient.on_event
  have hcut := h.cut rfl
  unfold RDMAClient.protocol_loop at h
  split
  · rename_i hevent
    simp only [hevent] at h
    exact h.wp_acts (RDMAClient.on_addr_resolved_acts _)
  · rename_i hevent
    simp only [hevent] at h
    exact h.wp_acts (RDMAClient.on_route_resolved_acts _)
  · rename_i hevent
    simp only [hevent] at h
    exact h.wp_acts on_connection_acts
  · rename_i hevent
    simp only [hevent] at h
    apply wp_mono h.wp_on_disconnect _ (fun _ _ h => h)
    rintro _ w₁ ⟨rfl, hcut⟩
    exact of_failure hcut
  · exact of_failure hcut

theorem RDMAClient.close_silent : Silent (RDMAClient.close env) :=
  silent_load.bind fun _ => (silent_invoke rfl).bind fun _ => silent_pure _

theorem RDMAClient.wp_work_interrupted (h : Owes b w (RDMAClient.protocol_loop events)) :
    wp (RDMAClient.work env events) (fun ret w' => StopsAs b w' (.returned ret))
      (fun halt w' => StopsAs b w' (.halted halt)) w := by
  have hloop : wp (working_on_cm_event env .client_loop (RDMAClient.on_event env) events) (fun _ w' => Cut b w')
      (fun halt w' => StopsAs b w' (.halted halt)) w := by
    refine wp_working_on_cm_event_of (I := fun events w => Owes b w (RDMAClient.protocol_loop events)) ?_ ?_ ?_ h
    · intro w h
      exact (h.over rfl).stops
    · intro w rest h
      exact h.cut (actions_record_none w rfl)
    · intro w event rest h
      apply wp_handle_cm_event
      intro m ok
      exact wp_mono (RDMAClient.wp_on_event_interrupted (h.same (actions_acked w event _ m ok))) (fun _ _ h => h)
        fun _ _ h => h.2.halted h.1
  apply wp_bind_of hloop _ (fun _ _ h => h)
  intro _ w₁ hcut
  exact wp_mono (RDMAClient.close_silent w₁) (fun ret _ hsame => (hcut.same hsame).returned ret)
    fun _ _ h => (hcut.same h.2).halted h.1

theorem RDMAClient.wp_resolve_route_interrupted (retries : Nat)
    (h : Owes b w (RDMAClient.protocol_route retries events)) :
    wp (RDMAClient.resolve_route env retries events)
      (fun left w' => (left = none → Cut b w') ∧
        ∀ rest, left = some rest → Owes b w' (RDMAClient.protocol_loop rest))
      (fun halt w' => StopsAs b w' (.halted halt)) w := by
  induction retries generalizing events w with
  | zero => exact ⟨fun _ => h.cut (actions_record_none w rfl), by simp⟩
  | succ retries ih =>
    unfold RDMAClient.resolve_route
    cases events with
    | nil => exact (h.over rfl).stops
    | cons head rest =>
      cases head with
      | none =>
        refine ⟨fun _ => h.cut ?_, by simp⟩
        rw [actions_record_none _ rfl, actions_record_none _ rfl]
      | some event =>
        dsimp only
        rw [wp_bind, wp_obtain_event, wp_ite]
        refine ⟨fun herror => ?_, fun herror => ?_⟩
        · rw [RDMAClient.protocol_route_error herror] at h
          rw [wp_bind]
          apply wp_rdma_ack_cm_event
          intro m ok
          exact ih (h.same (actions_acked w event _ m ok))
        rw [wp_ite]
        refine ⟨fun hother => ?_, fun hresolved => ?_⟩
        · rw [wp_bind, wp_record, wp_bind]
          apply wp_rdma_ack_cm_event
          intro m ok
          refine ⟨fun _ => h.cut ?_, by simp⟩
          rw [actions_record_none _ rfl, actions_record_none _ rfl, actions_record_none _ rfl]
        · rw [RDMAClient.protocol_route_resolved (not_not.mp hresolved)] at h
          rw [wp_bind]
          apply wp_rdma_ack_cm_event
          intro m ok
          have h := h.same (actions_acked w event w.log.length m ok)
          apply wp_bind_of (h.wp_acts (RDMAClient.on_route_resolved_acts _)) _ (fun _ _ h => h.2.halted h.1)
          rintro ret w₁ ⟨hsuccess, hfailure⟩
          refine wp_if_failure (fun hret => ⟨fun _ => hfailure hret, by simp⟩) (fun hret => ⟨by simp, ?_⟩)
          rintro _ ⟨⟩
          exact hsuccess hret

/-- With a retry left the address is asked for, whatever comes. -/
theorem RDMAClient.protocol_asks (retries : Nat) (events : Events) :
    ∃ still, RDMAClient.protocol (retries + 1) events = emit [.resolve_addr] still := by
  cases events with
  | nil => exact ⟨([], _), rfl⟩
  | cons head rest =>
    cases head with
    | none => exact ⟨([], _), rfl⟩
    | some event =>
      by_cases herror : event.event = .RDMA_CM_EVENT_ADDR_ERROR
      · exact ⟨_, RDMAClient.protocol_error herror⟩
      by_cases hresolved : event.event = .RDMA_CM_EVENT_ADDR_RESOLVED
      · exact ⟨emit [.resolve_route] _, RDMAClient.protocol_resolved hresolved⟩
      · exact ⟨([], _), RDMAClient.protocol_other herror hresolved⟩

/-- The rest of the behaviour once the address has been asked for. -/
theorem RDMAClient.wp_resolve_addr_interrupted (sin_port : UInt16) (retries : Nat)
    (h : Owes b w (RDMAClient.protocol retries events)) :
    wp (RDMAClient.resolve_addr env sin_port retries events)
      (fun left w' => (left = none → Cut b w') ∧
        ∀ retries rest, left = some (retries, rest) → Owes b w' (RDMAClient.protocol_route retries rest))
      (fun halt w' => StopsAs b w' (.halted halt)) w := by
  induction retries generalizing events w with
  | zero => exact ⟨fun _ => h.cut (actions_record_none w rfl), by simp⟩
  | succ retries ih =>
    unfold RDMAClient.resolve_addr
    rw [wp_bind]
    refine wp_load_any (fun cm_id _ => ?_) ((h.cut rfl).indeterminate _)
    have hasked : ∀ ok, actions (w.record (.call w.log.length
        (.rdma_resolve_addr cm_id sin_port RDMA_TIMEOUT_IN_MS) ok)).log = actions w.log ++ [.resolve_addr] :=
      fun ok => actions_record w _
    have hcut : ∀ {u : World}, actions u.log = actions w.log ++ [.resolve_addr] → Cut b u := by
      obtain ⟨still, hstill⟩ := RDMAClient.protocol_asks retries events
      rw [hstill] at h
      exact fun hdone => h.cut_of (hdone ▸ List.prefix_rfl)
    refine wp_invoke_isNone ⟨fun _ => (hcut (hasked false)).same (actions_record_none _ rfl), by simp⟩ ?_
    have hasked := hasked true
    generalize w.record (.call w.log.length (.rdma_resolve_addr cm_id sin_port RDMA_TIMEOUT_IN_MS) true) = u at hasked ⊢
    have hcut := hcut hasked
    cases events with
    | nil => exact (h.ends hasked).stops
    | cons head rest =>
      cases head with
      | none =>
        refine ⟨fun _ => hcut.same ?_, by simp⟩
        rw [actions_record_none _ rfl, actions_record_none _ rfl]
      | some event =>
        dsimp only
        rw [wp_bind, wp_obtain_event, wp_ite]
        refine ⟨fun herror => ?_, fun herror => ?_⟩
        · rw [RDMAClient.protocol_error herror] at h
          rw [wp_bind]
          apply wp_rdma_ack_cm_event
          intro m ok
          exact ih ((h.next hasked).same (actions_acked u event _ m ok))
        rw [wp_ite]
        refine ⟨fun hother => ?_, fun hresolved => ?_⟩
        · rw [wp_bind]
          apply wp_rdma_ack_cm_event
          intro m ok
          exact ⟨fun _ => hcut.same (actions_acked u event _ m ok), by simp⟩
        · rw [RDMAClient.protocol_resolved (not_not.mp hresolved)] at h
          have h : Owes b w
              (emit [.resolve_addr] (emit [.resolve_route] (RDMAClient.protocol_route (retries + 1) rest))) := h
          rw [wp_bind]
          refine wp_load_any (fun cm_id _ => ?_) ((hcut.same (actions_record_none u rfl)).indeterminate _)
          rw [wp_bind, wp_modify_ctx, wp_bind]
          apply wp_rdma_ack_cm_event
          intro m ok
          have hsame : actions (((u.record (.obtained u.log.length event)).modify_ctx fun ctx =>
              { ctx with context := .set (some (env.verbs cm_id)) }).record
                (.call m (.rdma_ack_cm_event u.log.length) ok)).log = actions u.log := by
            rw [actions_record_none _ rfl, World.modify_ctx_log, actions_record_none _ rfl]
          apply wp_bind_of (((h.next hasked).same hsame).wp_acts (RDMAClient.on_addr_resolved_acts _)) _
            (fun _ _ h => h.2.halted h.1)
          rintro ret w₁ ⟨hsuccess, hfailure⟩
          refine wp_if_failure (fun hret => ⟨fun _ => hfailure hret, by simp⟩) (fun hret => ⟨by simp, ?_⟩)
          rintro _ _ ⟨⟩
          exact hsuccess hret

theorem RDMAClient.wp_run_interrupted (conn : ConnectionProc) (hb : b = RDMAClient.protocol NUM_OF_RETRIES events) :
    wp (RDMAClient.run env events) (fun ret w' => StopsAs b w' (.returned ret))
      (fun halt w' => StopsAs b w' (.halted halt)) (.start conn) := by
  refine RDMAClient.wp_run_from (S := fun w => actions w.log = [])
    (L := fun left w => (left = none → Cut b w) ∧
      ∀ retries rest, left = some (retries, rest) → Owes b w (RDMAClient.protocol_route retries rest))
    (M := fun left w => (left = none → Cut b w) ∧
      ∀ rest, left = some rest → Owes b w (RDMAClient.protocol_loop rest)) ?_ ?_ ?_ ?_ ?_ ?_
  · apply wp_mono (RDMAClient.wp_create env (.start conn)) _ (fun _ _ h => h.elim)
    rintro port w ⟨hsetup, -⟩
    have hnone : actions w.log = [] := actions_of_extends hsetup.log (by simp)
    refine ⟨fun _ => Cut.returned ?_ _, fun _ _ => hnone⟩
    rw [Cut, hnone]
    exact List.nil_prefix
  · intro w sin_port hnone
    apply RDMAClient.wp_resolve_addr_interrupted
    rw [Owes, hnone, emit_nil, hb]
  · exact fun w h => (h.1 rfl).returned _
  · exact fun w retries rest h => RDMAClient.wp_resolve_route_interrupted retries (h.2 retries rest rfl)
  · exact fun w h => (h.1 rfl).returned _
  · exact fun w rest h => RDMAClient.wp_work_interrupted (h.2 rest rfl)

end tc_rdma.rdma_com
