import TcRdma.RdmaCom.Handlers
import TcRdma.RdmaCom.Setup

open tc_rdma.machine

namespace tc_rdma.rdma_com

variable {env : Env} {conn : ConnectionProc} {events : Events} {E : Halt → World → Prop}

/-- A property of the events still to come that each pass of the event loop
keeps while its handler succeeds. -/
theorem wp_working_on_cm_event_of {site : Site} {on_event : RdmaCmEvent → Prog Status} {I : Events → World → Prop}
    {Q : World → Prop} (hwait : ∀ w, I [] w → E (.blocked site) w)
    (hnone : ∀ w rest, I (none :: rest) w → Q (w.record .no_event))
    (hsome : ∀ w event rest, I (some event :: rest) w →
      wp (handle_cm_event env on_event event) (fun ret w' => (ret = .SUCCESS → I rest w') ∧ (ret = .FAILURE → Q w')) E w)
    {w : World} (h : I events w) : wp (working_on_cm_event env site on_event events) (fun _ => Q) E w := by
  induction events generalizing w with
  | nil => exact hwait w h
  | cons head rest ih =>
    cases head with
    | none => exact hnone w rest h
    | some event =>
      apply wp_bind_of (hsome w event rest h) _ (fun _ _ h => h)
      rintro ret w' ⟨hsuccess, hfailure⟩
      exact wp_if_failure hfailure fun hret => ih (hsuccess hret)

/-- What one pass of the first loop of the client has to keep: `I` where the
pass begins, `A` where it waits for the answer to its request, and `L` for what
the loop leaves. -/
structure RDMAClient.AddrLoop (env : Env) (I A : Events → World → Prop) (L : Option (Nat × Events) → World → Prop)
    (E : Halt → World → Prop) : Prop where
  cm_id : ∀ {events w}, I events w → w.conn.conn_ctx.cm_id = .set env.new_id
  exhausted : ∀ {events w}, I events w → ∀ text, L none (w.record (.printed text))
  unasked : ∀ {events w}, I events w → ∀ n sin_port text,
    L none ((w.record (.call n (.rdma_resolve_addr env.new_id sin_port RDMA_TIMEOUT_IN_MS) false)).record (.printed text))
  asked : ∀ {events w}, I events w → ∀ n sin_port,
    A events (w.record (.call n (.rdma_resolve_addr env.new_id sin_port RDMA_TIMEOUT_IN_MS) true))
  blocked : ∀ {w}, A [] w → E (.blocked .client_addr) w
  no_event : ∀ {rest w}, A (none :: rest) w → ∀ text, L none ((w.record .no_event).record (.printed text))
  retry : ∀ {event rest w}, A (some event :: rest) w → event.event = .RDMA_CM_EVENT_ADDR_ERROR → ∀ m ok,
    I rest ((w.record (.obtained w.log.length event)).record (.call m (.rdma_ack_cm_event w.log.length) ok))
  unexpected : ∀ {event rest w}, A (some event :: rest) w → ∀ m ok,
    L none ((w.record (.obtained w.log.length event)).record (.call m (.rdma_ack_cm_event w.log.length) ok))
  resolved : ∀ {event rest w}, A (some event :: rest) w → event.event = .RDMA_CM_EVENT_ADDR_RESOLVED → ∀ m ok,
    wp (RDMAClient.on_addr_resolved env event.id)
      (fun ret w' => (ret = .SUCCESS → ∀ retries, L (some (retries, rest)) w') ∧ (ret = .FAILURE → L none w')) E
      (((w.record (.obtained w.log.length event)).modify_ctx fun ctx =>
        { ctx with context := .set (some (env.verbs env.new_id)) }).record
          (.call m (.rdma_ack_cm_event w.log.length) ok))

theorem RDMAClient.wp_resolve_addr_of {I A : Events → World → Prop} {L : Option (Nat × Events) → World → Prop}
    (loop : RDMAClient.AddrLoop env I A L E) (sin_port : UInt16) (num_of_retry : Nat) {w : World} (h : I events w) :
    wp (RDMAClient.resolve_addr env sin_port num_of_retry events) L E w := by
  induction num_of_retry generalizing events w with
  | zero => exact loop.exhausted h _
  | succ num_of_retry ih =>
    have hcm := loop.cm_id h
    unfold RDMAClient.resolve_addr
    rw [wp_bind]
    apply wp_load_of_set hcm
    refine wp_invoke_isNone (loop.unasked h _ _ _) ?_
    have h := loop.asked h w.log.length sin_port
    generalize hu : w.record (.call w.log.length
      (.rdma_resolve_addr env.new_id sin_port RDMA_TIMEOUT_IN_MS) true) = u at h ⊢
    have hcm : u.conn.conn_ctx.cm_id = .set env.new_id := by rw [← hu]; exact hcm
    cases events with
    | nil => exact loop.blocked h
    | cons head rest =>
      cases head with
      | none => exact loop.no_event h _
      | some event =>
        dsimp only
        rw [wp_bind, wp_obtain_event, wp_ite]
        refine ⟨fun herror => ?_, fun _ => ?_⟩
        · rw [wp_bind]
          exact wp_rdma_ack_cm_event fun m ok => ih (loop.retry h herror m ok)
        · rw [wp_ite]
          refine ⟨fun _ => ?_, fun hresolved => ?_⟩
          · rw [wp_bind]
            exact wp_rdma_ack_cm_event fun m ok => loop.unexpected h m ok
          · rw [wp_bind]
            refine wp_load_of_set hcm ?_
            rw [wp_bind, wp_modify_ctx, wp_bind]
            apply wp_rdma_ack_cm_event
            intro m ok
            apply wp_bind_of (loop.resolved h (not_not.mp hresolved) m ok) _ (fun _ _ h => h)
            rintro ret w' ⟨hsuccess, hfailure⟩
            exact wp_if_failure hfailure fun hret => hsuccess hret _

/-- What one pass of the second loop of the client has to keep. -/
structure RDMAClient.RouteLoop (env : Env) (I : Events → World → Prop) (L : Option Events → World → Prop)
    (E : Halt → World → Prop) : Prop where
  exhausted : ∀ {events w}, I events w → ∀ text, L none (w.record (.printed text))
  blocked : ∀ {w}, I [] w → E (.blocked .client_route) w
  no_event : ∀ {rest w}, I (none :: rest) w → ∀ text, L none ((w.record .no_event).record (.printed text))
  retry : ∀ {event rest w}, I (some event :: rest) w → event.event = .RDMA_CM_EVENT_ROUTE_ERROR → ∀ m ok,
    I rest ((w.record (.obtained w.log.length event)).record (.call m (.rdma_ack_cm_event w.log.length) ok))
  unexpected : ∀ {event rest w}, I (some event :: rest) w → ∀ m ok text,
    L none (((w.record (.obtained w.log.length event)).record (.printed text)).record
      (.call m (.rdma_ack_cm_event w.log.length) ok))
  resolved : ∀ {event rest w}, I (some event :: rest) w → event.event = .RDMA_CM_EVENT_ROUTE_RESOLVED → ∀ m ok,
    wp (RDMAClient.on_route_resolved env event.id)
      (fun ret w' => (ret = .SUCCESS → L (some rest) w') ∧ (ret = .FAILURE → L none w')) E
      ((w.record (.obtained w.log.length event)).record (.call m (.rdma_ack_cm_event w.log.length) ok))

theorem RDMAClient.wp_resolve_route_of {I : Events → World → Prop} {L : Option Events → World → Prop}
    (loop : RDMAClient.RouteLoop env I L E) (num_of_retry : Nat) {w : World} (h : I events w) :
    wp (RDMAClient.resolve_route env num_of_retry events) L E w := by
  induction num_of_retry generalizing events w with
  | zero => exact loop.exhausted h _
  | succ num_of_retry ih =>
    unfold RDMAClient.resolve_route
    cases events with
    | nil => exact loop.blocked h
    | cons head rest =>
      cases head with
      | none => exact loop.no_event h _
      | some event =>
        dsimp only
        rw [wp_bind, wp_obtain_event, wp_ite]
        refine ⟨fun herror => ?_, fun _ => ?_⟩
        · rw [wp_bind]
          exact wp_rdma_ack_cm_event fun m ok => ih (loop.retry h herror m ok)
        · rw [wp_ite]
          refine ⟨fun _ => ?_, fun hresolved => ?_⟩
          · rw [wp_bind, wp_record, wp_bind]
            exact wp_rdma_ack_cm_event fun m ok => loop.unexpected h m ok _
          · rw [wp_bind]
            apply wp_rdma_ack_cm_event
            intro m ok
            apply wp_bind_of (loop.resolved h (not_not.mp hresolved) m ok) _ (fun _ _ h => h)
            rintro ret w' ⟨hsuccess, hfailure⟩
            exact wp_if_failure hfailure hsuccess

/-- The client runs through its two resolution loops into its event loop, and
a phase that leaves nothing ends the run. What `create` leaves is `S`. -/
theorem RDMAClient.wp_run_from {Q : Status → World → Prop} {S : World → Prop}
    {L : Option (Nat × Events) → World → Prop} {M : Option Events → World → Prop} {w : World}
    (hcreate : wp (RDMAClient.create env)
      (fun port w => (port = none → Q .FAILURE w) ∧ (∀ sin_port, port = some sin_port → S w)) E w)
    (haddr : ∀ w sin_port, S w → wp (RDMAClient.resolve_addr env sin_port NUM_OF_RETRIES events) L E w)
    (haddr_fails : ∀ w, L none w → Q .FAILURE w)
    (hroute : ∀ w num_of_retry rest, L (some (num_of_retry, rest)) w →
      wp (RDMAClient.resolve_route env num_of_retry rest) M E w)
    (hroute_fails : ∀ w, M none w → Q .FAILURE w)
    (hwork : ∀ w rest, M (some rest) w → wp (RDMAClient.work env rest) Q E w) :
    wp (RDMAClient.run env events) Q E w := by
  unfold RDMAClient.run
  apply wp_bind_of hcreate _ (fun _ _ h => h)
  rintro port w ⟨hfails, hcreated⟩
  cases port with
  | none => exact hfails rfl
  | some sin_port =>
    apply wp_bind_of (haddr w sin_port (hcreated sin_port rfl)) _ (fun _ _ h => h)
    intro left w₁ h₁
    cases left with
    | none => exact haddr_fails w₁ h₁
    | some left =>
      obtain ⟨num_of_retry, rest⟩ := left
      apply wp_bind_of (hroute w₁ num_of_retry rest h₁) _ (fun _ _ h => h)
      intro left w₂ h₂
      cases left with
      | none => exact hroute_fails w₂ h₂
      | some rest => exact hwork w₂ rest h₂

theorem RDMAClient.wp_run_of {Q : Status → World → Prop} {L : Option (Nat × Events) → World → Prop}
    {M : Option Events → World → Prop} (hfails : ∀ w, SetUp (.start conn) w → Q .FAILURE w)
    (haddr : ∀ w sin_port, SetUp (.start conn) w → w.conn.conn_ctx.cm_id = .set env.new_id →
      wp (RDMAClient.resolve_addr env sin_port NUM_OF_RETRIES events) L E w)
    (haddr_fails : ∀ w, L none w → Q .FAILURE w)
    (hroute : ∀ w num_of_retry rest, L (some (num_of_retry, rest)) w →
      wp (RDMAClient.resolve_route env num_of_retry rest) M E w)
    (hroute_fails : ∀ w, M none w → Q .FAILURE w)
    (hwork : ∀ w rest, M (some rest) w → wp (RDMAClient.work env rest) Q E w) :
    wp (RDMAClient.run env events) Q E (.start conn) := by
  apply RDMAClient.wp_run_from (S := fun w => SetUp (.start conn) w ∧ w.conn.conn_ctx.cm_id = .set env.new_id) _
    (fun w sin_port h => haddr w sin_port h.1 h.2) haddr_fails hroute hroute_fails hwork
  apply wp_mono (RDMAClient.wp_create env _) _ (fun _ _ h => h.elim)
  rintro port w ⟨hsetup, hset⟩
  refine ⟨fun _ => hfails w hsetup, ?_⟩
  rintro sin_port rfl
  exact ⟨hsetup, (hset rfl).1⟩

/-- The server listens, takes its first event, and enters its event loop when
it has accepted that. What `listen` leaves is `L`. -/
theorem RDMAServer.wp_run_from {Q : Status → World → Prop} {L S : World → Prop} {w : World}
    (hlisten : wp (RDMAServer.listen env)
      (fun ret w => (ret = .SUCCESS → L w) ∧ (ret = .FAILURE → Q .FAILURE w)) E w)
    (hblocked : ∀ w, L w → E (.blocked .server_first) w)
    (hnone : ∀ w text, L w → Q .FAILURE ((w.record .no_event).record (.printed text)))
    (hfirst : ∀ w event, some event ∈ events → L w → wp (RDMAServer.first_event env event)
      (fun ret w' => (ret = .SUCCESS → S w') ∧ (ret = .FAILURE → Q .FAILURE w')) E w)
    (hserve : ∀ w rest, rest ⊆ events → S w → wp (RDMAServer.serve env rest) Q E w) :
    wp (RDMAServer.run env events) Q E w := by
  unfold RDMAServer.run
  apply wp_bind_of hlisten _ (fun _ _ h => h)
  rintro ret w ⟨hlistens, hfails⟩
  apply wp_if_failure hfails
  intro hret
  have hlistening := hlistens hret
  cases events with
  | nil => exact hblocked w hlistening
  | cons head rest =>
    cases head with
    | none => exact hnone w _ hlistening
    | some event =>
      apply wp_bind_of (hfirst w event (.head _) hlistening) _ (fun _ _ h => h)
      rintro ret w₁ ⟨hsuccess, hfailure⟩
      exact wp_if_failure hfailure fun hret => hserve w₁ rest (List.subset_cons_self _ _) (hsuccess hret)

theorem RDMAServer.wp_run_of {Q : Status → World → Prop} {S : World → Prop}
    (hfails : ∀ w, SetUp (.start conn) w → Q .FAILURE w)
    (hblocked : ∀ w, SetUp (.start conn) w → E (.blocked .server_first) w)
    (hnone : ∀ w text, SetUp (.start conn) w → Q .FAILURE ((w.record .no_event).record (.printed text)))
    (hfirst : ∀ w event, SetUp (.start conn) w → wp (RDMAServer.first_event env event)
      (fun ret w' => (ret = .SUCCESS → S w') ∧ (ret = .FAILURE → Q .FAILURE w')) E w)
    (hserve : ∀ w rest, S w → wp (RDMAServer.serve env rest) Q E w) :
    wp (RDMAServer.run env events) Q E (.start conn) := by
  refine RDMAServer.wp_run_from (L := SetUp (.start conn)) ?_ hblocked hnone (fun w event _ => hfirst w event)
    (fun w rest _ => hserve w rest)
  apply wp_mono (RDMAServer.wp_listen env _) _ (fun _ _ h => h.elim)
  rintro ret w ⟨hsetup, -⟩
  exact ⟨fun _ => hsetup, fun _ => hfails w hsetup⟩

end tc_rdma.rdma_com
