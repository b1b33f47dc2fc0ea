import TcRdma.RdmaCom.Acknowledge
import TcRdma.RdmaCom.BuildConnection
import TcRdma.RdmaCom.Loops

open tc_rdma.machine

namespace tc_rdma.rdma_com

variable {env : Env} {events : Events} {C : List Concern} {w : World} {α β : Type} {p q r : Option Handle}
  {n : Handle} {site : Site}

/-- The program takes the books from `p` to `q`, and it halts nowhere with an
acknowledgement missing or made twice. -/
def Keeps (p q : Option Handle) (x : Prog α) : Prop :=
  ∀ w, Books p w.log → wp x (fun _ w' => Books q w'.log) (fun _ w' => Acknowledging w'.log) w

theorem Keeps.bind {x : Prog α} {f : α → Prog β} (hx : Keeps p q x) (hf : ∀ a, Keeps q r (f a)) :
    Keeps p r (x >>= f) := by
  intro w h
  apply wp_bind_of (hx w h) _ (fun _ _ h => h)
  intro a w' h'
  exact hf a w' h'

/-- What obtains and acknowledges no event leaves the books as they are. It
may release something only when no event waits. -/
theorem keeps_of_leaves {x : Prog α} (hx : Leaves C x) (hevent : .event ∉ C)
    (hrelease : p = none ∨ .releasing ∉ C) : Keeps p p x := by
  intro w h
  apply wp_mono (hx w)
  · intro _ w' hfoot
    exact h.extend hfoot.log hevent hrelease
  · intro halt w' hfoot
    exact (h.extend hfoot.2.log hevent hrelease).acknowledging

theorem Books.record (h : Books p w.log) (op : Op) (hop : op.concern ∉ [.event, .releasing]) :
    Books p (w.record op).log := by
  apply h.extend (C := [op.concern]) (Extends.one (.head _))
  · intro hin
    exact hop (List.mem_singleton.mp hin ▸ .head _)
  · right
    intro hin
    exact hop (List.mem_singleton.mp hin ▸ .tail _ (.head _))

/-- Each pass of the event loop obtains an event and acknowledges it before
the handler runs. -/
theorem working_on_cm_event_keeps {on_event : RdmaCmEvent → Prog Status} (hhandler : ∀ event, Leaves C (on_event event))
    (hevent : .event ∉ C) : Keeps none none (working_on_cm_event env site on_event events) := by
  intro w h
  apply wp_working_on_cm_event (I := fun u => Books none u.log) _ _ _ h
  · exact fun u hu => hu.acknowledging
  · exact fun u hu => hu.record .no_event (by simp [Op.concern])
  · intro u event _ hu
    apply wp_handle_cm_event
    intro m ok
    have hacked := (hu.obtain event).acknowledge m ok
    apply wp_mono (keeps_of_leaves (hhandler event) hevent (.inl rfl) _ hacked) _ (fun _ _ h => h)
    exact fun _ _ h => ⟨fun _ => h, fun _ => h⟩

theorem RDMAClient.books_addrLoop :
    RDMAClient.AddrLoop env (fun _ w => Books none w.log ∧ w.conn.conn_ctx.cm_id = .set env.new_id)
      (fun _ w => Books none w.log ∧ w.conn.conn_ctx.cm_id = .set env.new_id) (fun _ w => Books none w.log)
      (fun _ w => Acknowledging w.log) where
  cm_id h := h.2
  exhausted h _ := h.1.record _ (by simp [Op.concern])
  unasked h _ _ _ := (h.1.record _ (by simp [Op.concern, Call.concern])).record _ (by simp [Op.concern])
  asked h _ _ := ⟨h.1.record _ (by simp [Op.concern, Call.concern]), h.2⟩
  blocked h := h.1.acknowledging
  no_event h _ := (h.1.record .no_event (by simp [Op.concern])).record _ (by simp [Op.concern])
  retry h _ m ok := ⟨(h.1.obtain _).acknowledge m ok, h.2⟩
  unexpected h m ok := (h.1.obtain _).acknowledge m ok
  resolved := by
    intro event rest w h _ m ok
    apply wp_mono (keeps_of_leaves (p := none) (RDMAClient.on_addr_resolved_leaves event.id) (by simp) (.inl rfl) _
      (Books.acknowledge (w := (w.record _).modify_ctx _) (h.1.obtain event) m ok)) _ (fun _ _ h => h)
    exact fun _ _ h => ⟨fun _ _ => h, fun _ => h⟩

theorem RDMAClient.books_routeLoop :
    RDMAClient.RouteLoop env (fun _ w => Books none w.log) (fun _ w => Books none w.log)
      (fun _ w => Acknowledging w.log) where
  exhausted h _ := h.record _ (by simp [Op.concern])
  blocked h := h.acknowledging
  no_event h _ := (h.record .no_event (by simp [Op.concern])).record _ (by simp [Op.concern])
  retry h _ m ok := (h.obtain _).acknowledge m ok
  unexpected h m ok text := ((h.obtain _).record (.printed text) (by simp [Op.concern])).acknowledge m ok
  resolved := by
    intro event rest w h _ m ok
    apply wp_mono (keeps_of_leaves (p := none) (RDMAClient.on_route_resolved_leaves event.id) (by simp) (.inl rfl) _
      ((h.obtain event).acknowledge m ok)) _ (fun _ _ h => h)
    exact fun _ _ h => ⟨fun _ => h, fun _ => h⟩

theorem RDMAClient.work_keeps : Keeps none none (RDMAClient.work env events) := by
  apply (working_on_cm_event_keeps RDMAClient.on_event_leaves (by simp)).bind
  exact fun _ => keeps_of_leaves RDMAClient.close_leaves (by simp) (.inl rfl)

theorem RDMAServer.serve_keeps : Keeps none none (RDMAServer.serve env events) := by
  apply (working_on_cm_event_keeps RDMAServer.on_event_leaves (by simp)).bind
  exact fun _ => keeps_of_leaves RDMAServer.close_leaves (by simp) (.inl rfl)

theorem books_of_setUp {conn : ConnectionProc} (hsetup : SetUp (.start conn) w) : Books none w.log :=
  books_nil.extend (C := [.setup, .text]) hsetup.log (by simp) (.inl rfl)

/-- The client acknowledges each event before it does anything with it. -/
theorem RDMAClient.run_keeps (conn : ConnectionProc) :
    wp (RDMAClient.run env events) (fun _ w => Books none w.log) (fun _ w => Acknowledging w.log) (.start conn) := by
  apply RDMAClient.wp_run_of
  · exact fun w hsetup => books_of_setUp hsetup
  · intro w sin_port hsetup hcm
    exact RDMAClient.wp_resolve_addr_of RDMAClient.books_addrLoop sin_port NUM_OF_RETRIES ⟨books_of_setUp hsetup, hcm⟩
  · exact fun _ h => h
  · intro w num_of_retry rest h
    exact RDMAClient.wp_resolve_route_of RDMAClient.books_routeLoop num_of_retry h
  · exact fun _ h => h
  · intro w rest h
    exact RDMAClient.work_keeps w h

/-- The condition under which a server acknowledges its first event: as far as
it gets with it, the event is a connect request and the calls of
`rdma_create_qp` and `rdma_accept` for it succeed. -/
structure RDMAServer.FirstAccepted (log : List Entry) : Prop where
  event : ∀ n event, (obtained log).head? = some (n, event) → event.event = .RDMA_CM_EVENT_CONNECT_REQUEST
  queue_pair : (outcomes .queue_pair log).head? ≠ some false
  handshake : (outcomes .handshake log).head? ≠ some false

/-- The request that comes first has been accepted. -/
structure RDMAServer.Accepted (log : List Entry) : Prop where
  event : ∃ n event, (obtained log).head? = some (n, event) ∧ event.event = .RDMA_CM_EVENT_CONNECT_REQUEST
  queue_pair : (outcomes .queue_pair log).head? = some true
  handshake : (outcomes .handshake log).head? = some true

theorem RDMAServer.Accepted.first_accepted {log log' : List Entry} (h : RDMAServer.Accepted log)
    (hgrows : log <+: log') : RDMAServer.FirstAccepted log' := by
  obtain ⟨added, rfl⟩ := hgrows
  constructor
  · intro n event hhead
    obtain ⟨n', event', hfirst, hrequest⟩ := h.event
    rw [obtained, picked_append, List.head?_append, ← obtained, hfirst] at hhead
    cases hhead
    exact hrequest
  · rw [outcomes_head_append h.queue_pair]
    simp
  · rw [outcomes_head_append h.handshake]
    simp

/-- The results of the two calls decide about a connect request. -/
theorem RDMAServer.wp_first_connect_request {id : CmId}
    (hcontext : w.conn.conn_ctx.context = .set (some (env.verbs id))) (hqp : outcomes .queue_pair w.log = [])
    (hhandshake : outcomes .handshake w.log = []) :
    wp (RDMAServer.on_connect_request env id)
      (fun ret w' =>
        match ret with
        | .SUCCESS => (outcomes .queue_pair w'.log).head? = some true ∧ (outcomes .handshake w'.log).head? = some true
        | .FAILURE => (outcomes .queue_pair w'.log).head? = some false ∨
            (outcomes .handshake w'.log).head? = some false)
      (fun _ w' => (outcomes .queue_pair w'.log).head? ≠ some false ∧
        (outcomes .handshake w'.log).head? ≠ some false) w := by
  apply wp_bind_of (wp_build_connection env id w)
  · rintro ret w₁ ⟨last, hreturns, hfoot, rfl⟩
    cases hreturns with
    | refused hrefused =>
      obtain ⟨other, hother, hne⟩ := hrefused
      rw [hcontext] at hother
      cases hother
      exact absurd rfl hne
    | no_queue_pair _ _ _ hfailed =>
      rw [hqp, List.nil_append] at hfailed
      left
      apply outcomes_head_append
      rw [hfailed]
      rfl
    | built _ _ _ hcreated =>
      rw [hqp, List.nil_append] at hcreated
      have hnone : outcomes .handshake (last.record (.build_connection_returned id .SUCCESS)).log = [] := by
        rw [World.record_log, outcomes_append, outcomes_of_extends hfoot.log (by simp), hhandshake]
        rfl
      have hhead : (outcomes .queue_pair (last.record (.build_connection_returned id .SUCCESS)).log).head? = some true := by
        apply outcomes_head_append
        rw [hcreated]
        rfl
      rw [if_neg (by simp)]
      apply wp_invoke_isNone
      · right
        rw [outcomes_record_call, hnone]
        rfl
      · constructor
        · exact outcomes_head_append hhead
        · rw [outcomes_record_call, hnone]
          rfl
  · rintro halt w₁ ⟨hhalts, hfoot⟩
    have hnone : outcomes .handshake w₁.log = [] := by rw [outcomes_of_extends hfoot.log (by simp), hhandshake]
    rw [hnone]
    constructor
    · rcases hhalts.outcome with hsame | hcreated
      · rw [hsame, hqp]
        nofun
      · rw [hcreated, hqp]
        nofun
    · nofun

/-- Nothing has been obtained or tried yet. -/
structure RDMAServer.Listening (log : List Entry) : Prop where
  books : Books none log
  events : obtained log = []
  queue_pair : outcomes .queue_pair log = []
  handshake : outcomes .handshake log = []

/-- One event has been obtained, and it waits to be acknowledged. -/
structure RDMAServer.Received (n : Handle) (event : RdmaCmEvent) (log : List Entry) : Prop where
  books : Books (some n) log
  events : obtained log = [(n, event)]

theorem RDMAServer.Listening.obtain (h : RDMAServer.Listening w.log) (event : RdmaCmEvent) :
    RDMAServer.Received w.log.length event (w.record (.obtained w.log.length event)).log where
  books := h.books.obtain event
  events := by
    rw [obtained_record_obtained, h.events]
    rfl

theorem RDMAServer.Listening.obtain_outcomes (h : RDMAServer.Listening w.log) (event : RdmaCmEvent) :
    outcomes .queue_pair (w.record (.obtained w.log.length event)).log = [] ∧
      outcomes .handshake (w.record (.obtained w.log.length event)).log = [] := by
  rw [World.record_log, outcomes_append, outcomes_append, h.queue_pair, h.handshake]
  exact ⟨rfl, rfl⟩

section Received

variable {event : RdmaCmEvent} {log log' : List Entry}

theorem RDMAServer.Received.extend (h : RDMAServer.Received n event log)
    (hlog : Extends (fun entry => entry.op.concern ∈ C) log log') (hevent : .event ∉ C) (hrelease : .releasing ∉ C) :
    RDMAServer.Received n event log' where
  books := h.books.extend hlog hevent (.inr hrelease)
  events := (obtained_of_extends hlog hevent).trans h.events

theorem RDMAServer.Received.head (h : RDMAServer.Received n event log) : (obtained log).head? = some (n, event) := by
  rw [h.events]
  rfl

theorem RDMAServer.Received.not_settled (h : RDMAServer.Received n event log) : ¬ Settled log := by
  have hmem : (n, event) ∈ obtained log := by
    rw [h.events]
    exact .head _
  exact h.books.not_settled hmem

end Received

/-- The first event is acknowledged exactly when its request is accepted. -/
theorem RDMAServer.wp_first_event_accepts {event : RdmaCmEvent} (h : RDMAServer.Listening w.log) :
    wp (RDMAServer.first_event env event)
      (fun ret w' =>
        match ret with
        | .SUCCESS => Books none w'.log ∧ RDMAServer.Accepted w'.log
        | .FAILURE => Acknowledging w'.log ∧ ¬ Settled w'.log ∧ ¬ RDMAServer.FirstAccepted w'.log)
      (fun _ w' => Acknowledging w'.log ∧ RDMAServer.FirstAccepted w'.log) w := by
  unfold RDMAServer.first_event
  rw [wp_bind, wp_obtain_event]
  have hreceived := h.obtain event
  obtain ⟨hqp, hhandshake⟩ := h.obtain_outcomes event
  generalize w.record (.obtained w.log.length event) = u at *
  generalize w.log.length = n at *
  rw [wp_ite]
  refine ⟨fun hother => ?_, fun hrequest => ?_⟩
  · rw [wp_bind, wp_record, wp_pure]
    generalize ("error RDMA_CM_EVENT on server connect " ++ toString event.event.code ++ "\n") = text
    have hfoot : Footprint [.text] u (u.record (.printed text)) := Footprint.record u (.head _)
    -- the server returns, and the event stays unacknowledged
    have hprinted := hreceived.extend hfoot.log (by simp) (by simp)
    refine ⟨hprinted.books.acknowledging, hprinted.not_settled, ?_⟩
    intro hfirst
    exact hother (hfirst.event n event hprinted.head)
  · have hrequest : event.event = .RDMA_CM_EVENT_CONNECT_REQUEST := not_not.mp hrequest
    rw [wp_bind, wp_modify_ctx]
    have hstored : (u.modify_ctx fun ctx => { ctx with
        cm_id := .set event.id, context := .set (some (env.verbs event.id)) }).conn.conn_ctx.context =
          .set (some (env.verbs event.id)) := rfl
    apply wp_bind_of (wp_and (RDMAServer.wp_first_connect_request hstored hqp hhandshake)
      (RDMAServer.on_connect_request_leaves event.id _))
    · rintro ret u₁ ⟨hresult, hfoot⟩
      have hhandled : RDMAServer.Received n event u₁.log := hreceived.extend hfoot.log (by simp) (by simp)
      cases ret with
      | FAILURE =>
        refine ⟨hhandled.books.acknowledging, hhandled.not_settled, ?_⟩
        intro hfirst
        rcases hresult with hfailed | hfailed
        · exact hfirst.queue_pair hfailed
        · exact hfirst.handshake hfailed
      | SUCCESS =>
        apply wp_if_failure
        · intro hfailure
          cases hfailure
        intro _
        rw [wp_bind]
        apply wp_rdma_ack_cm_event
        intro m ok
        refine ⟨hhandled.books.acknowledge m ok, ⟨n, event, ?_, hrequest⟩, ?_, ?_⟩
        · rw [obtained_record_ack]
          exact hhandled.head
        · exact outcomes_head_append hresult.1
        · exact outcomes_head_append hresult.2
    · rintro halt u₁ ⟨hresult, -, hfoot⟩
      have hhandled : RDMAServer.Received n event u₁.log := hreceived.extend hfoot.log (by simp) (by simp)
      refine ⟨hhandled.books.acknowledging, ?_, hresult.1, hresult.2⟩
      intro n' event' hhead
      rw [hhandled.head] at hhead
      cases hhead
      exact hrequest

theorem RDMAServer.serve_extends :
    wp (RDMAServer.serve env events) (fun _ w' => w.log <+: w'.log) (fun _ w' => w.log <+: w'.log) w := by
  apply wp_bind_of (wp_working_on_cm_event (I := fun u => w.log <+: u.log) (Q := fun u => w.log <+: u.log)
    (E := fun _ u => w.log <+: u.log) (fun _ h => h) ?_ ?_ (List.prefix_refl _)) ?_ (fun _ _ h => h)
  · intro u hu
    exact hu.trans (List.prefix_append _ _)
  · intro u event _ hu
    apply wp_mono (handle_cm_event_leaves RDMAServer.on_event_leaves event u)
    · intro ret u' hfoot
      have hu' := hu.trans hfoot.log.isPrefix
      exact ⟨fun _ => hu', fun _ => hu'⟩
    · intro halt u' hfoot
      exact hu.trans hfoot.2.log.isPrefix
  · intro _ u hu
    apply wp_mono (RDMAServer.close_leaves u)
    · intro _ u' hfoot
      exact hu.trans hfoot.log.isPrefix
    · intro halt u' hfoot
      exact hu.trans hfoot.2.log.isPrefix

theorem RDMAServer.listening_of_setUp {conn : ConnectionProc} (hsetup : SetUp (.start conn) w) :
    RDMAServer.Listening w.log where
  books := books_of_setUp hsetup
  events := (obtained_of_extends hsetup.log (by simp)).trans rfl
  queue_pair := (outcomes_of_extends hsetup.log (by simp)).trans rfl
  handshake := (outcomes_of_extends hsetup.log (by simp)).trans rfl

/-- While nothing has been obtained there is nothing to acknowledge. -/
theorem RDMAServer.Listening.first_accepted {log log' : List Entry} (h : RDMAServer.Listening log)
    (hlog : Extends (fun entry => entry.op.concern ∈ [.no_event, .text]) log log') :
    Books none log' ∧ RDMAServer.FirstAccepted log' := by
  refine ⟨h.books.extend hlog (by simp) (.inl rfl), ?_, ?_, ?_⟩
  · rw [obtained_of_extends hlog (by simp), h.events]
    nofun
  · rw [outcomes_of_extends hlog (by simp), h.queue_pair]
    nofun
  · rw [outcomes_of_extends hlog (by simp), h.handshake]
    nofun

theorem RDMAServer.run_acknowledges (conn : ConnectionProc) :
    wp (RDMAServer.run env events)
      (fun _ w => Acknowledging w.log ∧ (Settled w.log ↔ RDMAServer.FirstAccepted w.log))
      (fun _ w => Acknowledging w.log ∧ RDMAServer.FirstAccepted w.log) (.start conn) := by
  have hreturns : ∀ {log}, Books none log ∧ RDMAServer.FirstAccepted log →
      Acknowledging log ∧ (Settled log ↔ RDMAServer.FirstAccepted log) :=
    fun h => ⟨h.1.acknowledging, fun _ => h.2, fun _ => h.1.settled⟩
  apply RDMAServer.wp_run_of (S := fun w => Books none w.log ∧ RDMAServer.Accepted w.log)
  · intro w hsetup
    exact hreturns ((RDMAServer.listening_of_setUp hsetup).first_accepted (Extends.refl _))
  · intro w hsetup
    have hfirst := (RDMAServer.listening_of_setUp hsetup).first_accepted (Extends.refl _)
    exact ⟨hfirst.1.acknowledging, hfirst.2⟩
  · intro w text hsetup
    apply hreturns
    apply (RDMAServer.listening_of_setUp hsetup).first_accepted
    exact (Extends.one (by simp [Op.concern])).trans (Extends.one (by simp [Op.concern]))
  · intro w event hsetup
    apply wp_mono (RDMAServer.wp_first_event_accepts (RDMAServer.listening_of_setUp hsetup)) _ (fun _ _ h => h)
    intro ret w₁ hfirst
    cases ret with
    | SUCCESS => exact of_success hfirst
    | FAILURE =>
      obtain ⟨hacknowledging, hunsettled, hrefused⟩ := hfirst
      apply of_failure
      exact ⟨hacknowledging, fun hsettled => absurd hsettled hunsettled, fun haccepted => absurd haccepted hrefused⟩
  · rintro w rest ⟨hbooks, haccepted⟩
    apply wp_mono (wp_and (RDMAServer.serve_keeps w hbooks) RDMAServer.serve_extends)
    · rintro _ w₁ ⟨hbooks₁, hgrows⟩
      exact hreturns ⟨hbooks₁, haccepted.first_accepted hgrows⟩
    · rintro halt w₁ ⟨hacknowledging, hgrows⟩
      exact ⟨hacknowledging, haccepted.first_accepted hgrows⟩

/-- Each event is acknowledged once, before what waits for it is destroyed,
and before the run returns, if it does. -/
def Acknowledges (x : Prog Status) (w : World) : Prop :=
  Acknowledging (x.final w).log ∧ ∀ ret w', x w = .ok ret w' → Settled w'.log

theorem acknowledges_of_wp {x : Prog Status} (h : wp x (fun _ w' => Books none w'.log) (fun _ w' => Acknowledging w'.log) w) :
    Acknowledges x w := by
  cases hresult : x w with
  | ok ret w' =>
    have hbooks := wp_ok h hresult
    rw [Acknowledges, Program.final_of_ok hresult, hresult]
    refine ⟨hbooks.acknowledging, ?_⟩
    intro _ _ heq
    cases heq
    exact hbooks.settled
  | error halt w' =>
    rw [Acknowledges, Program.final_of_error hresult, hresult]
    refine ⟨wp_error h hresult, ?_⟩
    intro _ _ heq
    cases heq

/-- The client always acknowledges its events. The server acknowledges them
unless it returns early from its first one. -/
theorem events_acknowledged_iff {env' : Env} {events' : Events} (client server : ConnectionProc) :
    Acknowledges (RDMAClient.run env events) (.start client) ∧
      (Acknowledges (RDMAServer.run env' events') (.start server) ↔
        RDMAServer.FirstAccepted ((RDMAServer.run env' events').final (.start server)).log) := by
  refine ⟨acknowledges_of_wp (RDMAClient.run_keeps client), ?_⟩
  have hrun : wp (RDMAServer.run env' events') _ _ (.start server) := RDMAServer.run_acknowledges server
  cases hresult : RDMAServer.run env' events' (.start server) with
  | ok ret w =>
    obtain ⟨hacknowledging, hsettled⟩ := wp_ok hrun hresult
    rw [Acknowledges, Program.final_of_ok hresult, hresult, ← hsettled]
    constructor
    · intro h
      exact h.2 ret w rfl
    · intro h
      refine ⟨hacknowledging, ?_⟩
      intro _ _ heq
      cases heq
      exact h
  | error halt w =>
    obtain ⟨hacknowledging, hfirst⟩ := wp_error hrun hresult
    rw [Acknowledges, Program.final_of_error hresult, hresult]
    refine ⟨fun _ => hfirst, fun _ => ⟨hacknowledging, ?_⟩⟩
    intro _ _ heq
    cases heq

/-- The request is never acknowledged when its queue pair cannot be created. -/
theorem RDMAServer.first_event_unacknowledged :
    ∃ w, RDMAServer.run noQueuePairEnv firstRequest (.start serverConn) = .ok .FAILURE w ∧
      (obtained w.log).length = 1 ∧ acknowledged w.log = [] ∧
      ¬ Acknowledges (RDMAServer.run noQueuePairEnv firstRequest) (.start serverConn) := by
  have hruns : (RDMAServer.run noQueuePairEnv firstRequest).returns (.start serverConn) (fun ret w =>
      decide (ret = .FAILURE ∧ (obtained w.log).length = 1 ∧ acknowledged w.log = [])) = true := by
    decide +kernel
  obtain ⟨ret, w, hrun, hdecided⟩ := Program.exists_of_returns hruns
  obtain ⟨rfl, hone, hnone⟩ := of_decide_eq_true hdecided
  refine ⟨w, hrun, hone, hnone, ?_⟩
  intro hacknowledges
  obtain ⟨⟨n, event⟩, hobtained⟩ := List.length_eq_one_iff.mp hone
  have hacked := hacknowledges.2 _ w hrun n event (by rw [hobtained]; exact .head _)
  rw [hnone] at hacked
  cases hacked

end tc_rdma.rdma_com
