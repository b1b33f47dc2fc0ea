import TcRdma.RdmaCom.Cleanup

open tc_rdma.machine

namespace tc_rdma.rdma_com

variable {env : Env} {C : List Concern} {w w' : World} {conn : Fixed} {objects rest : List CmObject} {id : CmId}
  {event : RdmaCmEvent} {on_event : RdmaCmEvent → Prog Status} {events : Events} {site : Site}
  {fresh : Prop}

/-- The event loop goes on. -/
structure Working (env : Env) (conn : Fixed) (objects : List CmObject) (w : World) : Prop where
  opened : Opened env conn objects w
  joined : Joined w.log
  last : last_event w.log ≠ some .RDMA_CM_EVENT_DISCONNECTED

/-- The event loop is over. Only after `RDMA_CM_EVENT_DISCONNECTED` the id of the
connection has been destroyed. -/
structure Worked (env : Env) (conn : Fixed) (objects : List CmObject) (w : World) : Prop where
  fixed : w.conn.fixed = conn
  opened : (outcomes .setup w.log).head? = some true
  joined : Joined w.log
  all : objects ⊆ created env w.log
  ending : last_event w.log ≠ some .RDMA_CM_EVENT_DISCONNECTED ∧ destroyed w.log = [] ∨
    last_event w.log = some .RDMA_CM_EVENT_DISCONNECTED ∧ created env w.log ⊆ objects ∧
      ∃ id, conn.cm_id = .set id ∧ destroyed w.log = [.id id]

theorem Working.extend (h : Working env conn objects w) (hfixed : w'.conn.fixed = w.conn.fixed)
    (hlog : Extends (fun entry => entry.op.concern ∈ C) w.log w'.log) (hevent : .event ∉ C) (hsetup : .setup ∉ C)
    (hreleasing : .releasing ∉ C) : Working env conn objects w' where
  opened := h.opened.extend hfixed hlog hevent hsetup hreleasing
  joined := h.joined.of_isPrefix hlog.isPrefix
  last := by rw [last_event_of_extends hlog hevent]; exact h.last

theorem Working.worked (h : Working env conn objects w) : Worked env conn objects w where
  fixed := h.opened.fixed
  opened := h.opened.opened
  joined := h.joined
  all := h.opened.all
  ending := .inl ⟨h.last, h.opened.untouched⟩

theorem wp_rdma_destroy_qp_keeps : wp (rdma_destroy_qp env id)
    (fun _ w' => w'.conn = w.conn ∧ destroyed w'.log = destroyed w.log) (fun _ _ => True) w := by
  unfold rdma_destroy_qp
  rw [wp_bind, wp_get, wp_bind]
  refine wp_deref (fun qp _ => ?_) trivial
  rw [wp_bind, wp_invoke, wp_modify_id, World.modify_id_log, destroyed_record]
  exact ⟨rfl, List.append_nil _⟩

/-- Of the ids only the stored one is destroyed, at the end. -/
theorem wp_release_connection_destroys (hcm : w.conn.conn_ctx.cm_id = .set id) :
    wp (release_connection env) (fun _ w' => destroyed w'.log = destroyed w.log ++ [.id id]) (fun _ _ => True) w := by
  unfold release_connection
  rw [wp_bind]
  apply wp_load_of_set hcm
  apply wp_bind_of wp_rdma_destroy_qp_keeps _ (fun _ _ h => h)
  rintro _ w₁ ⟨hconn, hsame⟩
  rw [← hconn] at hcm
  rw [wp_bind]
  refine wp_load_any (fun _ _ => ?_) trivial
  rw [wp_bind]
  refine wp_deref (fun _ _ => ?_) trivial
  rw [wp_bind, wp_invoke, wp_bind]
  refine wp_load_any (fun _ _ => ?_) trivial
  rw [wp_bind]
  refine wp_deref (fun _ _ => ?_) trivial
  rw [wp_bind, wp_invoke, wp_bind]
  refine wp_load_any (fun _ _ => ?_) trivial
  rw [wp_bind, wp_invoke, wp_bind]
  refine wp_load_any (fun _ _ => ?_) trivial
  rw [wp_bind, wp_invoke, wp_bind]
  refine wp_load_of_set hcm ?_
  rw [wp_bind, wp_invoke, wp_pure]
  simp only [destroyed_record, hsame, Op.destroys, Option.toList_none, Option.toList_some, List.append_nil]

theorem wp_on_disconnect_destroys {id' : CmId} (hcm : w.conn.conn_ctx.cm_id = .set id) :
    wp (on_disconnect env id') (fun ret w' => ret = .FAILURE ∧ destroyed w'.log = destroyed w.log ++ [.id id])
      (fun _ _ => True) w := by
  unfold on_disconnect destroy_connection
  rw [wp_bind, wp_get, wp_bind]
  refine wp_check (fun _ => ?_) fun _ => trivial
  rw [wp_bind, wp_bind, wp_record]
  apply wp_mono (wp_release_connection_destroys (w := w.record (.entered .destroy_connection)) hcm) _ (fun _ _ h => h)
  intro _ w' hdestroyed
  rw [wp_pure, hdestroyed, destroyed_record]
  exact ⟨rfl, by simp [Op.destroys]⟩

/-- What a handler of the loop has to keep, beside being `on_disconnect` for
the last event: it destroys nothing, and it takes a connect request only for
the stored id. -/
structure Handling (env : Env) (C : List Concern) (on_event : RdmaCmEvent → Prog Status) : Prop where
  leaves : ∀ {event}, event.event ≠ .RDMA_CM_EVENT_DISCONNECTED → Leaves C (on_event event)
  no_event : .event ∉ C
  no_setup : .setup ∉ C
  no_releasing : .releasing ∉ C
  on_disconnect : ∀ {event}, event.event = .RDMA_CM_EVENT_DISCONNECTED → on_event event = on_disconnect env event.id
  request : ∀ {event w}, event.event = .RDMA_CM_EVENT_CONNECT_REQUEST →
    wp (on_event event) (fun ret _ => ret = .SUCCESS → w.conn.conn_ctx.cm_id = .set event.id) (fun _ _ => True) w

theorem Worked.extend (h : Worked env conn objects w) (hfixed : w'.conn.fixed = w.conn.fixed)
    (hlog : Extends (fun entry => entry.op.concern ∈ C) w.log w'.log) (hevent : .event ∉ C) (hsetup : .setup ∉ C)
    (hreleasing : .releasing ∉ C) : Worked env conn objects w' where
  fixed := hfixed.trans h.fixed
  opened := by rw [outcomes_of_extends hlog hsetup]; exact h.opened
  joined := h.joined.of_isPrefix hlog.isPrefix
  all := by rw [created_of_extends hlog hsetup hevent]; exact h.all
  ending := by
    rw [last_event_of_extends hlog hevent, destroyed_of_extends hlog hreleasing, created_of_extends hlog hsetup hevent]
    exact h.ending

/-- The state in which the handler of an event runs. -/
def World.acked (w : World) (event : RdmaCmEvent) (m : Handle) (ok : Bool) : World :=
  (w.record (.obtained w.log.length event)).record (.call m (.rdma_ack_cm_event w.log.length) ok)

theorem last_event_obtained (n : Handle) : last_event (w.record (.obtained n event)).log = some event.event := by
  rw [last_event, obtained, picked_record]
  simp [Op.event]

theorem last_event_call (n : Handle) (c : Call) (ok : Bool) :
    last_event (w.record (.call n c ok)).log = last_event w.log := by
  rw [last_event, obtained, picked_record]
  simp [Op.event, last_event, obtained]

theorem last_event_acked (m : Handle) (ok : Bool) : last_event (w.acked event m ok).log = some event.event :=
  (last_event_call _ _ _).trans (last_event_obtained _)

theorem created_acked (m : Handle) (ok : Bool) : created env (w.acked event m ok).log =
    created env w.log ++ if event.event = .RDMA_CM_EVENT_CONNECT_REQUEST then [.id event.id] else [] := by
  rw [World.acked, created_record, created_record, Op.creates]
  by_cases hrequest : event.event = .RDMA_CM_EVENT_CONNECT_REQUEST
  · rw [if_pos hrequest, if_pos hrequest]
    exact List.append_nil _
  · rw [if_neg hrequest, if_neg hrequest]
    exact List.append_nil _

theorem destroyed_acked (m : Handle) (ok : Bool) : destroyed (w.acked event m ok).log = destroyed w.log := by
  rw [World.acked, destroyed_record, destroyed_record]
  simp [Op.destroys]

theorem acked_isPrefix (m : Handle) (ok : Bool) : w.log <+: (w.acked event m ok).log :=
  (List.prefix_append _ _).trans (List.prefix_append _ _)

/-- As long as the event is not the last one, the loop may end where its
handler begins. -/
theorem Working.acked_worked (h : Working env conn objects w) (hevent : event.event ≠ .RDMA_CM_EVENT_DISCONNECTED)
    (m : Handle) (ok : Bool) : Worked env conn objects (w.acked event m ok) where
  fixed := h.opened.fixed
  opened := outcomes_head_append (outcomes_head_append h.opened.opened)
  joined := h.joined.of_isPrefix (acked_isPrefix m ok)
  all := List.Subset.trans h.opened.all (created_subset (acked_isPrefix m ok))
  ending := by
    rw [last_event_acked, destroyed_acked]
    exact .inl ⟨by simpa using hevent, h.opened.untouched⟩

theorem Working.acked (h : Working env conn objects w) (hevent : event.event ≠ .RDMA_CM_EVENT_DISCONNECTED)
    (hrequest : event.event = .RDMA_CM_EVENT_CONNECT_REQUEST → .id event.id ∈ objects) (m : Handle) (ok : Bool) :
    Working env conn objects (w.acked event m ok) where
  opened :=
    { fixed := h.opened.fixed
      opened := (h.acked_worked hevent m ok).opened
      all := (h.acked_worked hevent m ok).all
      only := by
        rw [created_acked]
        apply List.append_subset_of_subset_of_subset h.opened.only
        split
        · simpa using hrequest ‹_›
        · exact List.nil_subset _
      untouched := (destroyed_acked m ok).trans h.opened.untouched }
  joined := (h.acked_worked hevent m ok).joined
  last := by
    rw [last_event_acked]
    simpa using hevent

/-- One pass of the loop, after the event was obtained and acknowledged. -/
theorem Working.wp_handle_cm_event (h : Working env conn objects w) (hon_event : Handling env C on_event)
    (hcm : conn.cm_id = .set id) (hid : .id id ∈ objects) :
    wp (handle_cm_event env on_event event)
      (fun ret w' => (ret = .SUCCESS → Working env conn objects w') ∧ (ret = .FAILURE → Worked env conn objects w'))
      (fun _ _ => True) w := by
  apply tc_rdma.rdma_com.wp_handle_cm_event
  intro m ok
  show wp (on_event event) _ _ (w.acked event m ok)
  have hstored : (w.acked event m ok).conn.conn_ctx.cm_id = .set id :=
    (congrArg Fixed.cm_id h.opened.fixed).trans hcm
  by_cases hdisconnected : event.event = .RDMA_CM_EVENT_DISCONNECTED
  · rw [hon_event.on_disconnect hdisconnected]
    apply wp_mono (wp_and (wp_on_disconnect_destroys hstored) (on_disconnect_leaves event.id _)) _
      (fun _ _ _ => trivial)
    rintro ret w' ⟨⟨rfl, hdestroyed⟩, hfoot⟩
    rw [destroyed_acked, h.opened.untouched, List.nil_append] at hdestroyed
    have hcreated : created env w'.log = created env w.log := by
      rw [created_of_extends hfoot.log (by simp) (by simp), created_acked, if_neg (by simp [hdisconnected]),
        List.append_nil]
    apply of_failure
    exact
      { fixed := hfoot.fixed.trans h.opened.fixed
        opened := by
          rw [outcomes_of_extends hfoot.log (by simp)]
          exact outcomes_head_append (outcomes_head_append h.opened.opened)
        joined := h.joined.of_isPrefix ((acked_isPrefix m ok).trans hfoot.log.isPrefix)
        all := by rw [hcreated]; exact h.opened.all
        ending := by
          rw [last_event_of_extends hfoot.log (by simp), last_event_acked, hcreated, hdisconnected]
          exact .inr ⟨rfl, h.opened.only, id, hcm, hdestroyed⟩ }
  have hleaves := hon_event.leaves hdisconnected (w.acked event m ok)
  have hfails : ∀ {w'}, Footprint C (w.acked event m ok) w' → Worked env conn objects w' := fun hfoot =>
    (h.acked_worked hdisconnected m ok).extend hfoot.fixed hfoot.log hon_event.no_event hon_event.no_setup
      hon_event.no_releasing
  have hgoes : ∀ {w'}, (event.event = .RDMA_CM_EVENT_CONNECT_REQUEST → .id event.id ∈ objects) →
      Footprint C (w.acked event m ok) w' → Working env conn objects w' := fun hrequest hfoot =>
    (h.acked hdisconnected hrequest m ok).extend hfoot.fixed hfoot.log hon_event.no_event hon_event.no_setup
      hon_event.no_releasing
  by_cases hrequest : event.event = .RDMA_CM_EVENT_CONNECT_REQUEST
  · apply wp_mono (wp_and (hon_event.request hrequest) hleaves) _ (fun _ _ _ => trivial)
    rintro ret w' ⟨hsame, hfoot⟩
    refine ⟨fun hret => hgoes (fun _ => ?_) hfoot, fun _ => hfails hfoot⟩
    rw [hstored] at hsame
    cases hsame hret
    exact hid
  · apply wp_mono hleaves _ (fun _ _ _ => trivial)
    intro ret w' hfoot
    exact ⟨fun _ => hgoes (fun heq => absurd heq hrequest) hfoot, fun _ => hfails hfoot⟩

theorem Working.wp_working_on_cm_event (h : Working env conn objects w) (hon_event : Handling env C on_event)
    (hcm : conn.cm_id = .set id) (hid : .id id ∈ objects) :
    wp (working_on_cm_event env site on_event events) (fun _ => Worked env conn objects) (fun _ _ => True) w := by
  refine tc_rdma.rdma_com.wp_working_on_cm_event (I := Working env conn objects) (fun _ _ => trivial) ?_ ?_ h
  · intro w h
    have hfoot : Footprint [.no_event] w (w.record .no_event) := Footprint.record w (.head _)
    exact (h.extend hfoot.fixed hfoot.log (by simp) (by simp) (by simp)).worked
  · intro w event _ h
    exact h.wp_handle_cm_event hon_event hcm hid

/-- The loop is followed by calls that destroy `rest`. -/
theorem Worked.ends (h : Worked env conn objects w)
    (hlog : Extends (fun entry => entry.op.concern ∈ [.releasing]) w.log w'.log)
    (hrest : destroyed w'.log = destroyed w.log ++ rest) (hcm : conn.cm_id = .set id) (hid : .id id ∈ objects)
    (hnot : fresh → .id id ∉ rest) (honce : fresh → ∀ object ∈ objects, (.id id :: rest).count object = 1)
    (hids_first : (.id id :: rest).Pairwise fun before after => ∀ n id, before = CmObject.channel n → after ≠ .id id) :
    RunEnds env fresh w'.log .SUCCESS := by
  have hopened : ¬ Unopened w'.log := by
    rw [Unopened, outcomes_of_extends hlog (by simp), h.opened]
    simp
  have hjoined := h.joined.of_isPrefix hlog.isPrefix
  have hcreated : created env w'.log = created env w.log := created_of_extends hlog (by simp) (by simp)
  have hlast : last_event w'.log = last_event w.log := last_event_of_extends hlog (by simp)
  rcases h.ending with ⟨hother, hnone⟩ | ⟨hdisconnected, honly, id', hcm', hdestroyed⟩
  · rw [hnone, List.nil_append] at hrest
    refine .stopped hopened hjoined (by rw [hlast]; exact hother) fun hfresh => ?_
    have hcreated : .id id ∈ created env w'.log := by
      rw [hcreated]
      exact h.all hid
    apply not_cleanedUp hcreated
    rw [hrest]
    exact hnot hfresh
  · rw [hcm] at hcm'
    cases hcm'
    rw [hdestroyed, List.singleton_append] at hrest
    refine .left hopened ⟨hjoined, hlast.trans hdisconnected⟩ fun hfresh => ⟨?_, by rw [hrest]; exact hids_first⟩
    intro object hobject
    rw [hcreated] at hobject
    rw [hrest]
    exact honce hfresh object (honly hobject)

/-- The lookup of the port creates nothing. -/
theorem Opened.wp_resolve_port (h : Opened env conn objects w) (servername : Option String) :
    wp (resolve_port env servername) (fun _ w' => Opened env conn objects w' ∧ w'.conn = w.conn)
      (fun _ _ => False) w := by
  unfold resolve_port
  rw [wp_bind, wp_get]
  refine wp_bind_of (wp_check_add_port (P := fun u => Opened env conn objects u ∧ u.conn = w.conn) ?_ ?_ ?_ ⟨h, rfl⟩) ?_
    (fun _ _ h => h)
  · exact fun _ _ _ h => ⟨h.1.record rfl rfl, h.2⟩
  · exact fun _ _ _ h => ⟨h.1.record rfl rfl, h.2⟩
  · exact fun _ _ h => ⟨h.1.record rfl rfl, h.2⟩
  · rintro ret u ⟨hu, hconn⟩
    refine wp_if_failure (fun _ => ⟨hu.record rfl rfl, hconn⟩) fun _ => ?_
    exact wp_invoke_isNone ⟨hu.record rfl rfl, hconn⟩ ⟨hu.record rfl rfl, hconn⟩

theorem Opened.now (h : Opened env conn objects w) : Opened env w.conn.fixed objects w := { h with fixed := rfl }

/-- The first call of `run`, when it succeeds. -/
theorem opened_start (conn : ConnectionProc) (f : ConnContext → ConnContext) :
    Opened env (((World.start conn).record (.call 0 .rdma_create_event_channel true)).modify_ctx f).conn.fixed
      [.channel 0] (((World.start conn).record (.call 0 .rdma_create_event_channel true)).modify_ctx f) where
  fixed := rfl
  opened := rfl
  all := List.Subset.refl _
  only := List.Subset.refl _
  untouched := rfl

theorem Opened.create_id (h : Opened env conn objects w) (n ch : Handle) (f : ConnContext → ConnContext) :
    Opened env ((w.record (.call n (.rdma_create_id ch) true)).modify_ctx f).conn.fixed (objects ++ [.id env.new_id])
      ((w.record (.call n (.rdma_create_id ch) true)).modify_ctx f) :=
  (h.create rfl rfl).modify_ctx f

/-- The first call of `run`, when it fails. -/
theorem runEnds_unopened (conn : ConnectionProc) (f : ConnContext → ConnContext) :
    RunEnds env fresh (((World.start conn).record (.call 0 .rdma_create_event_channel false)).modify_ctx f).log .FAILURE := by
  refine .unopened rfl (by simp [Joined, outcomes, picked, World.start, Op.outcome, Call.concern]) ⟨?_, .nil⟩
  intro object hobject
  cases hobject

/-- What is open when the events of the server begin. -/
def RDMAServer.Listens (env : Env) (w : World) : Prop :=
  ∃ ch, w.conn.conn_ctx.cm_id_control = .set env.new_id ∧ w.conn.conn_ctx.cm_channel = .set (some ch) ∧
    Opened env w.conn.fixed [.channel ch, .id env.new_id] w

theorem RDMAServer.wp_listen_opens (env : Env) (fresh : Prop) (conn : ConnectionProc) :
    wp (RDMAServer.listen env)
      (fun ret w => (ret = .SUCCESS → RDMAServer.Listens env w) ∧
        (ret = .FAILURE → ¬ Joined w.log → RunEnds env fresh w.log .FAILURE))
      (fun _ _ => False) (.start conn) := by
  unfold RDMAServer.listen
  rw [wp_bind]
  apply wp_invoke_of
  intro created
  rw [wp_bind, wp_modify_ctx]
  cases created with
  | false => exact of_failure fun _ => runEnds_unopened conn _
  | true =>
    have h : Opened env _ [.channel 0] _ := opened_start conn fun ctx => { ctx with cm_channel := .set (some 0) }
    refine wp_invoke_isNone (of_failure fun hjoined => (h.record rfl rfl).early hjoined (.head _)) ?_
    rw [wp_bind, wp_modify_ctx]
    apply wp_bind_of ((h.create_id _ _ _).wp_resolve_port none) _ (fun _ _ h => h)
    rintro port w₁ ⟨h, hconn⟩
    have hcontrol : w₁.conn.conn_ctx.cm_id_control = .set env.new_id := by rw [hconn]; rfl
    have hchannel : w₁.conn.conn_ctx.cm_channel = .set (some 0) := by rw [hconn]; rfl
    cases port with
    | none => exact of_failure fun hjoined => h.early hjoined (.head _)
    | some sin_port =>
      dsimp only
      rw [wp_bind]
      apply wp_invoke_of
      intro _
      rw [wp_bind]
      refine wp_load_of_set hcontrol ?_
      refine wp_invoke_isNone ?_ ?_
      · exact of_failure fun hjoined =>
          (((h.record rfl rfl).record rfl rfl).record rfl rfl).early hjoined (.head _)
      rw [wp_bind, wp_get]
      refine wp_invoke_isNone ?_ ?_
      · exact of_failure fun hjoined =>
          ((((h.record rfl rfl).record rfl rfl).record rfl rfl).record rfl rfl).early hjoined (.head _)
      · exact of_success ⟨0, hcontrol, hchannel, Opened.now (((h.record rfl rfl).record rfl rfl).record rfl rfl)⟩

/-- What is open when the resolution of the client begins. -/
def RDMAClient.Opens (env : Env) (w : World) : Prop :=
  ∃ ch, w.conn.conn_ctx.cm_id = .set env.new_id ∧ w.conn.conn_ctx.cm_channel = .set (some ch) ∧
    Opened env w.conn.fixed [.channel ch, .id env.new_id] w

theorem RDMAClient.wp_create_opens (env : Env) (fresh : Prop) (conn : ConnectionProc) :
    wp (RDMAClient.create env)
      (fun port w => (port = none → ¬ Joined w.log → RunEnds env fresh w.log .FAILURE) ∧
        (∀ sin_port, port = some sin_port → RDMAClient.Opens env w))
      (fun _ _ => False) (.start conn) := by
  unfold RDMAClient.create
  rw [wp_bind]
  apply wp_invoke_of
  intro created
  rw [wp_bind, wp_modify_ctx]
  cases created with
  | false => exact ⟨fun _ _ => runEnds_unopened conn _, fun _ hnone => by cases hnone⟩
  | true =>
    have h : Opened env _ [.channel 0] _ := opened_start conn fun ctx => { ctx with cm_channel := .set (some 0) }
    refine wp_invoke_isNone ?_ ?_
    · exact ⟨fun _ hjoined => (h.record rfl rfl).early hjoined (.head _), fun _ hnone => by cases hnone⟩
    rw [wp_bind, wp_modify_ctx, wp_bind, wp_get]
    apply wp_mono ((h.create_id _ _ _).wp_resolve_port _) _ (fun _ _ h => h)
    rintro port w₁ ⟨h, hconn⟩
    refine ⟨fun _ hjoined => h.early hjoined (.head _), fun _ _ => ⟨0, ?_, ?_, h.now⟩⟩
    · rw [hconn]
      rfl
    · rw [hconn]
      rfl

end tc_rdma.rdma_com
