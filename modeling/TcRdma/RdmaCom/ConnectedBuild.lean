import TcRdma.RdmaCom.Connected

open tc_rdma.machine

namespace tc_rdma.rdma_com

variable {α β : Type} {env : Env} {C : List Concern} {w w' : World} {id : CmId} {kind : ObjectKind}

/-- From a sound state the program returns in a sound one, and where it halts
the flag has been truthful. -/
def KeepsSound (x : Prog α) : Prop := ∀ w, w.Sound → wp x (fun _ w' => w'.Sound) (fun _ w' => w'.Truthful) w

theorem KeepsSound.bind {x : Prog α} {f : α → Prog β} (hx : KeepsSound x) (hf : ∀ a, KeepsSound (f a)) :
    KeepsSound (x >>= f) :=
  fun w h => wp_bind_of (hx w h) (fun a w' h' => hf a w' h') fun _ _ h => h

theorem keepsSound_of {x : Prog α} (hundisturbing : Undisturbing x) (hleaves : Leaves C x) (hreleasing : .releasing ∉ C)
    (hmemory : .memory ∉ C) (hsending : .sending ∉ C) : KeepsSound x := by
  intro w h
  apply wp_mono (wp_and (hundisturbing w) (hleaves w))
  · rintro _ w' ⟨hsame, hfoot⟩
    exact h.extend hsame hfoot.log hreleasing hmemory hsending
  · rintro _ w' ⟨⟨-, hsame⟩, -, hfoot⟩
    exact (h.extend hsame hfoot.log hreleasing hmemory hsending).toTruthful

theorem keepsSound_pure (a : α) : KeepsSound (pure a : Prog α) := fun _ h => h

/-- The queue pair of the id is one that `rdma_create_qp` has created. -/
def QpAcquired (id : CmId) (w : World) : Prop := ∃ qp, (w.ids id).qp = some qp ∧ (.qp, qp) ∈ acquired w.log

theorem wp_build_queue_pair_acquired :
    wp (build_queue_pair env id) (fun created w' => created = true → QpAcquired id w') (fun _ _ => True) w := by
  unfold build_queue_pair
  rw [wp_bind]
  refine wp_load_any (fun cq _ => ?_) trivial
  rw [wp_bind, wp_get, wp_bind]
  refine wp_load_any (fun pd _ => ?_) trivial
  rw [wp_bind]
  apply wp_invoke_of
  intro ok
  cases ok with
  | false =>
    intro hcreated
    cases hcreated
  | true =>
    intro _
    refine ⟨w.log.length, by rw [World.modify_id_self], ?_⟩
    rw [World.modify_id_log, acquired, picked_record]
    exact List.mem_append_right _ (.head _)

/-- The flag is down, and nothing has been released. -/
structure World.Silent (w : World) : Prop extends w.Truthful where
  unset : w.conn.conn_params.connected = false
  unreleased : released w.log = []

theorem World.Silent.record (h : w.Silent) {op : Op} (hreleasing : op.concern ≠ .releasing)
    (hsending : op.concern ≠ .sending) : (w.record op).Silent where
  toTruthful := by
    apply h.toTruthful.extend_unset (C := [op.concern]) h.unset (Undisturbed.record w op)
    · exact Extends.one (.head _)
    · simpa using hsending.symm
  unset := h.unset
  unreleased := by
    rw [released, picked_record, Op.releases_eq_none hreleasing, Option.toList_none, List.append_nil]
    exact h.unreleased

theorem World.Silent.modify_ctx (h : w.Silent) (f : ConnContext → ConnContext) : (w.modify_ctx f).Silent where
  entries := h.entries
  now := fun hconnected => absurd (hconnected.symm.trans h.unset) (by simp)
  unset := h.unset
  unreleased := h.unreleased

/-- The queue pair that has been taken over is one that was created. -/
def World.TakenOver (w : World) : Prop := w.Silent ∧ LiveIn w.log .qp w.conn.conn_ctx.qp

/-- Once the id has its queue pair, attaching it takes over that one. -/
theorem wp_attach_takenOver (h : w.Sound) (hqp : QpAcquired id w) :
    wp (attach id) (fun _ w' => w'.TakenOver) (fun _ w' => w'.Truthful) w := by
  have hsame : Undisturbed w (w.modify_id id fun state => { state with context := some w.conn.this }) :=
    ⟨rfl, Extends.refl _⟩
  have hlog : Extends (fun entry => entry.op.concern ∈ []) w.log
      (w.modify_id id fun state => { state with context := some w.conn.this }).log := Extends.refl _
  have htruthful := (h.extend hsame hlog (by simp) (by simp) (by simp)).toTruthful
  unfold attach
  rw [wp_bind, wp_this, wp_bind, wp_modify_id, wp_bind]
  refine wp_load_any (fun cm_id _ => ?_) htruthful
  rw [wp_bind]
  refine wp_check (fun _ => ?_) fun _ => htruthful
  rw [wp_bind, wp_get, wp_bind, wp_modify_ctx, wp_set_connected]
  obtain ⟨qp, hset, hacquired⟩ := hqp
  refine ⟨⟨⟨h.entries, ?_⟩, rfl, h.unreleased⟩, qp, ?_, hacquired, ?_⟩
  · intro hconnected
    cases hconnected
  · show Cell.set _ = _
    rw [World.modify_id_self, hset]
  · rw [World.set_connected_log, World.modify_ctx_log, World.modify_id_log, h.unreleased]
    simp

theorem acquired_call (n : Handle) {c : Call} (hc : c.acquires = some kind) :
    acquired (w.record (.call n c true)).log = acquired w.log ++ [(kind, n)] := by
  rw [acquired, picked_record, Op.acquires, hc]
  rfl

/-- One call of `register_message_memory`, whose result is stored. -/
theorem World.Silent.register (h : w.Silent) {c : Call} (hkind : c.acquires = some kind)
    (hconcern : c.concern = .memory) (ok : Bool) (f : ConnContext → ConnContext) :
    ((w.record (.call w.log.length c ok)).modify_ctx f).Silent ∧
      outcomes .memory ((w.record (.call w.log.length c ok)).modify_ctx f).log = outcomes .memory w.log ++ [ok] ∧
      (ok = true → LiveIn ((w.record (.call w.log.length c ok)).modify_ctx f).log kind
        (.set (if ok then some w.log.length else none))) := by
  have hrecorded : (w.record (.call w.log.length c ok)).Silent :=
    h.record (by simp [Op.concern, hconcern]) (by simp [Op.concern, hconcern])
  refine ⟨hrecorded.modify_ctx f, ?_, ?_⟩
  · rw [World.modify_ctx_log, outcomes_record_call, if_pos hconcern]
  · rintro rfl
    refine ⟨w.log.length, rfl, ?_, ?_⟩
    · rw [World.modify_ctx_log, acquired_call _ hkind]
      simp
    · rw [World.modify_ctx_log, hrecorded.unreleased]
      simp

theorem World.Silent.live (h : w.Silent) (h' : w'.Silent) (hgrows : w.log <+: w'.log) {cell : Cell Ptr}
    (hlive : LiveIn w.log kind cell) : LiveIn w'.log kind cell :=
  hlive.grow hgrows (h'.unreleased.trans h.unreleased.symm)

theorem wp_register_of (h : w.Silent) {c : Call} (hkind : c.acquires = some kind) (hconcern : c.concern = .memory)
    {f : Ptr → ConnContext → ConnContext} {x : Ptr → Prog α} {Q : α → World → Prop} {E : Halt → World → Prop}
    (hx : ∀ ok p w', w'.Silent → w.log <+: w'.log → outcomes .memory w'.log = outcomes .memory w.log ++ [ok] →
      (ok = true → LiveIn w'.log kind (.set p)) → w'.conn.conn_ctx = f p w.conn.conn_ctx → wp (x p) Q E w') :
    wp (do let p ← invoke env c; modify_ctx (f p); x p) Q E w := by
  rw [wp_bind]
  apply wp_invoke_of
  intro ok
  rw [wp_bind, wp_modify_ctx]
  obtain ⟨hsilent, houtcomes, hlive⟩ := h.register hkind hconcern ok (f (if ok then some w.log.length else none))
  exact hx ok _ _ hsilent (List.prefix_append _ _) houtcomes hlive rfl

/-- When the last four calls have succeeded, the four members point to what
they created. -/
theorem wp_register_message_memory_sound (h : w.TakenOver) :
    wp (register_message_memory env) (fun _ w' => w'.Sound) (fun _ w' => w'.Truthful) w := by
  obtain ⟨h, hqp⟩ := h
  unfold register_message_memory
  apply wp_register_of h rfl rfl
  intro ok₁ meta_send w₁ h₁ hgrows₁ hout₁ hlive₁ hctx₁
  apply wp_register_of h₁ rfl rfl
  intro ok₂ meta_recv w₂ h₂ hgrows₂ hout₂ hlive₂ hctx₂
  rw [wp_bind]
  refine wp_load_any (fun pd _ => ?_) h₂.toTruthful
  rw [wp_bind]
  refine wp_deref (fun pd _ => ?_) h₂.toTruthful
  apply wp_register_of h₂ rfl rfl
  intro ok₃ meta_send_mr w₃ h₃ hgrows₃ hout₃ hlive₃ hctx₃
  rw [wp_bind]
  apply wp_invoke_of
  intro ok₄
  rw [wp_modify_ctx]
  obtain ⟨h₄, hout₄, hlive₄⟩ := h₃.register (c := .ibv_reg_mr pd meta_recv sizeof_meta_message true) rfl rfl ok₄
    fun ctx => { ctx with meta_recv_mr := .set (if ok₄ then some w₃.log.length else none) }
  refine ⟨⟨h₄.entries, h₄.now⟩, h₄.unreleased, fun hstocked => ?_⟩
  rw [Stocked, hout₄, hout₃, hout₂, hout₁] at hstocked
  have hall : [true, true, true, true] = [ok₁, ok₂, ok₃, ok₄] := by
    obtain ⟨front, hfront⟩ := hstocked
    simp only [List.append_assoc] at hfront
    exact (List.append_inj' hfront rfl).2
  obtain ⟨rfl, rfl, rfl, rfl⟩ : true = ok₁ ∧ true = ok₂ ∧ true = ok₃ ∧ true = ok₄ := by simpa using hall
  have hgrows₄ : w₃.log <+: (w₃.record (.call w₃.log.length (.ibv_reg_mr pd meta_recv sizeof_meta_message true)
    true)).log := List.prefix_append _ _
  have hlive₁ := h₁.live h₄ ((hgrows₂.trans hgrows₃).trans hgrows₄) (hlive₁ rfl)
  have hlive₂ := h₂.live h₄ (hgrows₃.trans hgrows₄) (hlive₂ rfl)
  have hlive₃ := h₃.live h₄ hgrows₄ (hlive₃ rfl)
  have hqp := h.live h₄ (((hgrows₁.trans hgrows₂).trans hgrows₃).trans hgrows₄) hqp
  have hsame : w₃.conn.conn_ctx.qp = w.conn.conn_ctx.qp := by rw [hctx₃, hctx₂, hctx₁]
  have hsend : w₃.conn.conn_ctx.meta_send = .set meta_send := by rw [hctx₃, hctx₂, hctx₁]
  have hrecv : w₃.conn.conn_ctx.meta_recv = .set meta_recv := by rw [hctx₃, hctx₂]
  have hsend_mr : w₃.conn.conn_ctx.meta_send_mr = .set meta_send_mr := by rw [hctx₃]
  rw [← hsend] at hlive₁
  rw [← hrecv] at hlive₂
  rw [← hsend_mr] at hlive₃
  rw [← hsame] at hqp
  exact ⟨hqp, hlive₄ rfl, hlive₃, hlive₂, hlive₁⟩

/-- Building a connection keeps the flag truthful, whatever its calls come to. -/
theorem build_connection_keepsSound (id : CmId) : KeepsSound (build_connection env id) := by
  have hmeta : ∀ w : World, w.Sound → QpAcquired id w →
      wp (build_meta env id) (fun _ w' => w'.Sound) (fun _ w' => w'.Truthful) w := by
    intro w h hqp
    apply wp_bind_of (wp_attach_takenOver h hqp) _ (fun _ _ h => h)
    intro _ w₁ h₁
    apply wp_bind_of (wp_register_message_memory_sound h₁) _ (fun _ _ h => h)
    intro _ w₂ h₂
    rw [wp_bind, wp_get]
    exact keepsSound_of (post_meta_recv_wrs_undisturbing _) (post_meta_recv_wrs_leaves _) (by simp) (by simp)
      (by simp) _ h₂
  have hparts : KeepsSound (build_parts env id) := by
    apply (keepsSound_of (build_context_undisturbing id) (build_context_leaves (C := []) id) (by simp) (by simp)
      (by simp)).bind
    intro accepted
    cases accepted with
    | false => exact keepsSound_pure _
    | true =>
      apply (keepsSound_of build_domain_undisturbing build_domain_leaves (by simp) (by simp) (by simp)).bind
      intro _
      apply (keepsSound_of build_completion_queue_undisturbing build_completion_queue_leaves (by simp) (by simp)
        (by simp)).bind
      intro _
      apply (keepsSound_of build_poller_undisturbing build_poller_leaves (by simp) (by simp) (by simp)).bind
      intro _ w h
      have hkeeps : wp (build_queue_pair env id) (fun _ w' => w'.Sound) (fun _ w' => w'.Truthful) w :=
        keepsSound_of (build_queue_pair_undisturbing id) (build_queue_pair_leaves id) (by simp) (by simp) (by simp) w h
      apply wp_bind_of (wp_and hkeeps wp_build_queue_pair_acquired) _ (fun _ _ h => h.1)
      rintro created w₁ ⟨h₁, hqp⟩
      cases created with
      | false => exact h₁
      | true => exact wp_bind_of (hmeta w₁ h₁ (hqp rfl)) (fun _ _ h => h) (fun _ _ h => h)
  apply hparts.bind
  intro ret
  apply (keepsSound_of (undisturbing_record _) (leaves_record (C := [.result]) (.head _)) (by simp) (by simp)
    (by simp)).bind
  exact fun _ => keepsSound_pure ret

/-- What is neither released, nor registered, nor sent. -/
theorem World.Sound.record (h : w.Sound) {op : Op} (hop : op.concern ∉ [.releasing, .memory, .sending]) :
    (w.record op).Sound := by
  have hlog : Extends (fun entry => entry.op.concern ∈ [op.concern]) w.log (w.record op).log := Extends.one (.head _)
  simp only [List.mem_cons, List.not_mem_nil, or_false, not_or] at hop
  obtain ⟨hreleasing, hmemory, hsending⟩ := hop
  refine h.extend (Undisturbed.record w op) hlog ?_ ?_ ?_
  · simpa using Ne.symm hreleasing
  · simpa using Ne.symm hmemory
  · simpa using Ne.symm hsending

theorem World.Sound.printed (h : w.Sound) (text : String) : (w.record (.printed text)).Sound :=
  h.record (by simp [Op.concern])

theorem World.Sound.no_event (h : w.Sound) : (w.record .no_event).Sound := h.record (by simp [Op.concern])

theorem World.Sound.obtained (h : w.Sound) (n : Handle) (event : RdmaCmEvent) : (w.record (.obtained n event)).Sound :=
  h.record (by simp [Op.concern])

theorem World.Sound.acked (h : w.Sound) (m n : Handle) (ok : Bool) :
    (w.record (.call m (.rdma_ack_cm_event n) ok)).Sound :=
  h.record (by simp [Op.concern, Call.concern])

theorem World.Truthful.record (h : w.Truthful) {op : Op} (hreleases : op.releases = none)
    (hsends : Entry.SendsConnected ⟨w.conn, op⟩) : (w.record op).Truthful where
  entries := always_concat.mpr ⟨h.entries, h.now, hsends⟩
  now := by
    intro hconnected
    have hsame : released (w.record op).log = released w.log := by
      rw [released, picked_record, hreleases]
      exact List.append_nil _
    exact (h.now hconnected).grow (List.prefix_append _ _) hsame

theorem World.Sound.send (h : w.Sound) (hconnected : w.conn.conn_params.connected = true) {qp : Handle}
    (hqp : w.conn.conn_ctx.qp = .set (some qp)) (n : Handle) (wr : IbvSendWr) (ok : Bool) :
    (w.record (.call n (.ibv_post_send qp wr) ok)).Sound where
  toTruthful := by
    apply h.toTruthful.record rfl
    intro n' qp' wr' ok' hop
    cases hop
    exact ⟨hconnected, hqp⟩
  unreleased := by
    rw [released, picked_record]
    exact (List.append_nil _).trans h.unreleased
  stocked := by
    intro _
    refine (h.now hconnected).grow (List.prefix_append _ _) ?_
    rw [released, picked_record]
    exact List.append_nil _

theorem keepsSound_invoke {c : Call} (hc : c.concern ∉ [.releasing, .memory, .sending]) : KeepsSound (invoke env c) :=
  fun _ h => wp_invoke_of fun _ => h.record hc

theorem keepsSound_record {op : Op} (hop : op.concern ∉ [.releasing, .memory, .sending]) : KeepsSound (record op) :=
  fun _ h => h.record hop

theorem keepsSound_check (condition : Bool) (halt : Halt) : KeepsSound (check condition halt) :=
  fun _ h => wp_check (fun _ => h) fun _ => h.toTruthful

theorem World.Sound.modify_ctx (h : w.Sound) {f : ConnContext → ConnContext}
    (hheld : (w.modify_ctx f).conn.held = w.conn.held := by exact rfl) : (w.modify_ctx f).Sound :=
  h.extend (C := []) ⟨hheld, Extends.refl _⟩ (Extends.refl _) (by simp) (by simp) (by simp)

/-- The assertion on `connected` comes before the queue pair is used. -/
theorem send_meta_message_keepsSound : KeepsSound (send_meta_message env) := by
  intro w h
  unfold send_meta_message
  rw [wp_bind]
  refine wp_load_any (fun meta_send _ => ?_) h.toTruthful
  rw [wp_bind]
  refine wp_load_any (fun meta_send_mr _ => ?_) h.toTruthful
  rw [wp_bind]
  refine wp_deref (fun meta_send_mr _ => ?_) h.toTruthful
  rw [wp_bind, wp_this, wp_bind, wp_get, wp_bind]
  refine wp_check (fun hconnected => ?_) fun _ => h.toTruthful
  rw [wp_bind]
  refine wp_load_any (fun qp hqp => ?_) h.toTruthful
  rw [wp_bind]
  refine wp_deref (fun handle hhandle => ?_) h.toTruthful
  rw [hhandle] at hqp
  rw [wp_bind]
  exact wp_invoke_of fun ok => h.send hconnected hqp _ _ ok

end tc_rdma.rdma_com
