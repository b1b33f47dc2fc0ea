import TcRdma.RdmaCom.BuildStages

open tc_rdma.machine

namespace tc_rdma.rdma_com

variable {env : Env} {cm_id : CmId} {w w' : World} {made more : List (Call × Bool)}

def Cell.NonNull (cell : Cell Ptr) : Prop := ∃ handle, cell = .set (some handle)

/-- Whether a call is given a null pointer to what another call creates. -/
def Call.given_null : Call → Bool
  | .ibv_create_cq _ _ comp_channel => comp_channel.isNone
  | .rdma_create_qp _ pd qp_attr => pd.isNone || qp_attr.send_cq.isNone || qp_attr.recv_cq.isNone
  | .ibv_reg_mr _ memory _ _ => memory.isNone
  | .rdma_destroy_event_channel cm_channel => cm_channel.isNone
  | .free memory => memory.isNone
  | _ => false

def NothingNull (made : List (Call × Bool)) : Prop := ∀ call ∈ made, call.1.given_null = false

/-- All that a connection consists of is there since `w`. -/
structure CompletelyBuilt (w w' : World) : Prop where
  pd : w'.conn.conn_ctx.pd.NonNull
  comp_channel : w'.conn.conn_ctx.comp_channel.NonNull
  cq : w'.conn.conn_ctx.cq.NonNull
  qp : w'.conn.conn_ctx.qp.NonNull
  meta_send : w'.conn.conn_ctx.meta_send.NonNull
  meta_recv : w'.conn.conn_ctx.meta_recv.NonNull
  meta_send_mr : w'.conn.conn_ctx.meta_send_mr.NonNull
  meta_recv_mr : w'.conn.conn_ctx.meta_recv_mr.NonNull
  poller : (.pthread_create, true) ∈ answered (w'.since w)
  armed : ∃ cq, w'.conn.conn_ctx.cq = .set (some cq) ∧ (.ibv_req_notify_cq cq, true) ∈ answered (w'.since w)
  receives : outcomes .receiving (w'.since w) = List.replicate w.conn.conn_params.wr_cq_number true

/-- `build_connection` returns `SUCCESS` only for a complete connection, and it
neither gives a null pointer to a call nor follows one. -/
def BuildsCompletely (env : Env) (cm_id : CmId) (w : World) : Prop :=
  wp (build_connection env cm_id)
    (fun ret w' => (ret = .SUCCESS → CompletelyBuilt w w') ∧ NothingNull (answered (w'.since w)))
    (fun halt w' => halt ≠ .null_pointer ∧ NothingNull (answered (w'.since w))) w

/-- The one call whose result is tested. -/
def Call.tested : Call → Bool
  | .rdma_create_qp _ _ _ => true
  | _ => false

/-- The calls that create nothing that `build_connection` uses. -/
def Call.unused : Call → Bool
  | .ibv_req_notify_cq _ => true
  | .pthread_create => true
  | _ => false

/-- Nothing fails but the call that is tested and, in a run that does not
return `SUCCESS` for that call or for the stored id, the calls that nothing is
created by. -/
def Harmless (cm_id : CmId) (w : World) (made : List (Call × Bool)) : Prop :=
  ∀ c, (c, false) ∈ made → c.tested = true ∨
    c.unused = true ∧ ((∃ c', c'.tested = true ∧ (c', false) ∈ made) ∨ w.conn.conn_ctx.cm_id ≠ .set cm_id)

theorem nothingNull_nil : NothingNull [] := by simp [NothingNull]

theorem harmless_nil : Harmless cm_id w [] := by simp [Harmless]

/-- A failure that is neither tested nor without use does harm. -/
theorem not_harmless {c : Call} (hc : c.tested = false ∧ c.unused = false) (hmem : (c, false) ∈ made) :
    ¬ Harmless cm_id w made := by
  intro h
  rcases h c hmem with htested | ⟨hunused, -⟩
  · rw [hc.1] at htested
    cases htested
  · rw [hc.2] at hunused
    cases hunused

/-- Where a call without which the connection cannot be used has failed, and
what it should have created has been given to another call, neither side of the
law holds. -/
theorem spoilt {P : Prop} {c c' : Call} {ok : Bool} (hc : c.tested = false ∧ c.unused = false)
    (hfailed : (c, false) ∈ made) (hgiven : (c', ok) ∈ made) (hnull : c'.given_null = true) :
    P ∧ NothingNull made ↔ Harmless cm_id w made := by
  apply iff_of_false _ (not_harmless hc hfailed)
  rintro ⟨-, hnothing⟩
  have hfalse := hnothing _ hgiven
  rw [hnull] at hfalse
  cases hfalse

/-- The first six calls. -/
def opening (device : Device) (pd comp_channel : Ptr) (cqe : Nat) (cq : Handle) (armed created : Bool) (cm_id : CmId)
    (qp_attr : IbvQpInitAttr) (accepted : Bool) : List (Call × Bool) :=
  [(.ibv_alloc_pd device, pd.isSome), (.ibv_create_comp_channel device, comp_channel.isSome),
    (.ibv_create_cq device cqe comp_channel, true), (.ibv_req_notify_cq cq, armed), (.pthread_create, created),
    (.rdma_create_qp cm_id pd qp_attr, accepted)]

section Opening

variable {device : Device} {pd comp_channel : Handle} {cqe : Nat} {cq : Handle} {armed created accepted : Bool}
  {qp_attr : IbvQpInitAttr}

theorem opening_nothingNull (hsend : qp_attr.send_cq = some cq) (hrecv : qp_attr.recv_cq = some cq) :
    NothingNull (opening device (some pd) (some comp_channel) cqe cq armed created cm_id qp_attr accepted) := by
  simp [NothingNull, opening, Call.given_null, hsend, hrecv]

/-- What can have failed when the first three calls have succeeded. -/
theorem opening_failed {c : Call}
    (hmem : (c, false) ∈ opening device (some pd) (some comp_channel) cqe cq armed created cm_id qp_attr accepted) :
    c.unused = true ∧ (armed = false ∨ created = false) ∨ c.tested = true ∧ accepted = false := by
  simp only [opening, Option.isSome_some, List.mem_cons, Prod.mk.injEq, List.not_mem_nil, or_false, reduceCtorEq,
    and_false, false_or] at hmem
  rcases hmem with ⟨rfl, harmed⟩ | ⟨rfl, hcreated⟩ | ⟨rfl, haccepted⟩
  · exact .inl ⟨rfl, .inl harmed.symm⟩
  · exact .inl ⟨rfl, .inr hcreated.symm⟩
  · exact .inr ⟨rfl, haccepted.symm⟩

/-- The failure of `rdma_create_qp` is returned. -/
theorem opening_harmless_of_refused :
    Harmless cm_id w
      (opening device (some pd) (some comp_channel) cqe cq armed created cm_id qp_attr false) := by
  intro c hmem
  rcases opening_failed hmem with ⟨hunused, -⟩ | ⟨htested, -⟩
  · exact .inr ⟨hunused, .inl ⟨.rdma_create_qp cm_id (some pd) qp_attr, rfl, by simp [opening]⟩⟩
  · exact .inl htested

/-- The process stops for the assertion on the id. -/
theorem opening_harmless_of_other (hne : w.conn.conn_ctx.cm_id ≠ .set cm_id) :
    Harmless cm_id w
      (opening device (some pd) (some comp_channel) cqe cq armed created cm_id qp_attr accepted) := by
  intro c hmem
  rcases opening_failed hmem with ⟨hunused, -⟩ | ⟨htested, -⟩
  · exact .inr ⟨hunused, .inr hne⟩
  · exact .inl htested

end Opening

/-- Without a protection domain or a completion channel the law is broken once
the queue pair has been asked for. -/
theorem spoilt_opening {P : Prop} {device : Device} {pd comp_channel : Ptr} {cqe : Nat} {cq : Handle}
    {armed created accepted : Bool} {qp_attr : IbvQpInitAttr} (hnull : pd = none ∨ comp_channel = none)
    (hfront : opening device pd comp_channel cqe cq armed created cm_id qp_attr accepted <+: made) :
    P ∧ NothingNull made ↔ Harmless cm_id w made := by
  rcases hnull with rfl | rfl
  · have hfailed : (Call.ibv_alloc_pd device, false) ∈ made := hfront.subset (by simp [opening])
    have hgiven : (Call.rdma_create_qp cm_id none qp_attr, accepted) ∈ made := hfront.subset (by simp [opening])
    exact spoilt ⟨rfl, rfl⟩ hfailed hgiven rfl
  · have hfailed : (Call.ibv_create_comp_channel device, false) ∈ made := hfront.subset (by simp [opening])
    have hgiven : (Call.ibv_create_cq device cqe none, true) ∈ made := hfront.subset (by simp [opening])
    exact spoilt ⟨rfl, rfl⟩ hfailed hgiven rfl

/-- The calls of `register_message_memory`. -/
def registration (pd : Handle) (meta_send meta_recv meta_send_mr meta_recv_mr : Ptr) : List (Call × Bool) :=
  [(.malloc sizeof_meta_message, meta_send.isSome), (.malloc sizeof_meta_message, meta_recv.isSome),
    (.ibv_reg_mr pd meta_send sizeof_meta_message false, meta_send_mr.isSome),
    (.ibv_reg_mr pd meta_recv sizeof_meta_message true, meta_recv_mr.isSome)]

theorem spoilt_registration {P : Prop} {pd : Handle} {meta_send meta_recv meta_send_mr meta_recv_mr : Ptr}
    (hnull : meta_send = none ∨ meta_recv = none)
    (hsub : registration pd meta_send meta_recv meta_send_mr meta_recv_mr ⊆ made) :
    P ∧ NothingNull made ↔ Harmless cm_id w made := by
  have hfailed : (Call.malloc sizeof_meta_message, false) ∈ made := by
    apply hsub
    rcases hnull with rfl | rfl
    · simp [registration]
    · simp [registration]
  rcases hnull with rfl | rfl
  · have hgiven : (Call.ibv_reg_mr pd none sizeof_meta_message false, meta_send_mr.isSome) ∈ made :=
      hsub (by simp [registration])
    exact spoilt ⟨rfl, rfl⟩ hfailed hgiven rfl
  · have hgiven : (Call.ibv_reg_mr pd none sizeof_meta_message true, meta_recv_mr.isSome) ∈ made :=
      hsub (by simp [registration])
    exact spoilt ⟨rfl, rfl⟩ hfailed hgiven rfl

/-- Where the queue pair was created for the stored id, nothing may fail. -/
theorem harmless_iff_all (hcm : w.conn.conn_ctx.cm_id = .set cm_id)
    (htested : ∀ call ∈ made, call.1.tested = true → call.2 = true) :
    Harmless cm_id w made ↔ ∀ call ∈ made, call.2 = true := by
  constructor
  · rintro h ⟨c, ok⟩ hmem
    cases ok with
    | true => rfl
    | false =>
      rcases h c hmem with hc | ⟨-, ⟨c', hc', hmem'⟩ | hne⟩
      · exact htested _ hmem hc
      · have hfalse := htested _ hmem' hc'
        cases hfalse
      · exact absurd hcm hne
  · intro h c hmem
    have hfalse := h _ hmem
    cases hfalse

theorem Call.IsPostRecv.exists_eq {c : Call} (h : c.IsPostRecv) : ∃ qp wr, c = .ibv_post_recv qp wr := by
  cases c with
  | ibv_post_recv qp wr => exact ⟨qp, wr, rfl⟩
  | _ => exact h.elim

theorem Call.IsPostRecv.concern {c : Call} (h : c.IsPostRecv) : c.concern = .receiving := by
  obtain ⟨qp, wr, rfl⟩ := h.exists_eq
  rfl

theorem Call.IsPostRecv.tested {c : Call} (h : c.IsPostRecv) : c.tested = false := by
  obtain ⟨qp, wr, rfl⟩ := h.exists_eq
  rfl

theorem Call.IsPostRecv.given_null {c : Call} (h : c.IsPostRecv) : c.given_null = false := by
  obtain ⟨qp, wr, rfl⟩ := h.exists_eq
  rfl

section Finished

variable {device : Device} {pd comp_channel meta_send meta_recv : Handle} {cqe : Nat} {cq : Handle}
  {armed created : Bool} {qp_attr : IbvQpInitAttr} {meta_send_mr meta_recv_mr : Ptr} {posts : List (Call × Bool)}

/-- The calls of a run that comes to its end with the queue pair and both
messages. -/
def finished (device : Device) (pd comp_channel : Handle) (cqe : Nat) (cq : Handle) (armed created : Bool)
    (cm_id : CmId) (qp_attr : IbvQpInitAttr) (meta_send meta_recv : Handle) (meta_send_mr meta_recv_mr : Ptr)
    (posts : List (Call × Bool)) : List (Call × Bool) :=
  opening device (some pd) (some comp_channel) cqe cq armed created cm_id qp_attr true ++
    (registration pd (some meta_send) (some meta_recv) meta_send_mr meta_recv_mr ++ posts)

theorem finished_nothingNull (hposts : ∀ call ∈ posts, call.1.IsPostRecv) (hsend : qp_attr.send_cq = some cq)
    (hrecv : qp_attr.recv_cq = some cq) :
    NothingNull (finished device pd comp_channel cqe cq armed created cm_id qp_attr meta_send meta_recv meta_send_mr
      meta_recv_mr posts) := by
  have hregistration : NothingNull (registration pd (some meta_send) (some meta_recv) meta_send_mr meta_recv_mr) := by
    simp [NothingNull, registration, Call.given_null]
  intro call hmem
  rcases List.mem_append.mp hmem with hmem | hmem
  · exact opening_nothingNull hsend hrecv call hmem
  · rcases List.mem_append.mp hmem with hmem | hmem
    · exact hregistration call hmem
    · exact (hposts call hmem).given_null

theorem finished_harmless_iff (hcm : w.conn.conn_ctx.cm_id = .set cm_id)
    (hposts : ∀ call ∈ posts, call.1.IsPostRecv) :
    Harmless cm_id w (finished device pd comp_channel cqe cq armed created cm_id qp_attr meta_send meta_recv
      meta_send_mr meta_recv_mr posts) ↔
      (armed = true ∧ created = true) ∧ (meta_send_mr.isSome = true ∧ meta_recv_mr.isSome = true) ∧
        ∀ call ∈ posts, call.2 = true := by
  rw [harmless_iff_all hcm]
  · rw [finished, List.forall_mem_append, List.forall_mem_append]
    simp [opening, registration]
  · have hposts : ∀ call ∈ posts, call.1.tested = true → call.2 = true := by
      intro call hmem htested
      rw [(hposts call hmem).tested] at htested
      cases htested
    rw [finished, List.forall_mem_append, List.forall_mem_append]
    exact ⟨by simp [opening, Call.tested], by simp [registration, Call.tested], hposts⟩

theorem finished_receives_iff {n : Nat} (hposts : ∀ call ∈ posts, call.1.IsPostRecv) (hlength : posts.length = n) :
    ((finished device pd comp_channel cqe cq armed created cm_id qp_attr meta_send meta_recv meta_send_mr
      meta_recv_mr posts).filterMap fun made => if made.1.concern = .receiving then some made.2 else none) =
        List.replicate n true ↔ ∀ call ∈ posts, call.2 = true := by
  have hmap : (posts.filterMap fun made => if made.1.concern = .receiving then some made.2 else none) =
      posts.map Prod.snd := by
    rw [← List.filterMap_eq_map]
    apply List.filterMap_congr
    intro call hmem
    rw [if_pos (hposts call hmem).concern]
    rfl
  rw [finished, List.filterMap_append, List.filterMap_append, hmap]
  simp [opening, registration, Call.concern, List.eq_replicate_iff, hlength]

/-- The completion queue is armed, and the thread created, by one of the first
six calls. -/
theorem mem_opening {call : Call × Bool} (hposts : ∀ call ∈ posts, call.1.IsPostRecv) (hpost : ¬ call.1.IsPostRecv)
    (hregistration : call ∉ registration pd (some meta_send) (some meta_recv) meta_send_mr meta_recv_mr)
    (hmem : call ∈ finished device pd comp_channel cqe cq armed created cm_id qp_attr meta_send meta_recv meta_send_mr
      meta_recv_mr posts) :
    call ∈ opening device (some pd) (some comp_channel) cqe cq armed created cm_id qp_attr true := by
  rcases List.mem_append.mp hmem with hmem | hmem
  · exact hmem
  · rcases List.mem_append.mp hmem with hmem | hmem
    · exact absurd hmem hregistration
    · exact absurd (hposts call hmem) hpost

theorem finished_armed {c : Handle} (hposts : ∀ call ∈ posts, call.1.IsPostRecv)
    (hmem : (.ibv_req_notify_cq c, true) ∈ finished device pd comp_channel cqe cq armed created cm_id qp_attr meta_send
      meta_recv meta_send_mr meta_recv_mr posts) : armed = true := by
  have hopening := mem_opening hposts (by simp [Call.IsPostRecv]) (by simp [registration]) hmem
  simp only [opening, List.mem_cons, Prod.mk.injEq, reduceCtorEq, false_and, false_or, or_false,
    List.not_mem_nil] at hopening
  exact hopening.2.symm

theorem finished_poller (hposts : ∀ call ∈ posts, call.1.IsPostRecv)
    (hmem : (.pthread_create, true) ∈ finished device pd comp_channel cqe cq armed created cm_id qp_attr meta_send
      meta_recv meta_send_mr meta_recv_mr posts) : created = true := by
  have hopening := mem_opening hposts (by simp [Call.IsPostRecv]) (by simp [registration]) hmem
  simp only [opening, List.mem_cons, Prod.mk.injEq, reduceCtorEq, false_and, false_or, or_false, true_and,
    List.not_mem_nil] at hopening
  exact hopening.symm

/-- Where a run has come to its end, what it has built is complete exactly when
all its calls have succeeded. -/
theorem completelyBuilt_iff {qp : Handle} {w₁ : World} (hpd : w₁.conn.conn_ctx.pd = .set (some pd))
    (hchannel : w₁.conn.conn_ctx.comp_channel = .set (some comp_channel)) (hcq : w₁.conn.conn_ctx.cq = .set (some cq))
    (hctx : w'.conn.conn_ctx = { w₁.conn.conn_ctx with
      qp := .set (some qp)
      meta_send := .set (some meta_send)
      meta_recv := .set (some meta_recv)
      meta_send_mr := .set meta_send_mr
      meta_recv_mr := .set meta_recv_mr })
    (hmade : answered (w'.since w) = finished device pd comp_channel cqe cq armed created cm_id qp_attr meta_send
      meta_recv meta_send_mr meta_recv_mr posts)
    (hposts : ∀ call ∈ posts, call.1.IsPostRecv) (hnumber : posts.length = w.conn.conn_params.wr_cq_number) :
    CompletelyBuilt w w' ↔ (armed = true ∧ created = true) ∧
      (meta_send_mr.isSome = true ∧ meta_recv_mr.isSome = true) ∧ ∀ call ∈ posts, call.2 = true := by
  constructor
  · intro hbuilt
    obtain ⟨_, hsend_mr⟩ := hbuilt.meta_send_mr
    obtain ⟨_, hrecv_mr⟩ := hbuilt.meta_recv_mr
    obtain ⟨_, -, harmed⟩ := hbuilt.armed
    have hpoller := hbuilt.poller
    have hposted := hbuilt.receives
    rw [hctx] at hsend_mr hrecv_mr
    rw [hmade] at harmed hpoller
    rw [outcomes_eq_filterMap, hmade, finished_receives_iff hposts hnumber] at hposted
    cases hsend_mr
    cases hrecv_mr
    exact ⟨⟨finished_armed hposts harmed, finished_poller hposts hpoller⟩, ⟨rfl, rfl⟩, hposted⟩
  · rintro ⟨⟨rfl, rfl⟩, ⟨hsend_mr, hrecv_mr⟩, hposted⟩
    obtain ⟨meta_send_mr, rfl⟩ := Option.isSome_iff_exists.mp hsend_mr
    obtain ⟨meta_recv_mr, rfl⟩ := Option.isSome_iff_exists.mp hrecv_mr
    exact
      { pd := ⟨pd, by rw [hctx, ← hpd]⟩
        comp_channel := ⟨comp_channel, by rw [hctx, ← hchannel]⟩
        cq := ⟨cq, by rw [hctx, ← hcq]⟩
        qp := ⟨qp, by rw [hctx]⟩
        meta_send := ⟨meta_send, by rw [hctx]⟩
        meta_recv := ⟨meta_recv, by rw [hctx]⟩
        meta_send_mr := ⟨meta_send_mr, by rw [hctx]⟩
        meta_recv_mr := ⟨meta_recv_mr, by rw [hctx]⟩
        poller := by rw [hmade]; simp [finished, opening]
        armed := ⟨cq, by rw [hctx, ← hcq], by rw [hmade]; simp [finished, opening]⟩
        receives := by
          rw [outcomes_eq_filterMap, hmade]
          exact (finished_receives_iff hposts hnumber).mpr hposted }

end Finished

/-- The members that the first six calls leave when none of the first three has
failed and the queue pair was created. -/
structure Prepared (device : Device) (pd comp_channel : Handle) (cqe : Nat) (cq : Handle) (armed created : Bool)
    (cm_id : CmId) (qp_attr : IbvQpInitAttr) (qp : Handle) (w w' : World) : Prop where
  stretch : ∃ f, Stretch (opening device (some pd) (some comp_channel) cqe cq armed created cm_id qp_attr true) f w w'
  send_cq : qp_attr.send_cq = some cq
  recv_cq : qp_attr.recv_cq = some cq
  stored : w'.conn.conn_ctx.cm_id = w.conn.conn_ctx.cm_id
  pd : w'.conn.conn_ctx.pd = .set (some pd)
  comp_channel : w'.conn.conn_ctx.comp_channel = .set (some comp_channel)
  cq : w'.conn.conn_ctx.cq = .set (some cq)
  qp : (w'.ids cm_id).qp = some qp

/-- Once both messages are registered, only the receives are missing. -/
theorem wp_post_meta_recv_wrs_harmless {device : Device} {pd comp_channel : Handle} {cqe : Nat} {cq : Handle}
    {armed created : Bool} {qp_attr : IbvQpInitAttr} {qp meta_send meta_recv : Handle} {meta_send_mr meta_recv_mr : Ptr}
    {w₁ w₃ : World} (h : Prepared device pd comp_channel cqe cq armed created cm_id qp_attr qp w w₁)
    (hid : w.conn.conn_ctx.cm_id = .set cm_id)
    (hregistered : Stretch (registration pd (some meta_send) (some meta_recv) meta_send_mr meta_recv_mr)
      (fun ctx => { ctx with
        qp := .set (some qp)
        meta_send := .set (some meta_send)
        meta_recv := .set (some meta_recv)
        meta_send_mr := .set meta_send_mr
        meta_recv_mr := .set meta_recv_mr }) w₁ w₃) :
    wp (post_meta_recv_wrs env w₃.conn.conn_params.wr_cq_number)
      (fun _ w' => CompletelyBuilt w w' ∧ NothingNull (answered (w'.since w)) ↔
        Harmless cm_id w (answered (w'.since w)))
      (fun halt w' => halt ≠ .null_pointer ∧ NothingNull (answered (w'.since w)) ↔
        Harmless cm_id w (answered (w'.since w))) w₃ := by
  obtain ⟨⟨f, hopening⟩, hsend, hrecv, -, hpd, hchannel, hcq, -⟩ := h
  have hcalls := hopening.trans hregistered
  apply wp_mono (wp_post_meta_recv_wrs_stretch _ (by rw [hregistered.ctx]) (by rw [hregistered.ctx])
    (by rw [hregistered.ctx]))
  · rintro _ w₄ ⟨posts, hlength, hposts, hreceives⟩
    have hctx : w₄.conn.conn_ctx = { w₁.conn.conn_ctx with
        qp := .set (some qp)
        meta_send := .set (some meta_send)
        meta_recv := .set (some meta_recv)
        meta_send_mr := .set meta_send_mr
        meta_recv_mr := .set meta_recv_mr } := by
      rw [hreceives.ctx, hregistered.ctx]
      rfl
    have hmade : answered (w₄.since w) = finished device pd comp_channel cqe cq armed created cm_id qp_attr
        meta_send meta_recv meta_send_mr meta_recv_mr posts := by
      rw [(hcalls.trans hreceives).answered_since, finished, List.append_assoc]
    have hnumber : posts.length = w.conn.conn_params.wr_cq_number := hlength.trans hcalls.wr_cq_number
    have hbuilt : CompletelyBuilt w w₄ ↔ (armed = true ∧ created = true) ∧
        (meta_send_mr.isSome = true ∧ meta_recv_mr.isSome = true) ∧ ∀ call ∈ posts, call.2 = true :=
      completelyBuilt_iff hpd hchannel hcq hctx hmade hposts hnumber
    rw [hmade, finished_harmless_iff hid hposts, ← hbuilt]
    exact and_iff_left (finished_nothingNull hposts hsend hrecv)
  · rintro halt w₄ ⟨rfl, hnone, rfl⟩
    subst hnone
    rw [hcalls.answered_since]
    apply iff_of_false (fun hP => hP.1 rfl)
    exact not_harmless (c := .ibv_reg_mr pd (some meta_recv) sizeof_meta_message true) ⟨rfl, rfl⟩
      (by simp [registration])

/-- From there on the law holds at each end exactly when nothing harmful has
failed. -/
theorem wp_build_meta_harmless {device : Device} {pd comp_channel : Handle} {cqe : Nat} {cq : Handle}
    {armed created : Bool} {qp_attr : IbvQpInitAttr} {qp : Handle} {w₁ : World}
    (h : Prepared device pd comp_channel cqe cq armed created cm_id qp_attr qp w w₁) :
    wp (build_meta env cm_id)
      (fun _ w' => CompletelyBuilt w w' ∧ NothingNull (answered (w'.since w)) ↔
        Harmless cm_id w (answered (w'.since w)))
      (fun halt w' => halt ≠ .null_pointer ∧ NothingNull (answered (w'.since w)) ↔
        Harmless cm_id w (answered (w'.since w))) w₁ := by
  obtain ⟨f, hopening⟩ := h.stretch
  apply wp_bind_of (wp_attach_stretch h.qp)
  · rintro _ w₂ ⟨hid, hattach⟩
    rw [h.stored] at hid
    have hpd : w₂.conn.conn_ctx.pd = .set (some pd) := by rw [hattach.ctx, h.pd]
    apply wp_bind_of (wp_register_message_memory_stretch hpd) _ (fun _ _ h => h.elim)
    rintro _ w₃ ⟨meta_send, meta_recv, meta_send_mr, meta_recv_mr, hmemory⟩
    have hregistered := hattach.trans hmemory
    rw [wp_bind, wp_get]
    by_cases hnull : meta_send = none ∨ meta_recv = none
    · have hspoilt : ∀ (P : Prop) (w₄ : World), w₃.log <+: w₄.log →
          (P ∧ NothingNull (answered (w₄.since w)) ↔ Harmless cm_id w (answered (w₄.since w))) := by
        intro P w₄ hgrows
        have hcalls := hopening.trans hregistered
        apply spoilt_registration hnull
        exact fun call hcall => (hcalls.isPrefix_answered hgrows).subset (List.mem_append_right _ hcall)
      apply wp_mono (post_meta_recv_wrs_leaves _ w₃)
      · exact fun _ w₄ hfoot => hspoilt _ w₄ hfoot.log.isPrefix
      · exact fun _ w₄ hfoot => hspoilt _ w₄ hfoot.2.log.isPrefix
    · obtain ⟨hsome, hsome'⟩ := not_or.mp hnull
      obtain ⟨meta_send, rfl⟩ := Option.ne_none_iff_exists'.mp hsome
      obtain ⟨meta_recv, rfl⟩ := Option.ne_none_iff_exists'.mp hsome'
      exact wp_post_meta_recv_wrs_harmless h hid hregistered
  · rintro halt w₂ ⟨hhalt, hne, hlog⟩
    rw [h.stored] at hne
    have hmade : answered (w₂.since w) =
        opening device (some pd) (some comp_channel) cqe cq armed created cm_id qp_attr true := by
      rw [World.since, hlog]
      exact hopening.answered_since
    rw [hmade]
    exact iff_of_true ⟨hhalt, opening_nothingNull h.send_cq h.recv_cq⟩ (opening_harmless_of_other hne)

/-- What follows the request for the queue pair, as a protection domain or a
completion channel is missing or not. -/
theorem wp_after_opening_harmless {device : Device} {pd comp_channel : Ptr} {cqe : Nat} {cq : Handle}
    {armed created accepted : Bool} {qp_attr : IbvQpInitAttr} {f : ConnContext → ConnContext} {w₁ : World}
    (hopening : Stretch (opening device pd comp_channel cqe cq armed created cm_id qp_attr accepted) f w w₁)
    (hsend : qp_attr.send_cq = some cq) (hrecv : qp_attr.recv_cq = some cq)
    (hstored : w₁.conn.conn_ctx.cm_id = w.conn.conn_ctx.cm_id) (hpd : w₁.conn.conn_ctx.pd = .set pd)
    (hchannel : w₁.conn.conn_ctx.comp_channel = .set comp_channel) (hcq : w₁.conn.conn_ctx.cq = .set (some cq))
    (hqp : accepted = true → ∃ qp, (w₁.ids cm_id).qp = some qp) :
    wp (do
        if !accepted then return Status.FAILURE
        build_meta env cm_id
        return Status.SUCCESS)
      (fun ret w' => (ret = .SUCCESS → CompletelyBuilt w w') ∧ NothingNull (answered (w'.since w)) ↔
        Harmless cm_id w (answered (w'.since w)))
      (fun halt w' => halt ≠ .null_pointer ∧ NothingNull (answered (w'.since w)) ↔
        Harmless cm_id w (answered (w'.since w))) w₁ := by
  by_cases hnull : pd = none ∨ comp_channel = none
  · have hspoilt : ∀ (P : Prop) (w₂ : World), w₁.log <+: w₂.log →
        (P ∧ NothingNull (answered (w₂.since w)) ↔ Harmless cm_id w (answered (w₂.since w))) :=
      fun P w₂ hgrows => spoilt_opening hnull (hopening.isPrefix_answered hgrows)
    cases accepted with
    | false => exact hspoilt _ w₁ (List.prefix_refl _)
    | true =>
      apply wp_bind_of (build_meta_leaves cm_id w₁)
      · exact fun _ w₂ hfoot => hspoilt _ w₂ hfoot.log.isPrefix
      · exact fun _ w₂ hfoot => hspoilt _ w₂ hfoot.2.log.isPrefix
  · obtain ⟨hsome, hsome'⟩ := not_or.mp hnull
    obtain ⟨pd, rfl⟩ := Option.ne_none_iff_exists'.mp hsome
    obtain ⟨comp_channel, rfl⟩ := Option.ne_none_iff_exists'.mp hsome'
    cases accepted with
    | false =>
      show (_ ∧ NothingNull (answered (w₁.since w)) ↔ _)
      rw [hopening.answered_since]
      exact iff_of_true ⟨by simp, opening_nothingNull hsend hrecv⟩ opening_harmless_of_refused
    | true =>
      obtain ⟨qp, hqp⟩ := hqp rfl
      have hprepared : Prepared device pd comp_channel cqe cq armed created cm_id qp_attr qp w w₁ :=
        ⟨⟨f, hopening⟩, hsend, hrecv, hstored, hpd, hchannel, hcq, hqp⟩
      apply wp_bind_of (wp_build_meta_harmless hprepared) _ (fun _ _ h => h)
      intro _ w₂ hiff
      show ((Status.SUCCESS = .SUCCESS → _) ∧ _ ↔ _)
      rw [imp_iff_right rfl]
      exact hiff

theorem wp_build_parts_harmless (env : Env) (cm_id : CmId) (w : World) :
    wp (build_parts env cm_id)
      (fun ret w' => (ret = .SUCCESS → CompletelyBuilt w w') ∧ NothingNull (answered (w'.since w)) ↔
        Harmless cm_id w (answered (w'.since w)))
      (fun halt w' => halt ≠ .null_pointer ∧ NothingNull (answered (w'.since w)) ↔
        Harmless cm_id w (answered (w'.since w))) w := by
  have hnone : answered (w.since w) = [] := (Stretch.refl w).answered_since
  unfold build_parts
  rw [wp_bind]
  apply wp_build_context_stretch
  · intro _
    show (_ ∧ NothingNull (answered (w.since w)) ↔ _)
    rw [hnone]
    exact iff_of_true ⟨by simp, nothingNull_nil⟩ harmless_nil
  · intro w₁ _ hcontext
    have hdevice : w₁.conn.conn_ctx.context = .set (some (env.verbs cm_id)) := by rw [hcontext.ctx]
    apply wp_bind_of (wp_build_domain_stretch hdevice) _ (fun _ _ h => h.elim)
    rintro _ w₂ ⟨pd, comp_channel, hdomain⟩
    have hdomain := hcontext.trans hdomain
    have hdevice : w₂.conn.conn_ctx.context = .set (some (env.verbs cm_id)) := by rw [hdomain.ctx]; rfl
    have hchannel : w₂.conn.conn_ctx.comp_channel = .set comp_channel := by rw [hdomain.ctx]; rfl
    apply wp_bind_of (wp_build_completion_queue_stretch hdevice hchannel)
    · rintro _ w₃ ⟨cqe, cq, armed, hqueue⟩
      apply wp_bind_of wp_build_poller_stretch _ (fun _ _ h => h.elim)
      rintro _ w₄ ⟨created, thread, hpoller⟩
      have hpoller := (hdomain.trans hqueue).trans hpoller
      have hpd : w₄.conn.conn_ctx.pd = .set pd := by rw [hpoller.ctx]; rfl
      have hcq : w₄.conn.conn_ctx.cq = .set (some cq) := by rw [hpoller.ctx]; rfl
      apply wp_bind_of (wp_build_queue_pair_stretch hpd hcq) _ (fun _ _ h => h.elim)
      rintro accepted w₅ ⟨qp_attr, hsend, hrecv, hcreate, hqp⟩
      have hopening := hpoller.trans hcreate
      exact wp_after_opening_harmless hopening hsend hrecv (by rw [hopening.ctx]; rfl) (by rw [hopening.ctx]; rfl)
        (by rw [hopening.ctx]; rfl) (by rw [hopening.ctx]; rfl) hqp
    · rintro halt w₃ ⟨rfl, cqe, f, hqueue⟩
      rw [(hdomain.trans hqueue).answered_since]
      apply iff_of_false (fun hP => hP.1 rfl)
      exact not_harmless (c := .ibv_create_cq (env.verbs cm_id) cqe comp_channel) ⟨rfl, rfl⟩ (by simp)
  · intro _
    show (_ ∧ NothingNull (answered (w.since w)) ↔ _)
    rw [hnone]
    exact iff_of_true ⟨by simp, nothingNull_nil⟩ harmless_nil

/-- The entry for the result of `build_connection` is not a call. -/
theorem answered_since_returned (cm_id : CmId) (ret : Status) (hgrows : w.log <+: w'.log) :
    answered ((w'.record (.build_connection_returned cm_id ret)).since w) = answered (w'.since w) := by
  obtain ⟨added, hadded⟩ := hgrows
  rw [World.since, World.since, World.record_log, ← hadded, List.append_assoc, List.drop_left, List.drop_left,
    answered_append]
  exact List.append_nil _

theorem completelyBuilt_returned_iff (ret : Status) (hgrows : w.log <+: w'.log) :
    CompletelyBuilt w (w'.record (.build_connection_returned cm_id ret)) ↔ CompletelyBuilt w w' := by
  have hsame := answered_since_returned cm_id ret hgrows
  constructor
  · rintro ⟨hpd, hchannel, hcq, hqp, hsend, hrecv, hsend_mr, hrecv_mr, hpoller, harmed, hreceives⟩
    rw [hsame] at hpoller harmed
    rw [outcomes_eq_filterMap, hsame, ← outcomes_eq_filterMap] at hreceives
    exact ⟨hpd, hchannel, hcq, hqp, hsend, hrecv, hsend_mr, hrecv_mr, hpoller, harmed, hreceives⟩
  · rintro ⟨hpd, hchannel, hcq, hqp, hsend, hrecv, hsend_mr, hrecv_mr, hpoller, harmed, hreceives⟩
    rw [← hsame] at hpoller harmed
    rw [outcomes_eq_filterMap, ← hsame, ← outcomes_eq_filterMap] at hreceives
    exact ⟨hpd, hchannel, hcq, hqp, hsend, hrecv, hsend_mr, hrecv_mr, hpoller, harmed, hreceives⟩

/-- The law holds of a call of `build_connection` exactly when what fails in it
does no harm. -/
theorem buildsCompletely_iff (env : Env) (cm_id : CmId) (w : World) :
    BuildsCompletely env cm_id w ↔
      Harmless cm_id w (answered (((build_connection env cm_id).final w).since w)) := by
  apply wp_iff_final (C := fun w' : World => Harmless cm_id w (answered (w'.since w)))
  apply wp_bind_of (wp_and (wp_build_parts_harmless env cm_id w) (build_parts_leaves cm_id w)) _ (fun _ _ h => h.1)
  rintro ret last ⟨hiff, hfoot⟩
  rw [wp_bind, wp_record, wp_pure, answered_since_returned cm_id ret hfoot.log.isPrefix,
    completelyBuilt_returned_iff ret hfoot.log.isPrefix]
  exact hiff

/-- Every call succeeds but `ibv_alloc_pd`. -/
def noDomainEnv : Env :=
  { workingEnv with
    succeeds := fun _ c =>
      match c with
      | .ibv_alloc_pd _ => false
      | _ => true }

/-- The null protection domain is given to `rdma_create_qp` and then to
`ibv_reg_mr`. -/
theorem not_buildsCompletely_of_no_domain : ¬ BuildsCompletely noDomainEnv 2 requestedWorld := by
  intro h
  have hhalts : ((build_connection noDomainEnv 2).halts requestedWorld fun halt _ =>
      decide (halt = .null_pointer)) = true := by
    decide +kernel
  obtain ⟨halt, w', hbuild, hhalt⟩ := Program.exists_of_halts hhalts
  exact (wp_error h hbuild).1 (of_decide_eq_true hhalt)

end tc_rdma.rdma_com
