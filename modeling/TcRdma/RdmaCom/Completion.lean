import TcRdma.RdmaCom.PollCq

open tc_rdma.machine

namespace tc_rdma.rdma_com

variable {s next last : Polling} {acts : List PollAct}

/-- The completion that was polled and not handed on yet. -/
def PollPc.in_hand : PollPc → List IbvWc
  | .on_completion wc => [wc]
  | _ => []

/-- What the position of the thread needs of the queue: before the thread
waits, an empty armed queue or a pending event; from arming on, that the next
completion is reported. -/
def PollPc.Safe (cq : Notifier IbvWc) : PollPc → Prop
  | .ibv_get_cq_event => cq.Ready
  | .ibv_ack_cq_events => True
  | .ibv_req_notify_cq => True
  | .ibv_poll_cq => cq.Watched
  | .on_completion _ => cq.Watched

/-- Every completion has been handed on, is in hand or is in the queue, in the
order of arrival and with the object that posted its work request. -/
structure Delivering (s : Polling) : Prop where
  no_fault : s.fault = none
  safe : s.pc.Safe s.cq
  order : s.arrived = s.completed ++ (s.pc.in_hand ++ s.cq.queue).map fun wc => (wc.wr_id, wc)

theorem delivering_built : Delivering .built where
  no_fault := rfl
  safe := Notifier.ready_empty_arm
  order := rfl

/-- A completion may arrive wherever the thread is. -/
theorem PollPc.Safe.add {cq : Notifier IbvWc} {pc : PollPc} (h : pc.Safe cq) (wc : IbvWc) : pc.Safe (cq.add wc) := by
  cases pc with
  | ibv_get_cq_event => exact Notifier.Ready.add h wc
  | ibv_ack_cq_events => trivial
  | ibv_req_notify_cq => trivial
  | ibv_poll_cq => exact Notifier.Watched.add h wc
  | on_completion => exact Notifier.Watched.add h wc

theorem Delivering.step (h : Delivering s) {act : PollAct} (hok : act.Succeeds)
    (hstep : s.step act = some next) : Delivering next := by
  obtain ⟨hfault, hmove⟩ := Polling.step_move hok hstep
  have hsafe := h.safe
  have horder := h.order
  cases hmove with
  | post => exact ⟨hfault, hsafe, horder⟩
  | complete i this posting status opcode hposted =>
    refine ⟨hfault, hsafe.add _, ?_⟩
    dsimp only
    rw [horder, Notifier.add_queue, posting.wr_id_eq]
    simp
  | get_cq_event hpc hevent =>
    rw [hpc] at horder
    exact ⟨hfault, trivial, horder⟩
  | ack_cq_events hpc =>
    rw [hpc] at horder
    exact ⟨hfault, trivial, horder⟩
  | req_notify_cq hpc =>
    rw [hpc] at horder
    exact ⟨hfault, s.cq.watched_arm, horder⟩
  | drained hpc hempty =>
    rw [hpc] at hsafe horder
    exact ⟨hfault, Notifier.Watched.ready hsafe hempty, horder⟩
  | polled hpc wc cq hpoll =>
    rw [hpc] at hsafe horder
    refine ⟨hfault, Notifier.Watched.poll hsafe hpoll, ?_⟩
    rw [(Notifier.poll_eq_some hpoll).1] at horder
    exact horder
  | on_completion wc hpc =>
    rw [hpc] at hsafe horder
    refine ⟨hfault, hsafe, ?_⟩
    rw [horder]
    simp [PollPc.in_hand]

theorem delivering_of_run (hok : ∀ act ∈ acts, act.Succeeds)
    (hrun : run Polling.step .built acts = some s) : Delivering s :=
  run_invariant_of (fun _ _ _ hact hs hstep => hs.step hact hstep) hok delivering_built hrun

/-- Nothing is taken back: a step only adds arrivals and calls. -/
theorem Polling.step_grows {act : PollAct} (hok : act.Succeeds) (hstep : s.step act = some next) :
    s.arrived <+: next.arrived ∧ s.completed <+: next.completed := by
  obtain ⟨_, hmove⟩ := Polling.step_move hok hstep
  cases hmove with
  | complete => exact ⟨List.prefix_append _ _, List.prefix_rfl⟩
  | on_completion => exact ⟨List.prefix_rfl, List.prefix_append _ _⟩
  | _ => exact ⟨List.prefix_rfl, List.prefix_rfl⟩

theorem Polling.run_grows (hok : ∀ act ∈ acts, act.Succeeds) (hrun : run Polling.step s acts = some last) :
    s.arrived <+: last.arrived ∧ s.completed <+: last.completed := by
  refine run_related_of (P := PollAct.Succeeds) (I := fun _ => True)
    (R := fun a b => a.arrived <+: b.arrived ∧ a.completed <+: b.completed) ?_ ?_ ?_ ?_ hok trivial hrun
  · exact fun _ => ⟨List.prefix_rfl, List.prefix_rfl⟩
  · rintro a b c ⟨harrived, hcompleted⟩ ⟨harrived', hcompleted'⟩
    exact ⟨harrived.trans harrived', hcompleted.trans hcompleted'⟩
  · exact fun _ _ _ _ _ _ => trivial
  · exact fun _ _ _ hact _ hstep => Polling.step_grows hact hstep

/-- The thread waits for an event and none is pending. -/
def Polling.Blocked (s : Polling) : Prop := s.pc = .ibv_get_cq_event ∧ s.cq.events = 0

theorem Delivering.of_blocked (h : Delivering s) (hblocked : s.Blocked) :
    s.cq.queue = [] ∧ s.cq.armed = true ∧ s.completed = s.arrived := by
  obtain ⟨hpc, hevents⟩ := hblocked
  have hsafe := h.safe
  have horder := h.order
  rw [hpc] at hsafe horder
  obtain ⟨hempty, harmed⟩ := hsafe hevents
  refine ⟨hempty, harmed, ?_⟩
  rw [hempty] at horder
  simpa [PollPc.in_hand] using horder.symm

/-- The thread can move unless it is blocked. -/
theorem Polling.poll_cq_enabled (hfault : s.fault = none) (hmoves : ¬ s.Blocked) :
    ∃ next, s.step (.poll_cq true) = some next := by
  unfold Polling.step
  rw [hfault]
  show ∃ next, s.poll_cq true = some next
  unfold Polling.poll_cq
  split
  · rename_i hpc
    have hevents : ¬ s.cq.events = 0 := fun hzero => hmoves ⟨hpc, hzero⟩
    exact ⟨_, by rw [if_pos rfl, Notifier.take_event, if_neg hevents]; rfl⟩
  · exact ⟨_, rfl⟩
  · exact ⟨_, rfl⟩
  · rw [if_pos rfl]
    split <;> exact ⟨_, rfl⟩
  · exact ⟨_, rfl⟩

/-- The calls of the thread until it polls. -/
def PollPc.rank : PollPc → Nat
  | .on_completion _ => 0
  | .ibv_poll_cq => 1
  | .ibv_req_notify_cq => 2
  | .ibv_ack_cq_events => 3
  | .ibv_get_cq_event => 4

/-- The steps of the thread after which the first `n` completions have been
handed on. -/
def Polling.rank (n : Nat) (s : Polling) : Nat := s.pc.rank + 2 * (n - s.completed.length)

/-- Each step of the thread brings the first `n` arrivals closer, because the
queue is not found empty while one of them is missing. -/
theorem Delivering.rank_step (h : Delivering s) {n : Nat} (hn : n ≤ s.arrived.length) {act : PollAct}
    (hok : act.Succeeds) (hstep : s.step act = some next) :
    n ≤ next.completed.length ∨ next.rank n + (if act = .poll_cq true then 1 else 0) ≤ s.rank n := by
  obtain ⟨_, hmove⟩ := Polling.step_move hok hstep
  have horder := congrArg List.length h.order
  cases hmove with
  | post => exact .inr (by simp [Polling.rank])
  | complete => exact .inr (by simp [Polling.rank])
  | get_cq_event hpc => exact .inr (by simp only [Polling.rank, hpc, PollPc.rank, if_true]; omega)
  | ack_cq_events hpc => exact .inr (by simp only [Polling.rank, hpc, PollPc.rank, if_true]; omega)
  | req_notify_cq hpc => exact .inr (by simp only [Polling.rank, hpc, PollPc.rank, if_true]; omega)
  | drained hpc hempty =>
    left
    rw [hpc, hempty] at horder
    simp only [PollPc.in_hand, List.append_nil, List.map_nil] at horder
    dsimp only
    omega
  | polled hpc => exact .inr (by simp only [Polling.rank, hpc, PollPc.rank, if_true]; omega)
  | on_completion wc hpc =>
    by_cases hdone : n ≤ s.completed.length + 1
    · exact .inl (by simpa using hdone)
    · right
      simp only [Polling.rank, hpc, PollPc.rank, List.length_append, List.length_singleton, if_true]
      omega

/-- After enough steps of the thread, the first `n` arrivals have been handed
on, whatever arrives in between. -/
theorem Delivering.completes (h : Delivering s) {n : Nat} (hn : n ≤ s.arrived.length)
    (hok : ∀ act ∈ acts, act.Succeeds) (hrun : run Polling.step s acts = some last) :
    n ≤ last.completed.length ∨ last.rank n + acts.count (.poll_cq true) ≤ s.rank n := by
  rw [List.count]
  refine run_countP_le_or (P := PollAct.Succeeds) (I := fun s => Delivering s ∧ n ≤ s.arrived.length)
    (G := fun s => n ≤ s.completed.length) (r := Polling.rank n) ?_ ?_ ?_ hok ⟨h, hn⟩ hrun
  · rintro a act b hact ⟨ha, hle⟩ hab
    have hgrows := (Polling.step_grows hact hab).1.length_le
    exact ⟨ha.step hact hab, by omega⟩
  · rintro a act b hact ⟨ha, hle⟩ hgoal hab
    have hgrows := (Polling.step_grows hact hab).2.length_le
    omega
  · rintro a act b hact ⟨ha, hle⟩ hab
    simpa using ha.rank_step hle hact hab

/-- Completions may arrive at any moment. Whenever the thread of `poll_cq` is
blocked, the queue is empty and armed and every completion has been handed
on. The calls of `on_completion` are at all times the arrivals so far, each
once and in their order, up to some point, and each on the object that posted
the work request; and the thread reaches every arrival after a bounded number
of its steps, since it can move as long as one is missing. -/
theorem poll_cq_correct (hok : ∀ act ∈ acts, act.Succeeds)
    (hrun : run Polling.step .built acts = some s) :
    s.fault = none ∧
    (s.Blocked → s.cq.queue = [] ∧ s.cq.armed = true ∧ s.completed = s.arrived) ∧
    s.completed <+: s.arrived ∧
    (s.completed ≠ s.arrived → ∃ next, s.step (.poll_cq true) = some next) ∧
    ∀ more last, (∀ act ∈ more, act.Succeeds) → run Polling.step s more = some last →
      s.arrived <+: last.arrived ∧ s.completed <+: last.completed ∧
      (2 * (s.arrived.length - s.completed.length) + 4 < more.count (.poll_cq true) →
        s.arrived <+: last.completed) := by
  have h := delivering_of_run hok hrun
  have hdelivered : ∀ {t : Polling}, Delivering t → t.completed <+: t.arrived := by
    intro t ht
    rw [ht.order]
    exact List.prefix_append _ _
  refine ⟨h.no_fault, h.of_blocked, hdelivered h, ?_, ?_⟩
  · intro hmissing
    exact Polling.poll_cq_enabled h.no_fault fun hblocked => hmissing (h.of_blocked hblocked).2.2
  · intro more last hmore hlast
    obtain ⟨harrived, hcompleted⟩ := Polling.run_grows hmore hlast
    refine ⟨harrived, hcompleted, ?_⟩
    intro hsteps
    have hlastDelivering : Delivering last :=
      run_invariant_of (fun _ _ _ hact hs hstep => hs.step hact hstep) hmore h hlast
    have hrank : s.pc.rank ≤ 4 := by cases s.pc <;> simp [PollPc.rank]
    have hreached : s.arrived.length ≤ last.completed.length := by
      rcases h.completes (Nat.le_refl _) hmore hlast with hreached | hle
      · exact hreached
      · simp only [Polling.rank] at hle
        omega
    exact List.prefix_of_prefix_length_le harrived (hdelivered hlastDelivering) hreached

/-- A completion arrives before the first event is acknowledged, one between
arming and draining, and one right after the queue was found empty. -/
def lateArrivals : List PollAct :=
  [.post 64 (.post_meta_recv_wr 4096 7), .post 64 (.post_meta_recv_wr 4096 7), .post 64 (.post_meta_send_wr 8192 9),
    .complete 0 .IBV_WC_SUCCESS .IBV_WC_RECV, .poll_cq true, .complete 0 .IBV_WC_SUCCESS .IBV_WC_RECV,
    .poll_cq true, .poll_cq true, .poll_cq true, .poll_cq true, .poll_cq true, .poll_cq true, .poll_cq true,
    .complete 0 (.error 12) (.other 0), .poll_cq true, .poll_cq true, .poll_cq true, .poll_cq true, .poll_cq true,
    .poll_cq true]

theorem poll_cq_correct_late :
    ∃ s, run Polling.step .built lateArrivals = some s ∧ s.Blocked ∧ s.completed = s.arrived ∧
      s.completed.length = 3 := by
  have hends : ((run Polling.step .built lateArrivals).any
      fun s => decide (s.pc = .ibv_get_cq_event ∧ s.cq.events = 0 ∧ s.completed.length = 3)) = true := by decide
  obtain ⟨s, hrun, hdecided⟩ := (Option.any_eq_true _ _).mp hends
  obtain ⟨hpc, hevents, hlength⟩ := of_decide_eq_true hdecided
  have hok : ∀ act ∈ lateArrivals, act.Succeeds := by unfold PollAct.Succeeds; decide
  have hcorrect := poll_cq_correct hok hrun
  exact ⟨s, hrun, ⟨hpc, hevents⟩, (hcorrect.2.1 ⟨hpc, hevents⟩).2.2, hlength⟩

end tc_rdma.rdma_com
