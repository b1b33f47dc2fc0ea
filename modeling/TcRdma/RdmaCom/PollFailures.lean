import TcRdma.RdmaCom.Completion

open tc_rdma.machine

namespace tc_rdma.rdma_com

variable {s next last : Polling} {acts : List PollAct}

/-- A step of the thread whose verbs call fails, one case for each branch. The
steps without a failing call go on as ever. -/
inductive PollFailMove (s : Polling) : Polling → Prop where
  | stale_event (hpc : s.pc = .ibv_get_cq_event) (hev : s.ev_cq = true) :
      PollFailMove s { s with pc := .ibv_ack_cq_events }
  | indeterminate (hpc : s.pc = .ibv_get_cq_event) (hev : s.ev_cq = false) :
      PollFailMove s { s with fault := some .indeterminate_ev_cq }
  | assertion (line : Stream × String) (fault : PollFault) (hfault : fault ≠ .indeterminate_ev_cq) :
      PollFailMove s { s with printed := s.printed ++ [line], fault := some fault }
  | unaffected (next : Polling) (hpc : s.pc ≠ .ibv_get_cq_event) (hstep : s.step (.poll_cq true) = some next) :
      PollFailMove s next

theorem Polling.step_fail_move (hstep : s.step (.poll_cq false) = some next) :
    s.fault = none ∧ PollFailMove s next := by
  unfold Polling.step at hstep
  split at hstep
  · cases hstep
  · rename_i heq
    cases heq
  · rename_i heq
    cases heq
  · rename_i ok hfault heq
    cases heq
    refine ⟨hfault, ?_⟩
    unfold Polling.poll_cq at hstep
    split at hstep
    · rename_i hpc
      rw [if_neg Bool.false_ne_true] at hstep
      split at hstep
      · cases hstep
        exact .stale_event hpc ‹_›
      · cases hstep
        exact .indeterminate hpc ((Bool.not_eq_true _).mp ‹_›)
    · rename_i hpc
      cases hstep
      exact .unaffected _ (by simp [hpc]) (by simp [Polling.step, Polling.poll_cq, hfault, hpc])
    · cases hstep
      exact .assertion _ _ (by simp)
    · cases hstep
      exact .assertion _ _ (by simp)
    · rename_i wc hpc
      cases hstep
      exact .unaffected _ (by simp [hpc]) (by simp [Polling.step, Polling.poll_cq, hfault, hpc])

/-- `Delivering`, also after the thread has stopped at a fault. -/
structure Ordered (s : Polling) : Prop where
  safe : s.pc.Safe s.cq
  order : s.arrived = s.completed ++ (s.pc.in_hand ++ s.cq.queue).map fun wc => (wc.wr_id, wc)

theorem Ordered.delivering (h : Ordered s) (hfault : s.fault = none) : Delivering s :=
  { no_fault := hfault, safe := h.safe, order := h.order }

theorem Delivering.ordered (h : Delivering s) : Ordered s := { safe := h.safe, order := h.order }

/-- A thread that acknowledges a stale event arms the queue and drains it all
the same, so a failing wait leaves nothing behind. -/
theorem Ordered.step (h : Ordered s) {act : PollAct} (hstep : s.step act = some next) : Ordered next := by
  by_cases hok : act.Succeeds
  · have hfault := (Polling.step_move hok hstep).1
    exact ((h.delivering hfault).step hok hstep).ordered
  · have hact : act = .poll_cq false := not_not.mp hok
    subst hact
    obtain ⟨hfault, hmove⟩ := Polling.step_fail_move hstep
    have hsafe := h.safe
    have horder := h.order
    cases hmove with
    | stale_event hpc hev =>
      rw [hpc] at horder
      exact ⟨trivial, horder⟩
    | indeterminate hpc hev => exact ⟨hsafe, horder⟩
    | assertion line fault hne => exact ⟨hsafe, horder⟩
    | unaffected next hpc hsame =>
      exact ((h.delivering hfault).step (by simp [PollAct.Succeeds]) hsame).ordered

theorem ordered_of_run (hrun : run Polling.step .built acts = some s) : Ordered s :=
  run_invariant (fun _ _ _ hs hstep => hs.step hstep) delivering_built.ordered hrun

theorem Polling.step_grows_any {act : PollAct} (hstep : s.step act = some next) :
    s.arrived <+: next.arrived ∧ s.completed <+: next.completed := by
  by_cases hok : act.Succeeds
  · exact Polling.step_grows hok hstep
  · have hact : act = .poll_cq false := not_not.mp hok
    subst hact
    obtain ⟨_, hmove⟩ := Polling.step_fail_move hstep
    cases hmove with
    | unaffected next hpc hsame => exact Polling.step_grows (by simp [PollAct.Succeeds]) hsame
    | _ => exact ⟨List.prefix_rfl, List.prefix_rfl⟩

theorem Polling.run_grows_any (hrun : run Polling.step s acts = some last) :
    s.arrived <+: last.arrived ∧ s.completed <+: last.completed := by
  refine run_related (I := fun _ => True)
    (R := fun a b => a.arrived <+: b.arrived ∧ a.completed <+: b.completed) ?_ ?_ ?_ ?_ trivial hrun
  · exact fun _ => ⟨List.prefix_rfl, List.prefix_rfl⟩
  · rintro a b c ⟨harrived, hcompleted⟩ ⟨harrived', hcompleted'⟩
    exact ⟨harrived.trans harrived', hcompleted.trans hcompleted'⟩
  · exact fun _ _ _ _ _ => trivial
  · exact fun _ _ _ _ hstep => Polling.step_grows_any hstep

/-- The step is one of the thread. -/
def PollAct.is_poll : PollAct → Bool
  | .poll_cq _ => true
  | _ => false

/-- Each step of the thread that does not stop it brings the first `n`
arrivals closer, whether or not its call succeeds. -/
theorem Ordered.rank_step (h : Ordered s) {n : Nat} (hn : n ≤ s.arrived.length) {act : PollAct}
    (hstep : s.step act = some next) :
    (next.fault ≠ none ∨ n ≤ next.completed.length) ∨
      next.rank n + (if act.is_poll then 1 else 0) ≤ s.rank n := by
  by_cases hok : act.Succeeds
  · have hfault := (Polling.step_move hok hstep).1
    rcases (h.delivering hfault).rank_step hn hok hstep with hreached | hle
    · exact .inl (.inr hreached)
    · refine .inr (Nat.le_trans ?_ hle)
      cases act with
      | poll_cq ok =>
        cases ok with
        | true => simp [PollAct.is_poll]
        | false => exact absurd rfl hok
      | _ => simp [PollAct.is_poll]
  · have hact : act = .poll_cq false := not_not.mp hok
    subst hact
    obtain ⟨hfault, hmove⟩ := Polling.step_fail_move hstep
    cases hmove with
    | stale_event hpc hev =>
      right
      simp only [Polling.rank, hpc, PollPc.rank, PollAct.is_poll, if_true]
      omega
    | indeterminate hpc hev => exact .inl (.inl (by simp))
    | assertion line fault hne => exact .inl (.inl (by simp))
    | unaffected next hpc hsame =>
      rcases (h.delivering hfault).rank_step hn (by simp [PollAct.Succeeds]) hsame with hreached | hle
      · exact .inl (.inr hreached)
      · exact .inr (by simpa [PollAct.is_poll] using hle)

/-- After enough steps of the thread, whichever of its calls fail, the first
`n` arrivals have been handed on, unless it has been stopped. -/
theorem Ordered.completes (h : Ordered s) {n : Nat} (hn : n ≤ s.arrived.length)
    (hrun : run Polling.step s acts = some last) :
    (last.fault ≠ none ∨ n ≤ last.completed.length) ∨ last.rank n + acts.countP PollAct.is_poll ≤ s.rank n := by
  refine run_countP_le_or (P := fun _ => True) (I := fun s => Ordered s ∧ n ≤ s.arrived.length)
    (G := fun s => s.fault ≠ none ∨ n ≤ s.completed.length) (r := Polling.rank n) ?_ ?_ ?_
    (fun _ _ => trivial) ⟨h, hn⟩ hrun
  · rintro a act b - ⟨ha, hle⟩ hab
    have hgrows := (Polling.step_grows_any hab).1.length_le
    exact ⟨ha.step hab, by omega⟩
  · rintro a act b - - hgoal hab
    have hgrows := (Polling.step_grows_any hab).2.length_le
    rcases hgoal with hstopped | hreached
    · cases hfault : a.fault with
      | none => exact absurd hfault hstopped
      | some fault => simp [Polling.step, hfault] at hab
    · exact .inr (by omega)
  · rintro a act b - ⟨ha, hle⟩ hab
    exact ha.rank_step hle hab

/-- `ev_cq` holds a completion queue. -/
structure Assigned (s : Polling) : Prop where
  ev_cq : s.ev_cq = true
  fault : s.fault ≠ some .indeterminate_ev_cq

theorem PollMove.assigned (h : s.ev_cq = true) (hfault : s.fault = none) {act : PollAct} (hmove : PollMove s act next) :
    Assigned next := by
  cases hmove with
  | get_cq_event => exact ⟨rfl, by simp [hfault]⟩
  | _ => exact ⟨h, by simp [hfault]⟩

theorem Assigned.step (h : Assigned s) {act : PollAct} (hstep : s.step act = some next) : Assigned next := by
  by_cases hok : act.Succeeds
  · obtain ⟨hfault, hmove⟩ := Polling.step_move hok hstep
    exact hmove.assigned h.ev_cq hfault
  · have hact : act = .poll_cq false := not_not.mp hok
    subst hact
    obtain ⟨hfault, hmove⟩ := Polling.step_fail_move hstep
    cases hmove with
    | stale_event hpc hev => exact ⟨h.ev_cq, h.fault⟩
    | indeterminate hpc hev =>
      rw [h.ev_cq] at hev
      cases hev
    | assertion line fault hne => exact ⟨h.ev_cq, by simpa using hne⟩
    | unaffected next hpc hsame =>
      exact (Polling.step_move (by simp [PollAct.Succeeds]) hsame).2.assigned h.ev_cq hfault

/-- The thread has not made a step yet. -/
structure Fresh (s : Polling) : Prop where
  pc : s.pc = .ibv_get_cq_event
  ev_cq : s.ev_cq = false
  fault : s.fault = none

theorem Fresh.step (h : Fresh s) {act : PollAct} (hother : act.is_poll = false) (hstep : s.step act = some next) :
    Fresh next := by
  have hok : act.Succeeds := by
    rintro rfl
    cases hother
  obtain ⟨_, hmove⟩ := Polling.step_move hok hstep
  cases hmove with
  | post => exact ⟨h.pc, h.ev_cq, h.fault⟩
  | complete => exact ⟨h.pc, h.ev_cq, h.fault⟩
  | _ => cases hother

/-- `ev_cq` is used before it was assigned if and only if the very first call
of the thread fails. -/
theorem Fresh.indeterminate_iff (h : Fresh s) (hrun : run Polling.step s acts = some last) :
    last.fault = some .indeterminate_ev_cq ↔ acts.find? PollAct.is_poll = some (.poll_cq false) := by
  induction acts generalizing s with
  | nil =>
    cases hrun
    simp [h.fault]
  | cons act acts ih =>
    obtain ⟨next, hstep, hrest⟩ := run_cons_eq_some.mp hrun
    cases hpoll : act.is_poll with
    | false =>
      rw [List.find?_cons_of_neg (by simp [hpoll])]
      exact ih (h.step hpoll hstep) hrest
    | true =>
      rw [List.find?_cons_of_pos hpoll]
      by_cases hok : act.Succeeds
      · have hassigned : Assigned next := by
          obtain ⟨hfault, hmove⟩ := Polling.step_move hok hstep
          have hwaits : ∀ pc, s.pc = pc → pc ≠ .ibv_get_cq_event → Assigned next :=
            fun pc hpc hne => absurd (hpc.symm.trans h.pc) hne
          cases hmove with
          | post => cases hpoll
          | complete => cases hpoll
          | get_cq_event => exact ⟨rfl, by simp [hfault]⟩
          | ack_cq_events hpc => exact hwaits _ hpc (by simp)
          | req_notify_cq hpc => exact hwaits _ hpc (by simp)
          | drained hpc => exact hwaits _ hpc (by simp)
          | polled hpc => exact hwaits _ hpc (by simp)
          | on_completion wc hpc => exact hwaits _ hpc (by simp)
        have hlast := run_invariant (fun _ _ _ ha hab => ha.step hab) hassigned hrest
        exact iff_of_false hlast.fault fun heq => hok (Option.some.inj heq)
      · have hact : act = .poll_cq false := not_not.mp hok
        subst hact
        have hnext : next.fault = some .indeterminate_ev_cq := by
          simp only [Polling.step, h.fault, Polling.poll_cq, h.pc, h.ev_cq, Bool.false_eq_true, if_false,
            Option.some.injEq] at hstep
          rw [← hstep]
        cases acts with
        | nil =>
          cases hrest
          exact iff_of_true hnext rfl
        | cons act acts => simp [run, Polling.step, hnext] at hrest

/-- Any call of the thread may fail at any time. What has been handed on is
still a beginning of the arrivals, each once, in their order and to the object
that posted the work request, and what is missing is in hand or in the queue.
As long as the thread has not been stopped it is only ever blocked at an
empty armed queue and reaches every arrival after a bounded number of its
steps, the failing ones included. It uses an event that it never got exactly
when its very first wait fails. -/
theorem poll_cq_failures (hrun : run Polling.step .built acts = some s) :
    s.arrived = s.completed ++ (s.pc.in_hand ++ s.cq.queue).map (fun wc => (wc.wr_id, wc)) ∧
    (s.fault = none → s.Blocked → s.cq.queue = [] ∧ s.cq.armed = true ∧ s.completed = s.arrived) ∧
    (s.fault = some .indeterminate_ev_cq ↔ acts.find? PollAct.is_poll = some (.poll_cq false)) ∧
    ∀ more last, run Polling.step s more = some last → last.fault = none →
      2 * (s.arrived.length - s.completed.length) + 4 < more.countP PollAct.is_poll →
        s.arrived <+: last.completed := by
  have h := ordered_of_run hrun
  refine ⟨h.order, fun hfault => (h.delivering hfault).of_blocked, ?_, ?_⟩
  · exact Fresh.indeterminate_iff ⟨rfl, rfl, rfl⟩ hrun
  · intro more last hmore hgoing hsteps
    have hlast : Ordered last := run_invariant (fun _ _ _ ha hab => ha.step hab) h hmore
    have harrived := (Polling.run_grows_any hmore).1
    have hdelivered : last.completed <+: last.arrived := by
      rw [hlast.order]
      exact List.prefix_append _ _
    have hrank : s.pc.rank ≤ 4 := by cases s.pc <;> simp [PollPc.rank]
    have hreached : s.arrived.length ≤ last.completed.length := by
      rcases h.completes (Nat.le_refl _) hmore with (hstopped | hreached) | hle
      · exact absurd hgoing hstopped
      · exact hreached
      · simp only [Polling.rank] at hle
        omega
    exact List.prefix_of_prefix_length_le harrived hdelivered hreached

/-- The second wait fails, the stale event is acknowledged again, and the
completion that arrived meanwhile is drained. -/
def failingWait : List PollAct :=
  [.post 64 (.post_meta_recv_wr 4096 7), .post 64 (.post_meta_recv_wr 4096 7), .complete 0 .IBV_WC_SUCCESS .IBV_WC_RECV,
    .poll_cq true, .poll_cq true, .poll_cq true, .poll_cq true, .poll_cq true, .poll_cq true, .poll_cq false,
    .complete 0 .IBV_WC_SUCCESS .IBV_WC_RECV, .poll_cq true, .poll_cq true, .poll_cq true, .poll_cq true, .poll_cq true]

theorem poll_cq_failures_wait :
    ∃ s, run Polling.step .built failingWait = some s ∧ s.fault = none ∧ s.completed.length = 2 ∧
      s.arrived = s.completed ++ (s.pc.in_hand ++ s.cq.queue).map (fun wc => (wc.wr_id, wc)) := by
  have hends : ((run Polling.step .built failingWait).any
      fun s => decide (s.fault = none ∧ s.completed.length = 2)) = true := by decide
  obtain ⟨s, hrun, hdecided⟩ := (Option.any_eq_true _ _).mp hends
  obtain ⟨hfault, hcompleted⟩ := of_decide_eq_true hdecided
  exact ⟨s, hrun, hfault, hcompleted, (poll_cq_failures hrun).1⟩

end tc_rdma.rdma_com
