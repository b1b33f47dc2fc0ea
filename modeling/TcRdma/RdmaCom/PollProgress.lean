import TcRdma.RdmaCom.Completion

open tc_rdma.machine

namespace tc_rdma.rdma_com

variable {s next last : Polling} {acts : List PollAct}

/-- The calls that the thread makes before it waits for the next event, when
no completion arrives any more. -/
def PollPc.work : PollPc → Nat
  | .ibv_get_cq_event => 0
  | .ibv_ack_cq_events => 3
  | .ibv_req_notify_cq => 2
  | .ibv_poll_cq => 1
  | .on_completion _ => 2

/-- An event costs four calls, and a completion two. -/
def Polling.work (s : Polling) : Nat := s.pc.work + 4 * s.cq.events + 2 * s.cq.queue.length

theorem succeeds_poll : PollAct.Succeeds (.poll_cq true) := by simp [PollAct.Succeeds]

/-- The thread blocks exactly when it has nothing left to do. -/
theorem Delivering.blocked_iff (h : Delivering s) : s.Blocked ↔ s.work = 0 := by
  constructor
  · intro hblocked
    obtain ⟨hempty, -, -⟩ := h.of_blocked hblocked
    simp [Polling.work, hblocked.1, hblocked.2, hempty, PollPc.work]
  · intro hwork
    have hpc : s.pc.work = 0 := by unfold Polling.work at hwork; omega
    refine ⟨?_, by unfold Polling.work at hwork; omega⟩
    cases hcase : s.pc with
    | ibv_get_cq_event => rfl
    | _ => simp [hcase, PollPc.work] at hpc

theorem Polling.work_step (hstep : s.step (.poll_cq true) = some next) : next.work + 1 = s.work := by
  obtain ⟨_, hmove⟩ := Polling.step_move succeeds_poll hstep
  cases hmove with
  | get_cq_event hpc hevent =>
    simp only [Polling.work, hpc, PollPc.work]
    omega
  | ack_cq_events hpc => simp only [Polling.work, hpc, PollPc.work]; omega
  | req_notify_cq hpc => simp only [Polling.work, hpc, PollPc.work, Notifier.arm]; omega
  | drained hpc hempty => simp only [Polling.work, hpc, PollPc.work]; omega
  | polled hpc wc cq hpoll =>
    obtain ⟨hqueue, -, hevents⟩ := Notifier.poll_eq_some hpoll
    simp only [Polling.work, hpc, PollPc.work, hqueue, hevents, List.length_cons]
    omega
  | on_completion wc hpc => simp only [Polling.work, hpc, PollPc.work]; omega

/-- A completion makes work for at most six calls; a call does one of them. -/
theorem Polling.work_paid {act : PollAct} (hok : act.Succeeds) (hstep : s.step act = some next) :
    (if act = .poll_cq true then 1 else 0) + next.work + 6 * s.arrived.length ≤ s.work + 6 * next.arrived.length := by
  by_cases hpoll : act = .poll_cq true
  · subst hpoll
    have hwork := Polling.work_step hstep
    have hgrows := (Polling.step_grows hok hstep).1.length_le
    rw [if_pos rfl]
    omega
  · rw [if_neg hpoll]
    obtain ⟨_, hmove⟩ := Polling.step_move hok hstep
    cases hmove with
    | post => exact (Nat.zero_add _).symm ▸ Nat.le_refl _
    | complete i this posting status opcode hposted =>
      have hevents := s.cq.add_events_le { wr_id := posting.wr_id this, status := status, opcode := opcode }
      simp only [Polling.work, Notifier.add_queue, List.length_append, List.length_singleton]
      omega
    | _ => exact absurd rfl hpoll

/-- What has been printed is what the handed on completions print. -/
theorem Polling.printed_step {act : PollAct} (hok : act.Succeeds)
    (hprinted : s.printed = s.completed.map fun call => on_completion call.2) (hstep : s.step act = some next) :
    next.printed = next.completed.map fun call => on_completion call.2 := by
  obtain ⟨_, hmove⟩ := Polling.step_move hok hstep
  cases hmove with
  | on_completion wc hpc => simp [hprinted]
  | _ => exact hprinted

/-- When nothing arrives any more, the thread makes just as many calls as it has work. -/
theorem Delivering.settles (h : Delivering s) :
    ∃ last, run Polling.step s (List.replicate s.work (.poll_cq true)) = some last ∧ Delivering last ∧ last.Blocked ∧
      last.arrived = s.arrived := by
  induction hwork : s.work generalizing s with
  | zero => exact ⟨s, rfl, h, h.blocked_iff.mpr hwork, rfl⟩
  | succ n ih =>
    obtain ⟨next, hnext⟩ := Polling.poll_cq_enabled h.no_fault fun hblocked => by
      rw [h.blocked_iff, hwork] at hblocked
      cases hblocked
    have hless := Polling.work_step hnext
    have harrived : next.arrived = s.arrived := by
      obtain ⟨_, hmove⟩ := Polling.step_move succeeds_poll hnext
      cases hmove <;> rfl
    obtain ⟨last, hrun, hlast, hblocked, hsame⟩ := ih (h.step succeeds_poll hnext) (by omega)
    exact ⟨last, run_cons_eq_some.mpr ⟨next, hnext, hrun⟩, hlast, hblocked, hsame.trans harrived⟩

/-- The thread of `poll_cq` never spins: whatever arrives in whatever order, it
makes at most six calls for each completion. From any moment at which nothing
arrives any more, it makes exactly the calls it has work for, and is then
blocked, with every completion handed on and reported once, in the order of
arrival. -/
theorem poll_cq_settles (hok : ∀ act ∈ acts, act.Succeeds) (hrun : run Polling.step .built acts = some s) :
    acts.count (.poll_cq true) + s.work ≤ 6 * s.arrived.length ∧
    (s.Blocked ↔ s.work = 0) ∧
    ∃ last, run Polling.step s (List.replicate s.work (.poll_cq true)) = some last ∧ last.Blocked ∧
      last.completed = s.arrived ∧ last.printed = s.arrived.map fun call => on_completion call.2 := by
  have h := delivering_of_run hok hrun
  refine ⟨?_, h.blocked_iff, ?_⟩
  · rw [List.count]
    have hpaid := run_countP_amortized (P := PollAct.Succeeds) (I := fun _ => True) (d := Polling.work)
      (k := fun s => 6 * s.arrived.length) (c := fun act => act == .poll_cq true) (fun _ _ _ _ _ _ => trivial)
      (fun a act b hact _ hstep => by simpa using Polling.work_paid hact hstep) hok trivial hrun
    simpa [Polling.built, Polling.work, PollPc.work, Notifier.empty, Notifier.arm] using hpaid
  · obtain ⟨last, hmore, hlast, hblocked, harrived⟩ := h.settles
    have hdone : last.completed = s.arrived := (hlast.of_blocked hblocked).2.2.trans harrived
    have hsteps : ∀ act ∈ List.replicate s.work (PollAct.poll_cq true), act.Succeeds := by
      intro act hact
      rw [List.eq_of_mem_replicate hact]
      exact succeeds_poll
    refine ⟨last, hmore, hblocked, hdone, ?_⟩
    rw [← hdone]
    refine run_invariant_of (fun _ _ _ hact hprinted hstep => Polling.printed_step hact hprinted hstep) ?_ ?_
      (run_append_of_eq_some hrun hmore)
    · intro act hact
      exact (List.mem_append.mp hact).elim (hok act) (hsteps act)
    · rfl

/-- The thread has acknowledged the first event and two completions are in the queue. -/
theorem poll_cq_settles_two :
    ∃ s, run Polling.step .built (lateArrivals.take 7) = some s ∧ s.work = 6 ∧
      ∃ last, run Polling.step s (List.replicate s.work (.poll_cq true)) = some last ∧ last.Blocked ∧
        last.completed = s.arrived ∧ last.printed = s.arrived.map fun call => on_completion call.2 := by
  have hwork : ((run Polling.step .built (lateArrivals.take 7)).any fun s => decide (s.work = 6)) = true := by decide
  obtain ⟨s, hrun, hwork⟩ := (Option.any_eq_true _ _).mp hwork
  have hok : ∀ act ∈ lateArrivals.take 7, act.Succeeds := by unfold PollAct.Succeeds; decide
  exact ⟨s, hrun, of_decide_eq_true hwork, (poll_cq_settles hok hrun).2.2⟩

end tc_rdma.rdma_com
