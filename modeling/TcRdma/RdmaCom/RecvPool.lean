import Mathlib.Data.List.Perm.Basic
import TcRdma.RdmaCom.Completion
import TcRdma.RdmaCom.QueueLoad
import TcRdma.RdmaCom.Resources

open tc_rdma.machine

namespace tc_rdma.rdma_com

/-- A receive that was posted, with the object that is in its `wr_id`. -/
def Op.recv : Op → Option (UInt64 × Posting)
  | .call _ (.ibv_post_recv _ wr) true => some (wr.wr_id, .post_meta_recv_wr wr.sge.addr wr.sge.lkey)
  | _ => none

def posted_recvs (log : List Entry) : List (UInt64 × Posting) := picked Op.recv log

/-- The receives that wait for a message. -/
def Loaded.receives (s : Loaded) : Nat := s.polling.posted.countP fun p => p.2.is_recv

/-- The messages that have arrived: the receives that have completed with
success. -/
def Loaded.messages (s : Loaded) : Nat := s.finished.countP fun f => f.1.is_recv && f.2 = .IBV_WC_SUCCESS

/-- The receives that have completed with an error, as all do that are still
posted when the connection ends. No message need have come. -/
def Loaded.failed_receives (s : Loaded) : Nat := s.finished.countP fun f => f.1.is_recv && f.2 ≠ .IBV_WC_SUCCESS

def PollAct.posts_recv : PollAct → Bool
  | .post _ posting => posting.is_recv
  | .complete _ _ _ => false
  | .poll_cq _ => false

/-- Each completion has been through `on_completion` before the next work
request completes. -/
def Loaded.Prompt (s : Loaded) : PollAct → Prop
  | .complete _ _ _ => s.polling.completed = s.polling.arrived
  | .post _ _ => True
  | .poll_cq _ => True

theorem posted_recvs_is_recv (log : List Entry) : ∀ p ∈ posted_recvs log, p.2.is_recv = true := by
  intro p hp
  obtain ⟨entry, -, hop⟩ := mem_picked.mp hp
  unfold Op.recv at hop
  split at hop
  · cases hop
    rfl
  · cases hop

/-- The calls of `ibv_post_recv` are the only ones that can post a receive. -/
theorem length_posted_recvs (log : List Entry) : (posted_recvs log).length = (outcomes .receiving log).count true := by
  induction log with
  | nil => rfl
  | cons entry log ih =>
    have hone : (posted_recvs [entry]).length = (outcomes .receiving [entry]).count true := by
      obtain ⟨conn, op⟩ := entry
      cases op with
      | call n c ok => cases c <;> cases ok <;> rfl
      | _ => rfl
    rw [← List.singleton_append, posted_recvs, picked_append, outcomes_append, List.length_append, List.count_append]
    exact congrArg₂ (· + ·) hone ih

section Building

variable {env : Env} {id : CmId} {w w' : World}

theorem wp_post_meta_recv_wr_outcome : wp (post_meta_recv_wr env)
    (fun _ w' => (outcomes .receiving w'.log).length = (outcomes .receiving w.log).length + 1) (fun _ _ => True) w := by
  unfold post_meta_recv_wr
  apply wp_bind_of (leaves_load (C := []) w) ?_ (fun _ _ _ => trivial)
  intro meta_recv w₁ h₁
  apply wp_bind_of (leaves_load (C := []) w₁) ?_ (fun _ _ _ => trivial)
  intro mr w₂ h₂
  apply wp_bind_of (leaves_deref (C := []) mr w₂) ?_ (fun _ _ _ => trivial)
  intro mr w₃ h₃
  rw [wp_bind, wp_this]
  apply wp_bind_of (leaves_load (C := []) w₃) ?_ (fun _ _ _ => trivial)
  intro qp w₄ h₄
  apply wp_bind_of (leaves_deref (C := []) qp w₄) ?_ (fun _ _ _ => trivial)
  intro qp w₅ h₅
  have hsame : outcomes .receiving w₅.log = outcomes .receiving w.log :=
    outcomes_of_extends ((((h₁.trans h₂).trans h₃).trans h₄).trans h₅).log (by simp)
  rw [wp_bind]
  apply wp_invoke_of
  intro ok
  rw [wp_pure, outcomes_record_call, hsame]
  simp [Call.concern]

theorem wp_post_meta_recv_wrs_outcomes (n : Nat) : wp (post_meta_recv_wrs env n)
    (fun _ w' => (outcomes .receiving w'.log).length = (outcomes .receiving w.log).length + n) (fun _ _ => True) w := by
  induction n generalizing w with
  | zero => exact rfl
  | succ n ih =>
    apply wp_bind_of wp_post_meta_recv_wr_outcome _ (fun _ _ _ => trivial)
    intro _ w₁ hone
    apply wp_mono ih _ (fun _ _ _ => trivial)
    intro _ w₂ hrest
    omega

theorem wp_build_meta_outcomes : wp (build_meta env id)
    (fun _ w' => (outcomes .receiving w'.log).length =
      (outcomes .receiving w.log).length + w.conn.conn_params.wr_cq_number) (fun _ _ => True) w := by
  apply wp_bind_of (attach_leaves (C := [.memory]) id w) _ (fun _ _ _ => trivial)
  intro _ w₁ h₁
  apply wp_bind_of (register_message_memory_leaves w₁) _ (fun _ _ _ => trivial)
  intro _ w₂ h₂
  have hfoot := h₁.trans h₂
  have hsame : outcomes .receiving w₂.log = outcomes .receiving w.log := outcomes_of_extends hfoot.log (by simp)
  have hnumber : w₂.conn.conn_params.wr_cq_number = w.conn.conn_params.wr_cq_number :=
    congrArg Fixed.wr_cq_number hfoot.fixed
  rw [wp_bind, wp_get]
  apply wp_mono (wp_post_meta_recv_wrs_outcomes _) _ (fun _ _ _ => trivial)
  intro _ w₃ hposts
  rw [hposts, hsame, hnumber]

/-- A build that succeeds has called `ibv_post_recv` as often as the size says. -/
theorem wp_build_connection_outcomes : wp (build_connection env id)
    (fun ret w' => ret = .SUCCESS → (outcomes .receiving w'.log).length =
      (outcomes .receiving w.log).length + w.conn.conn_params.wr_cq_number) (fun _ _ => True) w := by
  have hparts : wp (build_parts env id)
      (fun ret w' => ret = .SUCCESS → (outcomes .receiving w'.log).length =
        (outcomes .receiving w.log).length + w.conn.conn_params.wr_cq_number) (fun _ _ => True) w := by
    apply wp_bind_of (build_context_leaves (C := [.device, .queue_pair]) id w) _ (fun _ _ _ => trivial)
    intro accepted w₁ h₁
    cases accepted with
    | false => exact fun hret => by cases hret
    | true =>
      apply wp_bind_of (build_domain_leaves w₁) _ (fun _ _ _ => trivial)
      intro _ w₂ h₂
      apply wp_bind_of (build_completion_queue_leaves w₂) _ (fun _ _ _ => trivial)
      intro _ w₃ h₃
      apply wp_bind_of (build_poller_leaves w₃) _ (fun _ _ _ => trivial)
      intro _ w₄ h₄
      apply wp_bind_of (build_queue_pair_leaves id w₄) _ (fun _ _ _ => trivial)
      intro created w₅ h₅
      have hdevice : Footprint [.device, .queue_pair] w₁ w₄ := ((h₂.trans h₃).trans h₄).mono (by simp)
      have hfoot := (h₁.trans hdevice).trans (h₅.mono (by simp))
      have hsame : outcomes .receiving w₅.log = outcomes .receiving w.log := outcomes_of_extends hfoot.log (by simp)
      have hnumber : w₅.conn.conn_params.wr_cq_number = w.conn.conn_params.wr_cq_number :=
        congrArg Fixed.wr_cq_number hfoot.fixed
      cases created with
      | false => exact fun hret => by cases hret
      | true =>
        apply wp_bind_of wp_build_meta_outcomes _ (fun _ _ _ => trivial)
        intro _ w₆ hposts _
        rw [hposts, hsame, hnumber]
  apply wp_bind_of hparts _ (fun _ _ _ => trivial)
  intro ret w₁ hret
  rw [wp_bind, wp_record, wp_pure]
  intro hsuccess
  have hsame : outcomes .receiving (w₁.record (.build_connection_returned id ret)).log = outcomes .receiving w₁.log :=
    outcomes_of_extends (C := [.result]) (Extends.one (by simp [Op.concern])) (by simp)
  rw [hsame]
  exact hret hsuccess

theorem outcomes_since (hbuild : build_connection env id w = .ok .SUCCESS w') :
    (outcomes .receiving (w'.since w)).length = w.conn.conn_params.wr_cq_number := by
  obtain ⟨added, hadded⟩ := (wp_ok (build_connection_leaves id w) hbuild).log.isPrefix
  have hlength := wp_ok wp_build_connection_outcomes hbuild rfl
  rw [← hadded, outcomes_append, List.length_append] at hlength
  rw [World.since, ← hadded, List.drop_left]
  omega

end Building

section Run

variable {sizes : QueueSizes} {s next last : Loaded} {acts : List PollAct}

/-- A message takes a receive, as an error does, and only posting gives one. -/
theorem Loaded.receives_step {act : PollAct} (hstep : s.step sizes act = some next) :
    next.receives + next.messages + next.failed_receives =
      s.receives + s.messages + s.failed_receives + if act.posts_recv then 1 else 0 := by
  have hmove := Loaded.step_move hstep
  cases hmove with
  | post this posting hroom =>
    simp only [Loaded.receives, Loaded.messages, Loaded.failed_receives, PollAct.posts_recv, List.countP_append,
      List.countP_singleton]
    by_cases hrecv : posting.is_recv = true
    · simp only [hrecv, if_true]
      omega
    · simp [hrecv]
  | complete i this posting status opcode wc hposted =>
    obtain ⟨hi, hentry⟩ := List.getElem?_eq_some_iff.mp hposted
    have hperm : ((this, posting) :: s.polling.posted.eraseIdx i).Perm s.polling.posted := by
      rw [← hentry]
      exact List.getElem_cons_eraseIdx_perm hi
    have htaken := hperm.countP_eq fun p => p.2.is_recv
    rw [List.countP_cons] at htaken
    simp only [Loaded.receives, Loaded.messages, Loaded.failed_receives, PollAct.posts_recv, List.countP_append,
      List.countP_singleton]
    rw [← htaken]
    by_cases hrecv : posting.is_recv = true
    · by_cases hstatus : status = .IBV_WC_SUCCESS
      · simp [hrecv, hstatus]
        omega
      · simp [hrecv, hstatus]
        omega
    · simp [hrecv]
  | poll_cq ok polling hposted hqueue => 
    simp [Loaded.receives, Loaded.messages, Loaded.failed_receives, PollAct.posts_recv, hposted]

theorem Loaded.receives_run (hrun : run (Loaded.step sizes) s acts = some last) :
    last.receives + last.messages + last.failed_receives =
      s.receives + s.messages + s.failed_receives + acts.countP PollAct.posts_recv := by
  induction acts generalizing s with
  | nil =>
    cases hrun
    rfl
  | cons act acts ih =>
    obtain ⟨next, hstep, hrest⟩ := run_cons_eq_some.mp hrun
    have hone := Loaded.receives_step hstep
    have hmore := ih hrest
    rw [List.countP_cons]
    omega

theorem Loaded.receives_start {posted : List (UInt64 × Posting)} (hposted : ∀ p ∈ posted, p.2.is_recv = true) :
    (Loaded.start posted).receives = posted.length ∧ (Loaded.start posted).messages = 0 ∧
      (Loaded.start posted).failed_receives = 0 :=
  ⟨List.countP_eq_length.mpr hposted, rfl, rfl⟩

/-- The thread has handed on everything and waits, and only receives are
posted. -/
structure Loaded.Idle (s : Loaded) : Prop where
  delivering : Delivering s.polling
  blocked : s.polling.Blocked
  recvs : ∀ p ∈ s.polling.posted, p.2.is_recv = true

theorem Loaded.idle_start {posted : List (UInt64 × Posting)} (hposted : ∀ p ∈ posted, p.2.is_recv = true) :
    (Loaded.start posted).Idle where
  delivering := ⟨rfl, Notifier.ready_empty_arm, rfl⟩
  blocked := ⟨rfl, rfl⟩
  recvs := hposted

/-- One message, and what the thread does until it waits again. -/
def messageCycle : List PollAct := .complete 0 .IBV_WC_SUCCESS .IBV_WC_RECV :: List.replicate 6 (.poll_cq true)

theorem Loaded.Idle.messageCycle (sizes : QueueSizes) (h : s.Idle) {p : UInt64 × Posting}
    {rest : List (UInt64 × Posting)} (hposted : s.polling.posted = p :: rest) :
    ∃ next, run (Loaded.step sizes) s messageCycle = some next ∧ next.Idle ∧ next.polling.posted = rest := by
  obtain ⟨hdelivering, ⟨hpc, hevents⟩, hrecvs⟩ := h
  obtain ⟨hempty, harmed, -⟩ := hdelivering.of_blocked ⟨hpc, hevents⟩
  have hfault := hdelivering.no_fault
  obtain ⟨⟨⟨queue, armed, events⟩, posted, arrived, pc, ev_cq, completed, printed, fault⟩, finished⟩ := s
  dsimp only at *
  subst hposted hpc hevents hempty harmed hfault
  refine ⟨_, rfl, ⟨?_, ⟨rfl, rfl⟩, ?_⟩, rfl⟩
  · have horder := hdelivering.order
    refine ⟨rfl, fun _ => ⟨rfl, rfl⟩, ?_⟩
    simp only [PollPc.in_hand, List.append_nil, List.map_nil] at horder ⊢
    rw [horder]
    simp [Posting.wr_id_eq]
  · exact fun q hq => hrecvs q (.tail _ hq)

/-- Messages that are processed one after the other use up every receive. -/
theorem Loaded.Idle.drains (sizes : QueueSizes) (h : s.Idle) :
    ∃ acts last, run (Loaded.step sizes) s acts = some last ∧ StepsMeet (Loaded.step sizes) Loaded.Prompt s acts ∧
      acts.countP PollAct.posts_recv = 0 ∧ last.receives = 0 := by
  generalize hposted : s.polling.posted = posted
  induction posted generalizing s with
  | nil => exact ⟨[], s, rfl, stepsMeet_nil s, rfl, by rw [Loaded.receives, hposted]; rfl⟩
  | cons p rest ih =>
    obtain ⟨next, hcycle, hidle, hrest⟩ := h.messageCycle sizes hposted
    obtain ⟨acts, last, hrun, hprompt, hposts, hnone⟩ := ih hidle hrest
    have hfirst : StepsMeet (Loaded.step sizes) Loaded.Prompt s tc_rdma.rdma_com.messageCycle := by
      obtain ⟨mid, hmessage, -⟩ := run_cons_eq_some.mp hcycle
      refine (stepsMeet_cons hmessage).mpr ⟨(h.delivering.of_blocked h.blocked).2.2, ?_⟩
      apply stepsMeet_of_forall
      intro act hact mid
      rw [List.eq_of_mem_replicate hact]
      trivial
    refine ⟨_, last, run_append_of_eq_some hcycle hrun, hfirst.append hcycle hprompt, ?_, hnone⟩
    rw [List.countP_append, hposts]
    rfl

/-- Without a receive no message arrives, and none fails. -/
theorem Loaded.messages_of_no_receives (hnone : s.receives = 0) {i : Nat} {status : IbvWcStatus} {opcode : IbvWcOpcode}
    (hstep : s.step sizes (.complete i status opcode) = some next) :
    next.messages = s.messages ∧ next.failed_receives = s.failed_receives := by
  have hone := Loaded.receives_step hstep
  have hmove := Loaded.step_move hstep
  cases hmove with
  | complete _ this posting _ _ wc hposted =>
    have hsend : posting.is_recv = false := by
      have hmem := List.mem_of_getElem? hposted
      simpa using List.countP_eq_zero.mp hnone _ hmem
    simp [Loaded.messages, Loaded.failed_receives, hsend]

end Run

/-- A successful `build_connection` calls `ibv_post_recv` as often as the size
says. From then on a receive is used up by each message, and by each error, the
thread of `poll_cq` posts none, and without one no message arrives. As long as
no receive has failed one is left exactly when fewer messages have arrived than
the size says. -/
theorem build_connection_receives_left {env : Env} {id : CmId} {w w' : World} {acts : List PollAct} {s : Loaded}
    (hbuild : build_connection env id w = .ok .SUCCESS w')
    (hrun : run (Loaded.step w.conn.conn_params.queue_sizes) (Loaded.start (posted_recvs (w'.since w))) acts = some s) :
    (outcomes .receiving (w'.since w)).length = w.conn.conn_params.wr_cq_number ∧
    s.receives + s.messages + s.failed_receives =
      (outcomes .receiving (w'.since w)).count true + acts.countP PollAct.posts_recv ∧
    ((∀ ok ∈ outcomes .receiving (w'.since w), ok = true) → acts.countP PollAct.posts_recv = 0 →
      s.failed_receives = 0 → (0 < s.receives ↔ s.messages < w.conn.conn_params.wr_cq_number)) ∧
    (∀ ok next, s.step w.conn.conn_params.queue_sizes (.poll_cq ok) = some next → next.receives = s.receives) ∧
    (s.receives = 0 → ∀ i status opcode next,
      s.step w.conn.conn_params.queue_sizes (.complete i status opcode) = some next →
        next.messages = s.messages ∧ next.failed_receives = s.failed_receives) := by
  have hcalls := outcomes_since hbuild
  have hsum := Loaded.receives_run hrun
  obtain ⟨hstart, hnone, hfailed⟩ := Loaded.receives_start (posted_recvs_is_recv (w'.since w))
  rw [hstart, hnone, hfailed, length_posted_recvs, Nat.add_zero] at hsum
  refine ⟨hcalls, hsum, ?_, ?_, fun hempty i status opcode next hstep => Loaded.messages_of_no_receives hempty hstep⟩
  · intro hall hposts hfailed
    have hevery := List.count_eq_length.mpr fun ok hok => (hall ok hok).symm
    omega
  · intro ok next hstep
    have hmove := Loaded.step_move hstep
    cases hmove with
    | poll_cq _ polling hposted _ => simp [Loaded.receives, hposted]

/-- Three messages arrive, each processed before the next one. -/
def threeMessages : List PollAct := messageCycle ++ messageCycle ++ messageCycle

/-- After three messages 125 of the 128 receives are left; then one is flushed,
as it is when the connection breaks. -/
theorem build_connection_receives_left_three :
    ∃ w', build_connection workingEnv 2 requestedWorld = .ok .SUCCESS w' ∧
      ∃ s flushed, run (Loaded.step requestedWorld.conn.conn_params.queue_sizes)
          (Loaded.start (posted_recvs (w'.since requestedWorld))) threeMessages = some s ∧
        s.messages = 3 ∧ s.failed_receives = 0 ∧ s.receives + 3 + 0 = 128 ∧ (0 < s.receives ↔ 3 < 128) ∧
        run (Loaded.step requestedWorld.conn.conn_params.queue_sizes)
          (Loaded.start (posted_recvs (w'.since requestedWorld)))
          (threeMessages ++ [.complete 0 (.error 5) (.other 0)]) = some flushed ∧
        flushed.messages = 3 ∧ flushed.failed_receives = 1 ∧ flushed.receives + 3 + 1 = 128 := by
  have hreturns : (build_connection workingEnv 2).returns requestedWorld (fun ret w' =>
      decide (ret = .SUCCESS) && decide ((outcomes .receiving (w'.since requestedWorld)).count true = 128) &&
        (outcomes .receiving (w'.since requestedWorld)).all id &&
        (run (Loaded.step requestedWorld.conn.conn_params.queue_sizes)
          (Loaded.start (posted_recvs (w'.since requestedWorld))) threeMessages).any (fun s =>
            decide (s.messages = 3 ∧ s.failed_receives = 0)) &&
        (run (Loaded.step requestedWorld.conn.conn_params.queue_sizes)
          (Loaded.start (posted_recvs (w'.since requestedWorld)))
          (threeMessages ++ [.complete 0 (.error 5) (.other 0)])).any (fun s =>
            decide (s.messages = 3 ∧ s.failed_receives = 1))) = true := by
    decide +kernel
  obtain ⟨ret, w', hbuild, hends⟩ := Program.exists_of_returns hreturns
  simp only [Bool.and_eq_true, decide_eq_true_eq, Option.any_eq_true, List.all_eq_true, id] at hends
  obtain ⟨⟨⟨⟨rfl, hposted⟩, hall⟩, s, hrun, hmessages, hnone⟩, flushed, hflush, hbefore, hfailed⟩ := hends
  obtain ⟨-, hsum, hleft, -⟩ := build_connection_receives_left hbuild hrun
  obtain ⟨-, hrest, -⟩ := build_connection_receives_left hbuild hflush
  have hsome := hleft hall (by decide) hnone
  rw [hmessages, hnone, hposted] at hsum
  rw [hmessages] at hsome
  rw [hbefore, hfailed, hposted] at hrest
  exact ⟨w', hbuild, s, flushed, hrun, hmessages, hnone, hsum, hsome, hflush, hbefore, hfailed, hrest⟩

/-- Each of the 128 receives is posted and each message is processed before
the next one arrives. -/
theorem recv_pool_runs_dry :
    ¬ ∀ (env : Env) (id : CmId) (w w' : World) (acts : List PollAct) (s : Loaded),
      build_connection env id w = .ok .SUCCESS w' →
      (∀ ok ∈ outcomes .receiving (w'.since w), ok = true) →
      run (Loaded.step w.conn.conn_params.queue_sizes) (Loaded.start (posted_recvs (w'.since w))) acts = some s →
      StepsMeet (Loaded.step w.conn.conn_params.queue_sizes) Loaded.Prompt (Loaded.start (posted_recvs (w'.since w)))
        acts →
      0 < s.receives := by
  intro hnever
  have hreturns : (build_connection workingEnv 2).returns requestedWorld (fun ret w' =>
      decide (ret = .SUCCESS) && (outcomes .receiving (w'.since requestedWorld)).all id) = true := by
    decide +kernel
  obtain ⟨ret, w', hbuild, hends⟩ := Program.exists_of_returns hreturns
  simp only [Bool.and_eq_true, decide_eq_true_eq, List.all_eq_true, id] at hends
  obtain ⟨rfl, hposted⟩ := hends
  have hidle := Loaded.idle_start (posted_recvs_is_recv (w'.since requestedWorld))
  obtain ⟨acts, last, hrun, hprompt, -, hnone⟩ := hidle.drains requestedWorld.conn.conn_params.queue_sizes
  have hsome := hnever workingEnv 2 requestedWorld w' acts last hbuild hposted hrun hprompt
  exact absurd hnone (Nat.ne_of_gt hsome)

end tc_rdma.rdma_com
