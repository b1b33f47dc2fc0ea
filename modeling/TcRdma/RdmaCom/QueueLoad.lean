import TcRdma.RdmaCom.Footprint
import TcRdma.RdmaCom.PollCq
import TcRdma.RdmaCom.Server

open tc_rdma.machine

namespace tc_rdma.rdma_com

/-- The entries of the completion queue, and how many sends and receives the
queue pair takes. -/
structure QueueSizes where
  cqe : Nat
  max_send_wr : Nat
  max_recv_wr : Nat
  deriving DecidableEq, Repr

/-- The sizes that `build_connection` asks for. -/
def ConnParameter.queue_sizes (conn_params : ConnParameter) : QueueSizes :=
  { cqe := conn_params.wr_cq_number
    max_send_wr := conn_params.wr_cq_number
    max_recv_wr := conn_params.wr_cq_number }

/-- A queue is created with these sizes. -/
def Entry.Sized (entry : Entry) : Prop :=
  match entry.op with
  | .call _ (.ibv_create_cq _ cqe _) _ => cqe = entry.conn.conn_params.queue_sizes.cqe
  | .call _ (.rdma_create_qp _ _ qp_attr) _ =>
    qp_attr.max_send_wr = entry.conn.conn_params.queue_sizes.max_send_wr ∧
      qp_attr.max_recv_wr = entry.conn.conn_params.queue_sizes.max_recv_wr ∧ qp_attr.send_cq = qp_attr.recv_cq
  | _ => True

section Sized

variable {α β : Type} {C : List Concern} {env : Env}

/-- The program creates queues only with these sizes. -/
abbrev AsksSized (x : Prog α) : Prop := Guarantees (fun w w' => Extends Entry.Sized w.log w'.log) (fun _ => True) x

theorem AsksSized.bind {x : Prog α} {f : α → Prog β} (hx : AsksSized x) (hf : ∀ a, AsksSized (f a)) :
    AsksSized (x >>= f) :=
  Guarantees.bind (fun hab hbc => hab.trans hbc) hx hf

theorem Leaves.asksSized {x : Prog α} (hx : Leaves C x) (hdevice : .device ∉ C) (hqp : .queue_pair ∉ C) :
    AsksSized x := by
  have hsized : ∀ entry : Entry, entry.op.concern ∈ C → entry.Sized := by
    intro entry hconcern
    unfold Entry.Sized
    split
    · rename_i hop
      rw [hop] at hconcern
      exact absurd hconcern hdevice
    · rename_i hop
      rw [hop] at hconcern
      exact absurd hconcern hqp
    · trivial
  exact fun w => wp_mono (hx w) (fun _ _ h => h.log.mono hsized) fun _ _ h => ⟨trivial, h.2.log.mono hsized⟩

theorem Leaves.asksSized_nil {x : Prog α} (hx : Leaves [] x) : AsksSized x := hx.asksSized (by simp) (by simp)

theorem asksSized_invoke (c : Call) (hc : ∀ conn n ok, Entry.Sized ⟨conn, .call n c ok⟩) : AsksSized (invoke env c) :=
  fun w => wp_invoke_of fun ok => Extends.one (hc w.conn w.log.length ok)

theorem build_domain_asksSized : AsksSized (build_domain env) := by
  refine leaves_load.asksSized_nil.bind fun _ => ?_
  refine (leaves_deref _).asksSized_nil.bind fun context => ?_
  refine (asksSized_invoke (.ibv_alloc_pd context) fun _ _ _ => trivial).bind fun pd => ?_
  refine AsksSized.bind (Leaves.asksSized_nil leaves_modify_ctx) fun _ => ?_
  refine (asksSized_invoke (.ibv_create_comp_channel context) fun _ _ _ => trivial).bind fun comp_channel => ?_
  exact Leaves.asksSized_nil leaves_modify_ctx

theorem build_completion_queue_asksSized : AsksSized (build_completion_queue env) := by
  refine leaves_load.asksSized_nil.bind fun _ => ?_
  refine (leaves_deref _).asksSized_nil.bind fun context => ?_
  refine leaves_load.asksSized_nil.bind fun comp_channel w => ?_
  rw [wp_bind, wp_get, wp_bind]
  apply wp_invoke_of
  intro ok
  have hrest : AsksSized (do
      modify_ctx fun ctx => { ctx with cq := .set (if ok then some w.log.length else none) }
      let cq ← deref (if ok then some w.log.length else none)
      let _ ← invoke env (.ibv_req_notify_cq cq)) := by
    refine AsksSized.bind (Leaves.asksSized_nil leaves_modify_ctx) fun _ => ?_
    refine (leaves_deref _).asksSized_nil.bind fun cq => ?_
    exact (asksSized_invoke (.ibv_req_notify_cq cq) fun _ _ _ => trivial).bind fun _ => (leaves_pure _).asksSized_nil
  have hcreated : Extends Entry.Sized w.log
      (w.record (.call w.log.length (.ibv_create_cq context w.conn.conn_params.wr_cq_number comp_channel) ok)).log :=
    Extends.one rfl
  exact wp_mono (hrest _) (fun _ _ h => hcreated.trans h) fun _ _ h => ⟨trivial, hcreated.trans h.2⟩

theorem build_queue_pair_asksSized (id : CmId) : AsksSized (build_queue_pair env id) := by
  refine leaves_load.asksSized_nil.bind fun cq w => ?_
  rw [wp_bind, wp_get, wp_bind, wp_load]
  split
  · rename_i pd hpd
    rw [wp_bind]
    apply wp_invoke_of
    intro ok
    have hcreated : ∀ qp_attr : IbvQpInitAttr, qp_attr.max_send_wr = w.conn.conn_params.wr_cq_number →
        qp_attr.max_recv_wr = w.conn.conn_params.wr_cq_number → qp_attr.send_cq = qp_attr.recv_cq →
        Extends Entry.Sized w.log (w.record (.call w.log.length (.rdma_create_qp id pd qp_attr) ok)).log :=
      fun _ hsend hrecv hcq => Extends.one ⟨hsend, hrecv, hcq⟩
    cases ok with
    | true => exact hcreated _ rfl rfl rfl
    | false => exact hcreated _ rfl rfl rfl
  · exact ⟨trivial, Extends.refl _⟩

theorem build_poller_asksSized : AsksSized (build_poller env) := by
  apply (asksSized_invoke .pthread_create fun _ _ _ => trivial).bind
  intro thread
  cases thread with
  | some thread => exact Leaves.asksSized_nil leaves_modify_ctx
  | none => exact (leaves_pure _).asksSized_nil

theorem build_connection_asksSized (id : CmId) : AsksSized (build_connection env id) := by
  have hparts : AsksSized (build_parts env id) := by
    apply (build_context_leaves id).asksSized_nil.bind
    intro accepted
    cases accepted with
    | false => exact (leaves_pure _).asksSized_nil
    | true =>
      apply build_domain_asksSized.bind
      intro _
      apply build_completion_queue_asksSized.bind
      intro _
      apply build_poller_asksSized.bind
      intro _
      apply (build_queue_pair_asksSized id).bind
      intro created
      cases created with
      | false => exact (leaves_pure _).asksSized_nil
      | true =>
        apply ((build_meta_leaves id).asksSized (by simp) (by simp)).bind
        exact fun _ => (leaves_pure _).asksSized_nil
  apply hparts.bind
  intro ret
  apply ((leaves_record (C := [.result]) (by simp [Op.concern])).asksSized (by simp) (by simp)).bind
  exact fun _ => (leaves_pure _).asksSized_nil

end Sized

/-- The work request takes a place in the receive queue. -/
def Posting.is_recv : Posting → Bool
  | .post_meta_recv_wr _ _ => true
  | .post_meta_send_wr _ _ => false
  | .rdma_op _ _ => false

def QueueSizes.limit (sizes : QueueSizes) (recv : Bool) : Nat := if recv then sizes.max_recv_wr else sizes.max_send_wr

/-- A connection in use, with the work requests that have completed so far and
the status of each. -/
structure Loaded where
  polling : Polling
  finished : List (Posting × IbvWcStatus)

/-- A connection whose queue pair holds these work requests. -/
def Loaded.start (posted : List (UInt64 × Posting)) : Loaded :=
  { polling := { Polling.built with posted := posted }, finished := [] }

/-- The work requests whose completions wait in the queue. -/
def Loaded.waiting (s : Loaded) : List Posting :=
  (s.finished.drop (s.finished.length - s.polling.cq.queue.length)).map Prod.fst

/-- The work requests of one kind that are not completed or whose completion
has not been polled. -/
def Loaded.outstanding (s : Loaded) (recv : Bool) : Nat :=
  s.polling.posted.countP (fun p => p.2.is_recv == recv) + s.waiting.countP (·.is_recv == recv)

/-- A step of the connection. The queue pair takes a work request only as long
as there are fewer outstanding than it was created for. -/
def Loaded.step (sizes : QueueSizes) (s : Loaded) (act : PollAct) : Option Loaded :=
  match act with
  | .post _ posting =>
    if s.outstanding posting.is_recv < sizes.limit posting.is_recv then
      (s.polling.step act).map fun polling => { s with polling := polling }
    else none
  | .complete i status _ =>
    (s.polling.step act).map fun polling =>
      { polling := polling, finished := s.finished ++ (s.polling.posted[i]?.map fun p => (p.2, status)).toList }
  | .poll_cq _ => (s.polling.step act).map fun polling => { s with polling := polling }

/-- A step, with what it does to the work requests. -/
inductive LoadedMove (sizes : QueueSizes) (s : Loaded) : PollAct → Loaded → Prop where
  | post (this : UInt64) (posting : Posting) (hroom : s.outstanding posting.is_recv < sizes.limit posting.is_recv) :
      LoadedMove sizes s (.post this posting)
        { s with polling := { s.polling with posted := s.polling.posted ++ [(this, posting)] } }
  | complete (i : Nat) (this : UInt64) (posting : Posting) (status : IbvWcStatus) (opcode : IbvWcOpcode) (wc : IbvWc)
      (hposted : s.polling.posted[i]? = some (this, posting)) :
      LoadedMove sizes s (.complete i status opcode)
        { polling :=
            { s.polling with
              cq := s.polling.cq.add wc
              posted := s.polling.posted.eraseIdx i
              arrived := s.polling.arrived ++ [(this, wc)] }
          finished := s.finished ++ [(posting, status)] }
  | poll_cq (ok : Bool) (polling : Polling) (hposted : polling.posted = s.polling.posted)
      (hqueue : polling.cq.queue = s.polling.cq.queue ∨ ∃ wc, s.polling.cq.queue = wc :: polling.cq.queue) :
      LoadedMove sizes s (.poll_cq ok) { s with polling := polling }

/-- A step of the thread takes at most one completion from the queue. -/
theorem Polling.poll_cq_queue {s next : Polling} {ok : Bool} (hstep : s.poll_cq ok = some next) :
    next.posted = s.posted ∧ (next.cq.queue = s.cq.queue ∨ ∃ wc, s.cq.queue = wc :: next.cq.queue) := by
  unfold Polling.poll_cq at hstep
  split at hstep
  · cases ok with
    | true =>
      simp only [if_true, Option.map_eq_some_iff] at hstep
      obtain ⟨cq, htake, rfl⟩ := hstep
      obtain ⟨-, rfl⟩ := Notifier.take_event_eq_some htake
      exact ⟨rfl, .inl rfl⟩
    | false =>
      rw [if_neg (by simp)] at hstep
      split at hstep
      · cases hstep
        exact ⟨rfl, .inl rfl⟩
      · cases hstep
        exact ⟨rfl, .inl rfl⟩
  · cases hstep
    exact ⟨rfl, .inl rfl⟩
  · split at hstep
    · cases hstep
      exact ⟨rfl, .inl rfl⟩
    · cases hstep
      exact ⟨rfl, .inl rfl⟩
  · split at hstep
    · split at hstep
      · cases hstep
        exact ⟨rfl, .inl rfl⟩
      · rename_i wc cq hpoll
        cases hstep
        exact ⟨rfl, .inr ⟨wc, (Notifier.poll_eq_some hpoll).1⟩⟩
    · cases hstep
      exact ⟨rfl, .inl rfl⟩
  · cases hstep
    exact ⟨rfl, .inl rfl⟩

theorem Loaded.step_move {sizes : QueueSizes} {s next : Loaded} {act : PollAct} (hstep : s.step sizes act = some next) :
    LoadedMove sizes s act next := by
  unfold Loaded.step at hstep
  cases act with
  | post this posting =>
    dsimp only at hstep
    split at hstep
    · rename_i hroom
      obtain ⟨polling, hpolling, rfl⟩ := Option.map_eq_some_iff.mp hstep
      obtain ⟨-, hmove⟩ := Polling.step_move (by simp [PollAct.Succeeds]) hpolling
      cases hmove with
      | post => exact .post this posting hroom
    · cases hstep
  | complete i status opcode =>
    obtain ⟨polling, hpolling, rfl⟩ := Option.map_eq_some_iff.mp hstep
    obtain ⟨-, hmove⟩ := Polling.step_move (by simp [PollAct.Succeeds]) hpolling
    cases hmove with
    | complete _ this posting _ _ hposted =>
      rw [hposted]
      exact .complete i this posting status opcode _ hposted
  | poll_cq ok =>
    obtain ⟨polling, hpolling, rfl⟩ := Option.map_eq_some_iff.mp hstep
    unfold Polling.step at hpolling
    split at hpolling
    · cases hpolling
    · rename_i heq
      cases heq
    · rename_i heq
      cases heq
    · rename_i heq
      cases heq
      obtain ⟨hposted, hqueue⟩ := Polling.poll_cq_queue hpolling
      exact .poll_cq ok polling hposted hqueue

/-- All work requests that are not completed or whose completion has not been
polled. -/
def Loaded.load (s : Loaded) : Nat := s.outstanding true + s.outstanding false

/-- A work request is posted only as long as the completion queue has an entry
for each one that is outstanding. -/
def Loaded.Fits (sizes : QueueSizes) (s : Loaded) : PollAct → Prop
  | .post _ _ => s.load < sizes.cqe
  | _ => True

instance (sizes : QueueSizes) (s : Loaded) (act : PollAct) : Decidable (s.Fits sizes act) :=
  match act with
  | .post _ _ => Nat.decLt _ _
  | .complete _ _ _ => .isTrue trivial
  | .poll_cq _ => .isTrue trivial

theorem countP_kinds {α : Type} (kind : α → Bool) (l : List α) :
    l.countP (kind · == true) + l.countP (kind · == false) = l.length := by
  have hlength := List.length_eq_countP_add_countP kind (l := l)
  simpa using hlength.symm

theorem Loaded.load_eq (s : Loaded) : s.load = s.polling.posted.length + s.waiting.length := by
  have hposted := countP_kinds (fun p : UInt64 × Posting => p.2.is_recv) s.polling.posted
  have hwaiting := countP_kinds Posting.is_recv s.waiting
  unfold Loaded.load Loaded.outstanding
  omega

/-- Each completion in the queue is that of a work request that has completed. -/
def Loaded.Counted (s : Loaded) : Prop := s.polling.cq.queue.length ≤ s.finished.length

theorem Loaded.Counted.load_eq {s : Loaded} (h : s.Counted) :
    s.load = s.polling.posted.length + s.polling.cq.queue.length := by
  unfold Loaded.Counted at h
  rw [s.load_eq, Loaded.waiting, List.length_map, List.length_drop]
  omega

theorem Loaded.counted_start (posted : List (UInt64 × Posting)) : (Loaded.start posted).Counted := Nat.le_refl 0

variable {sizes : QueueSizes} {s next last : Loaded} {acts : List PollAct}

theorem Loaded.Counted.step (h : s.Counted) {act : PollAct} (hstep : s.step sizes act = some next) : next.Counted := by
  have hmove := Loaded.step_move hstep
  unfold Loaded.Counted at h ⊢
  cases hmove with
  | post this posting hroom => exact h
  | complete i this posting status opcode wc hposted => simpa using h
  | poll_cq ok polling hposted hqueue =>
    rcases hqueue with hqueue | ⟨wc, hqueue⟩
    · rw [hqueue]
      exact h
    · rw [hqueue, List.length_cons] at h
      exact Nat.le_of_succ_le h

/-- Only posting adds to the load. -/
theorem Loaded.Counted.load_step (h : s.Counted) {act : PollAct} (hfits : s.Fits sizes act) (hload : s.load ≤ sizes.cqe)
    (hstep : s.step sizes act = some next) : next.load ≤ sizes.cqe := by
  rw [(h.step hstep).load_eq]
  have hmove := Loaded.step_move hstep
  cases hmove with
  | post this posting hroom =>
    have hless : s.load < sizes.cqe := hfits
    rw [h.load_eq] at hless
    rw [List.length_append, List.length_singleton]
    dsimp only
    omega
  | complete i this posting status opcode wc hposted =>
    rw [h.load_eq] at hload
    have hi : i < s.polling.posted.length := (List.getElem?_eq_some_iff.mp hposted).1
    rw [Notifier.add_queue, List.length_append, List.length_singleton, List.length_eraseIdx_of_lt hi]
    omega
  | poll_cq ok polling hposted hqueue =>
    rw [h.load_eq] at hload
    dsimp only
    rw [hposted]
    rcases hqueue with hqueue | ⟨wc, hqueue⟩
    · rw [hqueue]
      exact hload
    · rw [hqueue, List.length_cons] at hload
      omega

theorem Loaded.Counted.queue_le (h : s.Counted) (hload : s.load ≤ sizes.cqe) :
    s.polling.cq.queue.length ≤ sizes.cqe := by
  rw [h.load_eq] at hload
  omega

/-- What is counted, and has an entry for each completion. -/
theorem Loaded.run_load_le (h : s.Counted) (hload : s.load ≤ sizes.cqe)
    (hmeet : StepsMeet (Loaded.step sizes) (Loaded.Fits sizes) s acts)
    (hrun : run (Loaded.step sizes) s acts = some last) :
    last.Counted ∧ last.load ≤ sizes.cqe := by
  apply run_invariant_of_meet (I := fun s => s.Counted ∧ s.load ≤ sizes.cqe) ?_ hmeet ⟨h, hload⟩ hrun
  rintro s act next hfits ⟨h, hload⟩ hstep
  exact ⟨h.step hstep, h.load_step hfits hload hstep⟩

/-- The device completes every work request that is posted. -/
def complete_all (n : Nat) : List PollAct := List.replicate n (.complete 0 .IBV_WC_SUCCESS (.other 0))

/-- When all that is outstanding completes before the thread polls, the queue
has a completion for each. -/
theorem Loaded.Counted.complete_all (h : s.Counted) (hfault : s.polling.fault = none) :
    ∃ last, run (Loaded.step sizes) s (complete_all s.polling.posted.length) = some last ∧
      last.polling.cq.queue.length = s.load := by
  generalize hn : s.polling.posted.length = n
  induction n generalizing s with
  | zero => exact ⟨s, rfl, by rw [h.load_eq, hn, Nat.zero_add]⟩
  | succ n ih =>
    have hfirst : 0 < s.polling.posted.length := by omega
    obtain ⟨⟨this, posting⟩, hposted⟩ : ∃ entry, s.polling.posted[0]? = some entry :=
      ⟨_, List.getElem?_eq_getElem hfirst⟩
    obtain ⟨next, hstep, hnext⟩ : ∃ next, s.step sizes (.complete 0 .IBV_WC_SUCCESS (.other 0)) = some next ∧
        next.polling.fault = none := by
      unfold Loaded.step Polling.step
      simp [hfault, hposted]
    have hload : next.load = s.load ∧ next.polling.posted.length = n := by
      rw [(h.step hstep).load_eq, h.load_eq]
      have hmove := Loaded.step_move hstep
      cases hmove with
      | complete _ _ _ _ _ wc _ =>
        rw [Notifier.add_queue, List.length_append, List.length_singleton, List.length_eraseIdx_of_lt hfirst]
        omega
    obtain ⟨last, hrest, hlength⟩ := ih (h.step hstep) hnext hload.2
    exact ⟨last, run_cons_eq_some.mpr ⟨next, hstep, hrest⟩, hlength.trans hload.1⟩

/-- Whenever a work request is posted without an entry for its completion, the
queue overruns if everything completes before the thread polls. -/
theorem Loaded.Counted.overrun (h : s.Counted) {this : UInt64} {posting : Posting} (hfull : sizes.cqe ≤ s.load)
    (hstep : s.step sizes (.post this posting) = some next) :
    ∃ n last, run (Loaded.step sizes) next (tc_rdma.rdma_com.complete_all n) = some last ∧
      sizes.cqe < last.polling.cq.queue.length := by
  have hfault : s.polling.fault = none := by
    by_contra hsome
    obtain ⟨fault, hfault⟩ := Option.ne_none_iff_exists'.mp hsome
    simp [Loaded.step, Polling.step, hfault] at hstep
  have hmore : sizes.cqe < next.load ∧ next.polling.fault = none := by
    rw [(h.step hstep).load_eq]
    rw [h.load_eq] at hfull
    have hmove := Loaded.step_move hstep
    cases hmove with
    | post _ _ hroom =>
      rw [List.length_append, List.length_singleton]
      exact ⟨by dsimp only; omega, hfault⟩
  obtain ⟨last, hrun, hlength⟩ := (h.step hstep).complete_all hmore.2
  exact ⟨_, last, hrun, by rw [hlength]; exact hmore.1⟩

/-- The connection with more work requests posted. -/
def Loaded.post (s : Loaded) (more : List (UInt64 × Posting)) : Loaded :=
  { s with polling := { s.polling with posted := s.polling.posted ++ more } }

theorem Loaded.post_append (s : Loaded) (more more' : List (UInt64 × Posting)) :
    (s.post more).post more' = s.post (more ++ more') := by
  simp [Loaded.post]

/-- A queue pair takes as many work requests of a kind as there is room for. -/
theorem Loaded.run_posts (n : Nat) {this : UInt64} {posting : Posting} (hfault : s.polling.fault = none)
    (hroom : s.outstanding posting.is_recv + n ≤ sizes.limit posting.is_recv) :
    run (Loaded.step sizes) s (List.replicate n (.post this posting)) =
      some (s.post (List.replicate n (this, posting))) := by
  induction n generalizing s with
  | zero => simp [Loaded.post]
  | succ n ih =>
    have hstep : s.step sizes (.post this posting) = some (s.post [(this, posting)]) := by
      have hless : s.outstanding posting.is_recv < sizes.limit posting.is_recv := by omega
      simp [Loaded.step, Polling.step, Loaded.post, hfault, hless]
    have hmore : (s.post [(this, posting)]).outstanding posting.is_recv = s.outstanding posting.is_recv + 1 := by
      simp only [Loaded.outstanding, Loaded.waiting, Loaded.post, List.countP_append, List.countP_singleton,
        beq_self_eq_true, if_true]
      omega
    have hrest := ih (s := s.post [(this, posting)]) hfault (by omega)
    rw [Loaded.post_append, List.singleton_append, ← List.replicate_succ] at hrest
    rw [List.replicate_succ]
    exact run_cons_eq_some.mpr ⟨_, hstep, hrest⟩

/-- Whatever the size, the queue pair takes more than the completion queue has
entries for. -/
theorem ConnParameter.overrun {conn_params : ConnParameter} (hpos : 0 < conn_params.wr_cq_number) :
    ∃ acts s, run (Loaded.step conn_params.queue_sizes) (Loaded.start []) acts = some s ∧
      conn_params.queue_sizes.cqe < s.polling.cq.queue.length := by
  have hrecvs : run (Loaded.step conn_params.queue_sizes) (Loaded.start [])
      (List.replicate conn_params.wr_cq_number (.post 64 (.post_meta_recv_wr 4096 7))) =
      some ((Loaded.start []).post (List.replicate conn_params.wr_cq_number (64, .post_meta_recv_wr 4096 7))) :=
    Loaded.run_posts conn_params.wr_cq_number rfl (Nat.le_of_eq (Nat.zero_add _))
  generalize hs : (Loaded.start []).post (List.replicate conn_params.wr_cq_number (64, .post_meta_recv_wr 4096 7)) = s
    at hrecvs
  have hcounted : s.Counted := by
    rw [← hs]
    exact Loaded.counted_start []
  have hfault : s.polling.fault = none := by
    rw [← hs]
    rfl
  have hload : s.load = conn_params.wr_cq_number := by
    rw [hcounted.load_eq, ← hs]
    simp [Loaded.post, Loaded.start, Polling.built, Notifier.empty, Notifier.arm]
  have hsends : s.outstanding false = 0 := by
    rw [← hs]
    simp [Loaded.outstanding, Loaded.waiting, Loaded.post, Loaded.start, Posting.is_recv]
  have hroom : s.outstanding false + 1 ≤ conn_params.wr_cq_number := by omega
  have hsend : run (Loaded.step conn_params.queue_sizes) s [.post 64 (.post_meta_send_wr 8192 9)] =
      some (s.post [(64, .post_meta_send_wr 8192 9)]) := Loaded.run_posts 1 hfault hroom
  obtain ⟨next, hstep, hnext⟩ := run_cons_eq_some.mp hsend
  cases hnext
  obtain ⟨n, last, hrun, hmore⟩ := hcounted.overrun (Nat.le_of_eq hload.symm) hstep
  exact ⟨_, last, run_append_of_eq_some hrecvs (run_cons_eq_some.mpr ⟨_, hstep, hrun⟩), hmore⟩

/-- In no state of a run are there more completions than the queue has entries,
nor can there be once what is outstanding completes, if and only if every work
request is posted while fewer than `wr_cq_number` are outstanding, sends and
receives together. -/
theorem ConnParameter.queue_le_cqe_iff {conn_params : ConnParameter}
    (hrun : run (Loaded.step conn_params.queue_sizes) (Loaded.start []) acts = some s) :
    (∀ front back mid, acts = front ++ back → run (Loaded.step conn_params.queue_sizes) (Loaded.start []) front = some mid →
      ∀ n last, run (Loaded.step conn_params.queue_sizes) mid (complete_all n) = some last →
        last.polling.cq.queue.length ≤ conn_params.wr_cq_number) ↔
    StepsMeet (Loaded.step conn_params.queue_sizes) (fun s act => ∀ this posting, act = .post this posting →
      s.outstanding true + s.outstanding false < conn_params.wr_cq_number) (Loaded.start []) acts := by
  have hstart := Loaded.counted_start []
  constructor
  · rintro hle front act back mid rfl hmid this posting rfl
    by_contra hnot
    obtain ⟨mid', hmid', hback⟩ := run_append_eq_some.mp hrun
    obtain rfl : mid' = mid := Option.some.inj (hmid'.symm.trans hmid)
    obtain ⟨next, hstep, -⟩ := run_cons_eq_some.mp hback
    have hcounted : mid'.Counted := run_invariant (fun _ _ _ h hstep => h.step hstep) hstart hmid
    have hfull : conn_params.queue_sizes.cqe ≤ mid'.load := Nat.le_of_not_lt hnot
    obtain ⟨n, last, hlast, hmore⟩ := hcounted.overrun hfull hstep
    have hbound := hle (front ++ [.post this posting]) back next (by simp)
      (run_append_of_eq_some hmid (run_singleton_of_step hstep)) n last hlast
    exact absurd hmore (Nat.not_lt_of_le hbound)
  · rintro hmeet front back mid rfl hmid n last hlast
    have hfits : StepsMeet (Loaded.step conn_params.queue_sizes) (Loaded.Fits conn_params.queue_sizes) (Loaded.start [])
        front := by
      intro before act after between heq hbetween
      have hless := hmeet.of_append before act after between heq hbetween
      cases act with
      | post this posting => exact hless this posting rfl
      | complete _ _ _ => trivial
      | poll_cq _ => trivial
    obtain ⟨hcounted, hload⟩ := Loaded.run_load_le hstart (Nat.zero_le _) hfits hmid
    have hcompletes : StepsMeet (Loaded.step conn_params.queue_sizes) (Loaded.Fits conn_params.queue_sizes) mid
        (complete_all n) := by
      apply stepsMeet_of_forall
      intro act hact between
      rw [List.eq_of_mem_replicate hact]
      trivial
    obtain ⟨hcounted, hload⟩ := Loaded.run_load_le hcounted hload hcompletes hlast
    exact hcounted.queue_le hload

/-- With 127 receives and a send the completion queue is booked to its last
entry. All complete, one completion is polled, and another send takes its
place. -/
def fullLoad : List PollAct :=
  List.replicate 127 (.post 64 (.post_meta_recv_wr 4096 7)) ++ [.post 64 (.post_meta_send_wr 8192 9)] ++
    complete_all 128 ++ List.replicate 4 (.poll_cq true) ++ [.post 64 (.post_meta_send_wr 8192 9)]

theorem queue_le_cqe_iff_full :
    ∃ s, run (Loaded.step serverConn.conn_params.queue_sizes) (Loaded.start []) fullLoad = some s ∧
      s.polling.cq.queue.length = 127 ∧ s.outstanding true = 126 ∧ s.outstanding false = 2 ∧
      ∀ front back mid, fullLoad = front ++ back →
        run (Loaded.step serverConn.conn_params.queue_sizes) (Loaded.start []) front = some mid →
        ∀ n last, run (Loaded.step serverConn.conn_params.queue_sizes) mid (complete_all n) = some last →
          last.polling.cq.queue.length ≤ 128 := by
  have hends : (run (Loaded.step serverConn.conn_params.queue_sizes) (Loaded.start []) fullLoad).any (fun s =>
      decide (s.polling.cq.queue.length = 127 ∧ s.outstanding true = 126 ∧ s.outstanding false = 2)) = true := by
    decide +kernel
  have hfits : StepsMeet (Loaded.step serverConn.conn_params.queue_sizes) (Loaded.Fits serverConn.conn_params.queue_sizes)
      (Loaded.start []) fullLoad := by
    decide +kernel
  obtain ⟨s, hrun, hs⟩ := (Option.any_eq_true _ _).mp hends
  obtain ⟨hlength, hrecvs, hsends⟩ := of_decide_eq_true hs
  refine ⟨s, hrun, hlength, hrecvs, hsends, (ConnParameter.queue_le_cqe_iff hrun).mpr (hfits.mono ?_)⟩
  rintro mid act hfit this posting rfl
  exact hfit

theorem overrun_of_server :
    ¬ ∀ (conn_params : ConnParameter) (acts : List PollAct) (s : Loaded),
      run (Loaded.step conn_params.queue_sizes) (Loaded.start []) acts = some s →
        s.polling.cq.queue.length ≤ conn_params.wr_cq_number := by
  intro hle
  have hpos : 0 < serverConn.conn_params.wr_cq_number := by decide
  obtain ⟨acts, s, hrun, hmore⟩ := ConnParameter.overrun hpos
  exact absurd hmore (Nat.not_lt_of_le (hle _ acts s hrun))

end tc_rdma.rdma_com
