import TcRdma.Machine.Run
import TcRdma.RdmaCom.PollCq
import TcRdma.RdmaCom.RunResult

open tc_rdma.machine

namespace tc_rdma.rdma_com

/-- How a run of a connection ends. -/
inductive RunEnd where
  | returned (ret : Status)
  | halted (halt : Halt)
  deriving DecidableEq, Repr

def ConnectionProc.is_server (conn : ConnectionProc) : Bool := decide (conn.conn_params.env.machine = .SERVER)

/-- The run that `rdma_conn_thread` makes for this object: all that it does,
and how it ends. -/
def conn_run (env : Env) (events : Events) (conn : ConnectionProc) : List Entry × RunEnd :=
  let side : Side := if conn.is_server then .server else .client
  match side.run env events (.start conn) with
  | .ok ret w => (w.log, .returned ret)
  | .error halt w => (w.log, .halted halt)

/-- Where `main` is, once the object has been constructed: before it creates
the thread, in `sleep`, in the loop before the load of `is_alive`, or before
its return. -/
inductive MainPc where
  | spawning
  | sleeping
  | looking
  | leaving
  deriving DecidableEq, Repr

/-- Where `rdma_conn_thread` is: not created yet, before `set_alive(true)`, in
`run` with what it still has to do, before `set_alive(false)`, or done. -/
inductive ConnThreadPc where
  | unborn
  | starting
  | running (todo : List Entry)
  | ending
  | finished
  deriving DecidableEq, Repr

/-- The thread that ends the process, and why: `run` fails an assertion or
follows a pointer it must not follow, or a thread of `poll_cq` does. -/
inductive Abort where
  | run (halt : Halt)
  | poll_cq (i : Nat) (fault : PollFault)
  deriving DecidableEq, Repr

/-- The threads of the process: `main`, `rdma_conn_thread`, and a thread of
`poll_cq` for each call of `pthread_create` that has succeeded. What `run` has
done so far is kept. The process ends when `main` returns or when another
thread aborts it. -/
structure Process where
  main : MainPc
  conn_thread : ConnThreadPc
  pollers : List Polling
  thread_alive : Bool
  done : List Entry
  exit : Option Nat
  aborted : Option Abort

/-- No constructor initializes `thread_alive`, so it begins with whatever the
memory from `malloc` holds. -/
def Process.start (garbage : Bool) : Process :=
  { main := .spawning, conn_thread := .unborn, pollers := [], thread_alive := garbage, done := [], exit := none,
    aborted := none }

/-- `main`, one step. -/
def Process.main_step (s : Process) : Process :=
  match s.main with
  | .spawning => { s with main := .sleeping, conn_thread := .starting }
  | .sleeping => { s with main := .looking }
  | .looking => if s.thread_alive then s else { s with main := .leaving }
  | .leaving => { s with exit := some 0 }

/-- `build_connection` has started a thread of `poll_cq`. -/
def Op.starts_poller : Op → Bool
  | .call _ .pthread_create true => true
  | _ => false

/-- `rdma_conn_thread`, one step. A run that waits for an event for ever does
not go on. -/
def Process.rdma_conn_thread (conn_run : List Entry × RunEnd) (s : Process) : Option Process :=
  match s.conn_thread with
  | .unborn => none
  | .starting => some { s with thread_alive := true, conn_thread := .running conn_run.1 }
  | .running (entry :: todo) =>
    some { s with
      done := s.done ++ [entry]
      pollers := if entry.op.starts_poller then s.pollers ++ [Polling.built] else s.pollers
      conn_thread := .running todo }
  | .running [] =>
    match conn_run.2 with
    | .returned _ => some { s with conn_thread := .ending }
    | .halted (.blocked _) => none
    | .halted halt => some { s with aborted := some (.run halt) }
  | .ending => some { s with thread_alive := false, conn_thread := .finished }
  | .finished => none

/-- A thread of `poll_cq` moves, or what it waits for: any completions. -/
def Process.poller (s : Process) (i : Nat) (act : PollAct) : Option Process :=
  match s.pollers[i]? with
  | none => none
  | some poller =>
    (poller.step act).map fun next =>
      { s with pollers := s.pollers.set i next, aborted := next.fault.map (Abort.poll_cq i) }

inductive ProcessAct where
  | main
  | conn_thread
  | poller (i : Nat) (act : PollAct)
  deriving DecidableEq, Repr

def Process.step (conn_run : List Entry × RunEnd) (s : Process) (act : ProcessAct) : Option Process :=
  match s.exit, s.aborted, act with
  | none, none, .main => some s.main_step
  | none, none, .conn_thread => s.rdma_conn_thread conn_run
  | none, none, .poller i act => s.poller i act
  | _, _, _ => none

/-- A step with its guard, one case for each branch. -/
inductive ProcessMove (conn_run : List Entry × RunEnd) (s : Process) : ProcessAct → Process → Prop where
  | spawn (hpc : s.main = .spawning) :
      ProcessMove conn_run s .main { s with main := .sleeping, conn_thread := .starting }
  | slept (hpc : s.main = .sleeping) : ProcessMove conn_run s .main { s with main := .looking }
  | alive (hpc : s.main = .looking) (halive : s.thread_alive = true) : ProcessMove conn_run s .main s
  | dead (hpc : s.main = .looking) (hdead : s.thread_alive = false) :
      ProcessMove conn_run s .main { s with main := .leaving }
  | leave (hpc : s.main = .leaving) : ProcessMove conn_run s .main { s with exit := some 0 }
  | set_alive (hpc : s.conn_thread = .starting) :
      ProcessMove conn_run s .conn_thread { s with thread_alive := true, conn_thread := .running conn_run.1 }
  | work (entry : Entry) (todo : List Entry) (hpc : s.conn_thread = .running (entry :: todo)) :
      ProcessMove conn_run s .conn_thread
        { s with
          done := s.done ++ [entry]
          pollers := if entry.op.starts_poller then s.pollers ++ [Polling.built] else s.pollers
          conn_thread := .running todo }
  | returned (hpc : s.conn_thread = .running []) (ret : Status) (hend : conn_run.2 = .returned ret) :
      ProcessMove conn_run s .conn_thread { s with conn_thread := .ending }
  | abort (hpc : s.conn_thread = .running []) (halt : Halt) (hend : conn_run.2 = .halted halt)
      (hblocked : ∀ site, halt ≠ .blocked site) :
      ProcessMove conn_run s .conn_thread { s with aborted := some (.run halt) }
  | clear_alive (hpc : s.conn_thread = .ending) :
      ProcessMove conn_run s .conn_thread { s with thread_alive := false, conn_thread := .finished }
  | poller (i : Nat) (act : PollAct) (poller next : Polling) (hi : s.pollers[i]? = some poller)
      (hpoll : poller.step act = some next) :
      ProcessMove conn_run s (.poller i act)
        { s with pollers := s.pollers.set i next, aborted := next.fault.map (Abort.poll_cq i) }

variable {out : List Entry × RunEnd} {s next last : Process} {acts : List ProcessAct} {garbage : Bool}

theorem Process.step_move {act : ProcessAct} (hstep : s.step out act = some next) :
    s.exit = none ∧ s.aborted = none ∧ ProcessMove out s act next := by
  unfold Process.step at hstep
  split at hstep
  · rename_i hexit haborted
    refine ⟨hexit, haborted, ?_⟩
    unfold Process.main_step at hstep
    split at hstep
    · cases hstep
      exact .spawn ‹_›
    · cases hstep
      exact .slept ‹_›
    · split at hstep
      · cases hstep
        exact .alive ‹_› ‹_›
      · cases hstep
        exact .dead ‹_› ((Bool.not_eq_true _).mp ‹_›)
    · cases hstep
      exact .leave ‹_›
  · rename_i hexit haborted
    refine ⟨hexit, haborted, ?_⟩
    unfold Process.rdma_conn_thread at hstep
    split at hstep
    · cases hstep
    · cases hstep
      exact .set_alive ‹_›
    · cases hstep
      exact .work _ _ ‹_›
    · split at hstep
      · cases hstep
        exact .returned ‹_› _ ‹_›
      · cases hstep
      · rename_i hpc _ halt hblocked hend
        cases hstep
        exact .abort hpc halt hend fun site heq => hblocked site heq
    · cases hstep
      exact .clear_alive ‹_›
    · cases hstep
  · rename_i i act hexit haborted
    refine ⟨hexit, haborted, ?_⟩
    unfold Process.poller at hstep
    split at hstep
    · cases hstep
    · rename_i poller hi
      obtain ⟨polled, hpoll, rfl⟩ := Option.map_eq_some_iff.mp hstep
      exact .poller i act poller polled hi hpoll
  · cases hstep

/-- What the thread has done and still has to do add up to the run, and
`thread_alive` tells whether it is at work. -/
def ConnThreadPc.Fits (out : List Entry × RunEnd) (garbage : Bool) (s : Process) : ConnThreadPc → Prop
  | .unborn => s.done = [] ∧ s.thread_alive = garbage
  | .starting => s.done = [] ∧ s.thread_alive = garbage
  | .running todo => s.done ++ todo = out.1 ∧ s.thread_alive = true
  | .ending => s.done = out.1 ∧ s.thread_alive = true ∧ ∃ ret, out.2 = .returned ret
  | .finished => s.done = out.1 ∧ s.thread_alive = false ∧ ∃ ret, out.2 = .returned ret

/-- Why the process has been aborted: the run has come to the end that it has,
or a call of a thread that `build_connection` has started has failed. -/
def Process.Caused (out : List Entry × RunEnd) (s : Process) : Abort → Prop
  | .run halt => out.2 = .halted halt ∧ s.done = out.1
  | .poll_cq i fault => ∃ poller, s.pollers[i]? = some poller ∧ poller.fault = some fault

structure Attended (out : List Entry × RunEnd) (garbage : Bool) (s : Process) : Prop where
  conn_thread : s.conn_thread.Fits out garbage s
  progress : s.done <+: out.1
  unborn : s.conn_thread = .unborn ↔ s.main = .spawning
  leaving : s.main = .leaving → garbage = false ∨ ∃ ret, out.2 = .returned ret
  pollers : s.pollers.length = s.done.countP fun entry => entry.op.starts_poller
  exit : ∀ code, s.exit = some code → code = 0 ∧ s.main = .leaving
  aborted : ∀ abort, s.aborted = some abort → s.Caused out abort

/-- What `main` sees when `thread_alive` is false. -/
theorem Attended.of_dead (h : Attended out garbage s) (hdead : s.thread_alive = false) :
    (garbage = false ∧ (s.conn_thread = .unborn ∨ s.conn_thread = .starting)) ∨
      (s.conn_thread = .finished ∧ ∃ ret, out.2 = .returned ret) := by
  have hthread := h.conn_thread
  cases hpc : s.conn_thread with
  | unborn =>
    rw [hpc] at hthread
    exact .inl ⟨hthread.2.symm.trans hdead, .inl rfl⟩
  | starting =>
    rw [hpc] at hthread
    exact .inl ⟨hthread.2.symm.trans hdead, .inr rfl⟩
  | running todo =>
    rw [hpc] at hthread
    simp [hthread.2] at hdead
  | ending =>
    rw [hpc] at hthread
    simp [hthread.2.1] at hdead
  | finished =>
    rw [hpc] at hthread
    exact .inr ⟨rfl, hthread.2.2⟩

theorem Attended.step (h : Attended out garbage s) {act : ProcessAct} (hstep : s.step out act = some next) :
    Attended out garbage next := by
  obtain ⟨hexit, haborted, hmove⟩ := Process.step_move hstep
  have hthread := h.conn_thread
  have hunborn := h.unborn
  cases hmove with
  | spawn hpc =>
    rw [hunborn.mpr hpc] at hthread
    exact { h with
      conn_thread := hthread
      unborn := by simp
      leaving := by simp
      exit := by simp [hexit]
      aborted := by simp [haborted] }
  | slept hpc =>
    have hborn : s.conn_thread ≠ .unborn := fun heq => by simp [hunborn.mp heq] at hpc
    exact { h with
      unborn := by simp [hborn]
      leaving := by simp
      exit := by simp [hexit]
      aborted := by simp [haborted] }
  | alive hpc halive => exact h
  | dead hpc hdead =>
    have hborn : s.conn_thread ≠ .unborn := fun heq => by simp [hunborn.mp heq] at hpc
    refine { h with
      unborn := by simp [hborn]
      leaving := fun _ => ?_
      exit := by simp [hexit]
      aborted := by simp [haborted] }
    exact (h.of_dead hdead).imp (fun hearly => hearly.1) fun hdone => hdone.2
  | leave hpc =>
    exact { h with exit := by rintro code ⟨⟩; exact ⟨rfl, hpc⟩, aborted := by simp [haborted] }
  | set_alive hpc =>
    rw [hpc] at hthread hunborn
    exact { h with
      conn_thread := ⟨by rw [hthread.1]; rfl, rfl⟩
      unborn := by simpa using hunborn
      aborted := by simp [haborted] }
  | work entry todo hpc =>
    rw [hpc] at hthread hunborn
    have hdone : (s.done ++ [entry]) ++ todo = out.1 := by simpa using hthread.1
    refine { h with
      conn_thread := ⟨hdone, hthread.2⟩
      progress := ⟨todo, hdone⟩
      unborn := by simpa using hunborn
      pollers := ?_
      aborted := by simp [haborted] }
    have hpollers := h.pollers
    simp only [List.countP_append, List.countP_singleton]
    split <;> simp_all
  | returned hpc ret hend =>
    rw [hpc] at hthread hunborn
    exact { h with
      conn_thread := ⟨by simpa using hthread.1, hthread.2, ret, hend⟩
      unborn := by simpa using hunborn
      aborted := by simp [haborted] }
  | abort hpc halt hend hblocked =>
    rw [hpc] at hthread
    exact { h with aborted := by rintro abort ⟨⟩; exact ⟨hend, by simpa using hthread.1⟩ }
  | clear_alive hpc =>
    rw [hpc] at hthread hunborn
    exact { h with
      conn_thread := ⟨hthread.1, rfl, hthread.2.2⟩
      unborn := by simpa using hunborn
      aborted := by simp [haborted] }
  | poller i act poller polled hi hpoll =>
    refine { h with pollers := by rw [List.length_set]; exact h.pollers, aborted := ?_ }
    intro abort habort
    obtain ⟨fault, hfault, rfl⟩ := Option.map_eq_some_iff.mp habort
    have hlength := (List.getElem?_eq_some_iff.mp hi).1
    exact ⟨polled, by rw [List.getElem?_set_self hlength], hfault⟩

/-- A step of `poll_cq` whose call succeeds stops nothing. -/
theorem PollMove.no_fault {poller polled : Polling} {act : PollAct} (hfault : poller.fault = none)
    (hmove : PollMove poller act polled) : polled.fault = none := by
  cases hmove <;> exact hfault

/-- The steps the thread has left when its run returns. -/
def ConnThreadPc.rank (out : List Entry × RunEnd) : ConnThreadPc → Nat
  | .unborn => out.1.length + 5
  | .starting => out.1.length + 4
  | .running todo => todo.length + 3
  | .ending => 1
  | .finished => 0

/-- Neither of the ends of the process has come. -/
structure Going (out : List Entry × RunEnd) (garbage : Bool) (s : Process) : Prop where
  attended : Attended out garbage s
  exit : s.exit = none
  aborted : s.aborted = none

theorem Going.advance (h : Going out garbage s) {ret : Status} (hend : out.2 = .returned ret)
    (hpos : 0 < s.conn_thread.rank out) :
    ∃ act next, s.step out act = some next ∧ Going out garbage next ∧
      next.conn_thread.rank out < s.conn_thread.rank out := by
  have hexit := h.exit
  have haborted := h.aborted
  have hgoing : ∀ {act next}, s.step out act = some next → next.exit = none → next.aborted = none →
      Going out garbage next := fun hstep hexit haborted => ⟨h.attended.step hstep, hexit, haborted⟩
  cases hpc : s.conn_thread with
  | unborn =>
    have hmain := h.attended.unborn.mp hpc
    have hstep : s.step out .main = some { s with main := .sleeping, conn_thread := .starting } := by
      simp [Process.step, Process.main_step, hexit, haborted, hmain]
    exact ⟨_, _, hstep, hgoing hstep hexit haborted, by simp [ConnThreadPc.rank]⟩
  | starting =>
    have hstep : s.step out .conn_thread = some { s with thread_alive := true, conn_thread := .running out.1 } := by
      simp [Process.step, Process.rdma_conn_thread, hexit, haborted, hpc]
    exact ⟨_, _, hstep, hgoing hstep hexit haborted, by simp [ConnThreadPc.rank]⟩
  | running todo =>
    cases todo with
    | nil =>
      have hstep : s.step out .conn_thread = some { s with conn_thread := .ending } := by
        simp [Process.step, Process.rdma_conn_thread, hexit, haborted, hpc, hend]
      exact ⟨_, _, hstep, hgoing hstep hexit haborted, by simp [ConnThreadPc.rank]⟩
    | cons entry todo =>
      have hstep : s.step out .conn_thread =
          some { s with
            done := s.done ++ [entry]
            pollers := if entry.op.starts_poller then s.pollers ++ [Polling.built] else s.pollers
            conn_thread := .running todo } := by
        simp [Process.step, Process.rdma_conn_thread, hexit, haborted, hpc]
      exact ⟨_, _, hstep, hgoing hstep hexit haborted, by simp [ConnThreadPc.rank]⟩
  | ending =>
    have hstep : s.step out .conn_thread = some { s with thread_alive := false, conn_thread := .finished } := by
      simp [Process.step, Process.rdma_conn_thread, hexit, haborted, hpc]
    exact ⟨_, _, hstep, hgoing hstep hexit haborted, by simp [ConnThreadPc.rank]⟩
  | finished => simp [hpc, ConnThreadPc.rank] at hpos

/-- A run that returns lets the thread clear `thread_alive`. -/
theorem Going.finish (h : Going out garbage s) {ret : Status} (hend : out.2 = .returned ret) :
    ∃ more last, run (Process.step out) s more = some last ∧ Going out garbage last ∧
      last.conn_thread = .finished := by
  have hlower : ∀ a : Process, Going out garbage a → 0 < a.conn_thread.rank out →
      ∃ ls b, (∀ act ∈ ls, True) ∧ run (Process.step out) a ls = some b ∧
        Going out garbage b ∧ b.conn_thread.rank out < a.conn_thread.rank out := by
    intro a ha hpos
    obtain ⟨act, b, hstep, hb, hlt⟩ := ha.advance hend hpos
    exact ⟨[act], b, by simp, run_singleton_of_step hstep, hb, hlt⟩
  obtain ⟨more, last, -, hrun, hlast, hzero⟩ := run_reaches hlower h
  refine ⟨more, last, hrun, hlast, ?_⟩
  cases hpc : last.conn_thread with
  | finished => rfl
  | _ => simp [hpc, ConnThreadPc.rank] at hzero

end tc_rdma.rdma_com
