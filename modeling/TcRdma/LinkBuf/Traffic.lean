import TcRdma.LinkBuf.Tracking
import TcRdma.Machine.Log

open tc_rdma.machine

namespace tc_rdma.link_buf

variable {capacity : Capacity} {ι : Type} [DecidableEq ι]

/-- `clear_links`, one atomic step at index `i`: the store that clears a slot,
or after the last of them the store of the tail, which ends the call. -/
def LinkBuf.clear_links (self : LinkBuf capacity) (i : Nat) : LinkBuf capacity × Option Nat :=
  if hi : i < capacity.val then ({ self with m_links := Function.update self.m_links ⟨i, hi⟩ 0 }, some (i + 1))
  else ({ self with m_tail := 0 }, none)

def LinkBuf.set_tail (self : LinkBuf capacity) (position : Nat) : LinkBuf capacity := { self with m_tail := position }

/-- Where the tracking thread is: in `advance_tail` or between two calls, or in
`clear_links` before the slot with this index. -/
inductive TrackerPc where
  | advancing (pc : AdvancePc)
  | clearing (i : Nat)
  deriving DecidableEq, Repr

/-- What the history tells: a link was stored, the tracking thread followed a
link from one position to another, it called `clear_links`, or it put the tail
somewhere, in `set_tail` or at the end of `clear_links`. -/
inductive LinkEvent where
  | added (l : Interval)
  | followed (from_pos to_pos : Nat)
  | cleared
  | tail_set (position : Nat)
  deriving DecidableEq, Repr

/-- A buffer used by any number of threads that add links and one thread that
tracks the tail. The history holds the positions for which `has_space` has
returned true, the link whose distance is in each slot, and what happened. -/
structure Traffic (ι : Type) (capacity : Capacity) where
  buf : LinkBuf capacity
  granted : List Nat
  /-- the link a thread has passed the assertions of `add_link` with -/
  adding : ι → Option Interval
  tracker : TrackerPc
  holds : Fin capacity.val → Option Interval
  events : List LinkEvent
  fault : Option Fault

def Traffic.new (ι : Type) (capacity : Capacity) : Traffic ι capacity :=
  { buf := .new capacity, granted := [], adding := fun _ => none, tracker := .advancing .idle, holds := fun _ => none,
    events := [], fault := none }

inductive TrafficAct (ι : Type) where
  | has_space (position : Nat)
  | add_link_load (t : ι) (l : Interval)
  | add_link_store (t : ι)
  /-- a call of `advance_tail`, and a further step of it -/
  | advance_tail
  | advance
  | set_tail (position : Nat)
  /-- a call of `clear_links`, and a further step of it -/
  | clear_links
  | clear
  deriving DecidableEq, Repr

/-- The slots after a step of `advance_tail`: reclaiming one takes its link away. -/
def AdvancePc.release (holds : Fin capacity.val → Option Interval) : AdvancePc → Fin capacity.val → Option Interval
  | .claiming position _ => Function.update holds (slot_index capacity position) none
  | _ => holds

def AdvancePc.follows : AdvancePc → List LinkEvent
  | .claiming position next => [.followed position next]
  | _ => []

/-- A step of one thread. Positions are 64-bit words, a link is added only at
a position for which `has_space` has returned true, and the calls of the
tracking thread come one after the other. Nothing runs after a fault. -/
def Traffic.step (s : Traffic ι capacity) (act : TrafficAct ι) : Option (Traffic ι capacity) :=
  match s.fault, act with
  | some _, _ => none
  | none, .has_space position =>
    if s.buf.has_space position then some { s with granted := s.granted ++ [position] } else some s
  | none, .add_link_load t l =>
    if s.adding t = none ∧ l.lo ∈ s.granted ∧ l.hi < 2 ^ 64 then
      match s.buf.add_link_load l.lo l.hi with
      | some fault => some { s with fault := some fault }
      | none => some { s with adding := Function.update s.adding t (some l) }
    else none
  | none, .add_link_store t =>
    match s.adding t with
    | none => none
    | some l =>
      some { s with
        buf := s.buf.add_link_store l.lo l.hi
        adding := Function.update s.adding t none
        holds := Function.update s.holds (slot_index capacity l.lo) (some l)
        events := s.events ++ [.added l] }
  | none, .advance_tail =>
    match s.tracker with
    | .advancing .idle => some { s with tracker := .advancing .started }
    | _ => none
  | none, .advance =>
    match s.tracker with
    | .advancing pc =>
      match s.buf.advance_tail pc with
      | none => none
      | some (.error fault) => some { s with fault := some fault }
      | some (.ok (buf, next, _)) =>
        some { s with
          buf := buf
          tracker := .advancing next
          holds := pc.release s.holds
          events := s.events ++ pc.follows }
    | .clearing _ => none
  | none, .set_tail position =>
    match s.tracker with
    | .advancing .idle =>
      if position < 2 ^ 64 then
        some { s with buf := s.buf.set_tail position, events := s.events ++ [.tail_set position] }
      else none
    | _ => none
  | none, .clear_links =>
    match s.tracker with
    | .advancing .idle => some { s with tracker := .clearing 0, events := s.events ++ [.cleared] }
    | _ => none
  | none, .clear =>
    match s.tracker with
    | .clearing i =>
      match s.buf.clear_links i with
      | (buf, some next) =>
        some { s with
          buf := buf
          tracker := .clearing next
          holds := fun slot => if slot.val = i then none else s.holds slot }
      | (buf, none) =>
        some { s with buf := buf, tracker := .advancing .idle, events := s.events ++ [.tail_set 0] }
    | .advancing _ => none

/-- A step with its guard, one case for each branch. -/
inductive TrafficMove (s : Traffic ι capacity) : TrafficAct ι → Traffic ι capacity → Prop where
  | no_space (position : Nat) : TrafficMove s (.has_space position) s
  | space (position : Nat) : TrafficMove s (.has_space position) { s with granted := s.granted ++ [position] }
  | add_link_fault (t : ι) (l : Interval) (fault : Fault) (hload : s.buf.add_link_load l.lo l.hi = some fault) :
      TrafficMove s (.add_link_load t l) { s with fault := some fault }
  | add_link_load (t : ι) (l : Interval) (hidle : s.adding t = none) (hbound : l.hi < 2 ^ 64)
      (hload : s.buf.add_link_load l.lo l.hi = none) :
      TrafficMove s (.add_link_load t l) { s with adding := Function.update s.adding t (some l) }
  | add_link_store (t : ι) (l : Interval) (hadding : s.adding t = some l) :
      TrafficMove s (.add_link_store t)
        { s with
          buf := s.buf.add_link_store l.lo l.hi
          adding := Function.update s.adding t none
          holds := Function.update s.holds (slot_index capacity l.lo) (some l)
          events := s.events ++ [.added l] }
  | advance_tail (hpc : s.tracker = .advancing .idle) :
      TrafficMove s .advance_tail { s with tracker := .advancing .started }
  | advance_fault (pc : AdvancePc) (fault : Fault) (hpc : s.tracker = .advancing pc)
      (hmove : AdvanceMove s.buf pc (.error fault)) : TrafficMove s .advance { s with fault := some fault }
  | advance (pc next : AdvancePc) (buf : LinkBuf capacity) (result : Option Bool) (hpc : s.tracker = .advancing pc)
      (hmove : AdvanceMove s.buf pc (.ok (buf, next, result))) :
      TrafficMove s .advance
        { s with
          buf := buf
          tracker := .advancing next
          holds := pc.release s.holds
          events := s.events ++ pc.follows }
  | set_tail (position : Nat) (hpc : s.tracker = .advancing .idle) :
      TrafficMove s (.set_tail position)
        { s with buf := s.buf.set_tail position, events := s.events ++ [.tail_set position] }
  | clear_links (hpc : s.tracker = .advancing .idle) :
      TrafficMove s .clear_links { s with tracker := .clearing 0, events := s.events ++ [.cleared] }
  | clear_slot (i : Nat) (hpc : s.tracker = .clearing i) (hi : i < capacity.val) :
      TrafficMove s .clear
        { s with
          buf := { s.buf with m_links := Function.update s.buf.m_links ⟨i, hi⟩ 0 }
          tracker := .clearing (i + 1)
          holds := fun slot => if slot.val = i then none else s.holds slot }
  | clear_tail (i : Nat) (hpc : s.tracker = .clearing i) (hi : capacity.val ≤ i) :
      TrafficMove s .clear
        { s with buf := { s.buf with m_tail := 0 }, tracker := .advancing .idle, events := s.events ++ [.tail_set 0] }

theorem Traffic.step_move {s next : Traffic ι capacity} {act : TrafficAct ι} (hstep : s.step act = some next) :
    s.fault = none ∧ TrafficMove s act next := by
  unfold Traffic.step at hstep
  split at hstep
  · cases hstep
  · rename_i position hfault
    refine ⟨hfault, ?_⟩
    split at hstep
    · cases hstep
      exact .space position
    · cases hstep
      exact .no_space position
  · rename_i t l hfault
    refine ⟨hfault, ?_⟩
    split at hstep
    · rename_i hguard
      split at hstep
      · cases hstep
        exact .add_link_fault t l _ ‹_›
      · cases hstep
        exact .add_link_load t l hguard.1 hguard.2.2 ‹_›
    · cases hstep
  · rename_i t hfault
    refine ⟨hfault, ?_⟩
    split at hstep
    · cases hstep
    · cases hstep
      exact .add_link_store t _ ‹_›
  · rename_i hfault
    refine ⟨hfault, ?_⟩
    split at hstep
    · cases hstep
      exact .advance_tail ‹_›
    · cases hstep
  · rename_i hfault
    refine ⟨hfault, ?_⟩
    split at hstep
    · split at hstep
      · cases hstep
      · cases hstep
        exact .advance_fault _ _ ‹_› (LinkBuf.advance_tail_move ‹_›)
      · cases hstep
        exact .advance _ _ _ _ ‹_› (LinkBuf.advance_tail_move ‹_›)
    · cases hstep
  · rename_i position hfault
    refine ⟨hfault, ?_⟩
    split at hstep
    · split at hstep
      · cases hstep
        exact .set_tail position ‹_›
      · cases hstep
    · cases hstep
  · rename_i hfault
    refine ⟨hfault, ?_⟩
    split at hstep
    · cases hstep
      exact .clear_links ‹_›
    · cases hstep
  · rename_i hfault
    refine ⟨hfault, ?_⟩
    split at hstep
    · rename_i i hpc
      unfold LinkBuf.clear_links at hstep
      by_cases hi : i < capacity.val
      · rw [dif_pos hi] at hstep
        cases hstep
        exact .clear_slot i hpc hi
      · rw [dif_neg hi] at hstep
        cases hstep
        exact .clear_tail i hpc (Nat.le_of_not_lt hi)
    · cases hstep

end tc_rdma.link_buf
