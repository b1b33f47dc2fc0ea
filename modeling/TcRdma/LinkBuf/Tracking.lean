import TcRdma.LinkBuf.Basic
import TcRdma.Machine.Run
import TcRdma.Machine.Tiling

open tc_rdma.machine

namespace tc_rdma.link_buf

variable {capacity : Capacity}

/-- Where the thread that tracks the tail is inside `advance_tail_until`. -/
inductive AdvancePc where
  | idle
  | started
  | reading (position : Nat)
  | claiming (position next : Nat)
  | comparing (position : Nat)
  | publishing (position : Nat)
  deriving DecidableEq, Repr

/-- `advance_tail_until`, one atomic step: the load of the tail, the load of a
slot with the stop test, the store that reclaims the slot, the second load of
the tail, and the store that publishes it. A result ends the call. -/
def LinkBuf.advance_tail_until (self : LinkBuf capacity) (stop_condition : Nat → Nat → Bool) :
    AdvancePc → Option (Except Fault (LinkBuf capacity × AdvancePc × Option Bool))
  | .idle => none
  | .started => some (.ok (self, .reading self.m_tail, none))
  | .reading position =>
    match self.next_position position with
    | .error fault => some (.error fault)
    | .ok (stop, next) =>
      if stop || stop_condition position next then some (.ok (self, .comparing position, none))
      else some (.ok (self, .claiming position next, none))
  | .claiming position next => some (.ok (self.claim_position position, .reading next, none))
  | .comparing position =>
    if position > self.m_tail then some (.ok (self, .publishing position, none))
    else some (.ok (self, .idle, some false))
  | .publishing position => some (.ok ({ self with m_tail := position }, .idle, some true))

/-- The stop condition that `advance_tail` passes on. -/
def advance_tail_stop (from_pos to_pos : Nat) : Bool := decide (to_pos = from_pos)

def LinkBuf.advance_tail (self : LinkBuf capacity) :
    AdvancePc → Option (Except Fault (LinkBuf capacity × AdvancePc × Option Bool)) :=
  self.advance_tail_until advance_tail_stop

/-- A step of `advance_tail` with its guard, one case for each branch. -/
inductive AdvanceMove (buf : LinkBuf capacity) :
    AdvancePc → Except Fault (LinkBuf capacity × AdvancePc × Option Bool) → Prop where
  | load_tail : AdvanceMove buf .started (.ok (buf, .reading buf.m_tail, none))
  | overflow (position : Nat) (hover : ¬ position < position_max - buf.m_links (slot_index capacity position)) :
      AdvanceMove buf (.reading position) (.error .position_overflow)
  | stop (position : Nat) (hfits : position < position_max - buf.m_links (slot_index capacity position))
      (hzero : buf.m_links (slot_index capacity position) = 0 ∨
        u64 (position + buf.m_links (slot_index capacity position)) = position) :
      AdvanceMove buf (.reading position) (.ok (buf, .comparing position, none))
  | follow (position : Nat) (hfits : position < position_max - buf.m_links (slot_index capacity position))
      (hlink : buf.m_links (slot_index capacity position) ≠ 0)
      (hgo : u64 (position + buf.m_links (slot_index capacity position)) ≠ position) :
      AdvanceMove buf (.reading position)
        (.ok (buf, .claiming position (u64 (position + buf.m_links (slot_index capacity position))), none))
  | claim (position next : Nat) :
      AdvanceMove buf (.claiming position next) (.ok (buf.claim_position position, .reading next, none))
  | moved (position : Nat) (hgt : buf.m_tail < position) :
      AdvanceMove buf (.comparing position) (.ok (buf, .publishing position, none))
  | unmoved (position : Nat) (hle : position ≤ buf.m_tail) :
      AdvanceMove buf (.comparing position) (.ok (buf, .idle, some false))
  | publish (position : Nat) :
      AdvanceMove buf (.publishing position) (.ok ({ buf with m_tail := position }, .idle, some true))

theorem LinkBuf.advance_tail_move {buf : LinkBuf capacity} {pc : AdvancePc}
    {result : Except Fault (LinkBuf capacity × AdvancePc × Option Bool)} (hstep : buf.advance_tail pc = some result) :
    AdvanceMove buf pc result := by
  unfold LinkBuf.advance_tail LinkBuf.advance_tail_until at hstep
  cases pc with
  | idle => cases hstep
  | started =>
    cases hstep
    exact .load_tail
  | reading position =>
    by_cases hfits : position < position_max - buf.m_links (slot_index capacity position)
    · by_cases hstop : buf.m_links (slot_index capacity position) = 0 ∨
          u64 (position + buf.m_links (slot_index capacity position)) = position
      · simp only [LinkBuf.next_position, hfits, not_true, if_false, advance_tail_stop, Bool.or_eq_true,
          decide_eq_true_eq, hstop, if_true, Option.some.injEq] at hstep
        subst result
        exact .stop position hfits hstop
      · simp only [LinkBuf.next_position, hfits, not_true, if_false, advance_tail_stop, Bool.or_eq_true,
          decide_eq_true_eq, hstop, Option.some.injEq] at hstep
        subst result
        exact .follow position hfits (fun hzero => hstop (.inl hzero)) (fun hsame => hstop (.inr hsame))
    · simp only [LinkBuf.next_position, hfits, not_false_eq_true, if_true, Option.some.injEq] at hstep
      subst result
      exact .overflow position hfits
  | claiming position after =>
    cases hstep
    exact .claim position after
  | comparing position =>
    by_cases hgt : buf.m_tail < position
    · simp only [gt_iff_lt, hgt, if_true, Option.some.injEq] at hstep
      subst result
      exact .moved position hgt
    · simp only [gt_iff_lt, hgt, if_false, Option.some.injEq] at hstep
      subst result
      exact .unmoved position (Nat.le_of_not_lt hgt)
  | publishing position =>
    cases hstep
    exact .publish position

/-- Where the thread that reports a link is: it waits for `has_space`, may add
the link, has passed the assertions of `add_link`, or has stored the link. -/
inductive ReporterPc where
  | waiting
  | granted
  | checked
  | reported
  deriving DecidableEq, Repr

/-- A buffer with one reporter for each link and one tracking thread. -/
structure Tracking (capacity : Capacity) where
  buf : LinkBuf capacity
  reporter : Interval → ReporterPc
  advancer : AdvancePc
  results : List Bool
  fault : Option Fault

def Tracking.new (capacity : Capacity) : Tracking capacity :=
  { buf := .new capacity, reporter := fun _ => .waiting, advancer := .idle, results := [], fault := none }

inductive TrackAct where
  | has_space (l : Interval)
  | add_link_load (l : Interval)
  | add_link_store (l : Interval)
  | call
  | advance
  deriving DecidableEq, Repr

/-- A step of the threads that work on these links. Nothing runs after a fault. -/
def Tracking.step (links : Finset Interval) (s : Tracking capacity) (act : TrackAct) :
    Option (Tracking capacity) :=
  match s.fault, act with
  | some _, _ => none
  | none, .has_space l =>
    if l ∈ links ∧ s.reporter l = .waiting then
      if s.buf.has_space l.lo then some { s with reporter := Function.update s.reporter l .granted }
      else some s
    else none
  | none, .add_link_load l =>
    if l ∈ links ∧ s.reporter l = .granted then
      match s.buf.add_link_load l.lo l.hi with
      | some fault => some { s with fault := some fault }
      | none => some { s with reporter := Function.update s.reporter l .checked }
    else none
  | none, .add_link_store l =>
    if l ∈ links ∧ s.reporter l = .checked then
      some { s with
        buf := s.buf.add_link_store l.lo l.hi
        reporter := Function.update s.reporter l .reported }
    else none
  | none, .call => if s.advancer = .idle then some { s with advancer := .started } else none
  | none, .advance =>
    match s.buf.advance_tail s.advancer with
    | none => none
    | some (.error fault) => some { s with fault := some fault }
    | some (.ok (buf, advancer, result)) =>
      some { s with buf := buf, advancer := advancer, results := s.results ++ result.toList }

/-- A step with its guard, one case for each branch. -/
inductive TrackMove (links : Finset Interval) (s : Tracking capacity) : TrackAct → Tracking capacity → Prop where
  | no_space (l : Interval) (hl : l ∈ links) (hpc : s.reporter l = .waiting) :
      TrackMove links s (.has_space l) s
  | space (l : Interval) (hl : l ∈ links) (hpc : s.reporter l = .waiting)
      (hspace : l.lo < u64 (s.buf.m_tail + capacity.val)) :
      TrackMove links s (.has_space l) { s with reporter := Function.update s.reporter l .granted }
  | add_link_fault (l : Interval) (hl : l ∈ links) (hpc : s.reporter l = .granted) (fault : Fault)
      (hload : s.buf.add_link_load l.lo l.hi = some fault) :
      TrackMove links s (.add_link_load l) { s with fault := some fault }
  | add_link_load (l : Interval) (hl : l ∈ links) (hpc : s.reporter l = .granted)
      (hload : s.buf.add_link_load l.lo l.hi = none) :
      TrackMove links s (.add_link_load l) { s with reporter := Function.update s.reporter l .checked }
  | add_link_store (l : Interval) (hl : l ∈ links) (hpc : s.reporter l = .checked) :
      TrackMove links s (.add_link_store l)
        { s with buf := s.buf.add_link_store l.lo l.hi, reporter := Function.update s.reporter l .reported }
  | call (hpc : s.advancer = .idle) : TrackMove links s .call { s with advancer := .started }
  | load_tail (hpc : s.advancer = .started) :
      TrackMove links s .advance { s with advancer := .reading s.buf.m_tail }
  | overflow (position : Nat) (hpc : s.advancer = .reading position)
      (hover : ¬ position < position_max - s.buf.m_links (slot_index capacity position)) :
      TrackMove links s .advance { s with fault := some .position_overflow }
  | stop (position : Nat) (hpc : s.advancer = .reading position)
      (hzero : s.buf.m_links (slot_index capacity position) = 0 ∨
        u64 (position + s.buf.m_links (slot_index capacity position)) = position) :
      TrackMove links s .advance { s with advancer := .comparing position }
  | follow (position : Nat) (hpc : s.advancer = .reading position)
      (hlink : s.buf.m_links (slot_index capacity position) ≠ 0)
      (hgo : u64 (position + s.buf.m_links (slot_index capacity position)) ≠ position) :
      TrackMove links s .advance
        { s with advancer := .claiming position (u64 (position + s.buf.m_links (slot_index capacity position))) }
  | claim (position next : Nat) (hpc : s.advancer = .claiming position next) :
      TrackMove links s .advance { s with buf := s.buf.claim_position position, advancer := .reading next }
  | moved (position : Nat) (hpc : s.advancer = .comparing position) (hgt : s.buf.m_tail < position) :
      TrackMove links s .advance { s with advancer := .publishing position }
  | unmoved (position : Nat) (hpc : s.advancer = .comparing position) (hle : position ≤ s.buf.m_tail) :
      TrackMove links s .advance { s with advancer := .idle, results := s.results ++ [false] }
  | publish (position : Nat) (hpc : s.advancer = .publishing position) :
      TrackMove links s .advance
        { s with buf := { s.buf with m_tail := position }, advancer := .idle, results := s.results ++ [true] }

private theorem advance_move {links : Finset Interval} {s next : Tracking capacity} {pc : AdvancePc}
    (hpc : s.advancer = pc)
    (hstep : (match s.buf.advance_tail pc with
      | none => none
      | some (.error fault) => some { s with fault := some fault }
      | some (.ok (buf, advancer, result)) =>
        some { s with buf := buf, advancer := advancer, results := s.results ++ result.toList }) = some next) :
    TrackMove links s .advance next := by
  split at hstep
  · cases hstep
  · cases hstep
    rename_i hmove
    have hmove := LinkBuf.advance_tail_move hmove
    cases hmove with
    | overflow position hover => exact .overflow position hpc hover
  · cases hstep
    rename_i hmove
    have hmove := LinkBuf.advance_tail_move hmove
    have hnil : s.results ++ (none : Option Bool).toList = s.results := List.append_nil _
    cases hmove with
    | load_tail =>
      rw [hnil]
      exact .load_tail hpc
    | stop position hfits hzero =>
      rw [hnil]
      exact .stop position hpc hzero
    | follow position hfits hlink hgo =>
      rw [hnil]
      exact .follow position hpc hlink hgo
    | claim position after =>
      rw [hnil]
      exact .claim position after hpc
    | moved position hgt =>
      rw [hnil]
      exact .moved position hpc hgt
    | unmoved position hle => exact .unmoved position hpc hle
    | publish position => exact .publish position hpc

theorem Tracking.step_move {links : Finset Interval} {s next : Tracking capacity} {act : TrackAct}
    (hstep : s.step links act = some next) : s.fault = none ∧ TrackMove links s act next := by
  unfold Tracking.step at hstep
  split at hstep
  · cases hstep
  · rename_i l hfault
    refine ⟨hfault, ?_⟩
    split at hstep
    · rename_i hguard
      split at hstep
      · rename_i hspace
        cases hstep
        exact .space l hguard.1 hguard.2 (of_decide_eq_true hspace)
      · cases hstep
        exact .no_space l hguard.1 hguard.2
    · cases hstep
  · rename_i l hfault
    refine ⟨hfault, ?_⟩
    split at hstep
    · rename_i hguard
      split at hstep
      · cases hstep
        exact .add_link_fault l hguard.1 hguard.2 _ ‹_›
      · cases hstep
        exact .add_link_load l hguard.1 hguard.2 ‹_›
    · cases hstep
  · rename_i l hfault
    refine ⟨hfault, ?_⟩
    split at hstep
    · rename_i hguard
      cases hstep
      exact .add_link_store l hguard.1 hguard.2
    · cases hstep
  · rename_i hfault
    refine ⟨hfault, ?_⟩
    split at hstep
    · cases hstep
      exact .call ‹_›
    · cases hstep
  · rename_i hfault
    exact ⟨hfault, advance_move rfl hstep⟩

end tc_rdma.link_buf
