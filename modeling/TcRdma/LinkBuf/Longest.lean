import TcRdma.LinkBuf.Tracking
import TcRdma.Machine.Count
import TcRdma.Machine.Walk

open tc_rdma.machine

namespace tc_rdma.link_buf

variable {capacity : Capacity} {buf buf' : LinkBuf capacity} {stop_condition : Nat → Nat → Bool}
  {position q n : Nat} {steps : List Nat}

/-- `advance_tail_until` with no concurrent writer: its steps one after the
other, at most as many as the fuel. -/
def LinkBuf.advance_alone (stop_condition : Nat → Nat → Bool) :
    Nat → LinkBuf capacity → AdvancePc → Option (Except Fault (LinkBuf capacity × Bool))
  | 0, _, _ => none
  | fuel + 1, buf, pc =>
    match buf.advance_tail_until stop_condition pc with
    | none => none
    | some (.error fault) => some (.error fault)
    | some (.ok (next, _, some moved)) => some (.ok (next, moved))
    | some (.ok (next, pc, none)) => LinkBuf.advance_alone stop_condition fuel next pc

/-- Where the link that starts at a position leads, if there is one and the
stop condition does not hold. -/
def LinkBuf.follow (buf : LinkBuf capacity) (stop_condition : Nat → Nat → Bool) (position : Nat) : Option Nat :=
  if buf.m_links (slot_index capacity position) = 0 ∨
      stop_condition position (position + buf.m_links (slot_index capacity position)) = true then none
  else some (position + buf.m_links (slot_index capacity position))

/-- The number of slots that are not empty. -/
def LinkBuf.linked (buf : LinkBuf capacity) : Nat := count (fun distance => decide (distance ≠ 0)) buf.m_links

theorem LinkBuf.linked_le (buf : LinkBuf capacity) : buf.linked ≤ capacity.val := by
  have hle := count_le_card (p := fun distance => decide (distance ≠ 0)) (f := buf.m_links)
  rw [Fintype.card_fin] at hle
  exact hle

theorem LinkBuf.link_ne_zero (h : buf.follow stop_condition position = some q) :
    buf.m_links (slot_index capacity position) ≠ 0 := by
  intro hzero
  rw [LinkBuf.follow, if_pos (.inl hzero)] at h
  cases h

theorem LinkBuf.lt_follow (h : buf.follow stop_condition position = some q) : position < q := by
  have hlink := LinkBuf.link_ne_zero h
  unfold LinkBuf.follow at h
  split at h
  · cases h
  · cases h
    omega

/-- A slot is reclaimed only while it is not empty. -/
theorem LinkBuf.linked_claim (hlink : buf.m_links (slot_index capacity position) ≠ 0) :
    (buf.claim_position position).linked + 1 = buf.linked := by
  have hcount := count_update (fun distance => decide (distance ≠ 0)) buf.m_links (slot_index capacity position) 0
  simp only [hlink, ne_eq, not_false_eq_true, decide_true, Bool.toNat_true, not_true_eq_false, decide_false,
    Bool.toNat_false, Nat.add_zero] at hcount
  exact hcount

/-- What the slot's distance and the stop condition decide. -/
theorem LinkBuf.advance_reading (buf : LinkBuf capacity) (stop_condition : Nat → Nat → Bool) (position : Nat) :
    (¬ position < position_max - buf.m_links (slot_index capacity position) ∧
      buf.advance_tail_until stop_condition (.reading position) = some (.error .position_overflow)) ∨
    (buf.follow stop_condition position = none ∧
      buf.advance_tail_until stop_condition (.reading position) = some (.ok (buf, .comparing position, none))) ∨
    ∃ next, buf.follow stop_condition position = some next ∧
      buf.advance_tail_until stop_condition (.reading position) = some (.ok (buf, .claiming position next, none)) := by
  by_cases hfits : position < position_max - buf.m_links (slot_index capacity position)
  · right
    have hnext : u64 (position + buf.m_links (slot_index capacity position)) =
        position + buf.m_links (slot_index capacity position) := by
      apply u64_of_lt
      rw [position_max] at hfits
      omega
    simp only [LinkBuf.advance_tail_until, LinkBuf.next_position, hfits, not_true, if_false, hnext, LinkBuf.follow,
      Bool.or_eq_true, decide_eq_true_eq]
    split
    · exact .inl ⟨rfl, rfl⟩
    · exact .inr ⟨_, rfl, rfl⟩
  · left
    refine ⟨hfits, ?_⟩
    simp only [LinkBuf.advance_tail_until, LinkBuf.next_position, hfits, not_false_eq_true, if_true]

/-- The loop has followed these steps and reclaimed exactly their slots. -/
structure Reclaimed (stop_condition : Nat → Nat → Bool) (buf : LinkBuf capacity) (position : Nat) (steps : List Nat)
    (q : Nat) (buf' : LinkBuf capacity) : Prop where
  walk : Walk (buf.follow stop_condition) position steps q
  simple : Simple (slot_index capacity) steps
  links : ∀ i, buf'.m_links i = if i ∈ steps.map (slot_index capacity) then 0 else buf.m_links i
  tail : buf'.m_tail = buf.m_tail

theorem reclaimed_nil (stop_condition : Nat → Nat → Bool) (buf : LinkBuf capacity) (position : Nat) :
    Reclaimed stop_condition buf position [] position buf := by
  constructor
  · rfl
  · exact List.nodup_nil
  · intro i
    rw [List.map_nil, if_neg List.not_mem_nil]
  · rfl

theorem LinkBuf.follow_claim {x : Nat} (h : slot_index capacity x ≠ slot_index capacity position) :
    (buf.claim_position position).follow stop_condition x = buf.follow stop_condition x := by
  have hslot : (buf.claim_position position).m_links (slot_index capacity x) = buf.m_links (slot_index capacity x) :=
    Function.update_of_ne h _ _
  rw [LinkBuf.follow, LinkBuf.follow, hslot]

theorem LinkBuf.follow_claim_self {x : Nat} (h : slot_index capacity x = slot_index capacity position) :
    (buf.claim_position position).follow stop_condition x = none := by
  have hslot : (buf.claim_position position).m_links (slot_index capacity x) = 0 := by
    rw [h]
    exact Function.update_self _ _ _
  rw [LinkBuf.follow, if_pos (.inl hslot)]

/-- The steps after a slot has been reclaimed are steps of the buffer as it was
before, and none of them uses that slot again. -/
theorem Reclaimed.cons {next : Nat} (hnext : buf.follow stop_condition position = some next)
    (h : Reclaimed stop_condition (buf.claim_position position) next steps q buf') :
    Reclaimed stop_condition buf position (position :: steps) q buf' := by
  have hfresh : ∀ x ∈ steps, slot_index capacity x ≠ slot_index capacity position := by
    intro x hx heq
    have hsome := h.walk.isSome x hx
    rw [LinkBuf.follow_claim_self heq] at hsome
    cases hsome
  constructor
  · refine ⟨rfl, next, hnext, h.walk.congr ?_⟩
    intro x hx
    exact (LinkBuf.follow_claim (hfresh x hx)).symm
  · rw [Simple, List.map_cons, List.nodup_cons]
    refine ⟨?_, h.simple⟩
    intro hmem
    obtain ⟨x, hx, heq⟩ := List.mem_map.mp hmem
    exact hfresh x hx heq
  · intro i
    rw [h.links i, List.map_cons]
    by_cases hi : i = slot_index capacity position
    · have hzero : (buf.claim_position position).m_links i = 0 := by
        rw [hi]
        exact Function.update_self _ _ _
      rw [hzero, ite_self, if_pos (by rw [hi]; exact List.mem_cons_self)]
    · have hkept : (buf.claim_position position).m_links i = buf.m_links i := Function.update_of_ne hi _ _
      rw [hkept]
      simp [hi]
  · exact h.tail

/-- What the call does once the loop has ended at `q`. -/
def LinkBuf.finish (buf : LinkBuf capacity) (q : Nat) : LinkBuf capacity × Bool :=
  if buf.m_tail < q then ({ buf with m_tail := q }, true) else (buf, false)

theorem LinkBuf.advance_alone_comparing (buf : LinkBuf capacity) (q fuel : Nat) :
    LinkBuf.advance_alone stop_condition (fuel + 2) buf (.comparing q) = some (.ok (buf.finish q)) := by
  by_cases hgt : buf.m_tail < q
  · simp [LinkBuf.advance_alone, LinkBuf.advance_tail_until, LinkBuf.finish, hgt]
  · simp [LinkBuf.advance_alone, LinkBuf.advance_tail_until, LinkBuf.finish, hgt]

/-- One turn of the loop: it fails, it is the last one, or it reclaims a slot. -/
theorem LinkBuf.advance_alone_turn (buf : LinkBuf capacity) (stop_condition : Nat → Nat → Bool)
    (position fuel : Nat) :
    (¬ position < position_max - buf.m_links (slot_index capacity position) ∧
      LinkBuf.advance_alone stop_condition (fuel + 3) buf (.reading position) =
        some (.error .position_overflow)) ∨
    (buf.follow stop_condition position = none ∧
      LinkBuf.advance_alone stop_condition (fuel + 3) buf (.reading position) =
        some (.ok (buf.finish position))) ∨
    ∃ next, buf.follow stop_condition position = some next ∧
      LinkBuf.advance_alone stop_condition (fuel + 3) buf (.reading position) =
        LinkBuf.advance_alone stop_condition (fuel + 1) (buf.claim_position position) (.reading next) := by
  rcases buf.advance_reading stop_condition position with ⟨hover, hread⟩ | ⟨hstop, hread⟩ | ⟨next, hnext, hread⟩
  · refine .inl ⟨hover, ?_⟩
    rw [LinkBuf.advance_alone, hread]
  · refine .inr (.inl ⟨hstop, ?_⟩)
    rw [LinkBuf.advance_alone, hread]
    exact LinkBuf.advance_alone_comparing buf position fuel
  · refine .inr (.inr ⟨next, hnext, ?_⟩)
    rw [LinkBuf.advance_alone, hread]
    rfl

/-- The loop ends, since each of its turns but the last empties one more slot. -/
theorem LinkBuf.advance_alone_reading (buf : LinkBuf capacity) (stop_condition : Nat → Nat → Bool) (position : Nat)
    (hlinked : buf.linked ≤ n) :
    ∃ steps q buf', Reclaimed stop_condition buf position steps q buf' ∧
      ((¬ q < position_max - buf'.m_links (slot_index capacity q) ∧
        LinkBuf.advance_alone stop_condition (2 * n + 3) buf (.reading position) =
          some (.error .position_overflow)) ∨
      (buf'.follow stop_condition q = none ∧
        LinkBuf.advance_alone stop_condition (2 * n + 3) buf (.reading position) =
          some (.ok (buf'.finish q)))) := by
  induction n generalizing buf position with
  | zero =>
    rcases buf.advance_alone_turn stop_condition position 0 with hover | hstop | ⟨next, hnext, -⟩
    · exact ⟨[], position, buf, reclaimed_nil _ _ _, .inl hover⟩
    · exact ⟨[], position, buf, reclaimed_nil _ _ _, .inr hstop⟩
    · have hclaim := LinkBuf.linked_claim (LinkBuf.link_ne_zero hnext)
      omega
  | succ n ih =>
    rcases buf.advance_alone_turn stop_condition position (2 * (n + 1)) with hover | hstop | ⟨next, hnext, hturn⟩
    · exact ⟨[], position, buf, reclaimed_nil _ _ _, .inl hover⟩
    · exact ⟨[], position, buf, reclaimed_nil _ _ _, .inr hstop⟩
    · have hclaim := LinkBuf.linked_claim (LinkBuf.link_ne_zero hnext)
      obtain ⟨steps, q, buf', hreclaimed, hend⟩ := ih (buf.claim_position position) next (by omega)
      refine ⟨position :: steps, q, buf', hreclaimed.cons hnext, ?_⟩
      rw [hturn]
      exact hend

/-- Where no link leads on from the end of the loop, none that could be followed
without using a slot twice did before it. -/
theorem Reclaimed.stuck (h : Reclaimed stop_condition buf position steps q buf')
    (hstop : buf'.follow stop_condition q = none) :
    buf.follow stop_condition q = none ∨ slot_index capacity q ∈ steps.map (slot_index capacity) := by
  by_cases hmem : slot_index capacity q ∈ steps.map (slot_index capacity)
  · exact .inr hmem
  · left
    have hslot := h.links (slot_index capacity q)
    rw [if_neg hmem] at hslot
    rw [LinkBuf.follow, hslot] at hstop
    exact hstop

theorem LinkBuf.le_of_walk (h : Walk (buf.follow stop_condition) position steps q) : position ≤ q := by
  induction steps generalizing position with
  | nil =>
    cases h
    exact Nat.le_refl _
  | cons x steps ih =>
    obtain ⟨-, next, hnext, hrest⟩ := h
    have hlt := LinkBuf.lt_follow hnext
    have hle := ih hrest
    omega

/-- The call ends, within a number of steps that the capacity bounds. Unless it
runs into the assertion of `next_position`, its tail is the end of the longest
path along links without a slot used twice, the slots of this path are the ones
it has reclaimed, and it tells whether the tail has moved. -/
theorem LinkBuf.advance_tail_until_longest (buf : LinkBuf capacity) (stop_condition : Nat → Nat → Bool) :
    ∃ result, LinkBuf.advance_alone stop_condition (2 * capacity.val + 4) buf .started = some result ∧
      match result with
      | .error fault => fault = .position_overflow ∧ ∃ steps q buf',
          Reclaimed stop_condition buf buf.m_tail steps q buf' ∧
          ¬ q < position_max - buf'.m_links (slot_index capacity q)
      | .ok (next, moved) => ∃ steps,
          LongestWalk (buf.follow stop_condition) (slot_index capacity) buf.m_tail steps next.m_tail ∧
          steps.length ≤ capacity.val ∧
          (∀ i, next.m_links i = if i ∈ steps.map (slot_index capacity) then 0 else buf.m_links i) ∧
          (moved = true ↔ next.m_tail ≠ buf.m_tail) ∧ (moved = true → buf.m_tail < next.m_tail) := by
  have hstart : LinkBuf.advance_alone stop_condition (2 * capacity.val + 4) buf .started =
      LinkBuf.advance_alone stop_condition (2 * capacity.val + 3) buf (.reading buf.m_tail) := rfl
  obtain ⟨steps, q, buf', hreclaimed, hend⟩ := buf.advance_alone_reading stop_condition buf.m_tail
    buf.linked_le
  rw [hstart]
  rcases hend with ⟨hover, hrun⟩ | ⟨hstop, hrun⟩
  · exact ⟨_, hrun, rfl, steps, q, buf', hreclaimed, hover⟩
  · have hlongest := longestWalk_of_stuck hreclaimed.walk hreclaimed.simple (hreclaimed.stuck hstop)
    have hlength := hreclaimed.simple.length_le
    rw [Fintype.card_fin] at hlength
    have hle := LinkBuf.le_of_walk hreclaimed.walk
    rw [LinkBuf.finish, hreclaimed.tail] at hrun
    by_cases hgt : buf.m_tail < q
    · rw [if_pos hgt] at hrun
      refine ⟨_, hrun, steps, hlongest, hlength, hreclaimed.links, ?_, fun _ => hgt⟩
      have hne : q ≠ buf.m_tail := by omega
      simp [hne]
    · rw [if_neg hgt] at hrun
      have heq : q = buf'.m_tail := by
        rw [hreclaimed.tail]
        omega
      rw [heq] at hlongest
      refine ⟨_, hrun, steps, hlongest, hlength, hreclaimed.links, ?_, ?_⟩
      · simp [hreclaimed.tail]
      · simp

end tc_rdma.link_buf
