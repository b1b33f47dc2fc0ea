import Mathlib.Data.Nat.Bitwise
import Mathlib.Logic.Function.Basic
import TcRdma.Machine.Word

open tc_rdma.machine

namespace tc_rdma.link_buf

/-- `std::numeric_limits<Position>::max()`. A `Position`, a `Distance` and a
`size_t` are 64 bits wide. -/
def position_max : Nat := 2 ^ 64 - 1

/-- The capacities for which the constructor allocates slots and its assertion
holds. -/
structure Capacity where
  val : Nat
  pos : 0 < val
  lt : val < 2 ^ 64
  pow2 : val &&& (val - 1) = 0

theorem Capacity.eq_two_pow (capacity : Capacity) : ∃ k, capacity.val = 2 ^ k := by
  have hpos := capacity.pos
  exact (Nat.and_sub_one_eq_zero_iff_isPowerOfTwo (by omega)).mp capacity.pow2

/-- `Link_buf`, for a capacity accepted by the constructor. -/
structure LinkBuf (capacity : Capacity) where
  m_links : Fin capacity.val → Nat
  m_tail : Nat

/-- The assertions of the buffer. -/
inductive Fault where
  | link_not_forward
  | distance_too_large
  | slot_not_empty
  | position_overflow
  deriving DecidableEq, Repr

variable {capacity : Capacity}

/-- The constructor `Link_buf(capacity)`. -/
def LinkBuf.new (capacity : Capacity) : LinkBuf capacity := { m_links := fun _ => 0, m_tail := 0 }

def LinkBuf.tail (self : LinkBuf capacity) : Nat := self.m_tail

def LinkBuf.has_space (self : LinkBuf capacity) (position : Nat) : Bool :=
  decide (u64 (self.tail + capacity.val) > position)

def slot_index (capacity : Capacity) (position : Nat) : Fin capacity.val :=
  ⟨position &&& (capacity.val - 1), by
    have hle : position &&& (capacity.val - 1) ≤ capacity.val - 1 := Nat.and_le_right
    have hpos := capacity.pos
    omega⟩

/-- The assertions of `add_link`, the last of which loads the slot. -/
def LinkBuf.add_link_load (self : LinkBuf capacity) (from_pos to_pos : Nat) : Option Fault :=
  if ¬ to_pos > from_pos then some .link_not_forward
  else if ¬ u64_sub to_pos from_pos ≤ position_max then some .distance_too_large
  else if self.m_links (slot_index capacity from_pos) ≠ 0 then some .slot_not_empty
  else none

/-- The store of `add_link`. -/
def LinkBuf.add_link_store (self : LinkBuf capacity) (from_pos to_pos : Nat) : LinkBuf capacity :=
  { self with
    m_links := Function.update self.m_links (slot_index capacity from_pos) (u64_sub to_pos from_pos) }

/-- `next_position`: whether there is no link, and where the link ends. -/
def LinkBuf.next_position (self : LinkBuf capacity) (position : Nat) : Except Fault (Bool × Nat) :=
  let distance := self.m_links (slot_index capacity position)
  if ¬ position < position_max - distance then .error .position_overflow
  else .ok (decide (distance = 0), u64 (position + distance))

def LinkBuf.claim_position (self : LinkBuf capacity) (position : Nat) : LinkBuf capacity :=
  { self with m_links := Function.update self.m_links (slot_index capacity position) 0 }

theorem slot_index_val (capacity : Capacity) (position : Nat) :
    (slot_index capacity position).val = position % capacity.val := by
  obtain ⟨k, hk⟩ := capacity.eq_two_pow
  show position &&& (capacity.val - 1) = position % capacity.val
  rw [hk, Nat.and_two_pow_sub_one_eq_mod]

/-- Positions of one window of the buffer's length have different slots. -/
theorem slot_index_inj {lo p q : Nat} (hp : lo ≤ p) (hp' : p < lo + capacity.val) (hq : lo ≤ q)
    (hq' : q < lo + capacity.val) (heq : slot_index capacity p = slot_index capacity q) : p = q := by
  have hmod : p % capacity.val = q % capacity.val := by
    rw [← slot_index_val, ← slot_index_val, heq]
  have hpdiv := Nat.div_add_mod p capacity.val
  have hqdiv := Nat.div_add_mod q capacity.val
  rcases Nat.lt_trichotomy (p / capacity.val) (q / capacity.val) with hlt | heq | hgt
  · have hstep := Nat.mul_le_mul_left capacity.val hlt
    rw [Nat.mul_succ] at hstep
    omega
  · rw [heq] at hpdiv
    omega
  · have hstep := Nat.mul_le_mul_left capacity.val hgt
    rw [Nat.mul_succ] at hstep
    omega

end tc_rdma.link_buf
