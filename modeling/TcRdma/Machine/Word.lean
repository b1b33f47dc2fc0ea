import Mathlib.Algebra.Group.Nat.Defs

namespace tc_rdma.machine

/-- The value of an unsigned 64-bit word. -/
def u64 (n : Nat) : Nat := n % 2 ^ 64

/-- Subtraction of unsigned 64-bit words, which wraps around. -/
def u64_sub (a b : Nat) : Nat := u64 (a + (2 ^ 64 - u64 b))

/-- The value of an unsigned 32-bit word. -/
def u32 (n : Nat) : Nat := n % 2 ^ 32

theorem u64_lt (n : Nat) : u64 n < 2 ^ 64 := Nat.mod_lt _ (by decide)

theorem u64_of_lt {n : Nat} (h : n < 2 ^ 64) : u64 n = n := Nat.mod_eq_of_lt h

theorem u64_le (n : Nat) : u64 n ≤ n := Nat.mod_le _ _

theorem u64_sub_of_le {a b : Nat} (hle : b ≤ a) (ha : a < 2 ^ 64) : u64_sub a b = a - b := by
  have hwrap : a + (2 ^ 64 - b) = a - b + 2 ^ 64 := by omega
  rw [u64_sub, u64_of_lt (by omega : b < 2 ^ 64), hwrap, u64, Nat.add_mod_right, Nat.mod_eq_of_lt (by omega)]

end tc_rdma.machine
