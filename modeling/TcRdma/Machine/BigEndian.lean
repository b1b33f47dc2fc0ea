import Mathlib.Tactic.Ring
import Mathlib.Tactic.Positivity

namespace tc_rdma.machine

/-- The last `k` bytes of a number, the most significant one first. -/
def be_bytes : Nat → Nat → List UInt8
  | 0, _ => []
  | k + 1, n => UInt8.ofNat (n / 256 ^ k) :: be_bytes k n

/-- The number that bytes denote, the most significant one first. -/
def be_value : List UInt8 → Nat
  | [] => 0
  | b :: bs => b.toNat * 256 ^ bs.length + be_value bs

@[simp] theorem be_bytes_length (k n : Nat) : (be_bytes k n).length = k := by
  induction k with
  | zero => rfl
  | succ k ih => rw [be_bytes, List.length_cons, ih]

theorem be_value_append (bs cs : List UInt8) :
    be_value (bs ++ cs) = be_value bs * 256 ^ cs.length + be_value cs := by
  induction bs with
  | nil => rw [List.nil_append, be_value, Nat.zero_mul, Nat.zero_add]
  | cons b bs ih =>
    rw [List.cons_append, be_value, be_value, ih, List.length_append, Nat.pow_add]
    ring

theorem be_value_bytes (k n : Nat) : be_value (be_bytes k n) = n % 256 ^ k := by
  induction k with
  | zero => rw [be_bytes, be_value, Nat.pow_zero, Nat.mod_one]
  | succ k ih =>
    have hbyte : (UInt8.ofNat (n / 256 ^ k)).toNat = n / 256 ^ k % 256 := UInt8.toNat_ofNat'
    rw [be_bytes, be_value, be_bytes_length, ih, hbyte, Nat.mod_pow_succ, Nat.mul_comm, Nat.add_comm]

theorem be_value_lt (bs : List UInt8) : be_value bs < 256 ^ bs.length := by
  induction bs with
  | nil => simp [be_value]
  | cons b bs ih =>
    have hbyte : (b.toNat + 1) * 256 ^ bs.length ≤ 256 * 256 ^ bs.length := Nat.mul_le_mul_right _ b.toNat_lt
    rw [be_value, List.length_cons, Nat.pow_succ]
    rw [Nat.add_mul] at hbyte
    omega

/-- Higher digits are not among the last bytes. -/
theorem be_bytes_add_value (bs : List UInt8) (n : Nat) :
    be_bytes bs.length (n * 256 ^ bs.length + be_value bs) = bs := by
  induction bs generalizing n with
  | nil => rfl
  | cons b bs ih =>
    have hsplit : n * 256 ^ (bs.length + 1) + (b.toNat * 256 ^ bs.length + be_value bs) =
        (n * 256 + b.toNat) * 256 ^ bs.length + be_value bs := by
      rw [Nat.pow_succ]
      ring
    rw [List.length_cons, be_bytes, be_value, hsplit, ih]
    congr 1
    apply UInt8.toNat_inj.mp
    rw [Nat.mul_comm, Nat.mul_add_div (by positivity), Nat.div_eq_of_lt (be_value_lt bs)]
    simp

theorem be_bytes_value (bs : List UInt8) : be_bytes bs.length (be_value bs) = bs := by
  have hbytes := be_bytes_add_value bs 0
  rw [Nat.zero_mul, Nat.zero_add] at hbytes
  exact hbytes

/-- The leading bytes are those of the number shifted down past the others. -/
theorem be_bytes_add (j k n : Nat) : be_bytes (j + k) n = be_bytes j (n / 256 ^ k) ++ be_bytes k n := by
  induction j with
  | zero => rw [Nat.zero_add, be_bytes, List.nil_append]
  | succ j ih =>
    have hshift : j + 1 + k = j + k + 1 := by omega
    rw [hshift, be_bytes, be_bytes, List.cons_append, ih, Nat.div_div_eq_div_mul, ← Nat.pow_add, Nat.add_comm k j]

/-- Only the value modulo the width is written. -/
theorem be_bytes_mod (k n : Nat) : be_bytes k (n % 256 ^ k) = be_bytes k n := by
  have hbytes := be_bytes_value (be_bytes k n)
  rw [be_bytes_length, be_value_bytes] at hbytes
  exact hbytes

end tc_rdma.machine
