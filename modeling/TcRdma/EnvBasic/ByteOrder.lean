import Mathlib.Data.UInt
import TcRdma.Machine.Buffer
import TcRdma.Machine.BigEndian

open tc_rdma.machine

namespace tc_rdma.env_basic

/-- `m_write_1`. A pointer is a position `p` in the buffer `b`. -/
def m_write_1 (b : List UInt8) (p : Nat) (n : UInt64) : Option (List UInt8) := store b p n.toUInt8

/-- `m_write_2`. -/
def m_write_2 (b : List UInt8) (p : Nat) (n : UInt64) : Option (List UInt8) := do
  let b ← store b p (n >>> 8).toUInt8
  store b (p + 1) n.toUInt8

/-- `m_write_4`. -/
def m_write_4 (b : List UInt8) (p : Nat) (n : UInt64) : Option (List UInt8) := do
  let b ← store b p (n >>> 24).toUInt8
  let b ← store b (p + 1) (n >>> 16).toUInt8
  let b ← store b (p + 2) (n >>> 8).toUInt8
  store b (p + 3) n.toUInt8

/-- `m_write_8`. -/
def m_write_8 (b : List UInt8) (p : Nat) (n : UInt64) : Option (List UInt8) := do
  let b ← m_write_4 b p (n >>> 32)
  m_write_4 b (p + 4) n

/-- Integer promotion: an operand narrower than `int` is shifted as an `int`. -/
def promote (v : UInt16) : Int32 := v.toUInt32.toInt32

/-- `m_read_1`. -/
def m_read_1 (b : List UInt8) (p : Nat) : Option UInt8 := b[p]?

/-- `m_read_2`. -/
def m_read_2 (b : List UInt8) (p : Nat) : Option UInt16 := do
  let b0 ← b[p]?
  let b1 ← b[p + 1]?
  return (promote b0.toUInt16 <<< 8 ||| promote b1.toUInt16).toUInt32.toUInt16

/-- `m_read_4`. -/
def m_read_4 (b : List UInt8) (p : Nat) : Option UInt32 := do
  let b0 ← b[p]?
  let b1 ← b[p + 1]?
  let b2 ← b[p + 2]?
  let b3 ← b[p + 3]?
  return b0.toUInt32 <<< 24 ||| b1.toUInt32 <<< 16 ||| b2.toUInt32 <<< 8 ||| b3.toUInt32

/-- `m_read_8`. -/
def m_read_8 (b : List UInt8) (p : Nat) : Option UInt64 := do
  let hi ← m_read_4 b p
  let lo ← m_read_4 b (p + 4)
  return hi.toUInt64 <<< 32 ||| lo.toUInt64

/-- The widths for which there is a writer and a reader. -/
inductive Width where
  | one
  | two
  | four
  | eight
  deriving DecidableEq, Repr

def Width.bytes : Width → Nat
  | one => 1
  | two => 2
  | four => 4
  | eight => 8

/-- The writer of a width. -/
def m_write : Width → List UInt8 → Nat → UInt64 → Option (List UInt8)
  | .one => m_write_1
  | .two => m_write_2
  | .four => m_write_4
  | .eight => m_write_8

/-- The reader of a width, its result converted to `uint64_t`. -/
def m_read : Width → List UInt8 → Nat → Option UInt64
  | .one, b, p => (m_read_1 b p).map UInt8.toUInt64
  | .two, b, p => (m_read_2 b p).map UInt16.toUInt64
  | .four, b, p => (m_read_4 b p).map UInt32.toUInt64
  | .eight, b, p => m_read_8 b p

/-- Two numbers put side by side by a shift. -/
theorem shiftLeft_or {lo k : Nat} (hi : Nat) (hlo : lo < 2 ^ k) : hi <<< k ||| lo = hi * 2 ^ k + lo := by
  rw [← Nat.shiftLeft_add_eq_or_of_lt hlo, Nat.shiftLeft_eq]

/-- No bit of a byte is lost when it is shifted inside a 32-bit word. -/
theorem toUInt32_shiftLeft (b : UInt8) {s : UInt32} {k : Nat} (hs : s.toNat = k) (hk : k ≤ 24) :
    (b.toUInt32 <<< s).toNat = b.toNat <<< k := by
  have hb := b.toNat_lt
  have hpow : 2 ^ k ≤ 2 ^ 24 := Nat.pow_le_pow_right (by omega) hk
  have hfits : b.toNat * 2 ^ k < 2 ^ 32 := by
    have hle : b.toNat * 2 ^ k ≤ 255 * 2 ^ 24 := Nat.mul_le_mul (by omega) hpow
    omega
  have hamount : s.toNat % 32 = k := by omega
  rw [UInt32.toNat_shiftLeft, UInt8.toNat_toUInt32, hamount, Nat.shiftLeft_eq]
  exact Nat.mod_eq_of_lt hfits

/-- Shifting as an `int` never reaches the sign. -/
theorem promote_shiftLeft_or (b0 b1 : UInt8) :
    (promote b0.toUInt16 <<< 8 ||| promote b1.toUInt16).toUInt32.toUInt16.toNat = be_value [b0, b1] := by
  have h0 := b0.toNat_lt
  have h1 := b1.toNat_lt
  have hword : (promote b0.toUInt16 <<< 8 ||| promote b1.toUInt16).toUInt32 =
      b0.toUInt32 <<< 8 ||| b1.toUInt32 := rfl
  have hshift : (b0.toUInt32 <<< 8).toNat = b0.toNat <<< 8 := toUInt32_shiftLeft b0 rfl (by omega)
  rw [hword, UInt32.toNat_toUInt16, UInt32.toNat_or, hshift, UInt8.toNat_toUInt32, shiftLeft_or _ (by omega)]
  simp only [be_value, List.length_cons, List.length_nil]
  omega

theorem toUInt32_shiftLeft_or (b0 b1 b2 b3 : UInt8) :
    (b0.toUInt32 <<< 24 ||| b1.toUInt32 <<< 16 ||| b2.toUInt32 <<< 8 ||| b3.toUInt32).toNat =
      be_value [b0, b1, b2, b3] := by
  have h1 := b1.toNat_lt
  have h2 := b2.toNat_lt
  have h3 := b3.toNat_lt
  have hb0 : (b0.toUInt32 <<< 24).toNat = b0.toNat <<< 24 := toUInt32_shiftLeft b0 rfl (by omega)
  have hb1 : (b1.toUInt32 <<< 16).toNat = b1.toNat <<< 16 := toUInt32_shiftLeft b1 rfl (by omega)
  have hb2 : (b2.toUInt32 <<< 8).toNat = b2.toNat <<< 8 := toUInt32_shiftLeft b2 rfl (by omega)
  have hlow : b2.toNat <<< 8 ||| b3.toNat = b2.toNat * 2 ^ 8 + b3.toNat := shiftLeft_or _ (by omega)
  have hmid : b1.toNat <<< 16 ||| (b2.toNat * 2 ^ 8 + b3.toNat) =
      b1.toNat * 2 ^ 16 + (b2.toNat * 2 ^ 8 + b3.toNat) := shiftLeft_or _ (by omega)
  rw [UInt32.toNat_or, UInt32.toNat_or, UInt32.toNat_or, hb0, hb1, hb2, UInt8.toNat_toUInt32, Nat.or_assoc,
    Nat.or_assoc, hlow, hmid, shiftLeft_or _ (by omega)]
  simp only [be_value, List.length_cons, List.length_nil]
  omega

theorem toUInt64_shiftLeft_or (hi lo : UInt32) :
    (hi.toUInt64 <<< 32 ||| lo.toUInt64).toNat = hi.toNat * 2 ^ 32 + lo.toNat := by
  have h0 := hi.toNat_lt
  have h1 := lo.toNat_lt
  have hhi : (hi.toUInt64 <<< 32).toNat = hi.toNat <<< 32 := by
    rw [UInt64.toNat_shiftLeft, UInt32.toNat_toUInt64]
    simp only [Nat.shiftLeft_eq, UInt64.reduceToNat, Nat.reduceMod]
    exact Nat.mod_eq_of_lt (by omega)
  rw [UInt64.toNat_or, hhi, UInt32.toNat_toUInt64, shiftLeft_or _ (by omega)]

/-- What `static_cast<byte>(n >> 8 * k)` keeps of a number. -/
theorem byte_of_shifted (n : UInt64) {s : UInt64} {k : Nat} (hs : s.toNat = 8 * k) (hk : k < 8) :
    (n >>> s).toUInt8 = UInt8.ofNat (n.toNat / 256 ^ k) := by
  have hamount : s.toNat % 64 = 8 * k := by omega
  apply UInt8.toNat_inj.mp
  rw [UInt64.toNat_toUInt8, UInt64.toNat_shiftRight, hamount, Nat.shiftRight_eq_div_pow, Nat.pow_mul,
    UInt8.toNat_ofNat']

theorem byte_of_word (n : UInt64) : n.toUInt8 = UInt8.ofNat (n.toNat / 256 ^ 0) := by
  apply UInt8.toNat_inj.mp
  rw [UInt64.toNat_toUInt8, UInt8.toNat_ofNat', Nat.pow_zero, Nat.div_one]

theorem m_write_1_eq (b : List UInt8) (p : Nat) (n : UInt64) :
    m_write_1 b p n = stores b p (be_bytes 1 n.toNat) := by
  rw [m_write_1, byte_of_word]
  simp [be_bytes, stores]

theorem m_write_2_eq (b : List UInt8) (p : Nat) (n : UInt64) :
    m_write_2 b p n = stores b p (be_bytes 2 n.toNat) := by
  have h1 : (n >>> 8).toUInt8 = UInt8.ofNat (n.toNat / 256 ^ 1) := byte_of_shifted n rfl (by omega)
  rw [m_write_2, h1, byte_of_word n]
  simp [be_bytes, stores]

theorem m_write_4_eq (b : List UInt8) (p : Nat) (n : UInt64) :
    m_write_4 b p n = stores b p (be_bytes 4 n.toNat) := by
  have h1 : (n >>> 8).toUInt8 = UInt8.ofNat (n.toNat / 256 ^ 1) := byte_of_shifted n rfl (by omega)
  have h2 : (n >>> 16).toUInt8 = UInt8.ofNat (n.toNat / 256 ^ 2) := byte_of_shifted n rfl (by omega)
  have h3 : (n >>> 24).toUInt8 = UInt8.ofNat (n.toNat / 256 ^ 3) := byte_of_shifted n rfl (by omega)
  rw [m_write_4, h1, h2, h3, byte_of_word n]
  simp [be_bytes, stores, Nat.add_assoc]

theorem m_write_8_eq (b : List UInt8) (p : Nat) (n : UInt64) :
    m_write_8 b p n = stores b p (be_bytes 8 n.toNat) := by
  have hhigh : (n >>> 32).toNat = n.toNat / 256 ^ 4 := by
    rw [UInt64.toNat_shiftRight]
    simp [Nat.shiftRight_eq_div_pow]
  have hsplit : be_bytes 8 n.toNat = be_bytes 4 (n.toNat / 256 ^ 4) ++ be_bytes 4 n.toNat := be_bytes_add 4 4 _
  rw [hsplit, stores_append, be_bytes_length, ← hhigh]
  simp only [m_write_8, m_write_4_eq]
  rfl

theorem m_read_1_eq (b : List UInt8) (p : Nat) :
    (m_read .one b p).map UInt64.toNat = (loads b p 1).map be_value := by
  simp only [m_read, m_read_1, loads]
  cases b[p]? with
  | none => rfl
  | some b0 => simp [be_value]

theorem m_read_2_eq (b : List UInt8) (p : Nat) :
    (m_read .two b p).map UInt64.toNat = (loads b p 2).map be_value := by
  simp only [m_read, m_read_2, loads]
  cases b[p]? with
  | none => rfl
  | some b0 =>
    cases b[p + 1]? with
    | none => rfl
    | some b1 => exact congrArg some (promote_shiftLeft_or b0 b1)

theorem m_read_4_eq (b : List UInt8) (p : Nat) :
    (m_read_4 b p).map UInt32.toNat = (loads b p 4).map be_value := by
  simp only [m_read_4, loads, Nat.add_assoc, Nat.reduceAdd]
  cases b[p]? with
  | none => rfl
  | some b0 =>
    cases b[p + 1]? with
    | none => rfl
    | some b1 =>
      cases b[p + 2]? with
      | none => rfl
      | some b2 =>
        cases b[p + 3]? with
        | none => rfl
        | some b3 => exact congrArg some (toUInt32_shiftLeft_or b0 b1 b2 b3)

theorem m_read_8_eq (b : List UInt8) (p : Nat) :
    (m_read_8 b p).map UInt64.toNat = (loads b p 8).map be_value := by
  have hhi := m_read_4_eq b p
  have hlo := m_read_4_eq b (p + 4)
  have hsplit : loads b p 8 = (loads b p 4).bind fun vs => (loads b (p + 4) 4).map (vs ++ ·) :=
    loads_add (n := 4) (m := 4)
  rw [hsplit, m_read_8]
  cases hi : m_read_4 b p with
  | none =>
    rw [hi, Option.map_none, eq_comm, Option.map_eq_none_iff] at hhi
    rw [hhi]
    rfl
  | some hi32 =>
    rw [hi, Option.map_some, eq_comm, Option.map_eq_some_iff] at hhi
    obtain ⟨his, hloads, hvalue⟩ := hhi
    rw [hloads]
    cases lo : m_read_4 b (p + 4) with
    | none =>
      rw [lo, Option.map_none, eq_comm, Option.map_eq_none_iff] at hlo
      rw [hlo]
      rfl
    | some lo32 =>
      rw [lo, Option.map_some, eq_comm, Option.map_eq_some_iff] at hlo
      obtain ⟨los, hloads', hvalue'⟩ := hlo
      have hlength := (loads_eq_some.mp hloads').1
      have hword := toUInt64_shiftLeft_or hi32 lo32
      rw [hloads']
      simp only [Option.bind_some, Option.map_some, be_value_append, hlength, hvalue, hvalue']
      exact congrArg some hword

theorem m_write_eq (w : Width) (b : List UInt8) (p : Nat) (n : UInt64) :
    m_write w b p n = stores b p (be_bytes w.bytes n.toNat) := by
  cases w with
  | one => exact m_write_1_eq b p n
  | two => exact m_write_2_eq b p n
  | four => exact m_write_4_eq b p n
  | eight => exact m_write_8_eq b p n

theorem m_read_eq (w : Width) (b : List UInt8) (p : Nat) :
    (m_read w b p).map UInt64.toNat = (loads b p w.bytes).map be_value := by
  cases w with
  | one => exact m_read_1_eq b p
  | two => exact m_read_2_eq b p
  | four =>
    have hcast : UInt64.toNat ∘ UInt32.toUInt64 = UInt32.toNat := by
      funext v
      exact UInt32.toNat_toUInt64 v
    rw [m_read, Option.map_map, hcast]
    exact m_read_4_eq b p
  | eight => exact m_read_8_eq b p

theorem m_write_4_middle {front old back : List UInt8} {p : Nat} (hold : old.length = 4) (hp : front.length = p)
    (n : UInt64) : m_write_4 (front ++ old ++ back) p n = some (front ++ be_bytes 4 n.toNat ++ back) := by
  rw [m_write_4_eq, ← hp]
  exact stores_middle _ _ _ (by rw [hold, be_bytes_length])

theorem m_read_4_middle {front back : List UInt8} {p : Nat} (hp : front.length = p) (n : UInt32) :
    m_read_4 (front ++ be_bytes 4 n.toNat ++ back) p = some n := by
  have hread := m_read_4_eq (front ++ be_bytes 4 n.toNat ++ back) p
  have hloads := loads_middle front (be_bytes 4 n.toNat) back
  rw [be_bytes_length, hp] at hloads
  rw [hloads, Option.map_some, be_value_bytes, Nat.mod_eq_of_lt (show n.toNat < 256 ^ 4 from n.toNat_lt)] at hread
  exact Option.map_injective (fun _ _ => UInt32.toNat_inj.mp) hread

/-- In a buffer with room for it a number is written, and nothing else. -/
theorem exists_m_write {w : Width} {b : List UInt8} {p : Nat} (n : UInt64) (hin : p + w.bytes ≤ b.length) :
    ∃ b', m_write w b p n = some b' ∧ Overwritten b p (be_bytes w.bytes n.toNat) b' := by
  rw [m_write_eq]
  exact exists_stores (by rw [be_bytes_length]; exact hin)

theorem m_read_of_overwritten {w : Width} {b b' : List UInt8} {p : Nat} {n : UInt64}
    (h : Overwritten b p (be_bytes w.bytes n.toNat) b') :
    (m_read w b' p).map UInt64.toNat = some (n.toNat % 2 ^ (8 * w.bytes)) := by
  have hloads := h.loads
  rw [be_bytes_length] at hloads
  rw [m_read_eq, hloads, Option.map_some, be_value_bytes, Nat.pow_mul]

/-- Readers that load the same bytes read the same number. -/
theorem m_read_congr {w : Width} {b b' : List UInt8} {p q : Nat}
    (h : loads b' q w.bytes = loads b p w.bytes) : m_read w b' q = m_read w b p := by
  have heq : (m_read w b' q).map UInt64.toNat = (m_read w b p).map UInt64.toNat := by
    rw [m_read_eq, m_read_eq, h]
  exact Option.map_injective (fun _ _ => UInt64.toNat_inj.mp) heq

theorem m_read_apart {w : Width} {b b' vs : List UInt8} {p q : Nat} (h : Overwritten b p vs b')
    (hapart : q + w.bytes ≤ p ∨ p + vs.length ≤ q) : m_read w b' q = m_read w b q :=
  m_read_congr (h.loads_apart hapart)

theorem m_write_read {w : Width} {b : List UInt8} {p : Nat} (hin : p + w.bytes ≤ b.length) :
    ∃ v, m_read w b p = some v ∧ m_write w b p v = some b := by
  obtain ⟨vs, hloads, hlength⟩ := exists_loads hin
  have hread := m_read_eq w b p
  rw [hloads, Option.map_some, Option.map_eq_some_iff] at hread
  obtain ⟨v, hv, hvalue⟩ := hread
  refine ⟨v, hv, ?_⟩
  rw [m_write_eq, hvalue, ← hlength, be_bytes_value]
  exact stores_of_loads hloads

theorem m_write_comm {w w' : Width} {b : List UInt8} {p q : Nat} (n m : UInt64)
    (hapart : p + w.bytes ≤ q ∨ q + w'.bytes ≤ p) :
    ((m_write w b p n).bind fun b => m_write w' b q m) =
      (m_write w' b q m).bind fun b => m_write w b p n := by
  simp only [m_write_eq]
  exact stores_comm (by rw [be_bytes_length, be_bytes_length]; exact hapart)

/-- The low half of a number is all that the second call of `m_write_8` writes. -/
theorem m_write_4_low (b : List UInt8) (p : Nat) (n : UInt64) :
    m_write_4 b p n = m_write_4 b p (n % 2 ^ 32) := by
  have hlow : (n % 2 ^ 32).toNat = n.toNat % 256 ^ 4 := UInt64.toNat_mod n _
  rw [m_write_4_eq, m_write_4_eq, hlow, be_bytes_mod]

/-- A writer leaves its number where the reader of the same width finds it and
touches nothing else, what was read can be written back, the widest writer is
two narrower ones, and calls on disjoint places are independent. -/
theorem m_write_round_trip (w : Width) (b : List UInt8) (p : Nat) :
    (∀ n, p + w.bytes ≤ b.length → ∃ b', m_write w b p n = some b' ∧
      (m_read w b' p).map UInt64.toNat = some (n.toNat % 2 ^ (8 * w.bytes)) ∧
      b'.length = b.length ∧ ∀ j, j < p ∨ p + w.bytes ≤ j → b'[j]? = b[j]?) ∧
    (p + w.bytes ≤ b.length → ∃ v, m_read w b p = some v ∧ m_write w b p v = some b) ∧
    (∀ n, m_write_8 b p n =
      (m_write_4 b p (n >>> 32)).bind fun b => m_write_4 b (p + 4) (n % 2 ^ 32)) ∧
    ∀ w' q n m, p + w.bytes ≤ b.length → q + w'.bytes ≤ b.length →
      p + w.bytes ≤ q ∨ q + w'.bytes ≤ p →
      ∃ b', ((m_write w b p n).bind fun b => m_write w' b q m) = some b' ∧
        ((m_write w' b q m).bind fun b => m_write w b p n) = some b' ∧
        (m_read w b' p).map UInt64.toNat = some (n.toNat % 2 ^ (8 * w.bytes)) ∧
        (m_read w' b' q).map UInt64.toNat = some (m.toNat % 2 ^ (8 * w'.bytes)) := by
  refine ⟨?_, m_write_read, ?_, ?_⟩
  · intro n hin
    obtain ⟨b', hwrite, hover⟩ := exists_m_write n hin
    have houtside := hover.outside
    rw [be_bytes_length] at houtside
    exact ⟨b', hwrite, m_read_of_overwritten hover, hover.length, houtside⟩
  · intro n
    rw [m_write_8]
    congr 1
    funext b
    exact m_write_4_low b (p + 4) n
  · intro w' q n m hin hin' hapart
    obtain ⟨b₁, hwrite, hover⟩ := exists_m_write n hin
    obtain ⟨b₂, hwrite', hover'⟩ := exists_m_write (b := b₁) m (by rw [hover.length]; exact hin')
    have hboth : ((m_write w b p n).bind fun b => m_write w' b q m) = some b₂ := by
      rw [hwrite, Option.bind_some, hwrite']
    have hkept : m_read w b₂ p = m_read w b₁ p := by
      apply m_read_apart hover'
      rw [be_bytes_length]
      exact hapart
    refine ⟨b₂, hboth, ?_, ?_, m_read_of_overwritten hover'⟩
    · rw [← m_write_comm n m hapart]
      exact hboth
    · rw [hkept]
      exact m_read_of_overwritten hover

theorem m_write_round_trip_three_bytes :
    (∃ b', m_write .two [7, 7, 7] 0 258 = some b' ∧
      (m_read .two b' 0).map UInt64.toNat = some ((258 : UInt64).toNat % 2 ^ (8 * Width.two.bytes)) ∧
      b'.length = 3 ∧ ∀ j, j < 0 ∨ 0 + Width.two.bytes ≤ j → b'[j]? = [7, 7, 7][j]?) ∧
    (∃ v, m_read .two [7, 7, 7] 0 = some v ∧ m_write .two [7, 7, 7] 0 v = some [7, 7, 7]) ∧
    ∃ b', ((m_write .two [7, 7, 7] 0 258).bind fun b => m_write .one b 2 5) = some b' ∧
      ((m_write .one [7, 7, 7] 2 5).bind fun b => m_write .two b 0 258) = some b' ∧
      (m_read .two b' 0).map UInt64.toNat = some ((258 : UInt64).toNat % 2 ^ (8 * Width.two.bytes)) ∧
      (m_read .one b' 2).map UInt64.toNat = some ((5 : UInt64).toNat % 2 ^ (8 * Width.one.bytes)) := by
  obtain ⟨hwrite, hback, -, happly⟩ := m_write_round_trip .two [7, 7, 7] 0
  exact ⟨hwrite 258 (by decide), hback (by decide),
    happly .one 2 258 5 (by decide) (by decide) (by decide)⟩

end tc_rdma.env_basic
