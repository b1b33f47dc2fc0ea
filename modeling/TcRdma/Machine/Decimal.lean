import Mathlib.Data.List.TakeWhile
import TcRdma.Machine.Numeral

namespace tc_rdma.machine

theorem digit_value_of_isDigit {c : Char} (hc : c.isDigit = true) :
    digit_value c = c.toNat - '0'.toNat ∧ digit_value c < 10 := by
  obtain ⟨hlow, hhigh⟩ : 48 ≤ c.val ∧ c.val ≤ 57 := by simpa [Char.isDigit] using hc
  have hvalue : digit_value c = c.toNat - 48 := by
    rw [digit_value, if_pos ⟨hlow, hhigh⟩]
  have hle : c.toNat ≤ 57 := hhigh
  exact ⟨hvalue, by omega⟩

theorem digitChar_ne_zero : ∀ n < 10, 0 < n → n.digitChar ≠ '0' := by decide

/-- The first digit of a positive number is not zero. -/
theorem toDigits_eq_cons {n : Nat} (hn : 0 < n) : ∃ c rest, Nat.toDigits 10 n = c :: rest ∧ c ≠ '0' := by
  induction n using Nat.strongRecOn with
  | ind n ih =>
    rw [Nat.toDigits_eq_if (by decide)]
    by_cases hlt : n < 10
    · rw [if_pos hlt]
      exact ⟨_, _, rfl, digitChar_ne_zero n hlt hn⟩
    · rw [if_neg hlt]
      obtain ⟨c, rest, heq, hne⟩ := ih (n / 10) (by omega) (by omega)
      exact ⟨c, rest ++ [(n % 10).digitChar], by rw [heq]; rfl, hne⟩

theorem foldl_digit_value {digits : List Char} (hdigits : ∀ c ∈ digits, c.isDigit = true) (n : Nat) :
    digits.foldl (fun n c => n * 10 + digit_value c) n = Nat.ofDigitChars 10 digits n := by
  induction digits generalizing n with
  | nil => rfl
  | cons c digits ih =>
    rw [List.foldl_cons, ih (fun d hd => hdigits d (by simp [hd])), Nat.ofDigitChars_cons,
      (digit_value_of_isDigit (hdigits c (by simp))).1, Nat.mul_comm]

/-- The decimal digits of a number denote it. -/
theorem denoted_toDigits (n : Nat) : denoted (Nat.toDigits 10 n) = some (n : Int) := by
  rcases Nat.eq_zero_or_pos n with rfl | hn
  · decide
  have hdigits : ∀ c ∈ Nat.toDigits 10 n, c.isDigit = true :=
    fun c hc => Nat.isDigit_of_mem_toDigits (by decide) (by decide) hc
  have hvalue : positional 10 (Nat.toDigits 10 n) = n := by
    rw [positional, foldl_digit_value hdigits, Nat.ofDigitChars_ten_toDigits]
  have hall : ∀ c ∈ Nat.toDigits 10 n, is_digit 10 c = true :=
    fun c hc => decide_eq_true (digit_value_of_isDigit (hdigits c hc)).2
  obtain ⟨c, rest, heq, hne⟩ := toDigits_eq_cons hn
  rw [heq] at hdigits hvalue hall ⊢
  obtain ⟨hlow, hhigh⟩ : 48 ≤ c.val ∧ c.val ≤ 57 := by simpa [Char.isDigit] using hdigits c (by simp)
  have hspace : is_space c = false := by
    have hlow : 48 ≤ c.toNat := hlow
    have hblank : c ≠ ' ' := by rintro rfl; exact absurd hlow (by decide)
    simp [is_space, hblank]
    omega
  have hsign : sign (c :: rest) = (1, c :: rest) := by
    have hminus : c ≠ '-' := by rintro rfl; exact absurd hlow (by decide)
    have hplus : c ≠ '+' := by rintro rfl; exact absurd hlow (by decide)
    simp [sign, hminus, hplus]
  have hbase : detect_base (c :: rest) = (10, c :: rest) := by
    simp [detect_base, hne]
  have htake : (c :: rest).takeWhile (is_digit 10) = c :: rest := List.takeWhile_eq_self_iff.mpr hall
  have hdrop : (c :: rest).dropWhile (is_digit 10) = [] := List.dropWhile_eq_nil_iff.mpr hall
  have hnumber : number (c :: rest) = some ((n : Int), []) := by
    rw [number, List.dropWhile_cons_of_neg (by simp [hspace]), hsign]
    dsimp only
    rw [hbase]
    dsimp only
    rw [htake, hdrop, if_neg (by simp), hvalue, Int.one_mul]
  rw [denoted, hnumber]
end tc_rdma.machine
