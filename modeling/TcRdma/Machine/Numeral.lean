import Mathlib.Algebra.Group.Int.Defs
import Mathlib.Data.List.Basic

namespace tc_rdma.machine

/-- The characters of a C string before its terminator. -/
abbrev CString := List Char

/-- `isspace` of the C locale. -/
def is_space (c : Char) : Bool := c == ' ' || (9 ≤ c.toNat && c.toNat ≤ 13)

/-- The value of a digit in the bases up to 36, which is 36 for what is none. -/
def digit_value (c : Char) : Nat :=
  if '0' ≤ c ∧ c ≤ '9' then c.toNat - 48
  else if 'a' ≤ c ∧ c ≤ 'z' then c.toNat - 87
  else if 'A' ≤ c ∧ c ≤ 'Z' then c.toNat - 55
  else 36

def is_digit (base : Nat) (c : Char) : Bool := digit_value c < base

/-- The value of digits, the first of which counts most. -/
def positional (base : Nat) (digits : List Char) : Nat := digits.foldl (fun n c => n * base + digit_value c) 0

/-- The sign in front of a number, which may be left out. -/
def sign : CString → Int × CString
  | '-' :: rest => (-1, rest)
  | '+' :: rest => (1, rest)
  | s => (1, s)

/-- The base that the prefix tells when it is asked for as 0, and what follows
the prefix. The zero of an octal number is one of its digits. -/
def detect_base (s : CString) : Nat × CString :=
  match s with
  | '0' :: x :: c :: rest => if (x = 'x' ∨ x = 'X') ∧ is_digit 16 c then (16, c :: rest) else (8, s)
  | '0' :: _ => (8, s)
  | _ => (10, s)

/-- The number that a string begins with after blanks, and what follows it. -/
def number (s : CString) : Option (Int × CString) :=
  let signed := sign (s.dropWhile is_space)
  let based := detect_base signed.2
  let digits := based.2.takeWhile (is_digit based.1)
  if digits = [] then none
  else some (signed.1 * positional based.1 digits, based.2.dropWhile (is_digit based.1))

def LONG_MIN : Int := -2 ^ 63

def LONG_MAX : Int := 2 ^ 63 - 1

/-- `strtol` with base 0: the value and where it stopped, which is the
beginning when there is no number. A value that does not fit is the nearest that
does. -/
def strtol (s : CString) : Int × CString :=
  match number s with
  | some (value, rest) => (max LONG_MIN (min value LONG_MAX), rest)
  | none => (0, s)

/-- The integer that the whole string denotes in this syntax. -/
def denoted (s : CString) : Option Int :=
  match number s with
  | some (value, []) => some value
  | _ => none

theorem denoted_nil : denoted [] = none := by decide

/-- `strtol` reads all of a string that denotes an integer. -/
theorem strtol_of_denoted {s : CString} {value : Int} (h : denoted s = some value) :
    strtol s = (max LONG_MIN (min value LONG_MAX), []) := by
  unfold denoted at h
  unfold strtol
  split at h
  · rename_i hnumber
    cases h
    rw [hnumber]
  · cases h

example : strtol "99999999999999999999".toList = (LONG_MAX, []) := by decide

/-- It finds nothing left over in the empty string as well. -/
theorem strtol_complete_iff {s : CString} : (strtol s).2 = [] ↔ s = [] ∨ ∃ value, denoted s = some value := by
  constructor
  · intro hrest
    unfold strtol at hrest
    split at hrest
    · rename_i value rest hnumber
      subst hrest
      exact .inr ⟨value, by rw [denoted, hnumber]⟩
    · exact .inl hrest
  · rintro (rfl | ⟨value, hvalue⟩)
    · decide
    · rw [strtol_of_denoted hvalue]

/-- What fits is not changed. -/
theorem strtol_value {s : CString} {value : Int} (h : denoted s = some value) (hmin : LONG_MIN ≤ value)
    (hmax : value ≤ LONG_MAX) : (strtol s).1 = value := by
  rw [strtol_of_denoted h]
  dsimp only
  omega

end tc_rdma.machine
