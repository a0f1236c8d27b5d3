import Mathlib.Data.List.TakeWhile
import MapGate.Text.Number

/-!
# Digits read back

The digits of a number are digits, at least one, without a needless zero in front
(`head?_toDigits`). They are cut off a text by what follows them (`takeWhile_digits`,
`dropWhile_digits`), and they are read as the number that they were written for
(`number?_digits`, `hexValue?_smallHexDigit`), in any base up to sixteen
(`number?_toDigits`).
-/

namespace MapGate.Text

/-- A text does not start with a digit. -/
def NoDigitAhead (l : List Char) : Prop := ∀ c, l.head? = some c → c.isDigit = false

theorem noDigitAhead_cons {c : Char} {l : List Char} (h : c.isDigit = false) :
    NoDigitAhead (c :: l) := by
  intro d hd
  cases hd
  exact h

/-! ## Decimal digits -/

variable {digits rest : List Char} {n : Nat}

theorem isDigit_toDigits (n : Nat) : ∀ c ∈ Nat.toDigits 10 n, c.isDigit = true :=
  fun _ => Nat.isDigit_of_mem_toDigits (by decide) (by decide)

/-- Only the number zero starts with a zero. -/
theorem head?_toDigits (n : Nat) (h : (Nat.toDigits 10 n).head? = some '0') : n = 0 := by
  induction n using Nat.strong_induction_on with
  | _ n ih =>
    by_cases small : n < 10
    · rw [Nat.toDigits_of_lt_base small, List.head?_cons, Option.some.injEq] at h
      exact Nat.digitChar_eq_zero.1 h
    · have front : (Nat.toDigits 10 (n / 10)).head? = some '0' := by
        rw [Nat.toDigits_of_base_le (by decide) (by omega), List.head?_append] at h
        cases e : Nat.toDigits 10 (n / 10) with
        | nil => exact absurd e Nat.toDigits_ne_nil
        | cons c l => rwa [e] at h
      have := ih (n / 10) (by omega) front
      omega

theorem takeWhile_digits (digital : ∀ c ∈ digits, c.isDigit = true) (stop : NoDigitAhead rest) :
    (digits ++ rest).takeWhile Char.isDigit = digits := by
  rw [List.takeWhile_append_of_pos digital]
  cases rest with
  | nil => exact List.append_nil _
  | cons c rest =>
    rw [List.takeWhile_cons_of_neg (by simp [stop c rfl]), List.append_nil]

theorem dropWhile_digits (digital : ∀ c ∈ digits, c.isDigit = true) (stop : NoDigitAhead rest) :
    (digits ++ rest).dropWhile Char.isDigit = rest := by
  rw [List.dropWhile_append_of_pos digital]
  cases rest with
  | nil => rfl
  | cons c rest => exact List.dropWhile_cons_of_neg (by simp [stop c rfl])

theorem addDigit?_of_isDigit {c : Char} (h : c.isDigit = true) (n : Nat) :
    addDigit? 10 n c = some (10 * n + (c.toNat - '0'.toNat)) := by
  obtain ⟨low, high⟩ := Char.isDigit_iff_toNat.1 h
  have value : hexValue? c = some (c.toNat - 0x30) := by
    rw [hexValue?, if_pos ⟨low, high⟩]
  have small : c.toNat - 0x30 < 10 := by
    have : '9'.toNat = 0x39 := rfl
    omega
  rw [addDigit?, digit?, value, Option.filter_some, if_pos (by simpa using small), Option.map_some,
    Nat.mul_comm]
  rfl

/-- Digits are read as their number. -/
theorem number?_digits (digital : ∀ c ∈ digits, c.isDigit = true) (some_digit : digits ≠ []) :
    number? 10 digits = some (Nat.ofDigitChars 10 digits 0) := by
  have read : ∀ n, digits.foldlM (addDigit? 10) n = some (Nat.ofDigitChars 10 digits n) := by
    clear some_digit
    induction digits with
    | nil => exact fun n => rfl
    | cons c digits ih =>
      rw [List.forall_mem_cons] at digital
      intro n
      rw [List.foldlM_cons, addDigit?_of_isDigit digital.1, Nat.ofDigitChars_cons]
      exact ih digital.2 _
  rw [number?, if_neg (by simpa using some_digit), read]

/-! ## Hexadecimal digits -/

theorem hexValue?_smallHexDigit (h : n < 16) : hexValue? (smallHexDigit n) = some n := by
  have all : ∀ n < 16, hexValue? (smallHexDigit n) = some n := by decide
  exact all n h

/-! ## Digits in any base -/

section Base

variable {base : Nat}

theorem digit?_digitChar (hb : base ≤ 16) (h : n < base) :
    digit? base (Nat.digitChar n) = some n := by
  have all : ∀ n < 16, hexValue? (Nat.digitChar n) = some n := by decide
  rw [digit?, all n (by omega), Option.filter_some, if_pos (by simpa using h)]

/-- The digits of a number are read as that number. -/
theorem foldlM_toDigits (h1 : 1 < base) (hb : base ≤ 16) (n : Nat) :
    (Nat.toDigits base n).foldlM (addDigit? base) 0 = some n := by
  induction n using Nat.strong_induction_on with
  | _ n ih =>
    by_cases small : n < base
    · rw [Nat.toDigits_of_lt_base small, List.foldlM_cons, addDigit?, digit?_digitChar hb small,
        Nat.zero_mul]
      simp
    · have last : n % base < base := Nat.mod_lt n (by omega)
      have front := ih (n / base) (Nat.div_lt_self (by omega) h1)
      rw [Nat.toDigits_of_base_le h1 (by omega), List.foldlM_append, front]
      simp [addDigit?, digit?_digitChar hb last, Nat.div_add_mod']

theorem number?_toDigits (h1 : 1 < base) (hb : base ≤ 16) (n : Nat) :
    number? base (Nat.toDigits base n) = some n := by
  rw [number?, if_neg (by simp), foldlM_toDigits h1 hb]

/-- What occurs in a number is a digit. -/
theorem exists_of_mem_toDigits (h1 : 1 < base) {c : Char} (h : c ∈ Nat.toDigits base n) :
    ∃ d < base, c = Nat.digitChar d := by
  induction n using Nat.strong_induction_on with
  | _ n ih =>
    by_cases small : n < base
    · rw [Nat.toDigits_of_lt_base small, List.mem_singleton] at h
      exact ⟨n, small, h⟩
    · rw [Nat.toDigits_of_base_le h1 (by omega), List.mem_append, List.mem_singleton] at h
      rcases h with h | h
      · exact ih (n / base) (Nat.div_lt_self (by omega) h1) h
      · exact ⟨n % base, Nat.mod_lt n (by omega), h⟩

end Base

end MapGate.Text
