import Mathlib.Data.Nat.Digits.Lemmas
import Mathlib.Data.UInt
import Mathlib.Data.List.Basic
import Mathlib.Data.List.TakeWhile

/-!
# Formatted text

The `snprintf` conversions the component uses, as byte strings. `unsigned long` has 32 bits, as on
the ESP32.
-/

namespace TexecomBridge

/-- The bytes of an ASCII literal. -/
def ascii (s : String) : List UInt8 := s.toList.map fun c => UInt8.ofNat c.toNat

/-- `%u` and `%lu` -/
def decimal (n : UInt32) : List UInt8 :=
  if n = 0 then [48] else (Nat.digits 10 n.toNat).reverse.map fun d => UInt8.ofNat (48 + d)

lemma length_decimal_le (n : UInt32) : (decimal n).length ≤ 10 := by
  unfold decimal
  split_ifs with h
  · decide
  · rw [List.length_map, List.length_reverse, Nat.digits_length_le_iff (by decide)]
    exact n.toNat_lt.trans (by decide)

/-- `std::to_string` of a size. -/
def toStringSize (n : ℕ) : List UInt8 :=
  if n = 0 then [48] else (Nat.digits 10 n).reverse.map fun d => UInt8.ofNat (48 + d)

/-- `%03u` -/
def decimal3 (n : UInt32) : List UInt8 :=
  List.replicate (3 - (decimal n).length) 48 ++ decimal n

/-- One lower-case hex digit. -/
def hexDigit (d : ℕ) : UInt8 := UInt8.ofNat (if d < 10 then 48 + d else 87 + d)

/-- `%02x` of a byte -/
def hex2 (b : UInt8) : List UInt8 := [hexDigit (b.toNat / 16), hexDigit (b.toNat % 16)]

/-- `%08lx` -/
def hex8 (n : UInt32) : List UInt8 :=
  (List.range 8).map fun i => hexDigit (n.toNat / 16 ^ (7 - i) % 16)

/-- `%s`: the characters of a `c_str()`, up to the first NUL. -/
def cString (s : List UInt8) : List UInt8 := s.takeWhile (· ≠ 0)

/-- The string that `snprintf(buf, size, ..)` leaves in `buf`, without its terminator. -/
def snprintf (size : ℕ) (text : List UInt8) : List UInt8 := text.take (size - 1)

lemma digit_of_mem_toStringSize {n : ℕ} {c : UInt8} (h : c ∈ toStringSize n) : 48 ≤ c ∧ c ≤ 57 := by
  unfold toStringSize at h
  split_ifs at h
  · rw [List.mem_singleton.mp h]
    decide
  · obtain ⟨d, hd, rfl⟩ := List.mem_map.mp h
    have hlt : d < 10 := Nat.digits_lt_base (by decide) (List.mem_reverse.mp hd)
    interval_cases d <;> decide

lemma decimal_eq_toStringSize (n : UInt32) : decimal n = toStringSize n.toNat := by
  have hzero : n = 0 ↔ n.toNat = 0 := UInt32.toNat_inj.symm
  simp only [decimal, toStringSize, hzero]

lemma digit_of_mem_decimal {n : UInt32} {c : UInt8} (h : c ∈ decimal n) : 48 ≤ c ∧ c ≤ 57 := by
  rw [decimal_eq_toStringSize] at h
  exact digit_of_mem_toStringSize h

lemma digit_of_mem_decimal3 {n : UInt32} {c : UInt8} (h : c ∈ decimal3 n) : 48 ≤ c ∧ c ≤ 57 := by
  rcases List.mem_append.mp h with h | h
  · rw [List.eq_of_mem_replicate h]
    decide
  · exact digit_of_mem_decimal h

lemma length_decimal3_le (n : UInt32) : (decimal3 n).length ≤ 10 := by
  have := length_decimal_le n
  rw [decimal3, List.length_append, List.length_replicate]
  omega

/-- The number that a row of digits is. -/
def digitsValue (s : List UInt8) : ℕ := Nat.ofDigits 10 (s.reverse.map fun c => c.toNat - 48)

lemma digitsValue_toStringSize (n : ℕ) : digitsValue (toStringSize n) = n := by
  unfold toStringSize
  split_ifs with h
  · rw [h]
    decide
  · have hdigits : (Nat.digits 10 n).map ((fun c : UInt8 => c.toNat - 48) ∘
        fun d => UInt8.ofNat (48 + d)) = Nat.digits 10 n := by
      conv_rhs => rw [← List.map_id (Nat.digits 10 n)]
      apply List.map_congr_left
      intro d hd
      have hlt : d < 10 := Nat.digits_lt_base (by decide) hd
      interval_cases d <;> rfl
    rw [digitsValue, ← List.map_reverse, List.reverse_reverse, List.map_map, hdigits,
      Nat.ofDigits_digits]

lemma digitsValue_decimal (n : UInt32) : digitsValue (decimal n) = n.toNat := by
  rw [decimal_eq_toStringSize, digitsValue_toStringSize]

/-- Leading zeros do not count. -/
lemma digitsValue_decimal3 (n : UInt32) : digitsValue (decimal3 n) = n.toNat := by
  rw [← digitsValue_decimal n, digitsValue, digitsValue, decimal3, List.reverse_append,
    List.reverse_replicate, List.map_append, List.map_replicate]
  exact Nat.ofDigits_append_replicate_zero _

lemma decimal3_injective : Function.Injective decimal3 := by
  intro m n h
  have hvalue := congrArg digitsValue h
  rw [digitsValue_decimal3, digitsValue_decimal3] at hvalue
  exact UInt32.toNat_inj.mp hvalue

end TexecomBridge
