import Mathlib.Data.Nat.Digits.Defs
import Mathlib.Tactic.Ring
import Mos6502.Proofs.Arithmetic.Integers
import Mos6502.Proofs.Memory.Loading

/-!
# Numbers of several bytes

A row of cells holds a number whose digits to the base 256 are the bytes, the least significant
one first (`Memory.number`), or its two's complement reading (`Memory.signedNumber`).  The last
byte alone decides about the sign (`signedNumber_succ`).

Sums and differences are formed byte by byte with the kernels of `Arithmetic`, lowest byte
first.  Both are treated at once, as a `Combination`: a carry into a sum stands for one more, a
clear carry into a difference for one less (`Combination.carried`), and with this reading both
kernels obey one law (`Combination.value_kernel`).  From it follows what a column of bytes does
to a number (`Combination.apply_columns`), and at the end what the carry and the overflow say
about the whole numbers (`apply_emod`, `carry_sum_iff`, `carry_difference_iff`,
`overflow_columns`).
-/

namespace Mos6502

open Arithmetic

/-! ## Rows of bytes -/

namespace Memory

/-- The number whose digits to the base 256 stand in consecutive cells, lowest first. -/
def number (m : Memory) (start : Word) (n : Nat) : Nat :=
  Nat.ofDigits 256 ((m.slice start n).map UInt8.toNat)

/-- The two's complement number that stands in consecutive cells, lowest byte first. -/
def signedNumber (m : Memory) (start : Word) (n : Nat) : Int :=
  if 2 * m.number start n < 256 ^ n then (m.number start n : Int)
  else m.number start n - 256 ^ n

variable (m : Memory) (start : Word) (n : Nat)

theorem number_succ :
    m.number start (n + 1) =
      m.number start n + 256 ^ n * (m.read (start + UInt16.ofNat n)).toNat := by
  have hlast : m.slice start (n + 1) = m.slice start n ++ [m.read (start + UInt16.ofNat n)] := by
    simp only [slice, List.range_succ, List.map_append, List.map_cons, List.map_nil]
  rw [number, hlast, List.map_append, Nat.ofDigits_append, List.length_map, length_slice,
    List.map_cons, List.map_nil, Nat.ofDigits_singleton]
  rfl

theorem number_lt : m.number start n < 256 ^ n := by
  have hdigits := Nat.ofDigits_lt_base_pow_length (by decide : 1 < 256)
    (l := (m.slice start n).map UInt8.toNat) (by
      intro digit hdigit
      obtain ⟨byte, -, rfl⟩ := List.mem_map.mp hdigit
      exact byte.toNat_lt)
  rwa [List.length_map, length_slice] at hdigits

theorem number_congr {m m' : Memory} {start : Word} {n : Nat}
    (hread : ∀ i < n, m.read (start + UInt16.ofNat i) = m'.read (start + UInt16.ofNat i)) :
    m.number start n = m'.number start n := by
  rw [number, number, slice_congr hread]

/-- The highest byte carries the sign. -/
theorem signedNumber_succ :
    m.signedNumber start (n + 1) =
      m.number start n + 256 ^ n * (m.read (start + UInt16.ofNat n)).signed := by
  have hlow := m.number_lt start n
  have htop := number_succ m start n
  rw [signedNumber, Byte.signed_eq]
  generalize (m.read (start + UInt16.ofNat n)).toNat = top at *
  rw [htop, pow_succ, pow_succ]
  by_cases hsmall : top < 128
  · have hproduct : 256 ^ n * top ≤ 256 ^ n * 127 := Nat.mul_le_mul_left _ (by omega)
    rw [if_pos (by omega), if_pos hsmall]
    push_cast
    rfl
  · have hproduct : 256 ^ n * 128 ≤ 256 ^ n * top := Nat.mul_le_mul_left _ (by omega)
    rw [if_neg (by omega), if_neg hsmall]
    push_cast
    ring

end Memory

/-- Whether `n` bytes hold an integer as a two's complement number. -/
def FitsSigned (n : Nat) (z : Int) : Prop :=
  -2 ^ (8 * n - 1) ≤ z ∧ z < 2 ^ (8 * n - 1)

instance (n : Nat) (z : Int) : Decidable (FitsSigned n z) :=
  inferInstanceAs (Decidable (_ ∧ _))

/-! ## Sums and differences column by column -/

/-- The two ways of combining numbers with a carry. -/
inductive Combination where
  | sum
  | difference

namespace Combination

/-- The exact result. -/
def apply : Combination → Int → Int → Int
  | sum, p, q => p + q
  | difference, p, q => p - q

/-- What a carry adds to the exact result; a clear carry is a borrow in a difference. -/
def carried : Combination → Bool → Int
  | sum, carry => carry.toNat
  | difference, carry => carry.toNat - 1

/-- The combination of two bytes. -/
def kernel : Combination → Byte → Byte → Bool → Sum
  | sum => addBinary
  | difference => subBinary

variable (op : Combination)

theorem apply_add_mul (p q b a m : Int) :
    op.apply (p + b * a) (q + b * m) = op.apply p q + b * op.apply a m := by
  cases op <;> simp only [apply] <;> ring

/-- The byte and the carry that come out make up what went in. -/
theorem value_kernel (a m : Byte) (carry : Bool) :
    op.apply a.toNat m.toNat + op.carried carry =
      (op.kernel a m carry).value.toNat + 256 * op.carried (op.kernel a m carry).carry := by
  have ha := a.toNat_lt
  have hm := m.toNat_lt
  have hcarry := carry.toNat_le
  cases op with
  | sum =>
      simp only [apply, carried, kernel, addBinary_eq, Byte.toNat_ofInt]
      by_cases hlarge : 255 < a.toNat + m.toNat + carry.toNat
      · rw [decide_eq_true hlarge, Bool.toNat_true]
        omega
      · rw [decide_eq_false hlarge, Bool.toNat_false]
        omega
  | difference =>
      simp only [apply, carried, kernel, subBinary_eq, Byte.toNat_ofInt]
      by_cases hlarge : m.toNat + (1 - carry.toNat) ≤ a.toNat
      · rw [decide_eq_true hlarge, Bool.toNat_true]
        omega
      · rw [decide_eq_false hlarge, Bool.toNat_false]
        omega

theorem overflow_kernel (a m : Byte) (carry : Bool) :
    (op.kernel a m carry).overflow =
      outOfRange (op.apply a.signed m.signed + op.carried carry) := by
  cases op with
  | sum => rw [kernel, addBinary_eq, apply, carried]
  | difference =>
      rw [kernel, subBinary_eq, apply, carried]
      dsimp only
      congr 1
      ring

/-- One more column of bytes: numbers below, with the carry out of them, and the bytes `a` and `m`
above make up the numbers with one more digit. -/
theorem apply_columns {p q r b : Int} {carry : Bool}
    (hlow : op.apply p q = r + b * op.carried carry) (a m : Byte) :
    op.apply (p + b * a.toNat) (q + b * m.toNat) =
      r + b * (op.kernel a m carry).value.toNat
        + b * 256 * op.carried (op.kernel a m carry).carry := by
  have hcolumn := op.value_kernel a m carry
  calc op.apply (p + b * a.toNat) (q + b * m.toNat)
      = r + b * (op.apply a.toNat m.toNat + op.carried carry) := by
        rw [apply_add_mul, hlow]
        ring
    _ = _ := by
        rw [hcolumn]
        ring

/-! ## What the last column tells -/

theorem apply_emod {p q r b : Int} {carry : Bool} (hr : 0 ≤ r) (hb : r < b)
    (hvalue : op.apply p q = r + b * op.carried carry) : r = op.apply p q % b := by
  rw [hvalue, Int.add_mul_emod_self_left, Int.emod_eq_of_lt hr hb]

theorem carry_sum_iff {p q r b : Int} {carry : Bool} (hr : 0 ≤ r) (hb : r < b)
    (hvalue : sum.apply p q = r + b * sum.carried carry) : carry = true ↔ b ≤ p + q := by
  simp only [apply, carried] at hvalue
  cases carry
  · simp only [Bool.toNat_false, Nat.cast_zero, Int.mul_zero, Int.add_zero] at hvalue
    simp only [Bool.false_eq_true, false_iff, not_le]
    omega
  · simp only [Bool.toNat_true, Nat.cast_one, Int.mul_one] at hvalue
    simp only [true_iff]
    omega

theorem carry_difference_iff {p q r b : Int} {carry : Bool} (hr : 0 ≤ r) (hb : r < b)
    (hvalue : difference.apply p q = r + b * difference.carried carry) :
    carry = true ↔ q ≤ p := by
  simp only [apply, carried] at hvalue
  cases carry
  · simp only [Bool.toNat_false, Nat.cast_zero] at hvalue
    simp only [Bool.false_eq_true, false_iff, not_le]
    omega
  · simp only [Bool.toNat_true, Nat.cast_one] at hvalue
    simp only [true_iff]
    omega

/-- The overflow of the highest bytes is that of the whole signed numbers. -/
theorem overflow_columns {p q r : Int} {carry : Bool} (n : Nat) (hr : 0 ≤ r)
    (hb : r < 256 ^ n) (hlow : op.apply p q = r + 256 ^ n * op.carried carry) (a m : Byte) :
    (op.kernel a m carry).overflow = true ↔
      ¬ FitsSigned (n + 1) (op.apply (p + 256 ^ n * a.signed) (q + 256 ^ n * m.signed)) := by
  have hhalf : (2 : Int) ^ (8 * (n + 1) - 1) = 256 ^ n * 128 := by
    rw [show 8 * (n + 1) - 1 = 8 * n + 7 by omega, pow_add, pow_mul]
    rfl
  have hwhole : op.apply (p + 256 ^ n * a.signed) (q + 256 ^ n * m.signed) =
      r + 256 ^ n * (op.apply a.signed m.signed + op.carried carry) := by
    rw [apply_add_mul, hlow]
    ring
  rw [overflow_kernel, outOfRange, decide_eq_true_iff, FitsSigned, hhalf, hwhole]
  generalize op.apply a.signed m.signed + op.carried carry = s
  have hbase : (0 : Int) < 256 ^ n := by positivity
  -- `r` is less than one unit of the highest byte, so only whole units count
  constructor
  · rintro (hsmall | hlarge) ⟨hleft, hright⟩
    · have hunits : (256 : Int) ^ n * s ≤ 256 ^ n * -129 :=
        mul_le_mul_of_nonneg_left (by omega) hbase.le
      omega
    · have hunits : (256 : Int) ^ n * 128 ≤ 256 ^ n * s :=
        mul_le_mul_of_nonneg_left (by omega) hbase.le
      omega
  · intro hout
    by_contra hinside
    obtain ⟨hleft, hright⟩ := not_or.mp hinside
    have hbelow : (256 : Int) ^ n * -128 ≤ 256 ^ n * s :=
      mul_le_mul_of_nonneg_left (by omega) hbase.le
    have habove : (256 : Int) ^ n * s ≤ 256 ^ n * 127 :=
      mul_le_mul_of_nonneg_left (by omega) hbase.le
    exact hout ⟨by omega, by omega⟩

end Combination

end Mos6502
