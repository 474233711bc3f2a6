import Mos6502.Arithmetic

/-!
# Binary arithmetic in the integers

The kernels of `Arithmetic` work on nine-bit sums, complements and sign bits.  Here each of
them is a byte `UInt8.ofInt z`, the one congruent to an integer `z` modulo 256, together with
conditions on integers: the carry compares unsigned values, and the overflow asks whether a
sum of signed values leaves `[-128, 127]`.

Only `addBinary_eq` goes into the sign bits.  Subtraction follows from it, because the
complement of a byte is `255 - m` as an unsigned number and `-1 - m` as a signed one.
-/

namespace Mos6502

/-! ## Signed values -/

/-- A byte read as a two's complement number. -/
def Byte.signed (b : Byte) : Int :=
  b.toInt8.toInt

/-- Whether an integer has no byte that is its two's complement. -/
def Arithmetic.outOfRange (z : Int) : Bool :=
  decide (z < -128 ∨ 127 < z)

namespace Byte

theorem signed_eq (b : Byte) :
    b.signed = if b.toNat < 128 then (b.toNat : Int) else b.toNat - 256 := by
  have hsigned : b.signed = BitVec.toInt b.toBitVec := rfl
  rw [hsigned, BitVec.toInt_eq_toNat_cond, UInt8.toNat_toBitVec]
  split <;> split <;> omega

theorem isNegative_eq (b : Byte) : isNegative b = decide (b.signed < 0) := by
  have hb := b.toNat_lt
  rw [isNegative, decide_eq_decide, signed_eq]
  split <;> omega

theorem toNat_ofInt (z : Int) : ((UInt8.ofInt z).toNat : Int) = z % 256 := by
  rw [UInt8.ofInt, UInt8.toNat_ofNat']
  omega

theorem eq_ofInt {b : Byte} {z : Int} (h : (b.toNat : Int) = z % 256) : b = UInt8.ofInt z := by
  apply UInt8.toNat_inj.mp
  have hz := toNat_ofInt z
  omega

/-- Integers that differ by a multiple of 256 have the same byte. -/
theorem ofInt_congr {y z : Int} (h : y % 256 = z % 256) : UInt8.ofInt y = UInt8.ofInt z :=
  eq_ofInt ((toNat_ofInt y).trans h)

theorem add_one_eq (b : Byte) : b + 1 = UInt8.ofInt (b.toNat + 1) := by
  apply eq_ofInt
  rw [UInt8.toNat_add]
  rfl

theorem sub_eq (b c : Byte) : b - c = UInt8.ofInt (b.toNat - c.toNat) := by
  have hc := c.toNat_lt
  apply eq_ofInt
  rw [UInt8.toNat_sub]
  omega

end Byte

/-! ## The kernels -/

namespace Arithmetic

open Byte

theorem addBinary_eq (a m : Byte) (carry : Bool) :
    addBinary a m carry =
      { value := UInt8.ofInt (a.toNat + m.toNat + carry.toNat)
        carry := decide (255 < a.toNat + m.toNat + carry.toNat)
        overflow := outOfRange (a.signed + m.signed + carry.toNat) } := by
  have ha := a.toNat_lt
  have hm := m.toNat_lt
  have hcarry := carry.toNat_le
  have hsum := toNat_addBinary a m carry
  refine Sum.ext (eq_ofInt ?_) (decide_eq_decide.mpr ?_) ?_
  · omega
  · omega
  · -- A signed value is the unsigned one less 256 times the sign bit, so the three sign bits
    -- settle whether the signed sum stays in range.
    change signedOverflow a m (addBinary a m carry).value = _
    rw [Bool.eq_iff_iff]
    simp only [signedOverflow, isNegative, outOfRange, signed_eq, Bool.and_eq_true, beq_iff_eq,
      bne_iff_ne, ne_eq, decide_eq_decide, decide_eq_true_eq]
    split <;> split <;> omega

theorem signed_complement (m : Byte) : (~~~m).signed = -1 - m.signed := by
  have hm := m.toNat_lt
  rw [signed_eq, signed_eq, toNat_complement]
  split <;> split <;> omega

theorem subBinary_eq (a m : Byte) (carry : Bool) :
    subBinary a m carry =
      { value := UInt8.ofInt (a.toNat - m.toNat - (1 - carry.toNat))
        carry := decide (m.toNat + (1 - carry.toNat) ≤ a.toNat)
        overflow := outOfRange (a.signed - m.signed - (1 - carry.toNat)) } := by
  have hm := m.toNat_lt
  have hcarry := carry.toNat_le
  have hcomplement : ((~~~m).toNat : Int) = 255 - m.toNat := by
    rw [toNat_complement]
    omega
  have hsigned : a.signed + (-1 - m.signed) + carry.toNat
      = a.signed - m.signed - (1 - carry.toNat) := by omega
  rw [subBinary, addBinary_eq, hcomplement, signed_complement, hsigned]
  refine Sum.ext (ofInt_congr ?_) (decide_eq_decide.mpr ?_) rfl
  · omega
  · omega

theorem compare_eq (r m : Byte) :
    compare r m =
      { value := UInt8.ofInt (r.toNat - m.toNat), carry := decide (m.toNat ≤ r.toNat) } :=
  Shifted.ext (sub_eq r m) (decide_eq_decide.mpr UInt8.le_iff_toNat_le)

/-! ## Shifts and rotations -/

/-- A statement about all bytes is a finite one. -/
theorem forall_byte {p : Byte → Prop} (hall : ∀ i : Fin 256, p (UInt8.ofFin i)) (b : Byte) :
    p b :=
  hall b.toFin

theorem rotateLeft_eq (v : Byte) (carry : Bool) :
    rotateLeft v carry =
      { value := UInt8.ofInt (2 * v.toNat + carry.toNat), carry := decide (128 ≤ v.toNat) } := by
  revert v
  refine forall_byte ?_
  cases carry <;> decide +kernel

theorem rotateRight_eq (v : Byte) (carry : Bool) :
    rotateRight v carry =
      { value := UInt8.ofInt (v.toNat / 2 + 128 * carry.toNat)
        carry := decide (v.toNat % 2 = 1) } := by
  revert v
  refine forall_byte ?_
  cases carry <;> decide +kernel

/-- A shift is a rotation that brings in a clear carry. -/
theorem shiftLeft_eq (v : Byte) :
    shiftLeft v = { value := UInt8.ofInt (2 * v.toNat), carry := decide (128 ≤ v.toNat) } := by
  have hrotate : shiftLeft v = rotateLeft v false := by
    simp [shiftLeft, rotateLeft]
  rw [hrotate, rotateLeft_eq]
  simp

theorem shiftRight_eq (v : Byte) :
    shiftRight v = { value := UInt8.ofInt (v.toNat / 2), carry := decide (v.toNat % 2 = 1) } := by
  have hrotate : shiftRight v = rotateRight v false := by
    simp [shiftRight, rotateRight]
  rw [hrotate, rotateRight_eq]
  simp

end Arithmetic

end Mos6502
