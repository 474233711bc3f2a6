import Mos6502.Word

/-!
# Arithmetic of the accumulator

Sums and differences in binary and in packed decimal, comparison, and the shifts by one
place.  Each is a function of bytes and the incoming carry.  The binary sum is a nine-bit
sum; the decimal ones work on the two four-bit digits, with the correction by six that
turns a sixteen-valued digit into a ten-valued one.
-/

namespace Mos6502

/-- The result of an addition or a subtraction. -/
@[ext]
structure Sum where
  value : Byte
  carry : Bool
  overflow : Bool
deriving DecidableEq, Repr

/-- The result of a shift: the shifted byte, and the bit that fell out. -/
@[ext]
structure Shifted where
  value : Byte
  carry : Bool
deriving DecidableEq, Repr

namespace Arithmetic

/-- Both operands of an addition have one sign and the result has the other. -/
def signedOverflow (a m result : Byte) : Bool :=
  Byte.isNegative a == Byte.isNegative m && Byte.isNegative a != Byte.isNegative result

/-! ## Binary -/

/-- The nine-bit sum of two bytes and a carry. -/
def addBinary (a m : Byte) (carry : Bool) : Sum :=
  let sum := a.toNat + m.toNat + carry.toNat
  let value := UInt8.ofNat sum
  { value, carry := decide (256 ≤ sum), overflow := signedOverflow a m value }

/-- Subtraction is addition of the complement; a clear carry afterwards is a borrow. -/
def subBinary (a m : Byte) (carry : Bool) : Sum :=
  addBinary a (~~~m) carry

/-- The difference of two bytes, and whether the first is at least the second. -/
def compare (r m : Byte) : Shifted :=
  { value := r - m, carry := decide (m ≤ r) }

/-! ## Packed decimal -/

/-- The units digit of a packed decimal byte. -/
def units (v : Byte) : Nat :=
  v.toNat % 16

/-- The tens digit of a packed decimal byte. -/
def tens (v : Byte) : Nat :=
  v.toNat / 16

/-- The number that two packed digits denote; a digit above nine counts at face value. -/
def decimalValue (v : Byte) : Nat :=
  tens v * 10 + units v

/-- The packed decimal sum.  A digit above nine is corrected by six; the units carry into
the tens and the tens into the carry. -/
def addDecimal (a m : Byte) (carry : Bool) : Sum :=
  let low := units a + units m + carry.toNat
  let low := if 9 < low then low + 6 else low
  let high := tens a + tens m + (if 15 < low then 1 else 0)
  let high := if 9 < high then high + 6 else high
  let result := (decimalValue a + decimalValue m + carry.toNat) % 100
  { value := UInt8.ofNat (high % 16 * 16 + low % 16)
    carry := decide (15 < high)
    overflow := signedOverflow (UInt8.ofNat (decimalValue a)) (UInt8.ofNat (decimalValue m))
      (UInt8.ofNat result) }

/-- The packed decimal difference.  A digit that borrows is corrected by six; a borrow out
of the tens clears the carry. -/
def subDecimal (a m : Byte) (carry : Bool) : Sum :=
  let borrow : Int := (!carry).toNat
  let low : Int := units a - units m - borrow
  let high : Int := tens a - tens m - (if low < 0 then 1 else 0)
  let low := if low < 0 then low - 6 else low
  let noBorrow := decide (0 ≤ high)
  let high := if high < 0 then high - 6 else high
  let first := UInt8.ofNat (decimalValue a)
  let second := UInt8.ofNat (decimalValue m)
  let result := UInt8.ofNat ((decimalValue a - decimalValue m - borrow) % 100).toNat
  { value := UInt8.ofNat (high % 16 * 16 + low % 16).toNat
    carry := noBorrow
    overflow := Byte.isNegative first != Byte.isNegative second
      && Byte.isNegative first != Byte.isNegative result }

/-! ## Shifts and rotations by one place -/

/-- To the left; a zero comes in. -/
def shiftLeft (v : Byte) : Shifted :=
  { value := v <<< 1, carry := Byte.bit v 7 }

/-- To the right; a zero comes in. -/
def shiftRight (v : Byte) : Shifted :=
  { value := v >>> 1, carry := Byte.bit v 0 }

/-- To the left; the old carry comes in. -/
def rotateLeft (v : Byte) (carry : Bool) : Shifted :=
  { value := v <<< 1 ||| (if carry then 0x01 else 0), carry := Byte.bit v 7 }

/-- To the right; the old carry comes in. -/
def rotateRight (v : Byte) (carry : Bool) : Shifted :=
  { value := v >>> 1 ||| (if carry then 0x80 else 0), carry := Byte.bit v 0 }

/-! ## Values -/

theorem toNat_addBinary (a m : Byte) (carry : Bool) :
    (addBinary a m carry).value.toNat = (a.toNat + m.toNat + carry.toNat) % 256 := by
  simp [addBinary]

theorem toNat_complement (m : Byte) : (~~~m).toNat = 255 - m.toNat := by
  rw [UInt8.toNat_not]
  rfl

end Arithmetic

end Mos6502
