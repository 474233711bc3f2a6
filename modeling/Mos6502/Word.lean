import Mos6502.Text.Hex

/-!
# Bytes and addresses

A `Byte` is an 8-bit word and a `Word` a 16-bit address; arithmetic on both wraps.  An
address is a page number (its high byte) and a place inside that page (its low byte).
The lemmas give the value of every operation as a natural number, which is the view
that later proofs use.
-/

namespace Mos6502

/-- A machine byte; its arithmetic wraps at 256. -/
abbrev Byte := UInt8

/-- A 16-bit address; its arithmetic wraps at 64 KiB. -/
abbrev Word := UInt16

namespace Byte

/-- Bit `i` of a byte, counted from the least significant. -/
def bit (b : Byte) (i : Nat) : Bool :=
  b.toNat.testBit i

/-- The sign of a byte read as a two's complement number: whether bit 7 is set. -/
def isNegative (b : Byte) : Bool :=
  decide (128 ≤ b.toNat)

/-- A byte as two upper-case hexadecimal digits. -/
def hex (b : Byte) : String :=
  Text.Hex.text 2 b.toNat

end Byte

namespace Word

/-- The address at place `low` of page `high`. -/
def ofBytes (high low : Byte) : Word :=
  high.toUInt16 * 256 + low.toUInt16

/-- The address at place `low` of page zero. -/
def zeroPage (low : Byte) : Word :=
  ofBytes 0 low

/-- The address at place `low` of page one, which holds the stack. -/
def stack (low : Byte) : Word :=
  ofBytes 1 low

/-- The page number of an address. -/
def high (w : Word) : Byte :=
  (w / 256).toUInt8

/-- The place of an address inside its page. -/
def low (w : Word) : Byte :=
  w.toUInt8

/-- The address `displacement` cells further on, or back when it is negative. -/
def displace (w : Word) (displacement : Int8) : Word :=
  UInt16.ofNat (((w.toNat : Int) + displacement.toInt) % 65536).toNat

/-- Two addresses share a page when their high bytes agree. -/
def samePage (v w : Word) : Bool :=
  high v == high w

/-- The address that follows inside the same page; after the last place comes the first. -/
def nextInPage (w : Word) : Word :=
  ofBytes (high w) (low w + 1)

/-- An address as four upper-case hexadecimal digits. -/
def hex (w : Word) : String :=
  Text.Hex.text 4 w.toNat

/-! ## Values -/

theorem toNat_ofBytes (high low : Byte) :
    (ofBytes high low).toNat = 256 * high.toNat + low.toNat := by
  have hhigh := high.toNat_lt
  have hlow := low.toNat_lt
  simp only [ofBytes, UInt16.toNat_add, UInt16.toNat_mul, UInt8.toNat_toUInt16,
    UInt16.reduceToNat]
  omega

theorem toNat_zeroPage (low : Byte) : (zeroPage low).toNat = low.toNat := by
  simp [zeroPage, toNat_ofBytes]

theorem toNat_stack (low : Byte) : (stack low).toNat = 256 + low.toNat := by
  simp [stack, toNat_ofBytes]

theorem toNat_high (w : Word) : (high w).toNat = w.toNat / 256 := by
  have hw := w.toNat_lt
  simp only [high, UInt16.toNat_toUInt8, UInt16.toNat_div, UInt16.reduceToNat]
  omega

theorem toNat_low (w : Word) : (low w).toNat = w.toNat % 256 := by
  simp [low]

theorem toNat_displace (w : Word) (displacement : Int8) :
    (displace w displacement).toNat = (((w.toNat : Int) + displacement.toInt) % 65536).toNat := by
  rw [displace, UInt16.toNat_ofNat']
  omega

theorem toNat_nextInPage (w : Word) :
    (nextInPage w).toNat = 256 * (w.toNat / 256) + (w.toNat + 1) % 256 := by
  simp only [nextInPage, toNat_ofBytes, toNat_high, UInt8.toNat_add, toNat_low,
    UInt8.reduceToNat]
  omega

/-! ## Pages -/

@[simp]
theorem low_ofBytes (hi lo : Byte) : low (ofBytes hi lo) = lo := by
  apply UInt8.toNat_inj.mp
  have := lo.toNat_lt
  rw [toNat_low, toNat_ofBytes]
  omega

@[simp]
theorem ofBytes_high_low (w : Word) : ofBytes (high w) (low w) = w := by
  apply UInt16.toNat_inj.mp
  rw [toNat_ofBytes, toNat_high, toNat_low]
  omega

theorem samePage_iff (v w : Word) : samePage v w = true ↔ v.toNat / 256 = w.toNat / 256 := by
  rw [samePage, beq_iff_eq, ← UInt8.toNat_inj, toNat_high, toNat_high]

theorem stack_inj {a b : Byte} : stack a = stack b ↔ a = b := by
  constructor
  · intro h
    have := congrArg low h
    simpa [stack] using this
  · intro h
    rw [h]

end Word

end Mos6502
