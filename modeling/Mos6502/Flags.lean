import Mos6502.Word

/-!
# Processor flags

Seven conditions, and the byte that stands for them on the stack.  From bit 7 down the
byte holds N, V, a bit that is always set, B, D, I, Z and C.
-/

namespace Mos6502

/-- The seven conditions of the processor. -/
structure Flags where
  carry : Bool
  zero : Bool
  interrupt : Bool
  decimal : Bool
  breakCommand : Bool
  overflow : Bool
  negative : Bool
deriving DecidableEq, Repr

namespace Flags

/-- No condition holds. -/
def clear : Flags :=
  ⟨false, false, false, false, false, false, false⟩

/-- The weight of one condition in the packed byte. -/
def weight (condition : Bool) (value : Byte) : Byte :=
  if condition then value else 0

/-- The byte that stands for the flags; bit 5 is always set. -/
def pack (f : Flags) : Byte :=
  weight f.negative 0x80 ||| weight f.overflow 0x40 ||| 0x20 ||| weight f.breakCommand 0x10
    ||| weight f.decimal 0x08 ||| weight f.interrupt 0x04 ||| weight f.zero 0x02
    ||| weight f.carry 0x01

/-- The flags that a byte stands for; bit 5 means nothing. -/
def unpack (p : Byte) : Flags where
  carry := Byte.bit p 0
  zero := Byte.bit p 1
  interrupt := Byte.bit p 2
  decimal := Byte.bit p 3
  breakCommand := Byte.bit p 4
  overflow := Byte.bit p 6
  negative := Byte.bit p 7

/-- The flags after a result: Z and N describe it, the others stay. -/
def withResult (f : Flags) (result : Byte) : Flags :=
  { f with zero := result == 0, negative := Byte.isNegative result }

/-- One letter for each condition that holds and a dot for each that does not; the dash
is the bit that means nothing. -/
def text (f : Flags) : String :=
  let letter (condition : Bool) (c : Char) : Char := if condition then c else '.'
  String.ofList
    [letter f.negative 'N', letter f.overflow 'V', '-', letter f.breakCommand 'B',
      letter f.decimal 'D', letter f.interrupt 'I', letter f.zero 'Z', letter f.carry 'C']

/-! ## Packing and unpacking -/

/-- Packing loses nothing. -/
@[simp]
theorem unpack_pack (f : Flags) : unpack (pack f) = f := by
  obtain ⟨carry, zero, interrupt, decimal, breakCommand, overflow, negative⟩ := f
  revert carry zero interrupt decimal breakCommand overflow negative
  decide

end Flags

end Mos6502
