/-!
# Addressing modes

The thirteen ways in which an instruction names what it works on.  A mode fixes how many
operand bytes follow the opcode.
-/

namespace Mos6502

/-- A way of naming the operand of an instruction. -/
inductive Mode where
  /-- No operand. -/
  | implied
  /-- The accumulator. -/
  | accumulator
  /-- The operand byte itself. -/
  | immediate
  /-- A cell of page zero. -/
  | zeroPage
  /-- A cell of page zero, indexed by X inside the page. -/
  | zeroPageX
  /-- A cell of page zero, indexed by Y inside the page. -/
  | zeroPageY
  /-- A signed distance from the next instruction. -/
  | relative
  /-- A cell anywhere. -/
  | absolute
  /-- A cell anywhere, indexed by X. -/
  | absoluteX
  /-- A cell anywhere, indexed by Y. -/
  | absoluteY
  /-- The address that is stored at an address. -/
  | indirect
  /-- The address that is stored in page zero, where X indexes the table of addresses. -/
  | indirectX
  /-- The address that is stored in page zero, then indexed by Y. -/
  | indirectY
deriving DecidableEq, Repr

namespace Mode

/-- The number of operand bytes that follow the opcode. -/
def operandBytes : Mode → Nat
  | implied | accumulator => 0
  | immediate | zeroPage | zeroPageX | zeroPageY | relative | indirectX | indirectY => 1
  | absolute | absoluteX | absoluteY | indirect => 2

/-- The modes whose index is added to a full address and can carry into its page number. -/
def indexesAcrossPages : Mode → Bool
  | absoluteX | absoluteY | indirectY => true
  | _ => false

/-- The name of a mode, as instruction traces show it. -/
def name : Mode → String
  | implied => "Implied"
  | accumulator => "Accumulator"
  | immediate => "Immediate"
  | zeroPage => "ZeroPage"
  | zeroPageX => "ZeroPageX"
  | zeroPageY => "ZeroPageY"
  | relative => "Relative"
  | absolute => "Absolute"
  | absoluteX => "AbsoluteX"
  | absoluteY => "AbsoluteY"
  | indirect => "Indirect"
  | indirectX => "IndirectX"
  | indirectY => "IndirectY"

end Mode

end Mos6502
