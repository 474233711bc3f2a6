import Mos6502.Word
import Mos6502.Instruction.Mode
import Mos6502.Instruction.Operation

/-!
# The opcode table

Every byte has an entry: an operation, the mode that finds its operand, and the cycles
that it costs before penalties.  151 bytes are documented; each of the others takes one
byte and two cycles and does nothing.
-/

namespace Mos6502

/-- What an opcode byte stands for. -/
structure Opcode where
  operation : Operation
  mode : Mode
  /-- The cost in cycles, before penalties. -/
  cycles : Nat
deriving DecidableEq, Repr

namespace Opcode

/-- Whether an index that carries into another page costs one more cycle. -/
def pagePenalty (opcode : Opcode) : Bool :=
  opcode.operation.paysForPageCrossing && opcode.mode.indexesAcrossPages

/-- The length of the instruction in bytes, the opcode byte included. -/
def size (opcode : Opcode) : Nat :=
  1 + opcode.mode.operandBytes

/-- Whether the byte has a documented meaning. -/
def isDocumented (opcode : Opcode) : Bool :=
  opcode.operation != .undocumented

/-- The entry of every byte without a documented meaning. -/
def undocumented : Opcode :=
  ⟨.undocumented, .implied, 2⟩

/-- The entries of all bytes: the high digit of a byte is its row, the low digit its column. -/
def table : Vector (Vector Opcode 16) 16 := #v[
  #v[⟨.brk, .implied, 7⟩, ⟨.ora, .indirectX, 6⟩, undocumented, undocumented,
    undocumented, ⟨.ora, .zeroPage, 3⟩, ⟨.asl, .zeroPage, 5⟩, undocumented,
    ⟨.php, .implied, 3⟩, ⟨.ora, .immediate, 2⟩, ⟨.asl, .accumulator, 2⟩, undocumented,
    undocumented, ⟨.ora, .absolute, 4⟩, ⟨.asl, .absolute, 6⟩, undocumented],
  #v[⟨.bpl, .relative, 2⟩, ⟨.ora, .indirectY, 5⟩, undocumented, undocumented,
    undocumented, ⟨.ora, .zeroPageX, 4⟩, ⟨.asl, .zeroPageX, 6⟩, undocumented,
    ⟨.clc, .implied, 2⟩, ⟨.ora, .absoluteY, 4⟩, undocumented, undocumented,
    undocumented, ⟨.ora, .absoluteX, 4⟩, ⟨.asl, .absoluteX, 7⟩, undocumented],
  #v[⟨.jsr, .absolute, 6⟩, ⟨.and, .indirectX, 6⟩, undocumented, undocumented,
    ⟨.bit, .zeroPage, 3⟩, ⟨.and, .zeroPage, 3⟩, ⟨.rol, .zeroPage, 5⟩, undocumented,
    ⟨.plp, .implied, 4⟩, ⟨.and, .immediate, 2⟩, ⟨.rol, .accumulator, 2⟩, undocumented,
    ⟨.bit, .absolute, 4⟩, ⟨.and, .absolute, 4⟩, ⟨.rol, .absolute, 6⟩, undocumented],
  #v[⟨.bmi, .relative, 2⟩, ⟨.and, .indirectY, 5⟩, undocumented, undocumented,
    undocumented, ⟨.and, .zeroPageX, 4⟩, ⟨.rol, .zeroPageX, 6⟩, undocumented,
    ⟨.sec, .implied, 2⟩, ⟨.and, .absoluteY, 4⟩, undocumented, undocumented,
    undocumented, ⟨.and, .absoluteX, 4⟩, ⟨.rol, .absoluteX, 7⟩, undocumented],
  #v[⟨.rti, .implied, 6⟩, ⟨.eor, .indirectX, 6⟩, undocumented, undocumented,
    undocumented, ⟨.eor, .zeroPage, 3⟩, ⟨.lsr, .zeroPage, 5⟩, undocumented,
    ⟨.pha, .implied, 3⟩, ⟨.eor, .immediate, 2⟩, ⟨.lsr, .accumulator, 2⟩, undocumented,
    ⟨.jmp, .absolute, 3⟩, ⟨.eor, .absolute, 4⟩, ⟨.lsr, .absolute, 6⟩, undocumented],
  #v[⟨.bvc, .relative, 2⟩, ⟨.eor, .indirectY, 5⟩, undocumented, undocumented,
    undocumented, ⟨.eor, .zeroPageX, 4⟩, ⟨.lsr, .zeroPageX, 6⟩, undocumented,
    ⟨.cli, .implied, 2⟩, ⟨.eor, .absoluteY, 4⟩, undocumented, undocumented,
    undocumented, ⟨.eor, .absoluteX, 4⟩, ⟨.lsr, .absoluteX, 7⟩, undocumented],
  #v[⟨.rts, .implied, 6⟩, ⟨.adc, .indirectX, 6⟩, undocumented, undocumented,
    undocumented, ⟨.adc, .zeroPage, 3⟩, ⟨.ror, .zeroPage, 5⟩, undocumented,
    ⟨.pla, .implied, 4⟩, ⟨.adc, .immediate, 2⟩, ⟨.ror, .accumulator, 2⟩, undocumented,
    ⟨.jmp, .indirect, 5⟩, ⟨.adc, .absolute, 4⟩, ⟨.ror, .absolute, 6⟩, undocumented],
  #v[⟨.bvs, .relative, 2⟩, ⟨.adc, .indirectY, 5⟩, undocumented, undocumented,
    undocumented, ⟨.adc, .zeroPageX, 4⟩, ⟨.ror, .zeroPageX, 6⟩, undocumented,
    ⟨.sei, .implied, 2⟩, ⟨.adc, .absoluteY, 4⟩, undocumented, undocumented,
    undocumented, ⟨.adc, .absoluteX, 4⟩, ⟨.ror, .absoluteX, 7⟩, undocumented],
  #v[undocumented, ⟨.sta, .indirectX, 6⟩, undocumented, undocumented,
    ⟨.sty, .zeroPage, 3⟩, ⟨.sta, .zeroPage, 3⟩, ⟨.stx, .zeroPage, 3⟩, undocumented,
    ⟨.dey, .implied, 2⟩, undocumented, ⟨.txa, .implied, 2⟩, undocumented,
    ⟨.sty, .absolute, 4⟩, ⟨.sta, .absolute, 4⟩, ⟨.stx, .absolute, 4⟩, undocumented],
  #v[⟨.bcc, .relative, 2⟩, ⟨.sta, .indirectY, 6⟩, undocumented, undocumented,
    ⟨.sty, .zeroPageX, 4⟩, ⟨.sta, .zeroPageX, 4⟩, ⟨.stx, .zeroPageY, 4⟩, undocumented,
    ⟨.tya, .implied, 2⟩, ⟨.sta, .absoluteY, 5⟩, ⟨.txs, .implied, 2⟩, undocumented,
    undocumented, ⟨.sta, .absoluteX, 5⟩, undocumented, undocumented],
  #v[⟨.ldy, .immediate, 2⟩, ⟨.lda, .indirectX, 6⟩, ⟨.ldx, .immediate, 2⟩, undocumented,
    ⟨.ldy, .zeroPage, 3⟩, ⟨.lda, .zeroPage, 3⟩, ⟨.ldx, .zeroPage, 3⟩, undocumented,
    ⟨.tay, .implied, 2⟩, ⟨.lda, .immediate, 2⟩, ⟨.tax, .implied, 2⟩, undocumented,
    ⟨.ldy, .absolute, 4⟩, ⟨.lda, .absolute, 4⟩, ⟨.ldx, .absolute, 4⟩, undocumented],
  #v[⟨.bcs, .relative, 2⟩, ⟨.lda, .indirectY, 5⟩, undocumented, undocumented,
    ⟨.ldy, .zeroPageX, 4⟩, ⟨.lda, .zeroPageX, 4⟩, ⟨.ldx, .zeroPageY, 4⟩, undocumented,
    ⟨.clv, .implied, 2⟩, ⟨.lda, .absoluteY, 4⟩, ⟨.tsx, .implied, 2⟩, undocumented,
    ⟨.ldy, .absoluteX, 4⟩, ⟨.lda, .absoluteX, 4⟩, ⟨.ldx, .absoluteY, 4⟩, undocumented],
  #v[⟨.cpy, .immediate, 2⟩, ⟨.cmp, .indirectX, 6⟩, undocumented, undocumented,
    ⟨.cpy, .zeroPage, 3⟩, ⟨.cmp, .zeroPage, 3⟩, ⟨.dec, .zeroPage, 5⟩, undocumented,
    ⟨.iny, .implied, 2⟩, ⟨.cmp, .immediate, 2⟩, ⟨.dex, .implied, 2⟩, undocumented,
    ⟨.cpy, .absolute, 4⟩, ⟨.cmp, .absolute, 4⟩, ⟨.dec, .absolute, 6⟩, undocumented],
  #v[⟨.bne, .relative, 2⟩, ⟨.cmp, .indirectY, 5⟩, undocumented, undocumented,
    undocumented, ⟨.cmp, .zeroPageX, 4⟩, ⟨.dec, .zeroPageX, 6⟩, undocumented,
    ⟨.cld, .implied, 2⟩, ⟨.cmp, .absoluteY, 4⟩, undocumented, undocumented,
    undocumented, ⟨.cmp, .absoluteX, 4⟩, ⟨.dec, .absoluteX, 7⟩, undocumented],
  #v[⟨.cpx, .immediate, 2⟩, ⟨.sbc, .indirectX, 6⟩, undocumented, undocumented,
    ⟨.cpx, .zeroPage, 3⟩, ⟨.sbc, .zeroPage, 3⟩, ⟨.inc, .zeroPage, 5⟩, undocumented,
    ⟨.inx, .implied, 2⟩, ⟨.sbc, .immediate, 2⟩, ⟨.nop, .implied, 2⟩, undocumented,
    ⟨.cpx, .absolute, 4⟩, ⟨.sbc, .absolute, 4⟩, ⟨.inc, .absolute, 6⟩, undocumented],
  #v[⟨.beq, .relative, 2⟩, ⟨.sbc, .indirectY, 5⟩, undocumented, undocumented,
    undocumented, ⟨.sbc, .zeroPageX, 4⟩, ⟨.inc, .zeroPageX, 6⟩, undocumented,
    ⟨.sed, .implied, 2⟩, ⟨.sbc, .absoluteY, 4⟩, undocumented, undocumented,
    undocumented, ⟨.sbc, .absoluteX, 4⟩, ⟨.inc, .absoluteX, 7⟩, undocumented]]

/-- The entry of an opcode byte. -/
def decode (byte : Byte) : Opcode :=
  (table.get ⟨byte.toNat / 16, by have := byte.toNat_lt; omega⟩).get
    ⟨byte.toNat % 16, by omega⟩

/-! ## Facts about the whole table -/

/-- A statement about all entries is a finite one. -/
theorem forall_decode {p : Opcode → Prop} [DecidablePred p]
    (hall : ∀ row column : Fin 16, p ((table.get row).get column)) (byte : Byte) :
    p (decode byte) :=
  hall _ _

/-- The cost of an instruction before penalties lies between two and seven cycles. -/
theorem cycles_decode (byte : Byte) : 2 ≤ (decode byte).cycles ∧ (decode byte).cycles ≤ 7 :=
  forall_decode (p := fun o => 2 ≤ o.cycles ∧ o.cycles ≤ 7) (by decide +kernel) byte

/-- An instruction has one to three bytes. -/
theorem size_decode (byte : Byte) : 1 ≤ (decode byte).size ∧ (decode byte).size ≤ 3 :=
  forall_decode (p := fun o => 1 ≤ o.size ∧ o.size ≤ 3) (by decide +kernel) byte

end Opcode

end Mos6502
