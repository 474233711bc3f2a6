/-!
# Operations

What an instruction does, apart from where its operand comes from.  There is one
operation for each mnemonic, and one for all the opcode bytes that have none.
-/

namespace Mos6502

/-- What an instruction does. -/
inductive Operation where
  /-- Add with carry. -/
  | adc
  /-- Conjunction, bit by bit. -/
  | and
  /-- Shift to the left. -/
  | asl
  /-- Branch on carry clear. -/
  | bcc
  /-- Branch on carry set. -/
  | bcs
  /-- Branch on zero set. -/
  | beq
  /-- Test bits against the accumulator. -/
  | bit
  /-- Branch on negative set. -/
  | bmi
  /-- Branch on zero clear. -/
  | bne
  /-- Branch on negative clear. -/
  | bpl
  /-- Break; here without the interrupt sequence. -/
  | brk
  /-- Branch on overflow clear. -/
  | bvc
  /-- Branch on overflow set. -/
  | bvs
  /-- Clear the carry. -/
  | clc
  /-- Clear decimal mode. -/
  | cld
  /-- Clear the interrupt mask. -/
  | cli
  /-- Clear the overflow. -/
  | clv
  /-- Compare with the accumulator. -/
  | cmp
  /-- Compare with X. -/
  | cpx
  /-- Compare with Y. -/
  | cpy
  /-- Decrement a cell. -/
  | dec
  /-- Decrement X. -/
  | dex
  /-- Decrement Y. -/
  | dey
  /-- Exclusive disjunction, bit by bit. -/
  | eor
  /-- Increment a cell. -/
  | inc
  /-- Increment X. -/
  | inx
  /-- Increment Y. -/
  | iny
  /-- Jump. -/
  | jmp
  /-- Jump to a subroutine. -/
  | jsr
  /-- Load the accumulator. -/
  | lda
  /-- Load X. -/
  | ldx
  /-- Load Y. -/
  | ldy
  /-- Shift to the right. -/
  | lsr
  /-- Nothing. -/
  | nop
  /-- Disjunction, bit by bit. -/
  | ora
  /-- Push the accumulator. -/
  | pha
  /-- Push the flags. -/
  | php
  /-- Pull the accumulator. -/
  | pla
  /-- Pull the flags. -/
  | plp
  /-- Rotate to the left. -/
  | rol
  /-- Rotate to the right. -/
  | ror
  /-- Return from an interrupt. -/
  | rti
  /-- Return from a subroutine. -/
  | rts
  /-- Subtract with borrow. -/
  | sbc
  /-- Set the carry. -/
  | sec
  /-- Set decimal mode. -/
  | sed
  /-- Set the interrupt mask. -/
  | sei
  /-- Store the accumulator. -/
  | sta
  /-- Store X. -/
  | stx
  /-- Store Y. -/
  | sty
  /-- Copy the accumulator to X. -/
  | tax
  /-- Copy the accumulator to Y. -/
  | tay
  /-- Copy the stack pointer to X. -/
  | tsx
  /-- Copy X to the accumulator. -/
  | txa
  /-- Copy X to the stack pointer. -/
  | txs
  /-- Copy Y to the accumulator. -/
  | tya
  /-- Nothing, for an opcode byte without a meaning. -/
  | undocumented
deriving DecidableEq, Repr

namespace Operation

/-- The three letters of an operation; question marks where the byte has no meaning. -/
def mnemonic : Operation → String
  | adc => "ADC"
  | and => "AND"
  | asl => "ASL"
  | bcc => "BCC"
  | bcs => "BCS"
  | beq => "BEQ"
  | bit => "BIT"
  | bmi => "BMI"
  | bne => "BNE"
  | bpl => "BPL"
  | brk => "BRK"
  | bvc => "BVC"
  | bvs => "BVS"
  | clc => "CLC"
  | cld => "CLD"
  | cli => "CLI"
  | clv => "CLV"
  | cmp => "CMP"
  | cpx => "CPX"
  | cpy => "CPY"
  | dec => "DEC"
  | dex => "DEX"
  | dey => "DEY"
  | eor => "EOR"
  | inc => "INC"
  | inx => "INX"
  | iny => "INY"
  | jmp => "JMP"
  | jsr => "JSR"
  | lda => "LDA"
  | ldx => "LDX"
  | ldy => "LDY"
  | lsr => "LSR"
  | nop => "NOP"
  | ora => "ORA"
  | pha => "PHA"
  | php => "PHP"
  | pla => "PLA"
  | plp => "PLP"
  | rol => "ROL"
  | ror => "ROR"
  | rti => "RTI"
  | rts => "RTS"
  | sbc => "SBC"
  | sec => "SEC"
  | sed => "SED"
  | sei => "SEI"
  | sta => "STA"
  | stx => "STX"
  | sty => "STY"
  | tax => "TAX"
  | tay => "TAY"
  | tsx => "TSX"
  | txa => "TXA"
  | txs => "TXS"
  | tya => "TYA"
  | undocumented => "???"

/-- The operations that only read their operand through an index and so pay one more cycle
when the index carries into another page. -/
def paysForPageCrossing : Operation → Bool
  | lda | ldx | ldy | adc | sbc | and | ora | eor | cmp => true
  | _ => false

end Operation

end Mos6502
