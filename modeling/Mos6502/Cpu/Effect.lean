import Mos6502.Arithmetic
import Mos6502.Cpu.Operand
import Mos6502.Instruction.Operation

/-!
# Operations on the machine

What each operation does once its operand has been found.  The outcome is the machine
afterwards, the cycles beyond the cost in the opcode table, and the bytes that went over
the stack in the order in which they did.
-/

namespace Mos6502

/-- One byte moved to or from the stack, with the cell in page one. -/
inductive StackAccess where
  | push (byte : Byte) (cell : Word)
  | pull (byte : Byte) (cell : Word)
deriving DecidableEq, Repr

/-- The outcome of an instruction. -/
structure Effect where
  cpu : Cpu
  /-- The cycles spent. -/
  cycles : Nat
  /-- The bytes moved to and from the stack, first to last. -/
  traffic : List StackAccess
deriving DecidableEq

namespace Effect

/-- The outcome without cycles and without stack traffic. -/
@[inline]
def still (cpu : Cpu) : Effect :=
  ⟨cpu, 0, []⟩

/-- A byte is pushed. -/
def push : Effect → Byte → Effect
  | ⟨cpu, cycles, traffic⟩, byte =>
      let traffic := traffic ++ [.push byte (Word.stack cpu.sp)]
      ⟨cpu.push byte, cycles, traffic⟩

/-- A byte is pulled and handed on. -/
def pull : Effect → (Byte → Effect → Effect) → Effect
  | ⟨cpu, cycles, traffic⟩, use =>
      let (byte, cpu) := cpu.pull
      use byte ⟨cpu, cycles, traffic ++ [.pull byte (Word.stack cpu.sp)]⟩

/-- The machine changes without cycles and without stack traffic. -/
def map (f : Cpu → Cpu) : Effect → Effect
  | ⟨cpu, cycles, traffic⟩ => ⟨f cpu, cycles, traffic⟩

end Effect

namespace Cpu

/-- A sum goes to the accumulator and its carry and overflow to the flags. -/
def setSum (cpu : Cpu) (sum : Sum) : Cpu :=
  { cpu with
    a := sum.value
    flags := { cpu.flags with carry := sum.carry, overflow := sum.overflow }.withResult sum.value }

/-- The sum of the accumulator, a byte and the carry, in the number system in force. -/
def add (cpu : Cpu) (m : Byte) : Sum :=
  if cpu.flags.decimal then Arithmetic.addDecimal cpu.a m cpu.flags.carry
  else Arithmetic.addBinary cpu.a m cpu.flags.carry

/-- The difference of the accumulator, a byte and the borrow, in the number system in force. -/
def subtract (cpu : Cpu) (m : Byte) : Sum :=
  if cpu.flags.decimal then Arithmetic.subDecimal cpu.a m cpu.flags.carry
  else Arithmetic.subBinary cpu.a m cpu.flags.carry

/-- A register is compared with a byte; only flags change. -/
def compare (cpu : Cpu) (r m : Byte) : Cpu :=
  let difference := Arithmetic.compare r m
  cpu.withCarry difference.carry difference.value

/-- Z tells whether the accumulator and a byte share a set bit; N and V are the byte's two
highest bits. -/
def testBits (cpu : Cpu) (m : Byte) : Cpu :=
  { cpu with
    flags := { cpu.flags with
      zero := cpu.a &&& m == 0
      negative := Byte.bit m 7
      overflow := Byte.bit m 6 } }

/-- An operand is replaced by its shifted value. -/
def shift (cpu : Cpu) (operand : Operand) (shifted : Shifted) : Cpu :=
  (cpu.store operand shifted.value).withCarry shifted.carry shifted.value

/-- An operand is replaced by a result that Z and N describe. -/
def replace (cpu : Cpu) (operand : Operand) (result : Byte) : Cpu :=
  (cpu.store operand result).withResult result

/-- The program counter moves to an address. -/
def jump (cpu : Cpu) (target : Word) : Cpu :=
  { cpu with pc := target }

/-- A conditional branch: taking it costs one cycle, and one more when it leaves the page of
the next instruction. -/
def branch (cpu : Cpu) (condition : Bool) : Operand → Effect
  | .relative distance =>
      if condition then
        let target := Word.displace cpu.pc distance
        let cost := if Word.samePage cpu.pc target then 1 else 2
        ⟨cpu.jump target, cost, []⟩
      else
        .still cpu
  | _ => .still cpu

/-- A jump that leaves the address of its own last byte on the stack, high byte first. -/
def call (cpu : Cpu) (target : Word) : Effect :=
  let back := cpu.pc - 1
  (((Effect.still cpu).push (Word.high back)).push (Word.low back)).map (·.jump target)

/-- The address on the stack, low byte first, is where the program counter goes; a
subroutine resumes one further on. -/
def returnTo (effect : Effect) (adjust : Word) : Effect :=
  effect.pull fun low effect =>
    effect.pull fun high effect =>
      effect.map (·.jump (Word.ofBytes high low + adjust))

/-- What an operation does to the machine, given its operand; the program counter is already
at the next instruction. -/
def perform (cpu : Cpu) (operation : Operation) (operand : Operand) : Effect :=
  match operation with
  | .lda => .still (cpu.setA (cpu.value operand))
  | .ldx => .still (cpu.setX (cpu.value operand))
  | .ldy => .still (cpu.setY (cpu.value operand))
  | .sta => .still (cpu.store operand cpu.a)
  | .stx => .still (cpu.store operand cpu.x)
  | .sty => .still (cpu.store operand cpu.y)
  | .and => .still (cpu.setA (cpu.a &&& cpu.value operand))
  | .ora => .still (cpu.setA (cpu.a ||| cpu.value operand))
  | .eor => .still (cpu.setA (cpu.a ^^^ cpu.value operand))
  | .bit => .still (cpu.testBits (cpu.value operand))
  | .adc => .still (cpu.setSum (cpu.add (cpu.value operand)))
  | .sbc => .still (cpu.setSum (cpu.subtract (cpu.value operand)))
  | .cmp => .still (cpu.compare cpu.a (cpu.value operand))
  | .cpx => .still (cpu.compare cpu.x (cpu.value operand))
  | .cpy => .still (cpu.compare cpu.y (cpu.value operand))
  | .asl => .still (cpu.shift operand (Arithmetic.shiftLeft (cpu.value operand)))
  | .lsr => .still (cpu.shift operand (Arithmetic.shiftRight (cpu.value operand)))
  | .rol => .still (cpu.shift operand (Arithmetic.rotateLeft (cpu.value operand) cpu.flags.carry))
  | .ror => .still (cpu.shift operand (Arithmetic.rotateRight (cpu.value operand) cpu.flags.carry))
  | .inc => .still (cpu.replace operand (cpu.value operand + 1))
  | .dec => .still (cpu.replace operand (cpu.value operand - 1))
  | .inx => .still (cpu.setX (cpu.x + 1))
  | .iny => .still (cpu.setY (cpu.y + 1))
  | .dex => .still (cpu.setX (cpu.x - 1))
  | .dey => .still (cpu.setY (cpu.y - 1))
  | .tax => .still (cpu.setX cpu.a)
  | .tay => .still (cpu.setY cpu.a)
  | .txa => .still (cpu.setA cpu.x)
  | .tya => .still (cpu.setA cpu.y)
  | .tsx => .still (cpu.setX cpu.sp)
  | .txs => .still { cpu with sp := cpu.x }
  | .pha => (Effect.still cpu).push cpu.a
  | .php => (Effect.still cpu).push cpu.flags.pack
  | .pla => (Effect.still cpu).pull fun byte effect => effect.map (·.setA byte)
  | .plp => (Effect.still cpu).pull fun byte effect =>
      effect.map fun cpu => { cpu with flags := Flags.unpack byte }
  | .bcc => cpu.branch (!cpu.flags.carry) operand
  | .bcs => cpu.branch cpu.flags.carry operand
  | .bne => cpu.branch (!cpu.flags.zero) operand
  | .beq => cpu.branch cpu.flags.zero operand
  | .bpl => cpu.branch (!cpu.flags.negative) operand
  | .bmi => cpu.branch cpu.flags.negative operand
  | .bvc => cpu.branch (!cpu.flags.overflow) operand
  | .bvs => cpu.branch cpu.flags.overflow operand
  | .jmp =>
      match operand with
      | .address target => .still (cpu.jump target)
      | _ => .still cpu
  | .jsr =>
      match operand with
      | .address target => cpu.call target
      | _ => .still cpu
  | .rts => returnTo (.still cpu) 1
  | .rti => (Effect.still cpu).pull fun byte effect =>
      returnTo (effect.map fun cpu => { cpu with flags := Flags.unpack byte }) 0
  | .clc => .still { cpu with flags := { cpu.flags with carry := false } }
  | .sec => .still { cpu with flags := { cpu.flags with carry := true } }
  | .cli => .still { cpu with flags := { cpu.flags with interrupt := false } }
  | .sei => .still { cpu with flags := { cpu.flags with interrupt := true } }
  | .cld => .still { cpu with flags := { cpu.flags with decimal := false } }
  | .sed => .still { cpu with flags := { cpu.flags with decimal := true } }
  | .clv => .still { cpu with flags := { cpu.flags with overflow := false } }
  | .brk | .nop | .undocumented => .still cpu

end Cpu

end Mos6502
