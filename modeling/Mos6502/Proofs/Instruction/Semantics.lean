import Mos6502.Proofs.Arithmetic.Integers
import Mos6502.Proofs.Instruction.Footprint

/-!
# What the plain instructions do

A *plain* instruction is one that only moves on to the next: no branch, jump, call or return.
`Executes s operation t` says by one rule for each plain operation how it turns the machine
`s` into `t`, apart from the program counter and the cycle counter.  The rules speak of the
byte or the cell that the instruction names (`selectedByte`, `effectiveAddress`) and of
integers: `UInt8.ofInt z` is the byte congruent to `z` modulo 256, the carry is a comparison
of unsigned values, and the overflow one of signed values.

`executes_iff` shows that the rules are what a step does.  One half is sound for every rule by
itself; the other needs the opcode table, since a rule can only apply when the mode of the
instruction names a byte to read (`exists_selectedByte`) or a place to put the result
(`exists_replaces`, `exists_effectiveAddress`).
-/

namespace Mos6502

/-! ## The rules -/

/-- The operations that can send the program counter elsewhere. -/
def Operation.redirects : Operation → Bool
  | bcc | bcs | beq | bne | bmi | bpl | bvc | bvs | jmp | jsr | rts | rti => true
  | _ => false

namespace Flags

/-- The flags with Z and N describing a result. -/
def describing (f : Flags) (result : Byte) : Flags :=
  { f with zero := decide (result.toNat = 0), negative := decide (result.signed < 0) }

/-- The number that the flags make up as binary digits, the digit of 32 always set. -/
def number (f : Flags) : Nat :=
  128 * f.negative.toNat + 64 * f.overflow.toNat + 32 + 16 * f.breakCommand.toNat
    + 8 * f.decimal.toNat + 4 * f.interrupt.toNat + 2 * f.zero.toNat + f.carry.toNat

theorem describing_eq (f : Flags) (result : Byte) : f.describing result = f.withResult result := by
  have hzero : decide (result.toNat = 0) = (result == 0) := by
    rw [Bool.eq_iff_iff, decide_eq_true_iff, beq_iff_eq, ← UInt8.toNat_inj]
    rfl
  rw [describing, withResult, hzero, Byte.isNegative_eq]

theorem pack_eq (f : Flags) : f.pack = UInt8.ofNat f.number := by
  obtain ⟨carry, zero, interrupt, decimal, breakCommand, overflow, negative⟩ := f
  revert carry zero interrupt decimal breakCommand overflow negative
  decide

end Flags

namespace Cpu

open Arithmetic

/-- The accumulator or the cell that the instruction names is replaced by a byte. -/
inductive Replaces (s : Cpu) (byte : Byte) : Cpu → Prop
  | accumulator (hmode : s.opcode.mode = .accumulator) : Replaces s byte { s with a := byte }
  | cell {address : Word} (haddress : s.effectiveAddress = some address) :
      Replaces s byte { s with memory := s.memory.write address byte }

/-- What a plain operation does to everything but the program counter and the cycles. -/
inductive Executes (s : Cpu) : Operation → Cpu → Prop
  -- A byte goes to a register or to a cell.
  | lda {m : Byte} (hm : s.selectedByte = some m) :
      Executes s .lda { s with a := m, flags := s.flags.describing m }
  | ldx {m : Byte} (hm : s.selectedByte = some m) :
      Executes s .ldx { s with x := m, flags := s.flags.describing m }
  | ldy {m : Byte} (hm : s.selectedByte = some m) :
      Executes s .ldy { s with y := m, flags := s.flags.describing m }
  | sta {address : Word} (haddress : s.effectiveAddress = some address) :
      Executes s .sta { s with memory := s.memory.write address s.a }
  | stx {address : Word} (haddress : s.effectiveAddress = some address) :
      Executes s .stx { s with memory := s.memory.write address s.x }
  | sty {address : Word} (haddress : s.effectiveAddress = some address) :
      Executes s .sty { s with memory := s.memory.write address s.y }
  | tax : Executes s .tax { s with x := s.a, flags := s.flags.describing s.a }
  | tay : Executes s .tay { s with y := s.a, flags := s.flags.describing s.a }
  | txa : Executes s .txa { s with a := s.x, flags := s.flags.describing s.x }
  | tya : Executes s .tya { s with a := s.y, flags := s.flags.describing s.y }
  | tsx : Executes s .tsx { s with x := s.sp, flags := s.flags.describing s.sp }
  | txs : Executes s .txs { s with sp := s.x }
  -- The accumulator meets a byte.
  | and {m r : Byte} (hm : s.selectedByte = some m) (hr : r = s.a &&& m) :
      Executes s .and { s with a := r, flags := s.flags.describing r }
  | ora {m r : Byte} (hm : s.selectedByte = some m) (hr : r = s.a ||| m) :
      Executes s .ora { s with a := r, flags := s.flags.describing r }
  | eor {m r : Byte} (hm : s.selectedByte = some m) (hr : r = s.a ^^^ m) :
      Executes s .eor { s with a := r, flags := s.flags.describing r }
  | bit {m : Byte} (hm : s.selectedByte = some m) :
      Executes s .bit
        { s with
          flags := { s.flags with
            zero := decide (s.a &&& m = 0)
            negative := m.toNat.testBit 7
            overflow := m.toNat.testBit 6 } }
  | adc {m r : Byte} (hm : s.selectedByte = some m) (hbinary : s.flags.decimal = false)
      (hr : r = UInt8.ofInt (s.a.toNat + m.toNat + s.flags.carry.toNat)) :
      Executes s .adc
        { s with
          a := r
          flags := { s.flags with
            carry := decide (255 < s.a.toNat + m.toNat + s.flags.carry.toNat)
            overflow :=
              outOfRange (s.a.signed + m.signed + s.flags.carry.toNat) }.describing r }
  | sbc {m r : Byte} (hm : s.selectedByte = some m) (hbinary : s.flags.decimal = false)
      (hr : r = UInt8.ofInt (s.a.toNat - m.toNat - (1 - s.flags.carry.toNat))) :
      Executes s .sbc
        { s with
          a := r
          flags := { s.flags with
            carry := decide (m.toNat + (1 - s.flags.carry.toNat) ≤ s.a.toNat)
            overflow :=
              outOfRange (s.a.signed - m.signed - (1 - s.flags.carry.toNat)) }.describing r }
  -- A register is compared with a byte.
  | cmp {m r : Byte} (hm : s.selectedByte = some m)
      (hr : r = UInt8.ofInt (s.a.toNat - m.toNat)) :
      Executes s .cmp
        { s with flags := { s.flags with carry := decide (m.toNat ≤ s.a.toNat) }.describing r }
  | cpx {m r : Byte} (hm : s.selectedByte = some m)
      (hr : r = UInt8.ofInt (s.x.toNat - m.toNat)) :
      Executes s .cpx
        { s with flags := { s.flags with carry := decide (m.toNat ≤ s.x.toNat) }.describing r }
  | cpy {m r : Byte} (hm : s.selectedByte = some m)
      (hr : r = UInt8.ofInt (s.y.toNat - m.toNat)) :
      Executes s .cpy
        { s with flags := { s.flags with carry := decide (m.toNat ≤ s.y.toNat) }.describing r }
  -- A byte is replaced where it stands.
  | asl {m r : Byte} {t : Cpu} (hm : s.selectedByte = some m)
      (hr : r = UInt8.ofInt (2 * m.toNat)) (ht : s.Replaces r t) :
      Executes s .asl
        { t with flags := { s.flags with carry := decide (128 ≤ m.toNat) }.describing r }
  | rol {m r : Byte} {t : Cpu} (hm : s.selectedByte = some m)
      (hr : r = UInt8.ofInt (2 * m.toNat + s.flags.carry.toNat)) (ht : s.Replaces r t) :
      Executes s .rol
        { t with flags := { s.flags with carry := decide (128 ≤ m.toNat) }.describing r }
  | lsr {m r : Byte} {t : Cpu} (hm : s.selectedByte = some m)
      (hr : r = UInt8.ofInt (m.toNat / 2)) (ht : s.Replaces r t) :
      Executes s .lsr
        { t with flags := { s.flags with carry := decide (m.toNat % 2 = 1) }.describing r }
  | ror {m r : Byte} {t : Cpu} (hm : s.selectedByte = some m)
      (hr : r = UInt8.ofInt (m.toNat / 2 + 128 * s.flags.carry.toNat)) (ht : s.Replaces r t) :
      Executes s .ror
        { t with flags := { s.flags with carry := decide (m.toNat % 2 = 1) }.describing r }
  | inc {m r : Byte} {t : Cpu} (hm : s.selectedByte = some m)
      (hr : r = UInt8.ofInt (m.toNat + 1)) (ht : s.Replaces r t) :
      Executes s .inc { t with flags := s.flags.describing r }
  | dec {m r : Byte} {t : Cpu} (hm : s.selectedByte = some m)
      (hr : r = UInt8.ofInt (m.toNat - 1)) (ht : s.Replaces r t) :
      Executes s .dec { t with flags := s.flags.describing r }
  | inx {r : Byte} (hr : r = UInt8.ofInt (s.x.toNat + 1)) :
      Executes s .inx { s with x := r, flags := s.flags.describing r }
  | iny {r : Byte} (hr : r = UInt8.ofInt (s.y.toNat + 1)) :
      Executes s .iny { s with y := r, flags := s.flags.describing r }
  | dex {r : Byte} (hr : r = UInt8.ofInt (s.x.toNat - 1)) :
      Executes s .dex { s with x := r, flags := s.flags.describing r }
  | dey {r : Byte} (hr : r = UInt8.ofInt (s.y.toNat - 1)) :
      Executes s .dey { s with y := r, flags := s.flags.describing r }
  -- A byte goes over the stack.
  | pha :
      Executes s .pha
        { s with
          memory := s.memory.write (Word.stack s.sp) s.a
          sp := UInt8.ofInt (s.sp.toNat - 1) }
  | php :
      Executes s .php
        { s with
          memory := s.memory.write (Word.stack s.sp) (UInt8.ofNat s.flags.number)
          sp := UInt8.ofInt (s.sp.toNat - 1) }
  | pla {top m : Byte} (htop : top = UInt8.ofInt (s.sp.toNat + 1))
      (hm : m = s.memory.read (Word.stack top)) :
      Executes s .pla { s with a := m, sp := top, flags := s.flags.describing m }
  | plp {top m : Byte} (htop : top = UInt8.ofInt (s.sp.toNat + 1))
      (hm : m = s.memory.read (Word.stack top)) :
      Executes s .plp
        { s with
          sp := top
          flags := {
            carry := m.toNat.testBit 0
            zero := m.toNat.testBit 1
            interrupt := m.toNat.testBit 2
            decimal := m.toNat.testBit 3
            breakCommand := m.toNat.testBit 4
            overflow := m.toNat.testBit 6
            negative := m.toNat.testBit 7 } }
  -- One flag is set or cleared, or nothing happens.
  | clc : Executes s .clc { s with flags := { s.flags with carry := false } }
  | sec : Executes s .sec { s with flags := { s.flags with carry := true } }
  | cli : Executes s .cli { s with flags := { s.flags with interrupt := false } }
  | sei : Executes s .sei { s with flags := { s.flags with interrupt := true } }
  | cld : Executes s .cld { s with flags := { s.flags with decimal := false } }
  | sed : Executes s .sed { s with flags := { s.flags with decimal := true } }
  | clv : Executes s .clv { s with flags := { s.flags with overflow := false } }
  | brk : Executes s .brk s
  | nop : Executes s .nop s
  | undocumented : Executes s .undocumented s

/-! ## The rules are sound -/

theorem flags_store (s : Cpu) (operand : Operand) (byte : Byte) :
    (s.store operand byte).flags = s.flags := by
  cases operand <;> rfl

variable {s t : Cpu}

theorem Replaces.eq_store {byte : Byte} (ht : s.Replaces byte t) :
    t = { s.ready.store s.operand.operand byte with pc := s.pc, cycles := s.cycles } := by
  cases ht with
  | accumulator hmode =>
      rw [operand_of_accumulator hmode]
      rfl
  | cell haddress =>
      rw [operand_eq_address_iff.mpr haddress]
      rfl

theorem Replaces.eq_shift {byte : Byte} {carry : Bool} (ht : s.Replaces byte t) :
    { t with flags := { s.flags with carry }.describing byte } =
      { s.ready.shift s.operand.operand ⟨byte, carry⟩ with pc := s.pc, cycles := s.cycles } := by
  rw [ht.eq_store, Flags.describing_eq, shift, withCarry, flags_store]
  rfl

theorem Replaces.eq_replace {byte : Byte} (ht : s.Replaces byte t) :
    { t with flags := s.flags.describing byte } =
      { s.ready.replace s.operand.operand byte with pc := s.pc, cycles := s.cycles } := by
  rw [ht.eq_store, Flags.describing_eq, replace, withResult, flags_store]
  rfl

/-- A machine that the rule of its instruction leads to is the one after a step, but for the
program counter and the cycles. -/
theorem Executes.eq_step (h : s.Executes s.opcode.operation t) :
    t = { s.step.cpu with pc := s.pc, cycles := s.cycles } := by
  rw [step_eq]
  generalize s.opcode.operation = operation at h
  cases h with
  | lda hm | ldx hm | ldy hm =>
      simp only [perform, value_of_selectedByte hm, Flags.describing_eq]
      rfl
  | sta haddress | stx haddress | sty haddress =>
      rw [operand_eq_address_iff.mpr haddress]
      rfl
  | tax | tay | txa | tya | tsx =>
      simp only [perform, Flags.describing_eq]
      rfl
  | and hm hr | ora hm hr | eor hm hr =>
      subst hr
      simp only [perform, value_of_selectedByte hm, Flags.describing_eq]
      rfl
  | bit hm =>
      simp only [perform, value_of_selectedByte hm]
      rfl
  | adc hm hbinary hr =>
      have hadd (m : Byte) : s.ready.add m = addBinary s.a m s.flags.carry :=
        if_neg (by simp [ready, hbinary])
      subst hr
      simp only [perform, value_of_selectedByte hm, hadd, addBinary_eq, Flags.describing_eq]
      rfl
  | sbc hm hbinary hr =>
      have hsubtract (m : Byte) : s.ready.subtract m = subBinary s.a m s.flags.carry :=
        if_neg (by simp [ready, hbinary])
      subst hr
      simp only [perform, value_of_selectedByte hm, hsubtract, subBinary_eq, Flags.describing_eq]
      rfl
  | cmp hm hr | cpx hm hr | cpy hm hr =>
      subst hr
      simp only [perform, compare, value_of_selectedByte hm, compare_eq, Flags.describing_eq]
      rfl
  | asl hm hr ht | rol hm hr ht | lsr hm hr ht | ror hm hr ht =>
      subst hr
      simp only [perform, value_of_selectedByte hm, shiftLeft_eq, rotateLeft_eq, shiftRight_eq,
        rotateRight_eq]
      exact ht.eq_shift
  | inc hm hr ht | dec hm hr ht =>
      subst hr
      simp only [perform, value_of_selectedByte hm, Byte.add_one_eq, Byte.sub_eq]
      exact ht.eq_replace
  | inx hr | iny hr | dex hr | dey hr =>
      subst hr
      simp only [perform, Byte.add_one_eq, Byte.sub_eq, Flags.describing_eq]
      rfl
  | pha | php =>
      simp only [perform, Effect.push, push, Byte.sub_eq, Flags.pack_eq]
      rfl
  | pla htop hm =>
      subst hm htop
      simp only [perform, Effect.pull, pull, Byte.add_one_eq, Flags.describing_eq]
      rfl
  | plp htop hm =>
      subst hm htop
      simp only [perform, Effect.pull, pull, Byte.add_one_eq]
      rfl
  | _ => rfl

/-! ## Every plain instruction has a rule that applies -/

theorem exists_selectedByte (hreads : s.opcode.operation.readsOperand = true) :
    ∃ m, s.selectedByte = some m := by
  have hmode := (Opcode.mode_of_decode (s.memory.read s.pc)).1 hreads
  change s.opcode.mode ∉ _ at hmode
  unfold selectedByte effectiveAddress
  cases hcase : s.opcode.mode <;> simp [hcase] at hmode ⊢

theorem exists_effectiveAddress (hwrites : s.opcode.operation.writesOperand = true)
    (haccumulator : s.opcode.mode ≠ .accumulator) :
    ∃ address, s.effectiveAddress = some address := by
  have hmode := (Opcode.mode_of_decode (s.memory.read s.pc)).2.1 hwrites
  change s.opcode.mode ∉ _ at hmode
  unfold effectiveAddress
  cases hcase : s.opcode.mode <;> simp [hcase] at hmode haccumulator ⊢

theorem exists_replaces (hwrites : s.opcode.operation.writesOperand = true) (byte : Byte) :
    ∃ t, s.Replaces byte t := by
  by_cases haccumulator : s.opcode.mode = .accumulator
  · exact ⟨_, .accumulator haccumulator⟩
  · obtain ⟨address, haddress⟩ := exists_effectiveAddress hwrites haccumulator
    exact ⟨_, .cell haddress⟩

theorem exists_executes (hplain : s.opcode.operation.redirects = false)
    (hbinary : s.opcode.operation ∈ [.adc, .sbc] → s.flags.decimal = false) :
    ∃ t, s.Executes s.opcode.operation t := by
  have hread := exists_selectedByte (s := s)
  have hreplace := exists_replaces (s := s)
  have hstore (h : s.opcode.operation ∈ [.sta, .stx, .sty]) :
      ∃ address, s.effectiveAddress = some address := by
    refine exists_effectiveAddress ?_ ((Opcode.mode_of_decode (s.memory.read s.pc)).2.2 h)
    revert h
    cases s.opcode.operation <;> decide
  -- each operation has one rule, and its premises are what the instruction was found to name
  generalize s.opcode.operation = operation at *
  cases operation
  case bcc | bcs | beq | bne | bmi | bpl | bvc | bvs | jmp | jsr | rts | rti => cases hplain
  case lda | ldx | ldy | bit =>
    obtain ⟨m, hm⟩ := hread rfl
    apply Exists.intro
    constructor
    exact hm
  case and | ora | eor | cmp | cpx | cpy =>
    obtain ⟨m, hm⟩ := hread rfl
    apply Exists.intro
    constructor
    · exact hm
    · rfl
  case adc | sbc =>
    obtain ⟨m, hm⟩ := hread rfl
    apply Exists.intro
    constructor
    · exact hm
    · exact hbinary (by decide)
    · rfl
  case sta | stx | sty =>
    obtain ⟨address, haddress⟩ := hstore (by decide)
    apply Exists.intro
    constructor
    exact haddress
  case asl | rol | lsr | ror | inc | dec =>
    obtain ⟨m, hm⟩ := hread rfl
    obtain ⟨t, ht⟩ := hreplace rfl _
    apply Exists.intro
    constructor
    · exact hm
    · rfl
    · exact ht
  case inx | iny | dex | dey =>
    apply Exists.intro
    constructor
    rfl
  case pla | plp =>
    apply Exists.intro
    constructor
    · rfl
    · rfl
  all_goals
    apply Exists.intro
    constructor

/-! ## What a step does -/

/-- One step of a plain instruction does to the registers, the flags and memory exactly what
its rule says.  Sums and differences have a rule as long as decimal mode is off. -/
theorem executes_iff (s t : Cpu) (hplain : s.opcode.operation.redirects = false)
    (hbinary : s.opcode.operation ∈ [.adc, .sbc] → s.flags.decimal = false) :
    s.Executes s.opcode.operation t ↔ t = { s.step.cpu with pc := s.pc, cycles := s.cycles } := by
  constructor
  · exact Executes.eq_step
  · rintro rfl
    obtain ⟨t, ht⟩ := exists_executes hplain hbinary
    rw [← ht.eq_step]
    exact ht

/-- A sum of 80, 79 and a set carry, which no signed byte holds. -/
theorem executes_iff_of_overflowing_sum :
    ∃ s : Cpu, s.opcode.operation = .adc ∧ s.a = 80 ∧ s.selectedByte = some 79 ∧
      s.flags.carry = true ∧ s.step.cpu.a = 160 ∧ s.step.cpu.flags.carry = false ∧
      s.step.cpu.flags.overflow = true ∧ s.step.cpu.memory = s.memory := by
  let s : Cpu :=
    { fresh with
      a := 80
      flags := { Flags.clear with carry := true }
      memory := Memory.zero.load 0 [0x69, 79] }
  have hoperation : s.opcode.operation = .adc := by decide +kernel
  have hm : s.selectedByte = some 79 := by decide +kernel
  have hrule := Executes.adc hm rfl rfl
  rw [← hoperation] at hrule
  have hstep := (executes_iff s _ (by rw [hoperation]; rfl) (fun _ => rfl)).mp hrule
  refine ⟨s, hoperation, rfl, hm, rfl, ?_, ?_, ?_, ?_⟩
  · exact (congrArg (fun t : Cpu => t.a) hstep).symm
  · exact (congrArg (fun t : Cpu => t.flags.carry) hstep).symm
  · exact (congrArg (fun t : Cpu => t.flags.overflow) hstep).symm
  · exact (congrArg (fun t : Cpu => t.memory) hstep).symm

end Cpu

end Mos6502
