import Mos6502.Cpu.Operand
import Mos6502.Proofs.Arithmetic.Integers

/-!
# What the addressing modes find

The operand of each mode, said in natural numbers: `Finds` has one rule for each mode, with
cells and addresses counted from zero and every wrap written out as a remainder.  A pointer
never leaves its page, and an address that an index is added to wraps at the end of memory.

Indexing leads to another page exactly when the low byte of the base and the index add up to
256 or more (`samePage_add_iff`).  That holds at the end of memory too, where page 255 is
followed by page 0.
-/

namespace Mos6502

/-- Adding an index keeps the page as long as there is no carry out of the low byte. -/
theorem Word.samePage_add_iff (base : Word) (index : Byte) :
    samePage base (base + index.toUInt16) = true ↔ base.toNat % 256 + index.toNat < 256 := by
  have hbase := base.toNat_lt
  have hindex := index.toNat_lt
  rw [samePage_iff, UInt16.toNat_add, UInt8.toNat_toUInt16]
  omega

namespace Memory

/-- The number in the cell at a place counted from zero. -/
def cell (m : Memory) (place : Nat) : Nat :=
  (m.read (UInt16.ofNat place)).toNat

/-- The number in two cells, low byte first. -/
def pair (m : Memory) (low high : Nat) : Nat :=
  m.cell low + 256 * m.cell high

theorem cell_toNat (m : Memory) (address : Word) :
    m.cell address.toNat = (m.read address).toNat := by
  rw [cell, UInt16.ofNat_toNat]

theorem toNat_ofBytes_read (m : Memory) (low high : Word) :
    (Word.ofBytes (m.read high) (m.read low)).toNat = m.pair low.toNat high.toNat := by
  rw [Word.toNat_ofBytes, pair, cell_toNat, cell_toNat, Nat.add_comm]

theorem toNat_zeroPagePointer (m : Memory) (place : Byte) :
    (m.zeroPagePointer place).toNat = m.pair place.toNat ((place.toNat + 1) % 256) := by
  rw [zeroPagePointer, toNat_ofBytes_read, Word.toNat_zeroPage, Word.toNat_zeroPage,
    UInt8.toNat_add]
  rfl

theorem toNat_jumpPointer (m : Memory) (pointer : Word) :
    (m.jumpPointer pointer).toNat =
      m.pair pointer.toNat (256 * (pointer.toNat / 256) + (pointer.toNat + 1) % 256) := by
  rw [jumpPointer, toNat_ofBytes_read, Word.toNat_nextInPage]

end Memory

namespace Cpu

/-! ## The rules -/

/-- The operand byte, with the program counter at it. -/
def operandNumber (cpu : Cpu) : Nat :=
  cpu.memory.cell cpu.pc.toNat

/-- The number that two operand bytes make up, with the program counter at the first. -/
def operandPair (cpu : Cpu) : Nat :=
  cpu.memory.pair cpu.pc.toNat ((cpu.pc.toNat + 1) % 65536)

/-- The address in page zero that a place and the one after it hold. -/
def pointerAt (cpu : Cpu) (place : Nat) : Nat :=
  cpu.memory.pair place ((place + 1) % 256)

/-- The base address and the index, for the modes that add an index to a full address. -/
def indexing (cpu : Cpu) : Mode → Option (Nat × Nat)
  | .absoluteX => some (cpu.operandPair, cpu.x.toNat)
  | .absoluteY => some (cpu.operandPair, cpu.y.toNat)
  | .indirectY => some (cpu.pointerAt cpu.operandNumber, cpu.y.toNat)
  | _ => none

/-- The operand that a mode names, with the program counter at the first operand byte. -/
inductive Finds (cpu : Cpu) : Mode → Operand → Prop
  | implied : Finds cpu .implied .implied
  | accumulator : Finds cpu .accumulator .accumulator
  | immediate {byte : Byte} (hbyte : byte.toNat = cpu.operandNumber) :
      Finds cpu .immediate (.immediate byte)
  | relative {distance : Int8}
      (hdistance : distance.toInt =
        if cpu.operandNumber < 128 then (cpu.operandNumber : Int) else cpu.operandNumber - 256) :
      Finds cpu .relative (.relative distance)
  | zeroPage {address : Word} (haddress : address.toNat = cpu.operandNumber) :
      Finds cpu .zeroPage (.address address)
  | zeroPageX {address : Word}
      (haddress : address.toNat = (cpu.operandNumber + cpu.x.toNat) % 256) :
      Finds cpu .zeroPageX (.address address)
  | zeroPageY {address : Word}
      (haddress : address.toNat = (cpu.operandNumber + cpu.y.toNat) % 256) :
      Finds cpu .zeroPageY (.address address)
  | absolute {address : Word} (haddress : address.toNat = cpu.operandPair) :
      Finds cpu .absolute (.address address)
  | absoluteX {address : Word}
      (haddress : address.toNat = (cpu.operandPair + cpu.x.toNat) % 65536) :
      Finds cpu .absoluteX (.address address)
  | absoluteY {address : Word}
      (haddress : address.toNat = (cpu.operandPair + cpu.y.toNat) % 65536) :
      Finds cpu .absoluteY (.address address)
  -- The second byte comes from the page of the first, also after the last place of the page.
  | indirect {address : Word}
      (haddress : address.toNat =
        cpu.memory.pair cpu.operandPair
          (256 * (cpu.operandPair / 256) + (cpu.operandPair + 1) % 256)) :
      Finds cpu .indirect (.address address)
  | indirectX {address : Word}
      (haddress : address.toNat = cpu.pointerAt ((cpu.operandNumber + cpu.x.toNat) % 256)) :
      Finds cpu .indirectX (.address address)
  | indirectY {address : Word}
      (haddress : address.toNat =
        (cpu.pointerAt cpu.operandNumber + cpu.y.toNat) % 65536) :
      Finds cpu .indirectY (.address address)

/-! ## The operand bytes -/

theorem toNat_fetch (cpu : Cpu) : cpu.fetch.1.toNat = cpu.operandNumber :=
  (cpu.memory.cell_toNat cpu.pc).symm

theorem toNat_fetchWord (cpu : Cpu) : cpu.fetchWord.1.toNat = cpu.operandPair := by
  have hnext : (cpu.pc + 1).toNat = (cpu.pc.toNat + 1) % 65536 := UInt16.toNat_add ..
  have hpair := cpu.memory.toNat_ofBytes_read cpu.pc (cpu.pc + 1)
  rw [hnext] at hpair
  exact hpair

theorem toNat_zeroPage_add (cpu : Cpu) (index : Byte) :
    (Word.zeroPage (cpu.fetch.1 + index)).toNat = (cpu.operandNumber + index.toNat) % 256 := by
  rw [Word.toNat_zeroPage, UInt8.toNat_add, toNat_fetch]

theorem toNat_add_index (base : Word) (index : Byte) :
    (base + index.toUInt16).toNat = (base.toNat + index.toNat) % 65536 := by
  rw [UInt16.toNat_add, UInt8.toNat_toUInt16]

theorem toNat_pointer (cpu : Cpu) (place : Byte) :
    (cpu.memory.zeroPagePointer place).toNat = cpu.pointerAt place.toNat :=
  cpu.memory.toNat_zeroPagePointer place

/-! ## Resolving follows the rules -/

theorem finds_resolve (cpu : Cpu) (mode : Mode) : cpu.Finds mode (cpu.resolve mode).1.operand := by
  cases mode with
  | implied => exact .implied
  | accumulator => exact .accumulator
  | immediate => exact .immediate cpu.toNat_fetch
  | relative =>
      refine .relative ?_
      have hsigned := cpu.fetch.1.signed_eq
      rw [toNat_fetch] at hsigned
      exact hsigned
  | zeroPage => exact .zeroPage ((Word.toNat_zeroPage _).trans cpu.toNat_fetch)
  | zeroPageX => exact .zeroPageX (cpu.toNat_zeroPage_add cpu.x)
  | zeroPageY => exact .zeroPageY (cpu.toNat_zeroPage_add cpu.y)
  | absolute => exact .absolute cpu.toNat_fetchWord
  | absoluteX =>
      refine .absoluteX ?_
      rw [← toNat_fetchWord]
      exact toNat_add_index _ _
  | absoluteY =>
      refine .absoluteY ?_
      rw [← toNat_fetchWord]
      exact toNat_add_index _ _
  | indirect =>
      refine .indirect ?_
      rw [← toNat_fetchWord]
      exact cpu.memory.toNat_jumpPointer _
  | indirectX =>
      refine .indirectX ?_
      rw [← toNat_fetch, ← UInt8.toNat_add]
      exact cpu.toNat_pointer _
  | indirectY =>
      refine .indirectY ?_
      rw [← toNat_fetch, ← toNat_pointer]
      exact toNat_add_index _ _

/-- A mode names one operand. -/
theorem Finds.unique {cpu : Cpu} {mode : Mode} {first second : Operand}
    (hfirst : cpu.Finds mode first) (hsecond : cpu.Finds mode second) : first = second := by
  cases hfirst with
  | implied | accumulator =>
      cases hsecond
      rfl
  | immediate hbyte =>
      cases hsecond with
      | immediate hother =>
          exact congrArg Operand.immediate (UInt8.toNat_inj.mp (hbyte.trans hother.symm))
  | relative hdistance =>
      cases hsecond with
      | relative hother =>
          exact congrArg Operand.relative (Int8.toInt_inj.mp (hdistance.trans hother.symm))
  | _ haddress =>
      cases hsecond
      rename_i hother
      exact congrArg Operand.address (UInt16.toNat_inj.mp (haddress.trans hother.symm))

theorem pageCrossed_indexed (base : Word) (index : Byte) :
    (Resolved.indexed base index).pageCrossed = true ↔ 256 ≤ base.toNat % 256 + index.toNat := by
  have hpage := base.samePage_add_iff index
  rw [Resolved.indexed, Bool.not_eq_true', ← Bool.not_eq_true, hpage, Nat.not_lt]

/-- Only an index that is added to a full address can lead to another page, and it does when it
carries out of the low byte. -/
theorem pageCrossed_resolve_iff (cpu : Cpu) (mode : Mode) :
    (cpu.resolve mode).1.pageCrossed = true ↔
      ∃ base index, cpu.indexing mode = some (base, index) ∧ 256 ≤ base % 256 + index := by
  have hword (index : Byte) := pageCrossed_indexed cpu.fetchWord.1 index
  have hpointer := pageCrossed_indexed (cpu.memory.zeroPagePointer cpu.fetch.1) cpu.y
  rw [toNat_pointer, toNat_fetch] at hpointer
  simp only [toNat_fetchWord] at hword
  cases mode with
  | absoluteX =>
      refine (hword cpu.x).trans ?_
      simp [indexing, and_assoc]
  | absoluteY =>
      refine (hword cpu.y).trans ?_
      simp [indexing, and_assoc]
  | indirectY =>
      refine hpointer.trans ?_
      simp [indexing, and_assoc]
  | _ => simp [indexing, resolve, Resolved.plain]

/-- Every mode is resolved to the operand that its rule names.  A page is crossed when an index
added to a full address carries out of the low byte, and the program counter moves past the
operand bytes with nothing else changed. -/
theorem resolve_iff_finds (cpu : Cpu) (mode : Mode) :
    (∀ operand, (cpu.resolve mode).1.operand = operand ↔ cpu.Finds mode operand) ∧
      ((cpu.resolve mode).1.pageCrossed = true ↔
        ∃ base index, cpu.indexing mode = some (base, index) ∧ 256 ≤ base % 256 + index) ∧
      ∃ pc : Word, pc.toNat = (cpu.pc.toNat + mode.operandBytes) % 65536 ∧
        (cpu.resolve mode).2 = { cpu with pc } := by
  refine ⟨fun operand => ?_, cpu.pageCrossed_resolve_iff mode, _, ?_, cpu.resolve_snd mode⟩
  · constructor
    · rintro rfl
      exact cpu.finds_resolve mode
    · intro hfinds
      exact (cpu.finds_resolve mode).unique hfinds
  · rw [UInt16.toNat_add, UInt16.toNat_ofNat', Nat.add_mod_mod]

end Cpu

end Mos6502
