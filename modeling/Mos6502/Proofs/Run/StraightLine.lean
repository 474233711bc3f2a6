import Mathlib.Algebra.Ring.Nat
import Mos6502.Proofs.Instruction.Advance
import Mos6502.Proofs.Run.Ending

/-!
# Straight-line programs

A program put together from plain instructions is executed from its first to its last, each one
once.  The machine could spoil this in one way only, by storing to the program, so everything
here is under the assumption that the bytes of the program stay where they are (`Holds`).

The invariant is where the program counter stands: after `k` instructions it is at the first
byte of the `k`-th (`pc_after`).  One step takes it to the next, because the bytes that follow
an opcode byte are as many as its mode consumes (`Instruction.length_bytes`) and the opcode
byte is still the one that was written (`faces_after`).  What the run costs (`spent_eq`) and
where it ends follow from the invariant.

`holds_after` is the usual way to discharge the assumption: it is enough that no instruction of
the program, wherever it is executed, writes to a cell of the program.
-/

namespace Mos6502

/-! ## Instructions in memory -/

/-- An opcode byte and as many operand bytes as its mode takes. -/
structure Instruction where
  code : Byte
  operands : List Byte
  length_operands : operands.length = (Opcode.decode code).mode.operandBytes

namespace Instruction

def opcode (instruction : Instruction) : Opcode :=
  Opcode.decode instruction.code

/-- The instruction as it stands in memory. -/
def bytes (instruction : Instruction) : List Byte :=
  instruction.code :: instruction.operands

theorem length_bytes (instruction : Instruction) :
    instruction.bytes.length = instruction.opcode.size := by
  rw [bytes, List.length_cons, length_operands, Nat.add_comm]
  rfl

/-- Instructions one after the other in memory. -/
def assemble (listing : List Instruction) : List Byte :=
  listing.flatMap bytes

/-- How far the `k`-th instruction stands from the first. -/
def offset (listing : List Instruction) (k : Nat) : Nat :=
  (assemble (listing.take k)).length

variable {listing : List Instruction} {k : Nat}

theorem assemble_eq_append (hk : k < listing.length) :
    assemble listing =
      assemble (listing.take k) ++ (listing[k].bytes ++ assemble (listing.drop (k + 1))) := by
  conv_lhs => rw [← List.take_append_drop k listing, List.drop_eq_getElem_cons hk]
  rw [assemble, List.flatMap_append, List.flatMap_cons]
  rfl

theorem offset_succ (hk : k < listing.length) :
    offset listing (k + 1) = offset listing k + listing[k].opcode.size := by
  rw [offset, List.take_succ_eq_append_getElem hk, assemble, List.flatMap_append,
    List.length_append, ← length_bytes]
  simp [offset, assemble]

theorem offset_length (listing : List Instruction) :
    offset listing listing.length = (assemble listing).length := by
  rw [offset, List.take_length]

theorem offset_lt (hk : k < listing.length) : offset listing k < (assemble listing).length := by
  rw [assemble_eq_append hk, List.length_append, List.length_append, bytes, List.length_cons]
  exact Nat.lt_add_of_pos_right (by omega)

end Instruction

namespace Cpu

open Instruction

/-- Bytes stand in memory from an address on. -/
def Holds (cpu : Cpu) (start : Word) (bytes : List Byte) : Prop :=
  cpu.memory.slice start bytes.length = bytes

instance (cpu : Cpu) (start : Word) (bytes : List Byte) : Decidable (cpu.Holds start bytes) :=
  inferInstanceAs (Decidable (_ = _))

/-- The program counter is at the first byte of an instruction. -/
def Faces (cpu : Cpu) (instruction : Instruction) : Prop :=
  cpu.Holds cpu.pc instruction.bytes

theorem Faces.opcode {cpu : Cpu} {instruction : Instruction} (h : cpu.Faces instruction) :
    cpu.opcode = instruction.opcode := by
  have hfirst := (Memory.slice_eq_iff ..).mp h 0 (Nat.succ_pos _)
  have hpc : cpu.pc + UInt16.ofNat 0 = cpu.pc := UInt16.add_zero _
  rw [hpc] at hfirst
  exact congrArg Opcode.decode hfirst

theorem Faces.redirects {cpu : Cpu} {instruction : Instruction} (h : cpu.Faces instruction)
    (hplain : instruction.opcode.operation.redirects = false) :
    cpu.opcode.operation.redirects = false := by
  rw [h.opcode]
  exact hplain

theorem Loads.holds {cpu start : Cpu} {entry : Word} {program : List Byte}
    (h : cpu.Loads entry program start) : start.Holds entry program :=
  (Memory.slice_eq_iff ..).mpr h.bytes

/-- Where a program stands, each of its instructions stands at its place. -/
theorem Holds.faces {cpu : Cpu} {entry : Word} {listing : List Instruction}
    (h : cpu.Holds entry (assemble listing)) {k : Nat} (hk : k < listing.length)
    (hpc : cpu.pc = entry + UInt16.ofNat (offset listing k)) : cpu.Faces listing[k] := by
  rw [Holds, assemble_eq_append hk] at h
  rw [Faces, Holds, hpc]
  exact Memory.slice_of_append h

/-! ## Where the program counter stands -/

section Listing

variable {start : Cpu} {entry : Word} {listing : List Instruction} {k : Nat}
  (hpc : start.pc = entry) (hplain : ∀ i ∈ listing, i.opcode.operation.redirects = false)

include hpc hplain

theorem pc_after (hk : k ≤ listing.length)
    (hholds : ∀ j < k, (start.after j).Holds entry (assemble listing)) :
    (start.after k).pc = entry + UInt16.ofNat (offset listing k) := by
  induction k with
  | zero => exact hpc.trans (UInt16.add_zero _).symm
  | succ k ih =>
      have hbefore := ih (Nat.le_of_succ_le hk) fun j hj => hholds j (Nat.lt_succ_of_lt hj)
      have hfaces := (hholds k (Nat.lt_succ_self k)).faces hk hbefore
      have hmoves := hfaces.redirects (hplain _ (List.getElem_mem hk))
      rw [after, pc_step_of_plain hmoves, hbefore, hfaces.opcode, offset_succ hk,
        UInt16.ofNat_add, UInt16.add_assoc]

/-- The `k`-th instruction executed is the `k`-th of the program. -/
theorem faces_after (hk : k < listing.length)
    (hholds : ∀ j ≤ k, (start.after j).Holds entry (assemble listing)) :
    (start.after k).Faces listing[k] :=
  (hholds k le_rfl).faces hk (pc_after hpc hplain hk.le fun j hj => hholds j hj.le)

/-- A program that is nowhere written to by its own instructions stays as it is. -/
theorem holds_after (hstart : start.Holds entry (assemble listing))
    (hwrites : ∀ cpu : Cpu, ∀ i ∈ listing, cpu.Faces i → ∀ cell ∈ cpu.writtenCells,
      ¬ Window.Covers ⟨entry, (assemble listing).length⟩ cell)
    (hfits : entry.toNat + (assemble listing).length ≤ Memory.size) (hk : k ≤ listing.length) :
    (start.after k).Holds entry (assemble listing) := by
  induction k using Nat.strong_induction_on with
  | _ k ih =>
      cases k with
      | zero => exact hstart
      | succ k =>
          have hbefore : ∀ j ≤ k, (start.after j).Holds entry (assemble listing) :=
            fun j hj => ih j (by omega) (by omega)
          have hfaces := faces_after hpc hplain hk hbefore
          refine Eq.trans (Memory.slice_congr fun i hi => ?_) (hbefore k le_rfl)
          refine read_step_of_notMem fun hcell => ?_
          exact hwrites _ _ (List.getElem_mem hk) hfaces _ hcell (Window.covers_add hfits hi)

/-! ## What the run costs -/

theorem spent_eq (hk : k ≤ listing.length)
    (hholds : ∀ j < k, (start.after j).Holds entry (assemble listing)) :
    start.spent k = ((listing.take k).map fun i => i.opcode.cycles).sum
      + (List.range k).countP fun j => (start.after j).paysForCarry := by
  induction k with
  | zero => rfl
  | succ k ih =>
      have hbefore := ih (Nat.le_of_succ_le hk) fun j hj => hholds j (Nat.lt_succ_of_lt hj)
      have hfaces := faces_after hpc hplain hk fun j hj => hholds j (Nat.lt_succ_of_le hj)
      have hmoves := hfaces.redirects (hplain _ (List.getElem_mem hk))
      have hpays : ([k].countP fun j => (start.after j).paysForCarry)
          = (start.after k).paysForCarry.toNat := by
        cases h : (start.after k).paysForCarry <;> simp [h]
      rw [spent, hbefore, cost_step_of_plain hmoves, hfaces.opcode,
        List.take_succ_eq_append_getElem hk, List.map_append, List.sum_append, List.range_succ,
        List.countP_append, hpays]
      simp only [List.map_cons, List.map_nil, List.sum_cons, List.sum_nil]
      omega

/-! ## Where the run ends -/

theorem covers_pc_after (hfits : entry.toNat + (assemble listing).length ≤ Memory.size)
    (hk : k < listing.length)
    (hholds : ∀ j < k, (start.after j).Holds entry (assemble listing)) :
    Window.Covers ⟨entry, (assemble listing).length⟩ (start.after k).pc := by
  rw [pc_after hpc hplain hk.le hholds]
  exact Window.covers_add hfits (offset_lt hk)

theorem toNat_pc_after_length
    (hholds : ∀ j < listing.length, (start.after j).Holds entry (assemble listing)) :
    (start.after listing.length).pc.toNat =
      (entry.toNat + (assemble listing).length) % Memory.size := by
  rw [pc_after hpc hplain le_rfl hholds, offset_length, UInt16.toNat_add, UInt16.toNat_ofNat',
    Memory.size]
  omega

/-- After the last instruction the program counter is outside the program, also when it went
on from the last cell to cell `0`. -/
theorem not_covers_pc_after_length
    (hshort : (assemble listing).length < Memory.size)
    (hholds : ∀ j < listing.length, (start.after j).Holds entry (assemble listing)) :
    ¬ Window.Covers ⟨entry, (assemble listing).length⟩ (start.after listing.length).pc := by
  have hplace := toNat_pc_after_length hpc hplain hholds
  rw [Memory.size] at hplace hshort
  rintro ⟨hlow, hhigh⟩
  dsimp only at hlow hhigh
  omega

end Listing

/-! ## Running a straight-line program -/

/-- A program of plain instructions that keeps its bytes comes to its end after its last
instruction. -/
theorem execute_of_holds (cpu : Cpu) {entry : Word} {listing : List Instruction}
    (hplain : ∀ i ∈ listing, i.opcode.operation.redirects = false)
    (hfits : entry.toNat + (assemble listing).length ≤ Memory.size)
    (hshort : (assemble listing).length < Memory.size)
    (hholds : ∀ k < listing.length,
      ((cpu.loadProgram entry (assemble listing)).after k).Holds entry (assemble listing))
    {fuel : Nat} (hfuel : listing.length ≤ fuel) :
    cpu.execute entry (assemble listing) .unlimited fuel =
      some ⟨(cpu.loadProgram entry (assemble listing)).after listing.length,
        .ok ⟨listing.length, (cpu.loadProgram entry (assemble listing)).spent listing.length⟩⟩ :=
  execute_of_leaves cpu hfits
    (fun _ hk => covers_pc_after rfl hplain hfits hk fun _ hj => hholds _ (hj.trans hk))
    (not_covers_pc_after_length rfl hplain hshort hholds) hfuel

/-- A program of plain instructions whose bytes stay as they are while they are still to be
executed is run to its end, and each of its instructions is executed once, in order.  The run
costs what the table says, and one cycle more for each reading instruction that is indexed into
another page; the cycle counter goes up by that much, unless it comes to its own end. -/
theorem execute_straight_line (cpu : Cpu) (entry : Word) (listing : List Instruction)
    (hplain : ∀ i ∈ listing, i.opcode.operation.redirects = false)
    (hfits : entry.toNat + (assemble listing).length ≤ Memory.size)
    (hshort : (assemble listing).length < Memory.size)
    (hkept : ∀ k, 0 < k → k < listing.length →
      ((cpu.loadProgram entry (assemble listing)).after k).Holds entry (assemble listing)) :
    let start := cpu.loadProgram entry (assemble listing)
    let final := start.after listing.length
    let cost := (listing.map fun i => i.opcode.cycles).sum
      + (List.range listing.length).countP fun k => (start.after k).paysForCarry
    (∀ fuel, listing.length ≤ fuel →
      cpu.execute entry (assemble listing) .unlimited fuel =
        some ⟨final, .ok ⟨listing.length, cost⟩⟩) ∧
    (∀ (k : Nat) (hk : k < listing.length),
      (start.after k).pc = entry + UInt16.ofNat (assemble (listing.take k)).length ∧
        (start.after k).Faces listing[k]) ∧
    final.pc.toNat = (entry.toNat + (assemble listing).length) % 65536 ∧
    (cpu.cycles.toNat + cost < UInt64.size → final.cycles.toNat = cpu.cycles.toNat + cost) := by
  intro start final cost
  have hholds : ∀ k < listing.length, (start.after k).Holds entry (assemble listing) := by
    intro k hk
    rcases Nat.eq_zero_or_pos k with rfl | hpos
    · exact (loads_loadProgram cpu entry _ hfits).holds
    · exact hkept k hpos hk
  have hcost : start.spent listing.length = cost := by
    have hspent := spent_eq rfl hplain le_rfl hholds
    rwa [List.take_length] at hspent
  refine ⟨fun fuel hfuel => ?_, fun k hk => ⟨?_, ?_⟩, ?_, fun hcount => ?_⟩
  · rw [← hcost]
    exact execute_of_holds cpu hplain hfits hshort hholds hfuel
  · exact pc_after rfl hplain hk.le fun j hj => hholds j (hj.trans hk)
  · exact faces_after rfl hplain hk fun j hj => hholds j (hj.trans_lt hk)
  · exact toNat_pc_after_length rfl hplain hholds
  · have hcycles : final.cycles = cpu.cycles + UInt64.ofNat cost := by
      rw [← hcost]
      exact cycles_after start listing.length
    rw [hcycles, UInt64.toNat_add, UInt64.toNat_ofNat']
    rw [UInt64.size] at hcount
    omega

/-- `LDX #1`, `LDA $00FF,X` and `INC $10` from cell `16` on: the index carries into page one, and
the last instruction changes the first. -/
theorem execute_straight_line_ending_in_overwrite :
    ∃ listing : List Instruction, assemble listing = [0xA2, 1, 0xBD, 0xFF, 0, 0xE6, 0x10] ∧
      ∃ final, fresh.execute 0x10 (assemble listing) .unlimited 3 = some ⟨final, .ok ⟨3, 12⟩⟩ ∧
        final.pc.toNat = 23 ∧ final.cycles.toNat = 12 := by
  let listing : List Instruction :=
    [⟨0xA2, [1], rfl⟩, ⟨0xBD, [0xFF, 0], rfl⟩, ⟨0xE6, [0x10], rfl⟩]
  have hplain : ∀ i ∈ listing, i.opcode.operation.redirects = false := by decide +kernel
  have hkept : ∀ k < listing.length,
      ((fresh.loadProgram 0x10 (assemble listing)).after k).Holds 0x10 (assemble listing) := by
    decide +kernel
  have hcost : (listing.map fun i => i.opcode.cycles).sum + (List.range listing.length).countP
      (fun k => ((fresh.loadProgram 0x10 (assemble listing)).after k).paysForCarry) = 12 := by
    decide +kernel
  obtain ⟨hexecute, -, hpc, hcycles⟩ :=
    execute_straight_line fresh 0x10 listing hplain (by decide) (by decide) fun k _ => hkept k
  rw [hcost] at hexecute hcycles
  exact ⟨listing, rfl, _, hexecute 3 le_rfl, hpc, hcycles (by decide)⟩

end Cpu

end Mos6502
