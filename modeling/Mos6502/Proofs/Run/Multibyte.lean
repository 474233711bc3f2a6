import Mos6502.Proofs.Arithmetic.Digits
import Mos6502.Proofs.Run.StraightLine

/-!
# Sums and differences of numbers of several bytes

The usual program for a long sum clears the carry and then, from the lowest byte to the highest,
loads a byte of one number, adds the byte of the other with the carry, and stores the result.
With the carry set first and subtraction in place of addition it forms a difference.  Both
programs are `Combination.listing`, and both are treated at once.

The program is a straight line and stores to the cells of the result only, so its run is known
from `StraightLine` once those cells are apart from it (`holds_after_listing`).  What remains is
the invariant `Combined` of its columns: after `i` of them the lower `i` bytes of the operands
make up the `i` bytes stored so far and the carry.  `Combined.column` takes it from one column to
the next.  That a result may be stored over an operand is no harm, because a column reads its
two bytes before it stores and later columns do not read them again.
-/

namespace Mos6502

open Instruction

/-- Windows without a common address. -/
def Window.Apart (v w : Window) : Prop :=
  ∀ address, v.Covers address → ¬ w.Covers address

/-! ## The programs -/

namespace Instruction

/-- An instruction that names a cell by its address. -/
def absolute (code : Byte) (hmode : (Opcode.decode code).mode = .absolute) (address : Word) :
    Instruction where
  code := code
  operands := [Word.low address, Word.high address]
  length_operands := by rw [hmode]; rfl

/-- `LDA` of a cell. -/
def lda : Word → Instruction :=
  absolute 0xAD (by decide +kernel)

/-- `STA` to a cell. -/
def sta : Word → Instruction :=
  absolute 0x8D (by decide +kernel)

theorem opcode_lda (address : Word) : (lda address).opcode = ⟨.lda, .absolute, 4⟩ :=
  have hcode : Opcode.decode 0xAD = ⟨.lda, .absolute, 4⟩ := by decide +kernel
  hcode

theorem opcode_sta (address : Word) : (sta address).opcode = ⟨.sta, .absolute, 4⟩ :=
  have hcode : Opcode.decode 0x8D = ⟨.sta, .absolute, 4⟩ := by decide +kernel
  hcode

end Instruction

namespace Combination

/-- `CLC` before a sum, `SEC` before a difference. -/
def prepare : Combination → Instruction
  | sum => ⟨0x18, [], rfl⟩
  | difference => ⟨0x38, [], rfl⟩

/-- The operation that combines two bytes. -/
def operation : Combination → Operation
  | sum => .adc
  | difference => .sbc

/-- The byte that stands for the operation on a cell. -/
def code : Combination → Byte
  | sum => 0x6D
  | difference => 0xED

theorem decode_code (op : Combination) : Opcode.decode op.code = ⟨op.operation, .absolute, 4⟩ := by
  cases op <;> decide +kernel

/-- `ADC` or `SBC` of a cell. -/
def combine (op : Combination) : Word → Instruction :=
  absolute op.code (by rw [op.decode_code])

theorem opcode_combine (op : Combination) (address : Word) :
    (op.combine address).opcode = ⟨op.operation, .absolute, 4⟩ :=
  op.decode_code

/-- The instructions for the `i`-th bytes of the numbers. -/
def column (op : Combination) (p q r : Word) (i : Nat) : List Instruction :=
  [lda (p + UInt16.ofNat i), op.combine (q + UInt16.ofNat i), sta (r + UInt16.ofNat i)]

/-- The program that combines the numbers of `n` bytes at `p` and `q` into the one at `r`. -/
def listing (op : Combination) (p q r : Word) (n : Nat) : List Instruction :=
  op.prepare :: (List.range n).flatMap (op.column p q r)

example : assemble (sum.listing 0x10 0x1020 0x30 1) =
    [0x18, 0xAD, 0x10, 0x00, 0x6D, 0x20, 0x10, 0x8D, 0x30, 0x00] := by decide

variable (op : Combination) (p q r : Word)

theorem listing_succ (n : Nat) :
    op.listing p q r (n + 1) = op.listing p q r n ++ op.column p q r n := by
  simp [listing, List.range_succ]

theorem length_listing (n : Nat) : (op.listing p q r n).length = 1 + 3 * n := by
  induction n with
  | zero => rfl
  | succ n ih =>
      rw [listing_succ, List.length_append, ih]
      rfl

theorem length_assemble_listing (n : Nat) :
    (assemble (op.listing p q r n)).length = 1 + 9 * n := by
  induction n with
  | zero => cases op <;> rfl
  | succ n ih =>
      have hcolumn : (assemble (op.column p q r n)).length = 9 := by cases op <;> rfl
      rw [listing_succ, assemble, List.flatMap_append, List.length_append, ← assemble,
        ← assemble, ih, hcolumn]
      omega

theorem sum_cycles_listing (n : Nat) :
    ((op.listing p q r n).map fun i => i.opcode.cycles).sum = 2 + 12 * n := by
  induction n with
  | zero => cases op <;> rfl
  | succ n ih =>
      have hcolumn : ((op.column p q r n).map fun i => i.opcode.cycles).sum = 12 := by
        simp [column, opcode_lda, opcode_combine, opcode_sta]
      rw [listing_succ, List.map_append, List.sum_append, ih, hcolumn]
      omega

variable {op p q r} {n : Nat}

theorem getElem?_listing {i : Nat} (hi : i < n) (j : Nat) (hj : j < 3) :
    (op.listing p q r n)[1 + 3 * i + j]? = (op.column p q r i)[j]? := by
  induction n with
  | zero => cases hi
  | succ n ih =>
      have hlength := op.length_listing p q r n
      rw [listing_succ]
      rcases Nat.lt_succ_iff_lt_or_eq.mp hi with hlt | rfl
      · rw [List.getElem?_append_left (by omega)]
        exact ih hlt
      · rw [List.getElem?_append_right (by omega), hlength, Nat.add_sub_cancel_left]

theorem mem_listing {instruction : Instruction} :
    instruction ∈ op.listing p q r n ↔
      instruction = op.prepare ∨ ∃ i < n, instruction ∈ op.column p q r i := by
  simp [listing]

theorem mem_column {i : Nat} {instruction : Instruction} :
    instruction ∈ op.column p q r i ↔
      instruction = lda (p + UInt16.ofNat i) ∨ instruction = op.combine (q + UInt16.ofNat i) ∨
        instruction = sta (r + UInt16.ofNat i) := by
  simp [column]

theorem redirects_of_mem_listing {instruction : Instruction}
    (h : instruction ∈ op.listing p q r n) : instruction.opcode.operation.redirects = false := by
  rcases mem_listing.mp h with rfl | ⟨i, -, hcolumn⟩
  · cases op <;> rfl
  · rcases mem_column.mp hcolumn with rfl | rfl | rfl
    · rw [opcode_lda]
      rfl
    · rw [opcode_combine]
      cases op <;> rfl
    · rw [opcode_sta]
      rfl

end Combination

/-! ## What the instructions do -/

namespace Cpu

variable {cpu : Cpu} {op : Combination}

section Absolute

variable {code : Byte} {hmode : (Opcode.decode code).mode = .absolute} {address : Word}
  (h : cpu.Faces (absolute code hmode address))

include h

theorem mode_of_absolute : cpu.opcode.mode = .absolute := by
  rw [h.opcode]
  exact hmode

theorem effectiveAddress_of_absolute : cpu.effectiveAddress = some address := by
  have hbytes := (Memory.slice_eq_iff ..).mp h
  have hlow : cpu.memory.read (cpu.pc + 1) = Word.low address :=
    hbytes 1 (Nat.lt_of_sub_eq_succ rfl)
  have hhigh : cpu.memory.read (cpu.pc + 2) = Word.high address :=
    hbytes 2 (Nat.lt_of_sub_eq_succ rfl)
  rw [effectiveAddress, mode_of_absolute h]
  simp only [operandWord, hlow, hhigh, Word.ofBytes_high_low]

theorem selectedByte_of_absolute : cpu.selectedByte = some (cpu.memory.read address) := by
  rw [selectedByte, mode_of_absolute h]
  simp only [effectiveAddress_of_absolute h, Option.map_some]

end Absolute

theorem step_of_prepare (h : cpu.Faces op.prepare) :
    cpu.step.cpu.memory = cpu.memory ∧ op.carried cpu.step.cpu.flags.carry = 0 ∧
      cpu.step.cpu.flags.decimal = cpu.flags.decimal := by
  rw [memory_step, registers_step, h.opcode]
  cases op <;> exact ⟨rfl, rfl, rfl⟩

theorem step_of_lda {address : Word} (h : cpu.Faces (lda address)) :
    cpu.step.cpu.memory = cpu.memory ∧ cpu.step.cpu.a = cpu.memory.read address ∧
      cpu.step.cpu.flags = cpu.flags.withResult (cpu.memory.read address) := by
  have hbyte := value_of_selectedByte (selectedByte_of_absolute h)
  rw [memory_step, registers_step, h.opcode, opcode_lda, perform, hbyte]
  exact ⟨rfl, rfl, rfl⟩

/-- With decimal mode off the accumulator is combined with the cell by the binary kernel. -/
theorem step_of_combine {address : Word} (h : cpu.Faces (op.combine address))
    (hbinary : cpu.flags.decimal = false) :
    let result := op.kernel cpu.a (cpu.memory.read address) cpu.flags.carry
    cpu.step.cpu.memory = cpu.memory ∧ cpu.step.cpu.a = result.value ∧
      cpu.step.cpu.flags =
        { cpu.flags with
          carry := result.carry, overflow := result.overflow }.withResult result.value := by
  have hbyte := value_of_selectedByte (selectedByte_of_absolute h)
  have hready : cpu.ready.flags.decimal = false := hbinary
  rw [memory_step, registers_step, h.opcode, Combination.opcode_combine]
  cases op with
  | sum =>
      rw [Combination.operation, perform, hbyte, add, if_neg (by simp [hready])]
      exact ⟨rfl, rfl, rfl⟩
  | difference =>
      rw [Combination.operation, perform, hbyte, subtract, if_neg (by simp [hready])]
      exact ⟨rfl, rfl, rfl⟩

theorem step_of_sta {address : Word} (h : cpu.Faces (sta address)) :
    cpu.step.cpu.memory = cpu.memory.write address cpu.a ∧
      cpu.step.cpu.flags = cpu.flags := by
  have hcell := operand_eq_address_iff.mpr (effectiveAddress_of_absolute h)
  rw [memory_step, registers_step, h.opcode, opcode_sta, hcell]
  exact ⟨rfl, rfl⟩

/-! ## One column -/

/-- Loading, combining and storing: the result of the two bytes goes to its cell and its carry
and overflow to the flags. -/
theorem step_of_column {p q r : Word} (hlda : cpu.Faces (lda p))
    (hcombine : cpu.step.cpu.Faces (op.combine q))
    (hsta : cpu.step.cpu.step.cpu.Faces (sta r)) (hbinary : cpu.flags.decimal = false) :
    let result := op.kernel (cpu.memory.read p) (cpu.memory.read q) cpu.flags.carry
    let final := cpu.step.cpu.step.cpu.step.cpu
    final.memory = cpu.memory.write r result.value ∧ final.flags.carry = result.carry ∧
      final.flags.overflow = result.overflow ∧ final.flags.decimal = false := by
  obtain ⟨hmemory₁, ha₁, hflags₁⟩ := step_of_lda hlda
  have hbinary₁ : cpu.step.cpu.flags.decimal = false := by
    rw [hflags₁]
    exact hbinary
  have hcarry₁ : cpu.step.cpu.flags.carry = cpu.flags.carry := by
    rw [hflags₁]
    rfl
  obtain ⟨hmemory₂, ha₂, hflags₂⟩ := step_of_combine hcombine hbinary₁
  rw [hmemory₁, ha₁, hcarry₁] at ha₂ hflags₂
  obtain ⟨hmemory₃, hflags₃⟩ := step_of_sta hsta
  rw [hmemory₂, hmemory₁, ha₂] at hmemory₃
  refine ⟨hmemory₃, ?_, ?_, ?_⟩
  · rw [hflags₃, hflags₂]
    rfl
  · rw [hflags₃, hflags₂]
    rfl
  · rw [hflags₃, hflags₂]
    exact hbinary₁

end Cpu

/-- What holds after the columns of the lowest `i` bytes, for the memory `m` that the program
was started with. -/
structure Combined (op : Combination) (m : Memory) (p q r : Word) (i : Nat) (cpu : Cpu) :
    Prop where
  binary : cpu.flags.decimal = false
  others : ∀ cell, (∀ j < i, r + UInt16.ofNat j ≠ cell) → cpu.memory.read cell = m.read cell
  value : op.apply (m.number p i) (m.number q i) =
    cpu.memory.number r i + 256 ^ i * op.carried cpu.flags.carry
  overflow : 0 < i → (cpu.flags.overflow = true ↔
    ¬ FitsSigned i (op.apply (m.signedNumber p i) (m.signedNumber q i)))

namespace Combined

variable {op : Combination} {m : Memory} {p q r : Word} {i : Nat} {cpu : Cpu}

/-- From one column to the next.  The cells of the column are still as they were, because they
are not among those stored to before. -/
theorem column (h : Combined op m p q r i cpu)
    (hp : ∀ j < i, r + UInt16.ofNat j ≠ p + UInt16.ofNat i)
    (hq : ∀ j < i, r + UInt16.ofNat j ≠ q + UInt16.ofNat i)
    (hr : ∀ j < i, r + UInt16.ofNat j ≠ r + UInt16.ofNat i)
    (hlda : cpu.Faces (lda (p + UInt16.ofNat i)))
    (hcombine : cpu.step.cpu.Faces (op.combine (q + UInt16.ofNat i)))
    (hsta : cpu.step.cpu.step.cpu.Faces (sta (r + UInt16.ofNat i))) :
    Combined op m p q r (i + 1) cpu.step.cpu.step.cpu.step.cpu := by
  obtain ⟨hmemory, hcarry, hoverflow, hbinary⟩ :=
    Cpu.step_of_column hlda hcombine hsta h.binary
  generalize cpu.step.cpu.step.cpu.step.cpu = final at *
  rw [h.others _ hp, h.others _ hq] at hmemory hcarry hoverflow
  have hstored : final.memory.number r (i + 1) =
      cpu.memory.number r i + 256 ^ i * (op.kernel (m.read (p + UInt16.ofNat i))
        (m.read (q + UInt16.ofNat i)) cpu.flags.carry).value.toNat := by
    rw [Memory.number_succ, hmemory, Memory.read_write_self]
    congr 1
    exact Memory.number_congr fun j hj => Memory.read_write_of_ne _ _ (hr j hj).symm
  refine ⟨hbinary, fun cell hcell => ?_, ?_, fun _ => ?_⟩
  · rw [hmemory, Memory.read_write_of_ne _ _ (hcell i (Nat.lt_succ_self i))]
    exact h.others cell fun j hj => hcell j (Nat.lt_succ_of_lt hj)
  · have hvalue := op.apply_columns h.value (m.read (p + UInt16.ofNat i))
      (m.read (q + UInt16.ofNat i))
    rw [Memory.number_succ, Memory.number_succ, hstored, hcarry, pow_succ]
    push_cast
    exact hvalue
  · rw [Memory.signedNumber_succ, Memory.signedNumber_succ, hoverflow]
    refine op.overflow_columns i (Int.natCast_nonneg _) ?_ h.value _ _
    exact_mod_cast cpu.memory.number_lt r i

end Combined

/-! ## The whole program -/

/-- Where the numbers and the program lie: each below the top of memory, the result apart from
the program, and each operand in the cells of the result or apart from them. -/
structure Layout (entry p q r : Word) (n : Nat) : Prop where
  program : entry.toNat + (1 + 9 * n) ≤ Memory.size
  left : p.toNat + n ≤ Memory.size
  right : q.toNat + n ≤ Memory.size
  result : r.toNat + n ≤ Memory.size
  apart : Window.Apart ⟨r, n⟩ ⟨entry, 1 + 9 * n⟩
  left_apart : p = r ∨ Window.Apart ⟨p, n⟩ ⟨r, n⟩
  right_apart : q = r ∨ Window.Apart ⟨q, n⟩ ⟨r, n⟩

/-- The cells stored to in earlier columns are not among those of a later one. -/
theorem Window.Apart.ne {s r : Word} {n : Nat} (hs : s.toNat + n ≤ Memory.size)
    (hr : r.toNat + n ≤ Memory.size) (h : s = r ∨ Window.Apart ⟨s, n⟩ ⟨r, n⟩) {i j : Nat}
    (hi : i < n) (hj : j < i) : r + UInt16.ofNat j ≠ s + UInt16.ofNat i := by
  intro heq
  rcases h with rfl | h
  · have hplaces := congrArg UInt16.toNat heq
    rw [Word.toNat_add_ofNat (by omega), Word.toNat_add_ofNat (by omega)] at hplaces
    omega
  · have hcovers : Window.Covers ⟨r, n⟩ (r + UInt16.ofNat j) := Window.covers_add hr (by omega)
    exact h _ (Window.covers_add hs hi) (heq ▸ hcovers)

namespace Cpu

variable {op : Combination} {entry p q r : Word} {n : Nat}

/-- The program writes to the cells of its result only. -/
theorem writtenCells_of_mem_listing {cpu : Cpu} {instruction : Instruction}
    (hmem : instruction ∈ op.listing p q r n) (hfaces : cpu.Faces instruction) :
    ∀ cell ∈ cpu.writtenCells, ∃ i < n, cell = r + UInt16.ofNat i := by
  intro cell hcell
  rcases Combination.mem_listing.mp hmem with rfl | ⟨i, hi, hcolumn⟩
  · rw [writtenCells, storedCells, pushedCells, hfaces.opcode] at hcell
    cases op <;> cases hcell
  · rcases Combination.mem_column.mp hcolumn with rfl | rfl | rfl
    · rw [writtenCells, storedCells, pushedCells, hfaces.opcode, opcode_lda] at hcell
      cases hcell
    · rw [writtenCells, storedCells, pushedCells, hfaces.opcode,
        Combination.opcode_combine] at hcell
      cases op <;> cases hcell
    · rw [writtenCells, storedCells, pushedCells, hfaces.opcode, opcode_sta,
        effectiveAddress_of_absolute hfaces] at hcell
      exact ⟨i, hi, List.mem_singleton.mp hcell⟩

theorem length_assemble_lt (h : Layout entry p q r n) :
    (assemble (op.listing p q r n)).length < Memory.size := by
  have hprogram := h.program
  rw [Combination.length_assemble_listing]
  rw [Memory.size] at hprogram ⊢
  omega

section Run

variable (cpu : Cpu) (h : Layout entry p q r n)

include h

theorem holds_after_listing {k : Nat} (hk : k ≤ (op.listing p q r n).length) :
    ((cpu.loadProgram entry (assemble (op.listing p q r n))).after k).Holds entry
      (assemble (op.listing p q r n)) := by
  have hlength := op.length_assemble_listing p q r n
  have hfits : entry.toNat + (assemble (op.listing p q r n)).length ≤ Memory.size :=
    hlength ▸ h.program
  refine holds_after rfl (fun _ => Combination.redirects_of_mem_listing)
    (loads_loadProgram cpu entry _ hfits).holds ?_ hfits hk
  intro s instruction hmem hfaces cell hcell
  obtain ⟨i, hi, rfl⟩ := writtenCells_of_mem_listing hmem hfaces cell hcell
  rw [hlength]
  exact h.apart _ (Window.covers_add h.result hi)

theorem faces_of_getElem? {k : Nat} {instruction : Instruction}
    (hk : (op.listing p q r n)[k]? = some instruction) :
    ((cpu.loadProgram entry (assemble (op.listing p q r n))).after k).Faces instruction := by
  obtain ⟨hlt, rfl⟩ := List.getElem?_eq_some_iff.mp hk
  exact faces_after rfl (fun _ => Combination.redirects_of_mem_listing) hlt
    fun j hj => cpu.holds_after_listing h (hj.trans hlt.le)

/-- After the carry is prepared and after each column the invariant holds. -/
theorem combined_after (op : Combination) (hbinary : cpu.flags.decimal = false) {i : Nat}
    (hi : i ≤ n) :
    let start := cpu.loadProgram entry (assemble (op.listing p q r n))
    Combined op start.memory p q r i (start.after (1 + 3 * i)) := by
  intro start
  induction i with
  | zero =>
      have hfaces : start.Faces op.prepare := cpu.faces_of_getElem? h (k := 0) rfl
      obtain ⟨hmemory, hcarry, hdecimal⟩ := step_of_prepare hfaces
      have hfirst : start.after (1 + 3 * 0) = start.step.cpu := rfl
      rw [hfirst]
      generalize start.step.cpu = first at *
      refine ⟨hdecimal.trans hbinary, fun cell _ => congrArg (·.read cell) hmemory, ?_, ?_⟩
      · rw [hcarry, Int.mul_zero, Int.add_zero]
        cases op <;> rfl
      · exact fun hlt => absurd hlt (Nat.lt_irrefl 0)
  | succ i ih =>
      have hcolumn (j : Nat) (hj : j < 3) :
          (op.listing p q r n)[1 + 3 * i + j]? = (op.column p q r i)[j]? :=
        Combination.getElem?_listing (by omega) j hj
      have hlda := cpu.faces_of_getElem? h (hcolumn 0 (by omega))
      have hcombine := cpu.faces_of_getElem? h (hcolumn 1 (by omega))
      have hsta := cpu.faces_of_getElem? h (hcolumn 2 (by omega))
      exact (ih (by omega)).column
        (fun j hj => Window.Apart.ne h.left h.result h.left_apart hi hj)
        (fun j hj => Window.Apart.ne h.right h.result h.right_apart hi hj)
        (fun j hj => Window.Apart.ne h.result h.result (.inl rfl) hi hj) hlda hcombine hsta

/-- No instruction of the program is indexed, so each costs what the table says. -/
theorem spent_listing (op : Combination) :
    (cpu.loadProgram entry (assemble (op.listing p q r n))).spent (1 + 3 * n) = 2 + 12 * n := by
  have hlength := op.length_listing p q r n
  have hpc : (cpu.loadProgram entry (assemble (op.listing p q r n))).pc = entry := rfl
  have hspent := spent_eq hpc (fun _ => Combination.redirects_of_mem_listing) le_rfl
    fun j hj => cpu.holds_after_listing h hj.le
  rw [List.take_length, hlength, op.sum_cycles_listing p q r n] at hspent
  rw [hspent, List.countP_eq_zero.mpr, Nat.add_zero]
  intro k hk
  obtain ⟨instruction, hinstruction⟩ : ∃ i, (op.listing p q r n)[k]? = some i :=
    ⟨_, List.getElem?_eq_getElem (hlength ▸ List.mem_range.mp hk)⟩
  have hmode : instruction.opcode.mode ∈ [.implied, .absolute] := by
    rcases Combination.mem_listing.mp (List.mem_of_getElem? hinstruction) with
      rfl | ⟨i, -, hcolumn⟩
    · cases op <;> decide
    · rcases Combination.mem_column.mp hcolumn with rfl | rfl | rfl
      · simp [opcode_lda]
      · simp [Combination.opcode_combine]
      · simp [opcode_sta]
  have hfaces := cpu.faces_of_getElem? h hinstruction
  rw [← hfaces.opcode] at hmode
  rw [paysForCarry, indexCarries, indexBase]
  simp only [List.mem_cons, List.not_mem_nil, or_false] at hmode
  rcases hmode with hmode | hmode <;> simp [hmode]

theorem execute_listing (op : Combination) {fuel : Nat} (hfuel : 1 + 3 * n ≤ fuel) :
    cpu.execute entry (assemble (op.listing p q r n)) .unlimited fuel =
      some ⟨(cpu.loadProgram entry (assemble (op.listing p q r n))).after (1 + 3 * n),
        .ok ⟨1 + 3 * n, 2 + 12 * n⟩⟩ := by
  have hlength := op.length_listing p q r n
  have hprogram := h.program
  rw [← op.length_assemble_listing p q r n] at hprogram
  have hexecute := execute_of_holds cpu (fun _ => Combination.redirects_of_mem_listing) hprogram
    (length_assemble_lt h) (fun k hk => cpu.holds_after_listing h hk.le) (hlength ▸ hfuel)
  rwa [hlength, cpu.spent_listing h op] at hexecute

end Run

/-- The programs for numbers of `n` bytes run to their end and take `1 + 3n` instructions and
`2 + 12n` cycles.  They leave the sum, or the difference, of the numbers that stood at `p` and
`q` modulo `256 ^ n` at `r`.  The carry tells whether the sum has one more digit, or whether
nothing was borrowed; the overflow whether the signed result has no place in `n` bytes. -/
theorem execute_multibyte (cpu : Cpu) (entry p q r : Word) {n : Nat} (hn : 0 < n)
    (hbinary : cpu.flags.decimal = false) (hlayout : Layout entry p q r n) :
    (let program := assemble (Combination.sum.listing p q r n)
     let before := (cpu.loadProgram entry program).memory
     ∃ final : Cpu,
      (∀ fuel, 1 + 3 * n ≤ fuel → cpu.execute entry program .unlimited fuel =
        some ⟨final, .ok ⟨1 + 3 * n, 2 + 12 * n⟩⟩) ∧
      final.memory.number r n = (before.number p n + before.number q n) % 256 ^ n ∧
      (final.flags.carry = true ↔ 256 ^ n ≤ before.number p n + before.number q n) ∧
      (final.flags.overflow = true ↔
        ¬ FitsSigned n (before.signedNumber p n + before.signedNumber q n))) ∧
    (let program := assemble (Combination.difference.listing p q r n)
     let before := (cpu.loadProgram entry program).memory
     ∃ final : Cpu,
      (∀ fuel, 1 + 3 * n ≤ fuel → cpu.execute entry program .unlimited fuel =
        some ⟨final, .ok ⟨1 + 3 * n, 2 + 12 * n⟩⟩) ∧
      (final.memory.number r n : Int) =
        ((before.number p n : Int) - before.number q n) % 256 ^ n ∧
      (final.flags.carry = true ↔ before.number q n ≤ before.number p n) ∧
      (final.flags.overflow = true ↔
        ¬ FitsSigned n (before.signedNumber p n - before.signedNumber q n))) := by
  constructor
  · intro program before
    have hend := cpu.combined_after hlayout .sum hbinary le_rfl
    refine ⟨_, fun fuel hfuel => cpu.execute_listing hlayout .sum hfuel, ?_, ?_,
      hend.overflow hn⟩
    · have hresult := Combination.apply_emod _ (Int.natCast_nonneg _)
        (by exact_mod_cast Memory.number_lt ..) hend.value
      rw [Combination.apply] at hresult
      exact_mod_cast hresult
    · have hcarry := Combination.carry_sum_iff (Int.natCast_nonneg _)
        (by exact_mod_cast Memory.number_lt ..) hend.value
      exact_mod_cast hcarry
  · intro program before
    have hend := cpu.combined_after hlayout .difference hbinary le_rfl
    refine ⟨_, fun fuel hfuel => cpu.execute_listing hlayout .difference hfuel, ?_, ?_,
      hend.overflow hn⟩
    · exact Combination.apply_emod _ (Int.natCast_nonneg _)
        (by exact_mod_cast Memory.number_lt ..) hend.value
    · have hcarry := Combination.carry_difference_iff (Int.natCast_nonneg _)
        (by exact_mod_cast Memory.number_lt ..) hend.value
      exact_mod_cast hcarry

/-- `$80FF` and `$8001`, the result over the first operand: the sum is too large both as an
unsigned and as a signed number, the difference is neither. -/
theorem execute_multibyte_in_place :
    ∃ cpu : Cpu,
      (∃ final, cpu.execute 0x40 (assemble (Combination.sum.listing 0x20 0x30 0x20 2)) .unlimited 7
          = some ⟨final, .ok ⟨7, 26⟩⟩ ∧
        final.memory.number 0x20 2 = 0x0100 ∧ final.flags.carry = true ∧
        final.flags.overflow = true) ∧
      ∃ final,
        cpu.execute 0x40 (assemble (Combination.difference.listing 0x20 0x30 0x20 2)) .unlimited 7
          = some ⟨final, .ok ⟨7, 26⟩⟩ ∧
        (final.memory.number 0x20 2 : Int) = 0x00FE ∧ final.flags.carry = true ∧
        ¬ final.flags.overflow = true := by
  let cpu : Cpu :=
    { fresh with memory := (Memory.zero.load 0x20 [0xFF, 0x80]).load 0x30 [0x01, 0x80] }
  have hlayout : Layout 0x40 0x20 0x30 0x20 2 := by
    refine ⟨by decide, by decide, by decide, by decide, ?_, .inl rfl, .inr ?_⟩
    · rintro address ⟨-, hhigh⟩ ⟨hlow, -⟩
      exact absurd (hlow.trans_lt hhigh) (by decide)
    · rintro address ⟨hlow, -⟩ ⟨-, hhigh⟩
      exact absurd (hlow.trans_lt hhigh) (by decide)
  obtain ⟨⟨sum, hsum, hvalue, hcarry, hoverflow⟩,
      difference, hdifference, hvalue', hcarry', hoverflow'⟩ :=
    execute_multibyte cpu 0x40 0x20 0x30 0x20 (by decide) rfl hlayout
  have hnumbers (op : Combination) :
      (cpu.loadProgram 0x40 (assemble (op.listing 0x20 0x30 0x20 2))).memory.number 0x20 2
          = 0x80FF ∧
        (cpu.loadProgram 0x40 (assemble (op.listing 0x20 0x30 0x20 2))).memory.number 0x30 2
          = 0x8001 := by
    cases op <;> decide +kernel
  obtain ⟨hp, hq⟩ := hnumbers .sum
  obtain ⟨hp', hq'⟩ := hnumbers .difference
  simp only [Memory.signedNumber, hp, hq] at hvalue hcarry hoverflow
  simp only [Memory.signedNumber, hp', hq'] at hvalue' hcarry' hoverflow'
  refine ⟨cpu, ⟨sum, hsum 7 le_rfl, hvalue, hcarry.mpr (by decide), hoverflow.mpr ?_⟩,
    difference, hdifference 7 le_rfl, hvalue', hcarry'.mpr (by decide), fun h => ?_⟩
  · decide
  · exact hoverflow'.mp h (by decide)

end Cpu

end Mos6502
