import Mos6502.Proofs.Instruction.Footprint
import Mos6502.Run.Execution

/-!
# The stack gives back what was put on it

The stack lives in page one and its pointer wraps there, so nothing in the machine keeps two
uses of a cell apart.  What does is the depth: the bytes pushed less the bytes pulled since a
given state.  Without `TXS` the stack pointer is the first one less the depth, modulo the 256
cells of the page (`pointer_after`), so a push at a depth below 256 goes to a cell that no
byte further down takes up (`notMem_pushedCells`).

A `Bracket` is a run that begins with a push and ends with the matching pull at the depth
that the push led to, and in between neither goes below that depth nor laps the page nor
stores to the cells of the push.  Such a run leaves those cells alone (`read_after`), hence
the pull finds what the push left: `Bracket.restores`.
-/

namespace Mos6502.Cpu

/-- The bytes pushed less the bytes pulled by the first instructions of a machine. -/
def depth (cpu : Cpu) : Nat → Int
  | 0 => 0
  | k + 1 =>
      cpu.depth k + (cpu.after k).opcode.operation.pushedBytes
        - (cpu.after k).opcode.operation.pulledBytes

/-- A push and the pull that takes its bytes back. -/
inductive Matches : Operation → Operation → Prop
  | call : Matches .jsr .rts
  | accumulator : Matches .pha .pla
  | flags : Matches .php .plp

/-- A run of `n` instructions from a push to the matching pull. -/
structure Bracket (cpu : Cpu) (n : Nat) : Prop where
  two_le : 2 ≤ n
  pair : Matches cpu.opcode.operation (cpu.after (n - 1)).opcode.operation
  no_transfer : ∀ k < n - 1, 0 < k → (cpu.after k).opcode.operation ≠ .txs
  no_store : ∀ k < n - 1, 0 < k → ∀ cell ∈ (cpu.after k).storedCells, cell ∉ cpu.pushedCells
  deep : ∀ k < n, 0 < k → (cpu.opcode.operation.pushedBytes : Int) ≤ cpu.depth k
  shallow : ∀ k < n, 0 < k → cpu.depth k ≤ 256
  level : cpu.depth (n - 1) = cpu.opcode.operation.pushedBytes

/-! ## The stack pointer -/

theorem sp_perform (cpu : Cpu) (operation : Operation) (operand : Operand)
    (htransfer : operation ≠ .txs)
    (hcall : operation = .jsr → ∃ target, operand = .address target) :
    (cpu.perform operation operand).cpu.sp =
      cpu.sp - UInt8.ofNat operation.pushedBytes + UInt8.ofNat operation.pulledBytes := by
  have hstill : cpu.sp = cpu.sp - 0 + 0 := by grind
  cases operation
  case txs => exact absurd rfl htransfer
  case jsr =>
    obtain ⟨target, rfl⟩ := hcall rfl
    have hsp : cpu.sp - 1 - 1 = cpu.sp - 2 + 0 := by grind
    exact hsp
  case pha | php =>
    have hsp : cpu.sp - 1 = cpu.sp - 1 + 0 := by grind
    exact hsp
  case pla | plp =>
    have hsp : cpu.sp + 1 = cpu.sp - 0 + 1 := by grind
    exact hsp
  case rts =>
    have hsp : cpu.sp + 1 + 1 = cpu.sp - 0 + 2 := by grind
    exact hsp
  case rti =>
    have hsp : cpu.sp + 1 + 1 + 1 = cpu.sp - 0 + 3 := by grind
    exact hsp
  case sta | stx | sty | asl | lsr | rol | ror | inc | dec | jmp => cases operand <;> exact hstill
  case bcc | bcs | bne | beq | bpl | bmi | bvc | bvs =>
    cases operand
    case relative =>
      simp only [perform, branch]
      split <;> exact hstill
    all_goals exact hstill
  all_goals exact hstill

theorem sp_step {cpu : Cpu} (htransfer : cpu.opcode.operation ≠ .txs) :
    cpu.step.cpu.sp =
      cpu.sp - UInt8.ofNat cpu.opcode.operation.pushedBytes
        + UInt8.ofNat cpu.opcode.operation.pulledBytes := by
  have hregisters := congrArg Registers.sp cpu.registers_step
  rw [hregisters, sp_perform _ _ _ htransfer]
  · rfl
  · intro hcall
    exact ⟨_, operand_eq_address_iff.mpr (effectiveAddress_of_jsr hcall)⟩

/-- Without `TXS` the stack pointer is the first one less the depth. -/
theorem pointer_after {cpu : Cpu} {n : Nat}
    (htransfer : ∀ k < n, (cpu.after k).opcode.operation ≠ .txs) :
    ((cpu.after n).sp.toNat : Int) = (cpu.sp.toNat - cpu.depth n) % 256 := by
  have hsp := cpu.sp.toNat_lt
  induction n with
  | zero =>
      simp only [after, depth]
      omega
  | succ n ih =>
      have hbefore := ih fun k hk => htransfer k (by omega)
      have hstep := congrArg UInt8.toNat (sp_step (htransfer n (by omega)))
      rw [UInt8.toNat_add, UInt8.toNat_sub, UInt8.toNat_ofNat', UInt8.toNat_ofNat'] at hstep
      simp only [after, depth]
      omega

/-! ## Which cells a push takes -/

theorem mem_pushedCells {cpu : Cpu} {cell : Word} :
    cell ∈ cpu.pushedCells ↔
      ∃ i < cpu.opcode.operation.pushedBytes, cell = Word.stack (cpu.sp - UInt8.ofNat i) := by
  simp only [pushedCells, List.mem_map, List.mem_range]
  exact exists_congr fun i => and_congr_right fun _ => eq_comm

theorem pulledBytes_eq_zero {operation : Operation} (hpush : 0 < operation.pushedBytes) :
    operation.pulledBytes = 0 := by
  revert hpush
  cases operation <;> decide

/-- A push that starts no higher than a first push ended and does not lap the page takes other
cells than the first one. -/
theorem notMem_pushedCells {first later : Cpu} {d : Int}
    (hpointer : (later.sp.toNat : Int) = (first.sp.toNat - d) % 256)
    (hdeep : (first.opcode.operation.pushedBytes : Int) ≤ d)
    (hshallow : d + later.opcode.operation.pushedBytes ≤ 256) {cell : Word}
    (hcell : cell ∈ first.pushedCells) : cell ∉ later.pushedCells := by
  intro hlater
  obtain ⟨i, hi, rfl⟩ := mem_pushedCells.mp hcell
  obtain ⟨j, hj, hij⟩ := mem_pushedCells.mp hlater
  have hplace := congrArg UInt8.toNat (Word.stack_inj.mp hij)
  have hfirst := first.sp.toNat_lt
  have hsecond := later.sp.toNat_lt
  rw [UInt8.toNat_sub, UInt8.toNat_sub, UInt8.toNat_ofNat', UInt8.toNat_ofNat'] at hplace
  -- both places lie in one lap of the page: they are `i` and `d + j` below the first pointer
  omega

/-! ## What pushes leave and pulls find -/

section Access

variable {cpu : Cpu}

theorem memory_step_of_pha (hpush : cpu.opcode.operation = .pha) :
    cpu.step.cpu.memory = cpu.memory.write (Word.stack cpu.sp) cpu.a := by
  rw [memory_step, hpush]
  rfl

theorem memory_step_of_php (hpush : cpu.opcode.operation = .php) :
    cpu.step.cpu.memory = cpu.memory.write (Word.stack cpu.sp) cpu.flags.pack := by
  rw [memory_step, hpush]
  rfl

/-- A call pushes the address of its own last byte. -/
theorem memory_step_of_jsr (hpush : cpu.opcode.operation = .jsr) :
    cpu.step.cpu.memory =
      (cpu.memory.write (Word.stack cpu.sp) (Word.high (cpu.pc + 2))).write
        (Word.stack (cpu.sp - 1)) (Word.low (cpu.pc + 2)) := by
  have hsize : cpu.opcode.size = 3 := by
    rw [Opcode.size, mode_of_jsr hpush]
    rfl
  have hback : cpu.ready.pc - 1 = cpu.pc + 2 := by
    have hpc : cpu.ready.pc = cpu.pc + UInt16.ofNat cpu.opcode.size := rfl
    have hthree : cpu.pc + 3 - 1 = cpu.pc + 2 := by grind
    rw [hpc, hsize]
    exact hthree
  rw [memory_step, hpush, operand_eq_address_iff.mpr (effectiveAddress_of_jsr hpush), ← hback]
  rfl

theorem a_step_of_pla (hpull : cpu.opcode.operation = .pla) :
    cpu.step.cpu.a = cpu.memory.read (Word.stack (cpu.sp + 1)) := by
  rw [registers_step, hpull]
  rfl

theorem flags_step_of_plp (hpull : cpu.opcode.operation = .plp) :
    cpu.step.cpu.flags = Flags.unpack (cpu.memory.read (Word.stack (cpu.sp + 1))) := by
  rw [registers_step, hpull]
  rfl

/-- A return goes on after the address that it pulls, low byte first. -/
theorem pc_step_of_rts (hpull : cpu.opcode.operation = .rts) :
    cpu.step.cpu.pc =
      Word.ofBytes (cpu.memory.read (Word.stack (cpu.sp + 2)))
        (cpu.memory.read (Word.stack (cpu.sp + 1))) + 1 := by
  have htwo : cpu.sp + 2 = cpu.sp + 1 + 1 := by grind
  rw [registers_step, hpull, htwo]
  rfl

end Access

/-! ## Brackets -/

namespace Matches

theorem eq_rts {pull : Operation} (h : Matches .jsr pull) : pull = .rts := by
  cases h
  rfl

theorem eq_pla {pull : Operation} (h : Matches .pha pull) : pull = .pla := by
  cases h
  rfl

theorem eq_plp {pull : Operation} (h : Matches .php pull) : pull = .plp := by
  cases h
  rfl

theorem ne_txs {push pull : Operation} (h : Matches push pull) : push ≠ .txs ∧ pull ≠ .txs := by
  cases h <;> decide

/-- The pull takes back as many bytes as the push put down, and does nothing else. -/
theorem bytes {push pull : Operation} (h : Matches push pull) :
    pull.pushedBytes = 0 ∧ pull.pulledBytes = push.pushedBytes := by
  cases h <;> decide

end Matches

namespace Bracket

variable {cpu : Cpu} {n : Nat}

theorem ne_txs (h : cpu.Bracket n) {k : Nat} (hk : k < n) :
    (cpu.after k).opcode.operation ≠ .txs := by
  by_cases hfirst : k = 0
  · subst hfirst
    exact h.pair.ne_txs.1
  · by_cases hlast : k = n - 1
    · subst hlast
      exact h.pair.ne_txs.2
    · exact h.no_transfer k (by omega) (by omega)

theorem pointer (h : cpu.Bracket n) {k : Nat} (hk : k ≤ n) :
    ((cpu.after k).sp.toNat : Int) = (cpu.sp.toNat - cpu.depth k) % 256 :=
  pointer_after fun _ hj => h.ne_txs (by omega)

/-- The cells of the push keep their bytes until the matching pull. -/
theorem read_after (h : cpu.Bracket n) {cell : Word} (hcell : cell ∈ cpu.pushedCells) {k : Nat}
    (hk : k + 1 < n) :
    (cpu.after (k + 1)).memory.read cell = (cpu.after 1).memory.read cell := by
  -- on the instructions since the push: none stores to the cell by assumption, and a push
  -- starts below the bracket and ends less than a lap away
  induction k with
  | zero => rfl
  | succ k ih =>
      have hstored := h.no_store (k + 1) (by omega) (by omega) cell
      have hdeep := h.deep (k + 1) (by omega) (by omega)
      have hshallow := h.shallow (k + 2) (by omega) (by omega)
      have hpushed : cell ∉ (cpu.after (k + 1)).pushedCells := by
        by_cases hpush : 0 < (cpu.after (k + 1)).opcode.operation.pushedBytes
        · have hpull := pulledBytes_eq_zero hpush
          rw [depth, hpull] at hshallow
          exact notMem_pushedCells (h.pointer (by omega)) hdeep (by omega) hcell
        · intro hmem
          obtain ⟨i, hi, -⟩ := mem_pushedCells.mp hmem
          omega
      have hwritten : cell ∉ (cpu.after (k + 1)).writtenCells := by
        rw [writtenCells, List.mem_append, not_or]
        exact ⟨fun hmem => hstored hmem hcell, hpushed⟩
      exact (read_step_of_notMem hwritten).trans (ih (by omega))

theorem sp_after (h : cpu.Bracket n) : (cpu.after n).sp = cpu.sp := by
  have htwo := h.two_le
  have hpointer := h.pointer (Nat.le_refl n)
  obtain ⟨hpushed, hpulled⟩ := h.pair.bytes
  have hdepth : cpu.depth n = 0 := by
    rw [show n = n - 1 + 1 by omega, depth, h.level, hpushed, hpulled]
    omega
  have hsp := cpu.sp.toNat_lt
  apply UInt8.toNat_inj.mp
  omega

theorem sp_last (h : cpu.Bracket n) :
    (cpu.after (n - 1)).sp = cpu.sp - UInt8.ofNat cpu.opcode.operation.pushedBytes := by
  have hpointer := h.pointer (Nat.sub_le n 1)
  have hsp := cpu.sp.toNat_lt
  have hlast := (cpu.after (n - 1)).sp.toNat_lt
  rw [h.level] at hpointer
  apply UInt8.toNat_inj.mp
  rw [UInt8.toNat_sub, UInt8.toNat_ofNat']
  omega

/-- Just before the matching pull the cells of the push still hold what the push left. -/
theorem read_last (h : cpu.Bracket n) {cell : Word} (hcell : cell ∈ cpu.pushedCells) :
    (cpu.after (n - 1)).memory.read cell = cpu.step.cpu.memory.read cell := by
  have htwo := h.two_le
  have hread := h.read_after hcell (k := n - 2) (by omega)
  rwa [show n - 2 + 1 = n - 1 by omega] at hread

theorem after_eq (h : cpu.Bracket n) : cpu.after n = (cpu.after (n - 1)).step.cpu := by
  have htwo := h.two_le
  obtain ⟨m, rfl⟩ : ∃ m, n = m + 1 := ⟨n - 1, by omega⟩
  rfl

theorem pc_after (h : cpu.Bracket n) (hcall : cpu.opcode.operation = .jsr) :
    (cpu.after n).pc = cpu.pc + 3 := by
  have hreturn := (hcall ▸ h.pair).eq_rts
  have hsp := h.sp_last
  rw [hcall] at hsp
  have hhigh : (cpu.after (n - 1)).sp + 2 = cpu.sp := by
    rw [hsp]
    exact UInt8.sub_add_cancel ..
  have hlow : (cpu.after (n - 1)).sp + 1 = cpu.sp - 1 := by
    have hone : cpu.sp - 2 + 1 = cpu.sp - 1 := by grind
    rw [hsp]
    exact hone
  have hne : Word.stack (cpu.sp - 1) ≠ Word.stack cpu.sp := by
    rw [ne_eq, Word.stack_inj]
    grind
  have hmem : Word.stack cpu.sp ∈ cpu.pushedCells ∧
      Word.stack (cpu.sp - 1) ∈ cpu.pushedCells := by
    constructor <;> rw [mem_pushedCells, hcall]
    · exact ⟨0, by decide, by simp⟩
    · exact ⟨1, by decide, rfl⟩
  -- the return pulls the two halves in the order opposite to that of the call, and the low
  -- half, pushed second, went to another cell than the high one
  rw [h.after_eq, pc_step_of_rts hreturn, hhigh, hlow, h.read_last hmem.1, h.read_last hmem.2,
    memory_step_of_jsr hcall, Memory.read_write_self, Memory.read_write_of_ne _ _ hne,
    Memory.read_write_self, Word.ofBytes_high_low]
  grind

/-- What the pull of a single byte finds is what the push left. -/
theorem read_pulled (h : cpu.Bracket n) (hone : cpu.opcode.operation.pushedBytes = 1) :
    (cpu.after (n - 1)).memory.read (Word.stack ((cpu.after (n - 1)).sp + 1)) =
      cpu.step.cpu.memory.read (Word.stack cpu.sp) := by
  have hsp := h.sp_last
  have hplace : (cpu.after (n - 1)).sp + 1 = cpu.sp := by
    rw [hsp, hone]
    exact UInt8.sub_add_cancel ..
  rw [hplace]
  exact h.read_last (mem_pushedCells.mpr ⟨0, by omega, by simp⟩)

theorem a_after (h : cpu.Bracket n) (hpush : cpu.opcode.operation = .pha) :
    (cpu.after n).a = cpu.a := by
  have hpull := (hpush ▸ h.pair).eq_pla
  have hone : cpu.opcode.operation.pushedBytes = 1 := by rw [hpush]; rfl
  rw [h.after_eq, a_step_of_pla hpull, h.read_pulled hone, memory_step_of_pha hpush,
    Memory.read_write_self]

theorem flags_after (h : cpu.Bracket n) (hpush : cpu.opcode.operation = .php) :
    (cpu.after n).flags = cpu.flags := by
  have hpull := (hpush ▸ h.pair).eq_plp
  have hone : cpu.opcode.operation.pushedBytes = 1 := by rw [hpush]; rfl
  rw [h.after_eq, flags_step_of_plp hpull, h.read_pulled hone, memory_step_of_php hpush,
    Memory.read_write_self, Flags.unpack_pack]

/-- From a push to the pull that matches it the stack pointer comes back, a call resumes after
its three bytes, and the accumulator or the flags are what they were. -/
theorem restores (h : cpu.Bracket n) :
    (cpu.after n).sp = cpu.sp ∧
      (cpu.opcode.operation = .jsr → (cpu.after n).pc = cpu.pc + 3) ∧
      (cpu.opcode.operation = .pha → (cpu.after n).a = cpu.a) ∧
      (cpu.opcode.operation = .php → (cpu.after n).flags = cpu.flags) :=
  ⟨h.sp_after, h.pc_after, h.a_after, h.flags_after⟩

end Bracket

/-- A call whose return address lies on both sides of the end of page one, around a push and a
pull. -/
theorem bracket_across_page_end :
    Bracket { fresh.loadProgram 0 [0x20, 4, 0, 0, 0x48, 0x68, 0x60] with sp := 0 } 4 ∧
      (after { fresh.loadProgram 0 [0x20, 4, 0, 0, 0x48, 0x68, 0x60] with sp := 0 } 4).pc = 3 := by
  have hstored : ∀ k < 3,
      (after { fresh.loadProgram 0 [0x20, 4, 0, 0, 0x48, 0x68, 0x60] with sp := 0 }
        k).storedCells = [] := by
    decide +kernel
  have hbracket :
      Bracket { fresh.loadProgram 0 [0x20, 4, 0, 0, 0x48, 0x68, 0x60] with sp := 0 } 4 :=
    { two_le := by decide
      pair := Matches.call
      no_transfer := by decide +kernel
      no_store := fun k hk _ => hstored k hk ▸ List.forall_mem_nil _
      deep := by decide +kernel
      shallow := by decide +kernel
      level := by decide +kernel }
  exact ⟨hbracket, hbracket.restores.2.1 (by decide +kernel)⟩

end Mos6502.Cpu
