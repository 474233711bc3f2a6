import Mos6502.Program.Display
import Mos6502.Proofs.Memory.Loading

/-!
# The rows of the display

A list of bytes is shown in rows of the display's width.  `chunks_eq` gives the rows by their
numbers: row `i` is the part of the list that begins at `i` times the width.  The display window
is a slice of memory, and a part of a slice is a slice (`take_drop_slice`), so each of its rows
can be read off memory (`rows_displayWindow`).
-/

namespace Mos6502

theorem Memory.take_drop_slice (m : Memory) (start : Word) {skipped taken length : Nat}
    (hle : skipped + taken ≤ length) :
    ((m.slice start length).drop skipped).take taken =
      m.slice (start + UInt16.ofNat skipped) taken := by
  obtain ⟨rest, rfl⟩ := Nat.exists_eq_add_of_le hle
  have hskipped : (m.slice start skipped).length = skipped := length_slice ..
  have htaken : (m.slice (start + UInt16.ofNat skipped) taken).length = taken := length_slice ..
  rw [Nat.add_assoc, slice_add, slice_add, List.drop_left' hskipped, List.take_left' htaken]

namespace Program.Display

theorem chunks_eq (bytes : List Byte) :
    chunks bytes =
      (List.range ((bytes.length + (Cpu.displayWidth - 1)) / Cpu.displayWidth)).map fun i =>
        (bytes.drop (Cpu.displayWidth * i)).take Cpu.displayWidth := by
  fun_induction chunks bytes with
  | case1 => rfl
  | case2 byte rest ih =>
      have hcount : ((byte :: rest).length + (Cpu.displayWidth - 1)) / Cpu.displayWidth =
          (((byte :: rest).drop Cpu.displayWidth).length + (Cpu.displayWidth - 1))
            / Cpu.displayWidth + 1 := by
        simp only [List.length_drop, List.length_cons, Cpu.displayWidth]
        omega
      rw [hcount, List.range_succ_eq_map, List.map_cons, ih, List.map_map]
      refine congrArg (_ :: ·) (List.map_congr_left fun i _ => ?_)
      rw [List.drop_drop, Function.comp_apply, Nat.mul_succ, Nat.add_comm]

/-- The bytes in one row of the display window. -/
def rowOf (cpu : Cpu) (row : Nat) : List Byte :=
  (List.range 32).map fun column => cpu.memory.read (0x0200 + UInt16.ofNat (32 * row + column))

theorem chunks_displayWindow (cpu : Cpu) :
    chunks cpu.displayWindow = (List.range 32).map (rowOf cpu) := by
  have hlength : cpu.displayWindow.length = Cpu.displayWidth * Cpu.displayHeight :=
    Memory.length_slice ..
  rw [chunks_eq, hlength]
  refine List.map_congr_left fun row hrow => ?_
  have hle : Cpu.displayWidth * row + Cpu.displayWidth
      ≤ Cpu.displayWidth * Cpu.displayHeight := by
    have hlast : row < 32 := List.mem_range.mp hrow
    simp only [Cpu.displayWidth, Cpu.displayHeight]
    omega
  rw [Cpu.displayWindow, Memory.take_drop_slice _ _ hle]
  refine List.map_congr_left fun column _ => ?_
  rw [UInt16.add_assoc, ← UInt16.ofNat_add]
  rfl

/-- The display of a machine has 32 rows, and each shows 32 bytes of its memory. -/
theorem rows_displayWindow (cpu : Cpu) :
    rows cpu.displayWindow =
      (List.range 32).map fun i => " ".intercalate ((rowOf cpu i).map Byte.hex) := by
  rw [rows, chunks_displayWindow, List.map_map]
  rfl

end Program.Display

end Mos6502
