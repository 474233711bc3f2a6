import Mos6502.Cpu.Basic

/-!
# The display in text

The display window is shown row by row, each byte as two hexadecimal digits, with one blank
between the bytes of a row.
-/

namespace Mos6502.Program.Display

/-- Bytes in rows of the display's width; the last row may be shorter. -/
def chunks : List Byte → List (List Byte)
  | [] => []
  | byte :: rest =>
      (byte :: rest).take Cpu.displayWidth :: chunks ((byte :: rest).drop Cpu.displayWidth)
termination_by bytes => bytes.length
decreasing_by
  simp only [List.length_drop, List.length_cons, Cpu.displayWidth]
  omega

/-- One row as text. -/
def row (bytes : List Byte) : String :=
  " ".intercalate (bytes.map Byte.hex)

/-- All rows as text. -/
def rows (bytes : List Byte) : List String :=
  (chunks bytes).map row

/-- The rows as one text; there is no line end after the last. -/
def text (bytes : List Byte) : String :=
  "\n".intercalate (rows bytes)

end Mos6502.Program.Display
