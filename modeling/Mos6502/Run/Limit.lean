import Mos6502.Memory

/-!
# Bounds of a run

How much a run may do, how much it has done, and the addresses that it stays in.
-/

namespace Mos6502

/-- Optional bounds of a run. -/
structure Limit where
  instructions : Option Nat
  cycles : Option Nat
deriving DecidableEq, Repr

/-- What a run has done so far. -/
structure Tally where
  instructions : Nat
  cycles : Nat
deriving DecidableEq, Repr

namespace Tally

/-- Nothing is done. -/
def zero : Tally := ⟨0, 0⟩

/-- One more instruction, with its cost. -/
def add (tally : Tally) (cost : Nat) : Tally :=
  ⟨tally.instructions + 1, tally.cycles + cost⟩

end Tally

namespace Limit

/-- No bound at all. -/
def unlimited : Limit := ⟨none, none⟩

/-- Whether one of the bounds is met. -/
def reached (limit : Limit) (tally : Tally) : Bool :=
  limit.instructions.any (· ≤ tally.instructions) || limit.cycles.any (· ≤ tally.cycles)

/-- An optional bound, as log messages show it. -/
def boundText : Option Nat → String
  | none => "None"
  | some bound => "Some(" ++ toString bound ++ ")"

/-- Both bounds, as log messages show them. -/
def text (limit : Limit) : String :=
  "RunLimit \x7b max_instructions: " ++ boundText limit.instructions ++ ", max_cycles: "
    ++ boundText limit.cycles ++ " \x7d"

end Limit

/-- The addresses that a loaded program takes up. -/
structure Window where
  entry : Word
  length : Nat
deriving DecidableEq, Repr

namespace Window

/-- The address after the last; it can be the size of the memory. -/
def stop (window : Window) : Nat :=
  window.entry.toNat + window.length

/-- Whether the window lies in the address space. -/
def fits (window : Window) : Bool :=
  window.stop ≤ Memory.size

/-- Whether an address lies in the window. -/
def contains (window : Window) (address : Word) : Bool :=
  window.entry ≤ address && address.toNat < window.stop

end Window

end Mos6502
