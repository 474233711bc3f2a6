/-!
# JSON values

Documents as trees.  Natural numbers are kept as such; any other number keeps its text,
because no use of it is made here.  An object is the list of its members in their order.
-/

namespace Mos6502

/-- A JSON value. -/
inductive Json where
  | null
  | bool (value : Bool)
  /-- A natural number, written with digits only. -/
  | natural (value : Nat)
  /-- Any other number, as it is written. -/
  | number (text : String)
  | string (value : String)
  | array (items : List Json)
  | object (members : List (String × Json))
deriving Repr, Inhabited

namespace Json

/-- The member of an object under a key. -/
def get? (document : Json) (key : String) : Option Json :=
  match document with
  | .object members => members.lookup key
  | _ => none

/-- A truth value. -/
def bool? : Json → Option Bool
  | .bool value => some value
  | _ => none

/-- A natural number of at most the given size. -/
def natural? (largest : Nat) : Json → Option Nat
  | .natural value => if value ≤ largest then some value else none
  | _ => none

/-- A text. -/
def string? : Json → Option String
  | .string value => some value
  | _ => none

end Json

end Mos6502
