import Mos6502.Json.Basic
import Mos6502.Text.Hex

/-!
# Written JSON

The layout of a document over several lines: every item and every member has a line of its
own, indented by two spaces for each level, and an empty array or object stays closed.
-/

namespace Mos6502.Json

/-- How a written text shows one character. -/
def escape (c : Char) : List Char :=
  if c = '"' then ['\\', '"']
  else if c = '\\' then ['\\', '\\']
  else if c = '\n' then ['\\', 'n']
  else if c = '\r' then ['\\', 'r']
  else if c = '\t' then ['\\', 't']
  else if c = '\x08' then ['\\', 'b']
  else if c = '\x0c' then ['\\', 'f']
  else if c.toNat < 32 then ['\\', 'u'] ++ (Text.Hex.digits 4 c.toNat).map Char.toLower
  else [c]

/-- A written text, in double quotes. -/
def writeString (text : String) : String :=
  String.ofList ('"' :: text.toList.flatMap escape ++ ['"'])

/-- A line end and the indentation of a level. -/
def newLine (level : Nat) : String :=
  String.ofList ('\n' :: List.replicate (2 * level) ' ')

mutual

/-- A document is written at the end of a text, at a level of indentation. -/
def write (level : Nat) (out : String) : Json → String
  | .null => out ++ "null"
  | .bool value => out ++ (if value then "true" else "false")
  | .natural value => out ++ toString value
  | .number text => out ++ text
  | .string value => out ++ writeString value
  | .array [] => out ++ "[]"
  | .array (item :: items) =>
      let out := write (level + 1) (out ++ "[" ++ newLine (level + 1)) item
      writeItems (level + 1) out items ++ newLine level ++ "]"
  | .object [] => out ++ "\x7b\x7d"
  | .object ((key, value) :: members) =>
      let out := out ++ "\x7b" ++ newLine (level + 1) ++ writeString key ++ ": "
      let out := write (level + 1) out value
      writeMembers (level + 1) out members ++ newLine level ++ "\x7d"

/-- The items of an array after the first. -/
def writeItems (level : Nat) (out : String) : List Json → String
  | [] => out
  | item :: items =>
      writeItems level (write level (out ++ "," ++ newLine level) item) items

/-- The members of an object after the first. -/
def writeMembers (level : Nat) (out : String) : List (String × Json) → String
  | [] => out
  | (key, value) :: members =>
      let out := out ++ "," ++ newLine level ++ writeString key ++ ": "
      writeMembers level (write level out value) members

end

/-- The written form of a document. -/
def pretty (document : Json) : String :=
  write 0 "" document

end Mos6502.Json
