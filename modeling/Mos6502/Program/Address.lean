import Mos6502.Text.Blank
import Mos6502.Text.Numeral
import Mos6502.Text.Quoted
import Mos6502.Word

/-!
# Written addresses

An address is written in decimal, or in hexadecimal after `$`, `0x` or `0X`; blanks around
it do not matter.
-/

namespace Mos6502.Program

/-- Why a text is no address: the text without the blanks around it, and the cause. -/
structure AddressError where
  text : String
  cause : Text.NumeralError
deriving DecidableEq, Repr

/-- The text of an error. -/
def AddressError.message (error : AddressError) : String :=
  "invalid address " ++ Text.quote error.text ++ ": " ++ error.cause.message

namespace Address

/-- The largest address. -/
def largest : Nat := 65535

/-- The number that a text without surrounding blanks denotes. -/
def readNumber : List Char → Except Text.NumeralError Nat
  | '0' :: 'x' :: digits => Text.Numeral.read 16 largest digits
  | '0' :: 'X' :: digits => Text.Numeral.read 16 largest digits
  | '$' :: digits => Text.Numeral.read 16 largest digits
  | digits => Text.Numeral.read 10 largest digits

/-- The address that a text denotes. -/
def parse (text : String) : Except AddressError Word :=
  let trimmed := Text.trim text.toList
  match readNumber trimmed with
  | .ok value => .ok (UInt16.ofNat value)
  | .error cause => .error ⟨String.ofList trimmed, cause⟩

end Address

end Mos6502.Program
