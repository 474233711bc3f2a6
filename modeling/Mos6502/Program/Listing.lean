import Mos6502.Text.Blank
import Mos6502.Text.Numeral
import Mos6502.Text.Quoted
import Mos6502.Word

/-!
# Hexadecimal listings

A program written as hexadecimal bytes between blanks, each alone or after `$` or `0x`.  A
semicolon begins a comment that goes to the end of the line.  The first word that is no
byte is the one that is reported.
-/

namespace Mos6502.Program

/-- Why a text is no listing: the first word that is no byte, its line, and the cause. -/
structure ListingError where
  /-- The line of the word, counted from one. -/
  line : Nat
  word : String
  cause : Text.NumeralError
deriving DecidableEq, Repr

namespace ListingError

/-- What is wrong and where. -/
def place (error : ListingError) : String :=
  "line " ++ toString error.line ++ ": invalid hex byte " ++ Text.quote error.word

/-- The text of an error with its cause. -/
def message (error : ListingError) : String :=
  error.place ++ ": " ++ error.cause.message

end ListingError

namespace Listing

/-- The digits of a word, without the sign for hexadecimal. -/
def digits : List Char → List Char
  | '0' :: 'x' :: digits => digits
  | '$' :: digits => digits
  | digits => digits

/-- The byte that a word denotes. -/
def readByte (word : List Char) : Except Text.NumeralError Byte :=
  UInt8.ofNat <$> Text.Numeral.read 16 255 (digits word)

/-- The words of a line before its comment. -/
def code (line : List Char) : List (List Char) :=
  Text.words (line.takeWhile (· != ';'))

/-- All words of a text with their lines, in reading order. -/
def words (text : List Char) : List (Nat × List Char) :=
  (Text.lines text).zipIdx.flatMap fun (line, index) =>
    (code line).map fun word => (index + 1, word)

/-- The byte of a word, or an error at its line. -/
def readWord : Nat × List Char → Except ListingError Byte
  | (line, word) => (readByte word).mapError fun cause => ⟨line, String.ofList word, cause⟩

/-- The bytes of a listing. -/
def parse (text : String) : Except ListingError (List Byte) :=
  (words text.toList).mapM readWord

end Listing

end Mos6502.Program
