/-!
# Numerals

Natural numbers up to a largest one, written in digits of a base of at most 36.  One plus
sign may stand in front.  The digits are read from left to right, and the first problem is
the one that is reported: a character that is no digit, or a value that has grown too large.
-/

namespace Mos6502.Text

/-- Why a text is no numeral. -/
inductive NumeralError where
  /-- There is nothing to read. -/
  | empty
  /-- A character is no digit of the base, or a sign stands alone. -/
  | invalidDigit
  /-- The number is larger than the largest allowed. -/
  | tooLarge
deriving DecidableEq, Repr

/-- The text of a cause. -/
def NumeralError.message : NumeralError → String
  | .empty => "cannot parse integer from empty string"
  | .invalidDigit => "invalid digit found in string"
  | .tooLarge => "number too large to fit in target type"

namespace Numeral

/-- The value of a character as a digit or as a letter of either case, if it has one. -/
def value? (c : Char) : Option Nat :=
  if '0' ≤ c ∧ c ≤ '9' then some (c.toNat - 48)
  else if 'a' ≤ c ∧ c ≤ 'z' then some (c.toNat - 87)
  else if 'A' ≤ c ∧ c ≤ 'Z' then some (c.toNat - 55)
  else none

/-- The value of a character as a digit of a base. -/
def digit? (base : Nat) (c : Char) : Option Nat :=
  (value? c).filter (· < base)

/-- Digits are read on from a number that has been read so far. -/
def readDigits (base largest : Nat) : (soFar : Nat) → List Char → Except NumeralError Nat
  | soFar, [] => .ok soFar
  | soFar, c :: rest =>
      match digit? base c with
      | none => .error .invalidDigit
      | some digit =>
          if soFar * base + digit ≤ largest then
            readDigits base largest (soFar * base + digit) rest
          else
            .error .tooLarge

/-- The number that a text denotes in a base. -/
def read (base largest : Nat) : List Char → Except NumeralError Nat
  | [] => .error .empty
  | ['+'] => .error .invalidDigit
  | '+' :: digits => readDigits base largest 0 digits
  | digits => readDigits base largest 0 digits

end Numeral

end Mos6502.Text
