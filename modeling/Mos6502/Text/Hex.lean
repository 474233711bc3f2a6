/-!
# Hexadecimal text

Numbers are shown with a fixed number of upper-case hexadecimal digits.  The digits are
a function of the place, so that every lemma about them is an induction on the width.
-/

namespace Mos6502.Text.Hex

/-- The upper-case digit with value `n`, for `n < 16`. -/
def digit (n : Nat) : Char :=
  if n < 10 then Char.ofNat (48 + n) else Char.ofNat (55 + n)

/-- The last `width` hexadecimal digits of `n`, most significant first. -/
def digits : (width n : Nat) → List Char
  | 0, _ => []
  | width + 1, n => digits width (n / 16) ++ [digit (n % 16)]

/-- The last `width` hexadecimal digits of `n` as text. -/
def text (width n : Nat) : String :=
  String.ofList (digits width n)

@[simp]
theorem toList_text (width n : Nat) : (text width n).toList = digits width n :=
  String.toList_ofList

end Mos6502.Text.Hex
