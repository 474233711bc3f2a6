/-!
# Blanks, words and lines

A blank is a character with the White_Space property.  Words are what stands between
blanks, and lines what stands between line feeds, a carriage return right before a line
feed belonging to the line end.
-/

namespace Mos6502.Text

/-- The code points with the White_Space property, as ascending ranges with both ends. -/
def blanks : List (Nat × Nat) :=
  [(0x09, 0x0D), (0x20, 0x20), (0x85, 0x85), (0xA0, 0xA0), (0x1680, 0x1680), (0x2000, 0x200A),
    (0x2028, 0x2029), (0x202F, 0x202F), (0x205F, 0x205F), (0x3000, 0x3000)]

/-- Whether a character is a blank. -/
def isBlank (c : Char) : Bool :=
  blanks.any fun range => range.1 ≤ c.toNat && c.toNat ≤ range.2

/-- A text without the blanks at its two ends. -/
def trim (text : List Char) : List Char :=
  ((text.dropWhile isBlank).reverse.dropWhile isBlank).reverse

/-- A character is put in front of the first piece. -/
def addToFirst (c : Char) : List (List Char) → List (List Char)
  | [] => [[c]]
  | piece :: rest => (c :: piece) :: rest

/-- The pieces of a text between the characters of a class; there is one piece more than
there are such characters. -/
def pieces (separates : Char → Bool) (text : List Char) : List (List Char) :=
  text.foldr (fun c found => if separates c then [] :: found else addToFirst c found) [[]]

/-- The words of a text: the pieces between blanks that are not empty. -/
def words (text : List Char) : List (List Char) :=
  (pieces isBlank text).filter fun word => !word.isEmpty

/-- A line without the carriage return that belongs to its end. -/
def dropReturn (line : List Char) : List Char :=
  if line.getLast? = some '\r' then line.dropLast else line

/-- The lines of a text.  Each but the last has an end, and a last line without characters
is no line. -/
def lines (text : List Char) : List (List Char) :=
  let found := pieces (· == '\n') text
  found.dropLast.map dropReturn ++ found.getLast?.toList.filter fun line => !line.isEmpty

/-! ## Small facts -/

@[simp]
theorem pieces_nil (separates : Char → Bool) : pieces separates [] = [[]] := rfl

theorem pieces_cons_of_pos {separates : Char → Bool} {c : Char} (text : List Char)
    (hc : separates c = true) : pieces separates (c :: text) = [] :: pieces separates text := by
  simp [pieces, hc]

theorem pieces_cons_of_neg {separates : Char → Bool} {c : Char} (text : List Char)
    (hc : separates c = false) :
    pieces separates (c :: text) = addToFirst c (pieces separates text) := by
  simp [pieces, hc]

end Mos6502.Text
