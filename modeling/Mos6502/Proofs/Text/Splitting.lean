import Mathlib.Data.List.Basic
import Mathlib.Data.List.TakeWhile
import Mos6502.Text.Blank

/-!
# How a text falls apart

The pieces between separators are put together from those of two parts of the text
(`pieces_append_cons`, `pieces_append_of_forall`).  Everything about words follows from two
equations: blanks separate (`words_append_cons`), and characters without a blank stay together
(`words_of_forall`).  What was put together with separators falls apart as it was
(`pieces_intercalate`, `words_intercalate`, `lines_intercalate`).

A text without the blanks at its two ends is known by what it is (`Trimmed`), and `trim` finds it
(`trimmed_iff`).
-/

namespace Mos6502.Text

/-! ## Pieces -/

section Pieces

variable {separates : Char → Bool}

theorem exists_pieces_eq_cons (separates : Char → Bool) (text : List Char) :
    ∃ first rest, pieces separates text = first :: rest := by
  cases text with
  | nil => exact ⟨[], [], rfl⟩
  | cons c text =>
      cases hc : separates c with
      | true => exact ⟨[], _, pieces_cons_of_pos text hc⟩
      | false =>
          rw [pieces_cons_of_neg text hc]
          cases pieces separates text with
          | nil => exact ⟨[c], [], rfl⟩
          | cons first rest => exact ⟨c :: first, rest, rfl⟩

/-- Characters that do not separate join the first piece. -/
theorem pieces_append_of_forall {front text first : List Char} {rest : List (List Char)}
    (hfront : ∀ c ∈ front, separates c = false) (htext : pieces separates text = first :: rest) :
    pieces separates (front ++ text) = (front ++ first) :: rest := by
  induction front with
  | nil => exact htext
  | cons c front ih =>
      obtain ⟨hc, hfront⟩ := List.forall_mem_cons.mp hfront
      rw [List.cons_append, pieces_cons_of_neg _ hc, ih hfront]
      rfl

/-- A separator cuts the text in two. -/
theorem pieces_append_cons {c : Char} (hc : separates c = true) (front back : List Char) :
    pieces separates (front ++ c :: back) = pieces separates front ++ pieces separates back := by
  induction front with
  | nil => exact pieces_cons_of_pos back hc
  | cons d front ih =>
      cases hd : separates d with
      | true =>
          rw [List.cons_append, pieces_cons_of_pos _ hd, pieces_cons_of_pos _ hd, ih]
          rfl
      | false =>
          obtain ⟨first, rest, hfirst⟩ := exists_pieces_eq_cons separates front
          rw [List.cons_append, pieces_cons_of_neg _ hd, pieces_cons_of_neg _ hd, ih, hfirst]
          rfl

theorem pieces_of_forall {text : List Char} (htext : ∀ c ∈ text, separates c = false) :
    pieces separates text = [text] := by
  simpa using pieces_append_of_forall htext (pieces_nil separates)

/-- Texts put together with a separator between them fall apart into them. -/
theorem pieces_intercalate {c : Char} (hc : separates c = true) {parts : List (List Char)}
    (hne : parts ≠ []) (hparts : ∀ part ∈ parts, ∀ d ∈ part, separates d = false) :
    pieces separates ([c].intercalate parts) = parts := by
  induction parts with
  | nil => exact absurd rfl hne
  | cons part parts ih =>
      obtain ⟨hpart, hparts⟩ := List.forall_mem_cons.mp hparts
      cases parts with
      | nil => rw [List.intercalate_singleton, pieces_of_forall hpart]
      | cons next parts =>
          rw [List.intercalate_cons_cons, List.append_assoc, List.singleton_append,
            pieces_append_cons hc, pieces_of_forall hpart, ih (List.cons_ne_nil _ _) hparts]
          rfl

end Pieces

/-! ## Words -/

@[simp]
theorem words_nil : words [] = [] := rfl

theorem words_append_cons {c : Char} (hc : isBlank c = true) (front back : List Char) :
    words (front ++ c :: back) = words front ++ words back := by
  rw [words, pieces_append_cons hc, List.filter_append, words, words]

theorem words_cons_of_isBlank {c : Char} (hc : isBlank c = true) (text : List Char) :
    words (c :: text) = words text := by
  simpa using words_append_cons hc [] text

theorem words_append_singleton {c : Char} (hc : isBlank c = true) (text : List Char) :
    words (text ++ [c]) = words text := by
  simpa using words_append_cons hc text []

/-- Characters without a blank are one word. -/
theorem words_of_forall {word : List Char} (hne : word ≠ [])
    (hword : ∀ c ∈ word, isBlank c = false) : words word = [word] := by
  rw [words, pieces_of_forall hword]
  simp [hne]

/-- A word stands alone in front of a blank and at the end of a text. -/
theorem words_append {word text : List Char} (hne : word ≠ [])
    (hword : ∀ c ∈ word, isBlank c = false) (htext : ∀ c ∈ text.head?, isBlank c = true) :
    words (word ++ text) = word :: words text := by
  cases text with
  | nil => rw [List.append_nil, words_of_forall hne hword, words_nil]
  | cons c text =>
      have hc : isBlank c = true := htext c rfl
      rw [words_append_cons hc, words_of_forall hne hword, words_cons_of_isBlank hc]
      rfl

theorem words_intercalate {c : Char} (hc : isBlank c = true) {parts : List (List Char)}
    (hparts : ∀ part ∈ parts, part ≠ [] ∧ ∀ d ∈ part, isBlank d = false) :
    words ([c].intercalate parts) = parts := by
  rcases eq_or_ne parts [] with rfl | hne
  · rfl
  · rw [words, pieces_intercalate hc hne fun part hpart => (hparts part hpart).2,
      List.filter_eq_self]
    intro part hpart
    simpa using (hparts part hpart).1

/-! ## Lines -/

theorem lines_intercalate {parts : List (List Char)}
    (hparts : ∀ part ∈ parts, part ≠ [] ∧ '\n' ∉ part ∧ '\r' ∉ part) :
    lines (['\n'].intercalate parts) = parts := by
  rcases eq_or_ne parts [] with rfl | hne
  · rfl
  have hpieces : pieces (· == '\n') (['\n'].intercalate parts) = parts := by
    refine pieces_intercalate rfl hne fun part hpart d hd => beq_false_of_ne ?_
    rintro rfl
    exact (hparts part hpart).2.1 hd
  obtain ⟨before, last, rfl⟩ : ∃ before last, parts = before ++ [last] :=
    ⟨_, _, (List.dropLast_concat_getLast hne).symm⟩
  have hbefore : before.map dropReturn = before := by
    refine (List.map_congr_left fun part hpart => ?_).trans (List.map_id before)
    have hreturn : part.getLast? ≠ some '\r' := fun hlast =>
      (hparts part (List.mem_append_left _ hpart)).2.2 (List.mem_of_getLast? hlast)
    rw [dropReturn, if_neg hreturn, id]
  have hlast : last ≠ [] := (hparts last (by simp)).1
  rw [lines, hpieces, List.dropLast_concat, List.getLast?_concat, hbefore]
  simp [hlast]

/-! ## The text between blanks -/

/-- A text stands between blanks only and has none at its ends. -/
def Trimmed (text inner : List Char) : Prop :=
  ∃ front back, text = front ++ inner ++ back ∧
    (∀ c ∈ front, isBlank c = true) ∧ (∀ c ∈ back, isBlank c = true) ∧
    (∀ c ∈ inner.head?, isBlank c = false) ∧ ∀ c ∈ inner.getLast?, isBlank c = false

theorem dropWhile_append_of_head {front inner : List Char} (hfront : ∀ c ∈ front, isBlank c = true)
    (hinner : ∀ c ∈ inner.head?, isBlank c = false) :
    (front ++ inner).dropWhile isBlank = inner := by
  rw [List.dropWhile_append_of_pos hfront]
  cases inner with
  | nil => rfl
  | cons c inner => simp [hinner c rfl]

theorem Trimmed.trim_eq {text inner : List Char} (htrimmed : Trimmed text inner) :
    trim text = inner := by
  obtain ⟨front, back, rfl, hfront, hback, hhead, hlast⟩ := htrimmed
  -- blanks only are all dropped at the front, and nothing is left for the back
  rcases eq_or_ne inner [] with rfl | hne
  · have hall : ∀ c ∈ front ++ back, isBlank c = true := by
      intro c hc
      rcases List.mem_append.mp hc with hc | hc
      exacts [hfront c hc, hback c hc]
    rw [List.append_nil, trim, List.dropWhile_eq_nil_iff.mpr hall]
    rfl
  · have hfirst : ∀ c ∈ (inner ++ back).head?, isBlank c = false := by
      rwa [List.head?_append_of_ne_nil _ hne]
    have hreversed : ∀ c ∈ back.reverse, isBlank c = true := by simpa using hback
    have hend : ∀ c ∈ inner.reverse.head?, isBlank c = false := by
      rwa [List.head?_reverse]
    rw [trim, List.append_assoc, dropWhile_append_of_head hfront hfirst, List.reverse_append,
      dropWhile_append_of_head hreversed hend, List.reverse_reverse]

theorem isBlank_of_mem_head_dropWhile (text : List Char) {c : Char}
    (hc : c ∈ (text.dropWhile isBlank).head?) : isBlank c = false := by
  have hhead := List.head?_dropWhile_not isBlank text
  rw [Option.mem_def.mp hc] at hhead
  simpa using hhead

theorem trimmed_trim (text : List Char) : Trimmed text (trim text) := by
  have hfront : text = text.takeWhile isBlank ++ text.dropWhile isBlank :=
    List.takeWhile_append_dropWhile.symm
  generalize hrest : text.dropWhile isBlank = rest at hfront
  have hback : rest = trim text ++ (rest.reverse.takeWhile isBlank).reverse := by
    rw [trim, hrest, ← List.reverse_append, List.takeWhile_append_dropWhile, List.reverse_reverse]
  refine ⟨_, _, by rw [List.append_assoc, ← hback]; exact hfront,
    fun c hc => List.mem_takeWhile_imp hc,
    fun c hc => List.mem_takeWhile_imp (List.mem_reverse.mp hc), fun c hc => ?_, fun c hc => ?_⟩
  · -- the first character is the first that is left of the text
    refine isBlank_of_mem_head_dropWhile text ?_
    rw [hrest, hback]
    exact List.mem_head?_append_of_mem_head? hc
  · refine isBlank_of_mem_head_dropWhile rest.reverse ?_
    rwa [trim, hrest, List.getLast?_reverse] at hc

/-- Every text has one part that stands between its outer blanks. -/
theorem trimmed_iff {text inner : List Char} : Trimmed text inner ↔ trim text = inner := by
  constructor
  · exact Trimmed.trim_eq
  · rintro rfl
    exact trimmed_trim text

end Mos6502.Text
