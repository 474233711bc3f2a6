import Mos6502.Program.Listing
import Mos6502.Proofs.Text.Splitting

/-!
# The lines of a listing

What counts of a line are its words before the comment, so a text is known by those of all its
lines (`codes`), and its words with their line numbers follow from these (`words_eq_numbered`).

`codes` has one equation for each thing that a text can begin with: a line end, a blank, a comment,
a word.  Two texts may also differ in a way that shows in no text that ends with them (`Alike`); a
comment is `Alike` nothing.
-/

namespace Mos6502.Program.Listing

open Text

/-- The end of a text, or a line end. -/
inductive AtLineEnd : List Char → Prop
  | nothing : AtLineEnd []
  | lineFeed (more : List Char) : AtLineEnd ('\n' :: more)
  | returnAndFeed (more : List Char) : AtLineEnd ('\r' :: '\n' :: more)

/-! ## One line -/

theorem code_nil : code [] = [] := rfl

theorem code_cons_of_isBlank {c : Char} (hc : isBlank c = true) (line : List Char) :
    code (c :: line) = code line := by
  have hne : c ≠ ';' := by
    rintro rfl
    exact absurd hc (by decide)
  have hkept : (c != ';') = true := bne_iff_ne.mpr hne
  rw [code, List.takeWhile_cons_of_pos (p := (· != ';')) hkept, words_cons_of_isBlank hc, code]

theorem code_append_word {word line : List Char} (hne : word ≠ [])
    (hword : ∀ c ∈ word, isBlank c = false ∧ c ≠ ';')
    (hend : ∀ c ∈ line.head?, isBlank c = true ∨ c = ';') :
    code (word ++ line) = word :: code line := by
  have hkept : ∀ c ∈ word, (c != ';') = true := fun c hc => bne_iff_ne.mpr (hword c hc).2
  rw [code, List.takeWhile_append_of_pos hkept,
    words_append hne fun c hc => (hword c hc).1, code]
  -- what is left in front of the comment begins with a blank or is empty
  intro c hc
  cases line with
  | nil => cases hc
  | cons d line =>
      by_cases hd : d = ';'
      · simp [hd] at hc
      · obtain rfl : d = c := by simpa [hd] using hc
        exact (hend d rfl).resolve_right hd

theorem code_of_notMem {line : List Char} (hline : ';' ∉ line) : code line = Text.words line := by
  have hkept : ∀ c ∈ line, (c != ';') = true := by
    intro c hc
    rw [bne_iff_ne]
    rintro rfl
    exact hline hc
  rw [code, List.takeWhile_eq_self_iff.mpr hkept]

theorem code_append_comment (line comment : List Char) :
    code (line ++ ';' :: comment) = code line := by
  have hnone : (';' :: comment).takeWhile (· != ';') = [] := rfl
  rw [code, List.takeWhile_append, hnone, List.append_nil]
  split
  case isTrue hwhole => rw [code, (List.takeWhile_prefix _).eq_of_length hwhole]
  case isFalse => rfl

theorem code_append_return (line : List Char) : code (line ++ ['\r']) = code line := by
  rw [code, List.takeWhile_append]
  split
  case isTrue hwhole =>
    have hreturn : ['\r'].takeWhile (· != ';') = ['\r'] := rfl
    rw [hreturn, words_append_singleton (by decide), code,
      (List.takeWhile_prefix _).eq_of_length hwhole]
  case isFalse => rfl

theorem code_dropReturn (line : List Char) : code (dropReturn line) = code line := by
  unfold dropReturn
  split
  case isTrue hlast =>
    have hline : line = line.dropLast ++ ['\r'] := (List.dropLast_append_getLast? _ hlast).symm
    conv_rhs => rw [hline, code_append_return]
  case isFalse => rfl

/-! ## All lines -/

/-- The words of each line of a text. -/
def codes (text : List Char) : List (List (List Char)) :=
  (pieces (· == '\n') text).map code

/-- Words with the numbers of their lines, counted from a first one. -/
def numbered : (line : Nat) → List (List (List Char)) → List (Nat × List Char)
  | _, [] => []
  | line, found :: rest => found.map (fun word => (line, word)) ++ numbered (line + 1) rest

theorem map_snd_numbered (line : Nat) (found : List (List (List Char))) :
    (numbered line found).map Prod.snd = found.flatten := by
  induction found generalizing line with
  | nil => rfl
  | cons first rest ih =>
      rw [numbered, List.map_append, ih, List.map_map, List.flatten_cons]
      exact congrArg (· ++ rest.flatten) (List.map_id first)

theorem numbered_append_nil (line : Nat) (found : List (List (List Char))) :
    numbered line (found ++ [[]]) = numbered line found := by
  induction found generalizing line with
  | nil => rfl
  | cons first rest ih => rw [List.cons_append, numbered, numbered, ih]

theorem flatMap_zipIdx_code (found : List (List Char)) (index : Nat) :
    ((found.zipIdx index).flatMap fun (line, index) =>
        (code line).map fun word => (index + 1, word)) =
      numbered (index + 1) (found.map code) := by
  induction found generalizing index with
  | nil => rfl
  | cons line rest ih => rw [List.zipIdx_cons, List.flatMap_cons, ih, List.map_cons, numbered]

/-- The last piece of a text counts as a line without words if it is empty. -/
theorem words_eq_numbered (text : List Char) : words text = numbered 1 (codes text) := by
  have hwords : words text = numbered 1 ((lines text).map code) :=
    flatMap_zipIdx_code (lines text) 0
  have hne : pieces (· == '\n') text ≠ [] := by
    obtain ⟨first, rest, hpieces⟩ := exists_pieces_eq_cons (· == '\n') text
    exact hpieces ▸ List.cons_ne_nil first rest
  obtain ⟨before, last, hpieces⟩ : ∃ before last, pieces (· == '\n') text = before ++ [last] :=
    ⟨_, _, (List.dropLast_concat_getLast hne).symm⟩
  have hbefore : (before.map dropReturn).map code = before.map code := by
    rw [List.map_map]
    exact List.map_congr_left fun line _ => code_dropReturn line
  rw [hwords, codes, lines, hpieces, List.dropLast_concat, List.getLast?_concat, List.map_append,
    List.map_append, hbefore, List.map_singleton]
  cases last with
  | nil =>
      rw [code_nil, numbered_append_nil]
      exact congrArg (numbered 1) (List.append_nil _)
  | cons c last => rfl

/-! ## The beginning of a text -/

theorem pieces_lineEnd (text : List Char) :
    pieces (· == '\n') ('\n' :: text) = [] :: pieces (· == '\n') text :=
  pieces_cons_of_pos text rfl

theorem pieces_cons_of_ne {c : Char} (hne : c ≠ '\n') {text first : List Char}
    {rest : List (List Char)} (htext : pieces (· == '\n') text = first :: rest) :
    pieces (· == '\n') (c :: text) = (c :: first) :: rest := by
  have hc : ∀ d ∈ [c], (d == '\n') = false := by simpa using hne
  exact pieces_append_of_forall hc htext

theorem exists_codes_eq_cons (text : List Char) :
    ∃ first rest, pieces (· == '\n') text = first :: rest ∧
      codes text = code first :: rest.map code := by
  obtain ⟨first, rest, hpieces⟩ := exists_pieces_eq_cons (· == '\n') text
  exact ⟨first, rest, hpieces, by rw [codes, hpieces, List.map_cons]⟩

theorem codes_lineEnd (text : List Char) : codes ('\n' :: text) = [] :: codes text := by
  rw [codes, pieces_lineEnd, List.map_cons, code_nil, codes]

theorem codes_append_lineEnd (front back : List Char) :
    codes (front ++ '\n' :: back) = codes front ++ codes back := by
  rw [codes, pieces_append_cons (by decide), List.map_append, codes, codes]

theorem codes_blank {c : Char} (hblank : isBlank c = true) (hne : c ≠ '\n') (text : List Char) :
    codes (c :: text) = codes text := by
  obtain ⟨first, rest, hpieces, hcodes⟩ := exists_codes_eq_cons text
  rw [codes, pieces_cons_of_ne hne hpieces, hcodes, List.map_cons,
    code_cons_of_isBlank hblank]

/-- The first piece of a text begins as the text does, or it is empty. -/
theorem mem_head?_of_pieces {text first : List Char} {rest : List (List Char)}
    (hpieces : pieces (· == '\n') text = first :: rest) {c : Char} (hc : c ∈ first.head?) :
    c ∈ text.head? := by
  cases text with
  | nil =>
      cases hpieces
      cases hc
  | cons d text =>
      by_cases hd : d = '\n'
      · subst hd
        rw [pieces_lineEnd] at hpieces
        cases hpieces
        cases hc
      · obtain ⟨found, more, hfound⟩ := exists_pieces_eq_cons (· == '\n') text
        rw [pieces_cons_of_ne hd hfound] at hpieces
        cases hpieces
        exact hc

theorem numbered_codes_word {word text : List Char} (hne : word ≠ [])
    (hword : ∀ c ∈ word, isBlank c = false ∧ c ≠ ';')
    (hend : ∀ c ∈ text.head?, isBlank c = true ∨ c = ';') (line : Nat) :
    numbered line (codes (word ++ text)) = (line, word) :: numbered line (codes text) := by
  have hkept : ∀ c ∈ word, (c == '\n') = false := by
    intro c hc
    refine beq_false_of_ne ?_
    rintro rfl
    exact absurd (hword _ hc).1 (by decide)
  obtain ⟨first, rest, hpieces, hcodes⟩ := exists_codes_eq_cons text
  have hcode : code (word ++ first) = word :: code first :=
    code_append_word hne hword fun c hc => hend c (mem_head?_of_pieces hpieces hc)
  rw [codes, pieces_append_of_forall hkept hpieces, List.map_cons, hcode, hcodes]
  rfl

/-! ## Texts that read alike -/

/-- Two texts whose lines have the same words, also as the ends of any text. -/
def Alike (text other : List Char) : Prop :=
  ∃ first rest otherFirst otherRest,
    pieces (· == '\n') text = first :: rest ∧
    pieces (· == '\n') other = otherFirst :: otherRest ∧
    (∀ line, code (line ++ first) = code (line ++ otherFirst)) ∧
    rest.map code = otherRest.map code

theorem Alike.cons {text other : List Char} (halike : Alike text other) (c : Char) :
    Alike (c :: text) (c :: other) := by
  obtain ⟨first, rest, otherFirst, otherRest, hfirst, hother, hcode, hrest⟩ := halike
  by_cases hc : c = '\n'
  · subst hc
    have hwhole : code first = code otherFirst := hcode []
    refine ⟨[], _, [], _, pieces_lineEnd text, pieces_lineEnd other, fun _ => rfl, ?_⟩
    rw [hfirst, hother, List.map_cons, List.map_cons, hwhole, hrest]
  · refine ⟨c :: first, rest, c :: otherFirst, otherRest, pieces_cons_of_ne hc hfirst,
      pieces_cons_of_ne hc hother, fun line => ?_, hrest⟩
    simpa using hcode (line ++ [c])

theorem Alike.append {text other : List Char} (halike : Alike text other) (front : List Char) :
    Alike (front ++ text) (front ++ other) := by
  induction front with
  | nil => exact halike
  | cons c front ih => exact ih.cons c

theorem Alike.codes_eq {text other : List Char} (halike : Alike text other) :
    codes text = codes other := by
  obtain ⟨first, rest, otherFirst, otherRest, hfirst, hother, hcode, hrest⟩ := halike
  have hwhole : code first = code otherFirst := hcode []
  rw [codes, codes, hfirst, hother, List.map_cons, List.map_cons, hwhole, hrest]

theorem alike_return : Alike ['\r'] [] :=
  ⟨['\r'], [], [], [], rfl, rfl, fun line => by rw [code_append_return, List.append_nil], rfl⟩

/-- At a line end there is nothing that could be part of a word. -/
theorem AtLineEnd.exists_pieces {text : List Char} (hend : AtLineEnd text) :
    ∃ first rest, pieces (· == '\n') text = first :: rest ∧
      ∀ line, code (line ++ first) = code line := by
  cases hend with
  | nothing => exact ⟨[], [], rfl, fun line => by rw [List.append_nil]⟩
  | lineFeed more =>
      exact ⟨[], _, pieces_lineEnd more, fun line => by rw [List.append_nil]⟩
  | returnAndFeed more => exact ⟨['\r'], pieces (· == '\n') more, rfl, code_append_return⟩

theorem alike_comment {comment text : List Char} (hcomment : '\n' ∉ comment)
    (hend : AtLineEnd text) : Alike (';' :: (comment ++ text)) text := by
  obtain ⟨first, rest, hpieces, hfirst⟩ := hend.exists_pieces
  have hkept : ∀ c ∈ ';' :: comment, (c == '\n') = false := by
    intro c hc
    refine beq_false_of_ne ?_
    rintro rfl
    rcases List.mem_cons.mp hc with hc | hc
    · exact absurd hc (by decide)
    · exact hcomment hc
  refine ⟨_, rest, first, rest, pieces_append_of_forall hkept hpieces, hpieces, fun line => ?_, rfl⟩
  rw [List.cons_append, code_append_comment, hfirst]

end Mos6502.Program.Listing
