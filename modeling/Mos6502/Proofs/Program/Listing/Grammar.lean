import Mos6502.Proofs.Program.Listing.Lines
import Mos6502.Proofs.Text.Numeral

/-!
# The grammar of listings

`Scans` says how a listing is written: words in between blanks, line ends and comments, each word
with the number of its line.  A word is the one place where something has to be read, and
`Stands` and `Unreadable` say what a word stands for and why it stands for nothing.

The rules of the grammar are the equations of `codes`, so a text is scanned in exactly one way
(`scans_iff`).  The bytes are those that the words stand for, and the error is about the first word
that stands for none (`parse_eq_ok_iff`, `parse_eq_error_iff`).
-/

namespace Mos6502.Program.Listing

open Text

/-! ## Words and what they stand for -/

/-- A word and its numeral: what follows the mark for hexadecimal, or all of it without a mark. -/
inductive Marked : (word numeral : List Char) → Prop
  | zeroX (numeral : List Char) : Marked ('0' :: 'x' :: numeral) numeral
  | dollar (numeral : List Char) : Marked ('$' :: numeral) numeral
  | unmarked {word : List Char} (hzeroX : ∀ rest, word ≠ '0' :: 'x' :: rest)
      (hdollar : ∀ rest, word ≠ '$' :: rest) : Marked word word

/-- A word stands for a byte. -/
def Stands (word : List Char) (byte : Byte) : Prop :=
  ∃ numeral, Marked word numeral ∧ Numeral.Spells 16 numeral byte.toNat

/-- A word stands for no byte, for a cause. -/
def Unreadable (word : List Char) (cause : NumeralError) : Prop :=
  ∃ numeral, Marked word numeral ∧ Numeral.Refuses 16 255 numeral cause

/-! ## Texts -/

/-- The words of a text that begins on a given line, each with its line.  A carriage return is a
blank, so a line may end with one. -/
inductive Scans : (line : Nat) → (text : List Char) → (entries : List (Nat × List Char)) → Prop
  | nothing (line : Nat) : Scans line [] []
  | lineEnd {line : Nat} {text : List Char} {entries : List (Nat × List Char)}
      (hrest : Scans (line + 1) text entries) : Scans line ('\n' :: text) entries
  | blank {line : Nat} {c : Char} {text : List Char} {entries : List (Nat × List Char)}
      (hblank : isBlank c = true) (hne : c ≠ '\n') (hrest : Scans line text entries) :
      Scans line (c :: text) entries
  | comment {line : Nat} {comment text : List Char} {entries : List (Nat × List Char)}
      (hcomment : '\n' ∉ comment) (hend : AtLineEnd text) (hrest : Scans line text entries) :
      Scans line (';' :: (comment ++ text)) entries
  | word {line : Nat} {word text : List Char} {entries : List (Nat × List Char)}
      (hne : word ≠ []) (hword : ∀ c ∈ word, isBlank c = false ∧ c ≠ ';')
      (hend : ∀ c ∈ text.head?, isBlank c = true ∨ c = ';') (hrest : Scans line text entries) :
      Scans line (word ++ text) ((line, word) :: entries)

/-! ## Reading one word -/

theorem marked_iff {word numeral : List Char} : Marked word numeral ↔ digits word = numeral := by
  constructor
  · rintro (_ | _ | ⟨hzeroX, hdollar⟩)
    · rfl
    · rfl
    · unfold digits
      split
      case h_1 rest => exact absurd rfl (hzeroX rest)
      case h_2 rest => exact absurd rfl (hdollar rest)
      case h_3 => rfl
  · rintro rfl
    unfold digits
    split
    case h_1 rest => exact .zeroX rest
    case h_2 rest => exact .dollar rest
    case h_3 hzeroX hdollar =>
      exact .unmarked (fun rest h => hzeroX rest h) fun rest h => hdollar rest h

theorem readByte_eq_ok_iff {word : List Char} {byte : Byte} :
    readByte word = .ok byte ↔ Stands word byte := by
  have hbyte := byte.toNat_lt
  simp only [Stands, marked_iff, exists_eq_left', readByte]
  constructor
  · intro hread
    cases hnumber : Numeral.read 16 255 (digits word) with
    | error cause =>
        rw [hnumber] at hread
        cases hread
    | ok n =>
        rw [hnumber] at hread
        cases hread
        obtain ⟨hspells, hle⟩ := (Numeral.read_eq_ok_iff (by decide)).mp hnumber
        rwa [UInt8.toNat_ofNat', Nat.mod_eq_of_lt (by omega)]
  · intro hspells
    rw [(Numeral.read_eq_ok_iff (by decide)).mpr ⟨hspells, by omega⟩]
    exact congrArg Except.ok UInt8.ofNat_toNat

theorem readByte_eq_error_iff {word : List Char} {cause : NumeralError} :
    readByte word = .error cause ↔ Unreadable word cause := by
  simp only [Unreadable, marked_iff, exists_eq_left', readByte,
    ← Numeral.read_eq_error_iff (show 16 ≤ 16 by decide)]
  cases Numeral.read 16 255 (digits word) <;> simp [Functor.map, Except.map]

/-! ## One way to scan a text -/

theorem Scans.eq_numbered {line : Nat} {text : List Char} {entries : List (Nat × List Char)}
    (hscans : Scans line text entries) : entries = numbered line (codes text) := by
  induction hscans with
  | nothing line => rfl
  | lineEnd hrest ih =>
      rw [codes_lineEnd]
      exact ih
  | blank hblank hne hrest ih => rw [codes_blank hblank hne, ih]
  | comment hcomment hend hrest ih => rw [(alike_comment hcomment hend).codes_eq, ih]
  | word hne hword hend hrest ih => rw [numbered_codes_word hne hword hend, ← ih]

theorem atLineEnd_dropWhile (text : List Char) : AtLineEnd (text.dropWhile (· != '\n')) := by
  have hhead := List.head?_dropWhile_not (· != '\n') text
  cases hrest : text.dropWhile (· != '\n') with
  | nil => exact .nothing
  | cons c more =>
      rw [hrest] at hhead
      obtain rfl : c = '\n' := by simpa using hhead
      exact .lineFeed more

/-- A text that begins with a character of a word has the whole word in front. -/
theorem exists_word_append {c : Char} (hblank : isBlank c = false) (hcomment : c ≠ ';')
    (text : List Char) :
    ∃ word rest, c :: text = word ++ rest ∧ rest.length ≤ text.length ∧ word ≠ [] ∧
      (∀ d ∈ word, isBlank d = false ∧ d ≠ ';') ∧
      ∀ d ∈ rest.head?, isBlank d = true ∨ d = ';' := by
  let stays : Char → Bool := fun d => !isBlank d && d != ';'
  have hc : stays c = true := by simp [stays, hblank, hcomment]
  refine ⟨c :: text.takeWhile stays, text.dropWhile stays, ?_, ?_, List.cons_ne_nil _ _, ?_, ?_⟩
  · rw [List.cons_append, List.takeWhile_append_dropWhile]
  · exact (List.dropWhile_suffix stays).length_le
  · intro d hd
    have hstays : stays d = true := by
      rcases List.mem_cons.mp hd with rfl | hd
      exacts [hc, List.mem_takeWhile_imp hd]
    simpa [stays] using hstays
  · intro d hd
    have hhead := List.head?_dropWhile_not stays text
    rw [Option.mem_def.mp hd] at hhead
    simpa [stays, or_iff_not_imp_left] using hhead

theorem scans_numbered (line : Nat) (text : List Char) :
    Scans line text (numbered line (codes text)) := by
  -- a comment and a word are taken off whole, so the recursion is on the length
  match text with
  | [] => exact .nothing line
  | c :: text =>
      by_cases hfeed : c = '\n'
      · subst hfeed
        rw [codes_lineEnd]
        exact .lineEnd (scans_numbered (line + 1) text)
      cases hblank : isBlank c with
      | true =>
          rw [codes_blank hblank hfeed]
          exact .blank hblank hfeed (scans_numbered line text)
      | false =>
          by_cases hcomment : c = ';'
          · subst hcomment
            have hsplit : text.takeWhile (· != '\n') ++ text.dropWhile (· != '\n') = text :=
              List.takeWhile_append_dropWhile
            have hnotMem : '\n' ∉ text.takeWhile (· != '\n') := fun hmem => by
              simpa using List.mem_takeWhile_imp hmem
            have hend := atLineEnd_dropWhile text
            have hshorter : (text.dropWhile (· != '\n')).length ≤ text.length :=
              (List.dropWhile_suffix _).length_le
            rw [← hsplit, (alike_comment hnotMem hend).codes_eq]
            exact .comment hnotMem hend (scans_numbered line _)
          · obtain ⟨word, rest, hsplit, hshorter, hne, hword, hend⟩ :=
              exists_word_append hblank hcomment text
            rw [hsplit, numbered_codes_word hne hword hend]
            exact .word hne hword hend (scans_numbered line rest)
termination_by text.length

/-- A text is scanned in one way. -/
theorem scans_iff {line : Nat} {text : List Char} {entries : List (Nat × List Char)} :
    Scans line text entries ↔ entries = numbered line (codes text) := by
  constructor
  · exact Scans.eq_numbered
  · rintro rfl
    exact scans_numbered line text

/-! ## Reading word by word -/

section Reading

variable {α β ε : Type} {f : α → Except ε β}

theorem mapM_eq_ok_iff {xs : List α} {ys : List β} :
    xs.mapM f = .ok ys ↔ List.Forall₂ (fun x y => f x = .ok y) xs ys := by
  induction xs generalizing ys with
  | nil => cases ys <;> simp [pure, Except.pure]
  | cons x xs ih =>
      rw [List.mapM_cons, List.forall₂_cons_left_iff]
      simp only [← ih]
      cases f x with
      | error e => simp [bind, Except.bind]
      | ok y =>
          cases xs.mapM f with
          | error e => simp [bind, Except.bind]
          | ok zs => simp [bind, Except.bind, pure, Except.pure, eq_comm]

theorem mapM_eq_error_iff {xs : List α} {e : ε} :
    xs.mapM f = .error e ↔
      ∃ before x after, xs = before ++ x :: after ∧ (∀ y ∈ before, ∃ z, f y = .ok z) ∧
        f x = .error e := by
  induction xs with
  | nil => simp [pure, Except.pure]
  | cons x xs ih =>
      rw [List.mapM_cons]
      constructor
      · intro herror
        cases hx : f x with
        | error found =>
            rw [hx] at herror
            cases herror
            exact ⟨[], x, xs, rfl, by simp, hx⟩
        | ok y =>
            cases hxs : xs.mapM f with
            | ok zs =>
                rw [hx, hxs] at herror
                cases herror
            | error found =>
                rw [hx, hxs] at herror
                cases herror
                obtain ⟨before, z, after, rfl, hbefore, hz⟩ := ih.mp hxs
                exact ⟨x :: before, z, after, rfl, List.forall_mem_cons.mpr ⟨⟨y, hx⟩, hbefore⟩, hz⟩
      · rintro ⟨before, z, after, hsplit, hbefore, hz⟩
        cases before with
        | nil =>
            cases hsplit
            rw [hz]
            rfl
        | cons w before =>
            cases hsplit
            obtain ⟨⟨y, hy⟩, hbefore⟩ := List.forall_mem_cons.mp hbefore
            rw [hy, ih.mpr ⟨before, z, after, rfl, hbefore, hz⟩]
            rfl

end Reading

theorem readWord_eq_ok_iff {entry : Nat × List Char} {byte : Byte} :
    readWord entry = .ok byte ↔ Stands entry.2 byte := by
  obtain ⟨line, word⟩ := entry
  rw [← readByte_eq_ok_iff, readWord]
  cases readByte word <;> simp [Except.mapError]

theorem readWord_eq_error_iff {entry : Nat × List Char} {error : ListingError} :
    readWord entry = .error error ↔
      entry = (error.line, error.word.toList) ∧
        Unreadable error.word.toList error.cause := by
  obtain ⟨line, word⟩ := entry
  obtain ⟨place, quoted, cause⟩ := error
  rw [← readByte_eq_error_iff, readWord]
  constructor
  · intro hread
    cases hword : readByte word with
    | ok byte =>
        rw [hword] at hread
        cases hread
    | error found =>
        rw [hword] at hread
        cases hread
        exact ⟨by rw [String.toList_ofList], by rw [String.toList_ofList, hword]⟩
  · rintro ⟨hentry, hread⟩
    cases hentry
    rw [hread, Except.mapError, String.ofList_toList]

/-- The bytes of a listing are those that its words stand for. -/
theorem parse_eq_ok_iff {text : String} {bytes : List Byte} :
    parse text = .ok bytes ↔ List.Forall₂ Stands (codes text.toList).flatten bytes := by
  rw [parse, mapM_eq_ok_iff, words_eq_numbered, ← map_snd_numbered 1, List.forall₂_map_left_iff]
  simp only [readWord_eq_ok_iff]

/-- The error is about the first word that stands for nothing. -/
theorem parse_eq_error_iff {text : String} {error : ListingError} :
    parse text = .error error ↔
      ∃ before after,
        numbered 1 (codes text.toList) =
          before ++ (error.line, error.word.toList) :: after ∧
        (∀ entry ∈ before, ∃ byte, Stands entry.2 byte) ∧
        Unreadable error.word.toList error.cause := by
  rw [parse, mapM_eq_error_iff, words_eq_numbered]
  simp only [readWord_eq_ok_iff, readWord_eq_error_iff]
  constructor
  · rintro ⟨before, entry, after, hsplit, hbefore, rfl, hunreadable⟩
    exact ⟨before, after, hsplit, hbefore, hunreadable⟩
  · rintro ⟨before, after, hsplit, hbefore, hunreadable⟩
    exact ⟨before, _, after, hsplit, hbefore, rfl, hunreadable⟩

/-! ## Listings in parts -/

theorem parse_congr {text other : String} (hcodes : codes text.toList = codes other.toList) :
    parse text = parse other := by
  rw [parse, parse, words_eq_numbered, words_eq_numbered, hcodes]

theorem parse_append_lineEnd {text other lineEnd : String} {bytes otherBytes : List Byte}
    (htext : parse text = .ok bytes) (hother : parse other = .ok otherBytes)
    (hlineEnd : lineEnd ∈ ["\n", "\r\n"]) :
    parse (text ++ lineEnd ++ other) = .ok (bytes ++ otherBytes) := by
  have hcodes : codes (text ++ lineEnd ++ other).toList =
      codes text.toList ++ codes other.toList := by
    rw [String.toList_append, String.toList_append]
    rcases List.mem_pair.mp hlineEnd with rfl | rfl
    · have hfeed : "\n".toList = ['\n'] := rfl
      rw [hfeed, List.append_assoc, List.singleton_append, codes_append_lineEnd]
    · -- the carriage return stays at the end of the last line of the first text
      have hfeed : "\r\n".toList = ['\r'] ++ ['\n'] := rfl
      have hreturn : codes (text.toList ++ ['\r']) = codes (text.toList ++ []) :=
        (alike_return.append text.toList).codes_eq
      rw [hfeed, ← List.append_assoc, List.append_assoc _ ['\n'], List.singleton_append,
        codes_append_lineEnd, hreturn, List.append_nil]
  rw [parse_eq_ok_iff] at htext hother ⊢
  rw [hcodes, List.flatten_append]
  exact List.rel_append htext hother

theorem parse_comment (text : String) {comment rest : String} (hcomment : '\n' ∉ comment.toList)
    (hrest : AtLineEnd rest.toList) :
    parse (text ++ ";" ++ comment ++ rest) = parse (text ++ rest) := by
  have hshape : (text ++ ";" ++ comment ++ rest).toList =
      text.toList ++ ';' :: (comment.toList ++ rest.toList) := by
    simp
  refine parse_congr ?_
  rw [hshape, String.toList_append]
  exact ((alike_comment hcomment hrest).append text.toList).codes_eq

end Mos6502.Program.Listing
