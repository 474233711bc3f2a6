import Mos6502.Program.Address
import Mos6502.Proofs.Text.Numeral
import Mos6502.Proofs.Text.Splitting

/-!
# The grammar of written addresses

What counts of a text is what stands between its outer blanks (`Trimmed`).  Its first characters say
in which base the rest is a numeral (`Written`), and they say so in one way only (`written_iff`).
The rest is left to the numerals: `parse_eq` reads the one numeral, and whether it denotes an
address, or else why it denotes none, is what `Spells` and `Refuses` say of it.

`Spelling` lists the usual ways to write a number.  Each of them is found again between blanks,
because no digit is a blank and every mark has a character that is no digit (`Spelling.trimmed`,
`Spelling.written`).
-/

namespace Mos6502.Program.Address

open Text

/-! ## Base and numeral -/

/-- What may stand in front of a hexadecimal number. -/
def marks : List (List Char) := [['$'], ['0', 'x'], ['0', 'X']]

/-- A text, the base that its mark stands for, and the numeral after the mark. -/
inductive Written : (text : List Char) → (base : Nat) → (numeral : List Char) → Prop
  | hexadecimal {mark : List Char} (hmark : mark ∈ marks) (numeral : List Char) :
      Written (mark ++ numeral) 16 numeral
  | decimal {text : List Char} (hunmarked : ∀ mark ∈ marks, ¬ mark <+: text) :
      Written text 10 text

theorem mem_marks_iff {mark : List Char} :
    mark ∈ marks ↔ mark = ['$'] ∨ mark = ['0', 'x'] ∨ mark = ['0', 'X'] := by
  simp [marks]

/-- The base and the numeral of a text. -/
def parts : List Char → Nat × List Char
  | '0' :: 'x' :: numeral => (16, numeral)
  | '0' :: 'X' :: numeral => (16, numeral)
  | '$' :: numeral => (16, numeral)
  | numeral => (10, numeral)

theorem readNumber_eq (text : List Char) :
    readNumber text = Numeral.read (parts text).1 largest (parts text).2 := by
  unfold readNumber
  split
  case h_1 => rfl
  case h_2 => rfl
  case h_3 => rfl
  case h_4 hlower hupper hdollar => rw [parts.eq_4 text hlower hupper hdollar]

theorem written_iff {text : List Char} {base : Nat} {numeral : List Char} :
    Written text base numeral ↔ parts text = (base, numeral) := by
  constructor
  · rintro (⟨hmark, numeral⟩ | hunmarked)
    · rcases mem_marks_iff.mp hmark with rfl | rfl | rfl <;> rfl
    · have hnone : ∀ mark ∈ marks, ∀ rest, text ≠ mark ++ rest :=
        fun mark hmark rest h => hunmarked mark hmark ⟨rest, h.symm⟩
      exact parts.eq_4 text (hnone ['0', 'x'] (by decide)) (hnone ['0', 'X'] (by decide))
        (hnone ['$'] (by decide))
  · intro hparts
    unfold parts at hparts
    split at hparts
    case h_1 =>
      cases hparts
      exact .hexadecimal (by decide : ['0', 'x'] ∈ marks) _
    case h_2 =>
      cases hparts
      exact .hexadecimal (by decide : ['0', 'X'] ∈ marks) _
    case h_3 =>
      cases hparts
      exact .hexadecimal (by decide : ['$'] ∈ marks) _
    case h_4 hlower hupper hdollar =>
      cases hparts
      refine .decimal ?_
      rintro mark hmark ⟨rest, rfl⟩
      rcases mem_marks_iff.mp hmark with rfl | rfl | rfl
      exacts [hdollar rest rfl, hlower rest rfl, hupper rest rfl]

/-- Every text has one base and one numeral. -/
theorem exists_written (text : List Char) :
    ∃ base numeral, ∀ foundBase found,
      Written text foundBase found ↔ foundBase = base ∧ found = numeral := by
  refine ⟨(parts text).1, (parts text).2, fun foundBase found => ?_⟩
  rw [written_iff, Prod.ext_iff]
  exact and_congr eq_comm eq_comm

variable {text : String} {inner numeral : List Char} {base : Nat}

theorem Written.base_le (hwritten : Written inner base numeral) : base ≤ 16 := by
  cases hwritten <;> decide

/-! ## Reading -/

theorem parse_eq (htrimmed : Trimmed text.toList inner) (hwritten : Written inner base numeral) :
    parse text = ((Numeral.read base largest numeral).map UInt16.ofNat).mapError
      (AddressError.mk (String.ofList inner)) := by
  have htrim : trim text.toList = inner := trimmed_iff.mp htrimmed
  have hparts : parts inner = (base, numeral) := written_iff.mp hwritten
  simp only [parse, htrim, readNumber_eq, hparts]
  cases Numeral.read base largest numeral <;> rfl

/-- A text is an address exactly if its numeral denotes the address. -/
theorem parse_eq_ok_iff (htrimmed : Trimmed text.toList inner)
    (hwritten : Written inner base numeral) {address : Word} :
    parse text = .ok address ↔ Numeral.Spells base numeral address.toNat := by
  have hword : address.toNat ≤ largest := Nat.le_of_lt_succ address.toNat_lt
  rw [parse_eq htrimmed hwritten]
  constructor
  · intro hparse
    cases hread : Numeral.read base largest numeral with
    | error cause =>
        rw [hread] at hparse
        cases hparse
    | ok value =>
        rw [hread] at hparse
        cases hparse
        obtain ⟨hspells, hle⟩ := (Numeral.read_eq_ok_iff hwritten.base_le).mp hread
        have hfits : value < 2 ^ 16 := Nat.lt_succ_of_le hle
        rwa [UInt16.toNat_ofNat', Nat.mod_eq_of_lt hfits]
  · intro hspells
    rw [(Numeral.read_eq_ok_iff hwritten.base_le).mpr ⟨hspells, hword⟩]
    exact congrArg Except.ok UInt16.ofNat_toNat

/-- The error names the text without its outer blanks, and the cause is that of the numeral. -/
theorem parse_eq_error_iff (htrimmed : Trimmed text.toList inner)
    (hwritten : Written inner base numeral) {error : AddressError} :
    parse text = .error error ↔
      error.text = String.ofList inner ∧ Numeral.Refuses base largest numeral error.cause := by
  rw [parse_eq htrimmed hwritten, ← Numeral.read_eq_error_iff hwritten.base_le]
  obtain ⟨quoted, cause⟩ := error
  cases Numeral.read base largest numeral with
  | ok value => simp [Except.map, Except.mapError]
  | error found => simp [Except.map, Except.mapError, eq_comm]

/-! ## Spellings -/

/-- The usual ways to write a number: in decimal, or in hexadecimal after a mark. -/
inductive Spelling (n : Nat) : List Char → Prop
  | decimal {digits : List Char} (hdigits : Numeral.Writes 10 n digits) : Spelling n digits
  | hexadecimal {mark digits : List Char} (hmark : mark ∈ marks)
      (hdigits : Numeral.Writes 16 n digits) : Spelling n (mark ++ digits)

variable {n : Nat}

theorem Spelling.isBlank_eq_false (hspelling : Spelling n inner) :
    ∀ c ∈ inner, isBlank c = false := by
  cases hspelling with
  | decimal hdigits => exact fun c hc => ((hdigits.denotes (by decide)).plain (by decide) hc).1
  | hexadecimal hmark hdigits =>
      have hmarks : marks.flatten.all (!isBlank ·) = true := by decide
      intro c hc
      rcases List.mem_append.mp hc with hc | hc
      · simpa using List.all_eq_true.mp hmarks c (List.mem_flatten_of_mem hmark hc)
      · exact ((hdigits.denotes (by decide)).plain (by decide) hc).1

/-- A spelling between blanks is the text between the outer blanks. -/
theorem Spelling.trimmed (hspelling : Spelling n inner) {front back : List Char}
    (hfront : ∀ c ∈ front, isBlank c = true) (hback : ∀ c ∈ back, isBlank c = true) :
    Trimmed (front ++ inner ++ back) inner :=
  ⟨front, back, rfl, hfront, hback,
    fun _ hc => hspelling.isBlank_eq_false _ (List.mem_of_mem_head? hc),
    fun _ hc => hspelling.isBlank_eq_false _ (List.mem_of_getLast? hc)⟩

/-- The digits of a decimal spelling begin with no mark. -/
theorem written_of_writes {digits : List Char} (hdigits : Numeral.Writes 10 n digits) :
    Written digits 10 digits := by
  refine .decimal fun mark hmark hstarts => ?_
  obtain ⟨c, hc, hspecial⟩ : ∃ c ∈ mark, c ∈ Numeral.reserved := by
    rcases mem_marks_iff.mp hmark with rfl | rfl | rfl <;> simp [Numeral.reserved]
  exact ((hdigits.denotes (by decide)).plain (by decide) (hstarts.subset hc)).2 hspecial

/-- A spelling has a base, and its numeral spells the number in it. -/
theorem Spelling.written (hspelling : Spelling n inner) :
    ∃ base numeral, Written inner base numeral ∧ Numeral.Spells base numeral n := by
  cases hspelling with
  | decimal hdigits =>
      exact ⟨10, inner, written_of_writes hdigits, hdigits.spells (by decide) (by decide)⟩
  | hexadecimal hmark hdigits =>
      exact ⟨16, _, .hexadecimal hmark _, hdigits.spells (by decide) (by decide)⟩

/-! ## The grammar -/

theorem message_eq_iff (cause : NumeralError) :
    (cause.message = "cannot parse integer from empty string" ↔ cause = .empty) ∧
      (cause.message = "number too large to fit in target type" ↔ cause = .tooLarge) ∧
      (cause.message = "invalid digit found in string" ↔ cause = .invalidDigit) := by
  cases cause <;> decide

/-- Between its outer blanks a text has one base and one numeral.  It is an address exactly if the
numeral spells the address in the base; otherwise the error quotes what stands between the blanks
and gives the cause: nothing is left for the numeral, or its leading digits denote more than the
largest address, or else it has a character that is no digit.  Every spelling of an address, with
any blanks around it, is that address. -/
theorem parse_iff_written :
    (∀ text : String, ∃ inner base numeral,
      (∀ found, Trimmed text.toList found ↔ found = inner) ∧
      (∀ foundBase found, Written inner foundBase found ↔ foundBase = base ∧ found = numeral) ∧
      (∀ address : Word,
        parse text = .ok address ↔ Numeral.Spells base numeral address.toNat) ∧
      ∀ error, parse text = .error error →
        error.message =
          "invalid address " ++ quote (String.ofList inner) ++ ": " ++ error.cause.message ∧
        (error.cause.message = "cannot parse integer from empty string" ↔ numeral = []) ∧
        (error.cause.message = "number too large to fit in target type" ↔
          Numeral.Overflows base 65535 numeral) ∧
        (error.cause.message = "invalid digit found in string" ↔
          numeral ≠ [] ∧ ¬ Numeral.Overflows base 65535 numeral)) ∧
    ∀ (address : Word) (front inner back : List Char), (∀ c ∈ front, isBlank c = true) →
      (∀ c ∈ back, isBlank c = true) → Spelling address.toNat inner →
      parse (String.ofList (front ++ inner ++ back)) = .ok address := by
  constructor
  · intro text
    obtain ⟨inner, hinner⟩ : ∃ inner, ∀ found, Trimmed text.toList found ↔ found = inner :=
      ⟨trim text.toList, fun found => trimmed_iff.trans eq_comm⟩
    obtain ⟨base, numeral, hparts⟩ := exists_written inner
    have htrimmed : Trimmed text.toList inner := (hinner inner).mpr rfl
    have hwritten : Written inner base numeral := (hparts base numeral).mpr ⟨rfl, rfl⟩
    refine ⟨inner, base, numeral, hinner, hparts, fun address => parse_eq_ok_iff htrimmed hwritten,
      fun error herror => ?_⟩
    obtain ⟨hquoted, hrefuses⟩ := (parse_eq_error_iff htrimmed hwritten).mp herror
    obtain ⟨hempty, htooLarge, hinvalid⟩ := hrefuses.cause_iff
    obtain ⟨hmessageEmpty, hmessageTooLarge, hmessageInvalid⟩ := message_eq_iff error.cause
    refine ⟨?_, hmessageEmpty.trans hempty, hmessageTooLarge.trans htooLarge,
      hmessageInvalid.trans hinvalid⟩
    rw [← hquoted]
    rfl
  · intro address front inner back hfront hback hspelling
    obtain ⟨base, numeral, hwritten, hspells⟩ := hspelling.written
    refine (parse_eq_ok_iff ?_ hwritten).mpr hspells
    rw [String.toList_ofList]
    exact hspelling.trimmed hfront hback

/-- An address in digits of both cases, with a zero in front and blanks around it. -/
theorem parse_iff_written_of_mixed_case :
    parse (String.ofList ([' '] ++ (['0', 'X'] ++ ['0', 'A', 'b', 'c']) ++ ['\t'])) =
      .ok 0xABC := by
  have hdigits : Numeral.Writes 16 0xABC ['0', 'A', 'b', 'c'] :=
    ⟨1, ['A', 'b', 'c'], rfl, by decide⟩
  exact parse_iff_written.2 0xABC [' '] _ ['\t'] (List.forall_mem_singleton.mpr (by decide))
    (List.forall_mem_singleton.mpr (by decide)) (.hexadecimal (by decide) hdigits)

end Mos6502.Program.Address
