import Mathlib.Data.List.Forall2
import Mathlib.Data.Nat.Digits.Defs
import Mos6502.Text.Blank
import Mos6502.Text.Numeral

/-!
# Which texts are numerals

A numeral is one or more digits, perhaps after a plus sign (`Spells`).  The digits that a text
begins with can be read as a number even where the text goes on with something else, and this
number is what decides between the causes of a refusal (`Overflows`, `Refuses`).

`readDigits_eq` carries the file.  It gives the outcome for a text that is split after its leading
digits: the value only grows while digits are read, so it passes the largest number on the way if it
is too large in the end, and what follows the digits counts only if it is not.
-/

namespace Mos6502.Text.Numeral

/-! ## Digits and numerals -/

/-- A character stands for a digit of a base; letters may be of either case. -/
def IsDigit (base : Nat) (c : Char) (digit : Nat) : Prop :=
  digit < base ∧ (c = Nat.digitChar digit ∨ c = (Nat.digitChar digit).toUpper)

/-- Characters that are all digits, and the number that they denote, the highest digit first. -/
def Denotes (base : Nat) (text : List Char) (n : Nat) : Prop :=
  ∃ digits, List.Forall₂ (IsDigit base) text digits ∧ Nat.ofDigits base digits.reverse = n

/-- A text without the plus sign that may stand in front. -/
def unsigned : List Char → List Char
  | '+' :: rest => rest
  | text => text

/-- A numeral of a base and its number: one or more digits, perhaps after one plus sign. -/
def Spells (base : Nat) (text : List Char) (n : Nat) : Prop :=
  unsigned text ≠ [] ∧ Denotes base (unsigned text) n

/-- The sign, and characters that belong to the mark of a base or begin a comment. -/
def reserved : List Char := ['+', '$', 'x', 'X', ';']

/-- A text does not go on with a digit. -/
def Stops (base : Nat) (text : List Char) : Prop :=
  ∀ c ∈ text.head?, ∀ digit, ¬ IsDigit base c digit

/-- The digits after the sign, up to the first character that is none, denote too much. -/
def Overflows (base largest : Nat) (text : List Char) : Prop :=
  ∃ front rest n, unsigned text = front ++ rest ∧ Denotes base front n ∧ Stops base rest ∧
    largest < n

/-- Why a text is no numeral of a number up to a largest one. -/
inductive Refuses (base largest : Nat) (text : List Char) : NumeralError → Prop
  | empty (htext : text = []) : Refuses base largest text .empty
  | tooLarge (hover : Overflows base largest text) : Refuses base largest text .tooLarge
  | invalidDigit (htext : text ≠ []) (hover : ¬ Overflows base largest text)
      (hnone : ∀ n ≤ largest, ¬ Spells base text n) : Refuses base largest text .invalidDigit

/-! ## One digit -/

theorem value?_digitChar : ∀ digit < 16, value? (Nat.digitChar digit) = some digit ∧
    value? (Nat.digitChar digit).toUpper = some digit := by
  decide

theorem toNat_lt_of_value? {c : Char} {digit : Nat} (hvalue : value? c = some digit) :
    c.toNat < 128 := by
  have hbelow : ∀ top : Char, top.toNat < 128 → c ≤ top → c.toNat < 128 := by
    intro top htop hle
    have hcode : c.toNat ≤ top.toNat := UInt32.le_iff_toNat_le.mp (Char.le_def.mp hle)
    omega
  unfold value? at hvalue
  split at hvalue
  case isTrue hfigure => exact hbelow '9' (by decide) hfigure.2
  case isFalse =>
    split at hvalue
    case isTrue hlower => exact hbelow 'z' (by decide) hlower.2
    case isFalse =>
      split at hvalue
      case isTrue hupper => exact hbelow 'Z' (by decide) hupper.2
      case isFalse => cases hvalue

theorem eq_digitChar_of_value? {c : Char} {digit : Nat} (hvalue : value? c = some digit)
    (hdigit : digit < 16) : c = Nat.digitChar digit ∨ c = (Nat.digitChar digit).toUpper := by
  have hall : ∀ code < 128, ∀ digit < 16, value? (Char.ofNat code) = some digit →
      Char.ofNat code = Nat.digitChar digit ∨
        Char.ofNat code = (Nat.digitChar digit).toUpper := by
    decide +kernel
  have hcode := hall c.toNat (toNat_lt_of_value? hvalue) digit hdigit
  rw [Char.ofNat_toNat] at hcode
  exact hcode hvalue

variable {base largest : Nat}

theorem digit?_eq_some_iff (hbase : base ≤ 16) {c : Char} {digit : Nat} :
    digit? base c = some digit ↔ IsDigit base c digit := by
  rw [digit?, Option.filter_eq_some_iff, decide_eq_true_eq]
  constructor
  · rintro ⟨hvalue, hlt⟩
    exact ⟨hlt, eq_digitChar_of_value? hvalue (by omega)⟩
  · rintro ⟨hlt, rfl | rfl⟩
    · exact ⟨(value?_digitChar digit (by omega)).1, hlt⟩
    · exact ⟨(value?_digitChar digit (by omega)).2, hlt⟩

theorem digit?_eq_none_iff (hbase : base ≤ 16) {c : Char} :
    digit? base c = none ↔ ∀ digit, ¬ IsDigit base c digit := by
  simp only [Option.eq_none_iff_forall_ne_some, ne_eq, digit?_eq_some_iff hbase]

/-- No digit is a blank or a reserved character. -/
theorem IsDigit.plain (hbase : base ≤ 16) {c : Char} {digit : Nat} (hc : IsDigit base c digit) :
    isBlank c = false ∧ c ∉ reserved := by
  have hall : ∀ digit < 16,
      (isBlank (Nat.digitChar digit) = false ∧ Nat.digitChar digit ∉ reserved) ∧
      isBlank (Nat.digitChar digit).toUpper = false ∧
        (Nat.digitChar digit).toUpper ∉ reserved := by
    decide
  obtain ⟨hlt, hc⟩ := hc
  obtain ⟨hlower, hupper⟩ := hall digit (by omega)
  rcases hc with rfl | rfl
  exacts [hlower, hupper]

/-! ## Rows of digits -/

theorem Denotes.plain (hbase : base ≤ 16) {text : List Char} {n : Nat}
    (hdenotes : Denotes base text n) {c : Char} (hc : c ∈ text) :
    isBlank c = false ∧ c ∉ reserved := by
  obtain ⟨digits, hdigits, -⟩ := hdenotes
  induction hdigits with
  | nil => cases hc
  | cons hdigit hdigits ih =>
      rcases List.mem_cons.mp hc with rfl | hc
      · exact hdigit.plain hbase
      · exact ih hc

/-- The number that is reached when digits are read on from a number. -/
def readOn (base soFar : Nat) (digits : List Nat) : Nat :=
  digits.foldl (fun n digit => n * base + digit) soFar

theorem ofDigits_reverse (digits : List Nat) :
    Nat.ofDigits base digits.reverse = readOn base 0 digits := by
  rw [Nat.ofDigits_eq_foldr, List.foldr_reverse, readOn]
  congr 1
  funext n digit
  rw [Nat.cast_id, Nat.mul_comm, Nat.add_comm]

theorem le_readOn (hbase : 0 < base) (soFar : Nat) (digits : List Nat) :
    soFar ≤ readOn base soFar digits := by
  induction digits generalizing soFar with
  | nil => exact Nat.le_refl _
  | cons digit digits ih =>
      calc soFar ≤ soFar * base := Nat.le_mul_of_pos_right _ hbase
        _ ≤ soFar * base + digit := Nat.le_add_right ..
        _ ≤ readOn base soFar (digit :: digits) := ih _

theorem stops_nil (base : Nat) : Stops base [] := by
  intro c hc
  cases hc

/-- Every text is a row of digits and something that does not go on with a digit. -/
theorem exists_leading_digits (base : Nat) (text : List Char) :
    ∃ front rest n, text = front ++ rest ∧ Denotes base front n ∧ Stops base rest := by
  induction text with
  | nil => exact ⟨[], [], 0, rfl, ⟨[], .nil, rfl⟩, stops_nil base⟩
  | cons c text ih =>
      by_cases hc : ∃ digit, IsDigit base c digit
      · obtain ⟨digit, hdigit⟩ := hc
        obtain ⟨front, rest, _, rfl, ⟨digits, hfront, -⟩, hstops⟩ := ih
        exact ⟨c :: front, rest, _, rfl, ⟨digit :: digits, .cons hdigit hfront, rfl⟩, hstops⟩
      · refine ⟨[], c :: text, 0, rfl, ⟨[], .nil, rfl⟩, ?_⟩
        simpa [Stops] using hc

/-! ## Reading -/

/-- What is read from a row of digits with something after it. -/
theorem readDigits_eq (hbase : base ≤ 16) {front rest : List Char} {digits : List Nat}
    (hfront : List.Forall₂ (IsDigit base) front digits) (hstops : Stops base rest) {soFar : Nat}
    (hle : soFar ≤ largest) :
    readDigits base largest soFar (front ++ rest) =
      if largest < readOn base soFar digits then .error .tooLarge
      else if rest = [] then .ok (readOn base soFar digits) else .error .invalidDigit := by
  induction hfront generalizing soFar with
  | nil =>
      have hfits : ¬ largest < readOn base soFar [] := Nat.not_lt.mpr hle
      rw [if_neg hfits]
      cases rest with
      | nil => rfl
      | cons c rest =>
          have hnone : digit? base c = none := (digit?_eq_none_iff hbase).mpr (hstops c rfl)
          simp [readDigits, hnone]
  | @cons c digit front digits hdigit hfront ih =>
      have hsome : digit? base c = some digit := (digit?_eq_some_iff hbase).mpr hdigit
      simp only [List.cons_append, readDigits, hsome]
      split
      case isTrue hfits => exact ih hfits
      case isFalse hlarge =>
        -- the value has passed the largest number, and it does not come down again
        have hgrows : soFar * base + digit ≤ readOn base soFar (digit :: digits) :=
          le_readOn (Nat.zero_lt_of_lt hdigit.1) _ _
        rw [if_pos (by omega)]

theorem unsigned_eq_self {text : List Char} (htext : ∀ rest, text ≠ '+' :: rest) :
    unsigned text = text := by
  unfold unsigned
  split
  case h_1 rest => exact absurd rfl (htext rest)
  case h_2 => rfl

/-- A row of digits is a numeral without a sign. -/
theorem Denotes.spells (hbase : base ≤ 16) {text : List Char} {n : Nat}
    (hdenotes : Denotes base text n) (htext : text ≠ []) : Spells base text n := by
  have hunsigned : unsigned text = text := by
    refine unsigned_eq_self fun rest hplus => ?_
    have hmem : '+' ∈ text := hplus ▸ List.mem_cons_self
    exact (hdenotes.plain hbase hmem).2 (by decide)
  rw [Spells, hunsigned]
  exact ⟨htext, hdenotes⟩

theorem read_eq (text : List Char) :
    read base largest text =
      if text = [] then .error .empty
      else if unsigned text = [] then .error .invalidDigit
      else readDigits base largest 0 (unsigned text) := by
  unfold read
  split
  case h_1 => rfl
  case h_2 => rfl
  case h_3 digits hne =>
      have hdigits : digits ≠ [] := fun h => hne (by rw [h])
      simp [unsigned, hdigits]
  case h_4 hnil hplus hsigned => rw [if_neg hnil, unsigned_eq_self hsigned, if_neg hnil]

theorem ne_nil_of_unsigned_ne_nil {text : List Char} (hunsigned : unsigned text ≠ []) :
    text ≠ [] := by
  rintro rfl
  exact hunsigned rfl

/-- What is read from a text once its leading digits are known. -/
theorem read_of_leading_digits (hbase : base ≤ 16) (largest : Nat) {text front rest : List Char}
    {n : Nat} (htext : text ≠ []) (hsplit : unsigned text = front ++ rest)
    (hfront : Denotes base front n) (hstops : Stops base rest) :
    read base largest text =
      if largest < n then .error .tooLarge
      else if unsigned text ≠ [] ∧ rest = [] then .ok n
      else .error .invalidDigit := by
  obtain ⟨digits, hdigits, rfl⟩ := hfront
  rw [read_eq, if_neg htext, ofDigits_reverse]
  by_cases hunsigned : unsigned text = []
  · obtain ⟨rfl, rfl⟩ := List.append_eq_nil_iff.mp (hsplit.symm.trans hunsigned)
    cases hdigits
    have hzero : ¬ largest < readOn base 0 [] := Nat.not_lt_zero _
    rw [if_pos hunsigned, if_neg hzero, if_neg fun h => h.1 hunsigned]
  · rw [if_neg hunsigned, hsplit, readDigits_eq hbase hdigits hstops (Nat.zero_le _), ← hsplit]
    simp only [ne_eq, hunsigned, not_false_eq_true, true_and]

theorem exists_read_eq (hbase : base ≤ 16) (largest : Nat) {text : List Char} (htext : text ≠ []) :
    ∃ front rest n, unsigned text = front ++ rest ∧ Denotes base front n ∧ Stops base rest ∧
      read base largest text =
        if largest < n then .error .tooLarge
        else if unsigned text ≠ [] ∧ rest = [] then .ok n
        else .error .invalidDigit := by
  obtain ⟨front, rest, n, hsplit, hfront, hstops⟩ := exists_leading_digits base (unsigned text)
  exact ⟨front, rest, n, hsplit, hfront, hstops,
    read_of_leading_digits hbase largest htext hsplit hfront hstops⟩

theorem read_eq_ok_iff (hbase : base ≤ 16) {text : List Char} {n : Nat} :
    read base largest text = .ok n ↔ Spells base text n ∧ n ≤ largest := by
  constructor
  · intro hread
    have htext : text ≠ [] := by
      rintro rfl
      cases hread
    obtain ⟨front, rest, n, hsplit, hfront, hstops, heq⟩ := exists_read_eq hbase largest htext
    rw [heq] at hread
    split at hread
    case isTrue => cases hread
    case isFalse hfits =>
      split at hread
      case isFalse => cases hread
      case isTrue hwhole =>
        obtain ⟨hunsigned, rfl⟩ := hwhole
        cases hread
        rw [List.append_nil] at hsplit
        exact ⟨⟨hunsigned, hsplit ▸ hfront⟩, Nat.not_lt.mp hfits⟩
  · rintro ⟨⟨hunsigned, hdenotes⟩, hle⟩
    rw [read_of_leading_digits hbase largest (ne_nil_of_unsigned_ne_nil hunsigned)
      (List.append_nil _).symm hdenotes (stops_nil base), if_neg (Nat.not_lt.mpr hle),
      if_pos ⟨hunsigned, rfl⟩]

/-- Without a digit nothing is too large. -/
theorem Overflows.ne_nil {text : List Char} (hover : Overflows base largest text) : text ≠ [] := by
  rintro rfl
  obtain ⟨front, rest, n, hsplit, ⟨digits, hdigits, rfl⟩, -, hlarge⟩ := hover
  obtain ⟨rfl, -⟩ := List.append_eq_nil_iff.mp hsplit.symm
  cases hdigits
  exact Nat.not_lt_zero _ hlarge

theorem read_eq_tooLarge_iff (hbase : base ≤ 16) {text : List Char} :
    read base largest text = .error .tooLarge ↔ Overflows base largest text := by
  constructor
  · intro hread
    have htext : text ≠ [] := by
      rintro rfl
      cases hread
    obtain ⟨front, rest, n, hsplit, hfront, hstops, heq⟩ := exists_read_eq hbase largest htext
    rw [heq] at hread
    split at hread
    case isTrue hlarge => exact ⟨front, rest, n, hsplit, hfront, hstops, hlarge⟩
    case isFalse => split at hread <;> cases hread
  · intro hover
    have htext : text ≠ [] := hover.ne_nil
    obtain ⟨front, rest, n, hsplit, hfront, hstops, hlarge⟩ := hover
    rw [read_of_leading_digits hbase largest htext hsplit hfront hstops, if_pos hlarge]

theorem read_eq_empty_iff (hbase : base ≤ 16) {text : List Char} :
    read base largest text = .error .empty ↔ text = [] := by
  constructor
  · intro hread
    by_contra htext
    obtain ⟨front, rest, n, hsplit, hfront, hstops, heq⟩ := exists_read_eq hbase largest htext
    rw [heq] at hread
    split at hread
    case isTrue => cases hread
    case isFalse => split at hread <;> cases hread
  · rintro rfl
    rfl

/-- A text is refused for a cause exactly if the cause applies. -/
theorem read_eq_error_iff (hbase : base ≤ 16) {text : List Char} {cause : NumeralError} :
    read base largest text = .error cause ↔ Refuses base largest text cause := by
  constructor
  · intro hread
    cases cause with
    | empty => exact .empty ((read_eq_empty_iff hbase).mp hread)
    | tooLarge => exact .tooLarge ((read_eq_tooLarge_iff hbase).mp hread)
    | invalidDigit =>
        refine .invalidDigit (fun htext => ?_) (fun hover => ?_) fun n hle hspells => ?_
        · rw [(read_eq_empty_iff hbase).mpr htext] at hread
          cases hread
        · rw [(read_eq_tooLarge_iff hbase).mpr hover] at hread
          cases hread
        · rw [(read_eq_ok_iff hbase).mpr ⟨hspells, hle⟩] at hread
          cases hread
  · intro hrefuses
    cases hrefuses with
    | empty htext => exact (read_eq_empty_iff hbase).mpr htext
    | tooLarge hover => exact (read_eq_tooLarge_iff hbase).mpr hover
    | invalidDigit htext hover hnone =>
        cases hread : read base largest text with
        | ok n =>
            obtain ⟨hspells, hle⟩ := (read_eq_ok_iff hbase).mp hread
            exact absurd hspells (hnone n hle)
        | error cause =>
            cases cause with
            | empty => exact absurd ((read_eq_empty_iff hbase).mp hread) htext
            | tooLarge => exact absurd ((read_eq_tooLarge_iff hbase).mp hread) hover
            | invalidDigit => rfl

/-- The cause is settled by whether there is anything to read and whether it is too large. -/
theorem Refuses.cause_iff {text : List Char} {cause : NumeralError}
    (hrefuses : Refuses base largest text cause) :
    (cause = .empty ↔ text = []) ∧ (cause = .tooLarge ↔ Overflows base largest text) ∧
      (cause = .invalidDigit ↔ text ≠ [] ∧ ¬ Overflows base largest text) := by
  cases hrefuses with
  | empty htext =>
      subst htext
      have hover : ¬ Overflows base largest [] := fun hover => hover.ne_nil rfl
      simp [hover]
  | tooLarge hover => simp [hover, hover.ne_nil]
  | invalidDigit htext hover => simp [htext, hover]

/-! ## Spellings of a number -/

/-- The usual digits of a number after any zeros, letters in either case. -/
def Writes (base n : Nat) (text : List Char) : Prop :=
  ∃ zeros digits, text = List.replicate zeros '0' ++ digits ∧
    List.Forall₂ (fun c digit => c = digit ∨ c = digit.toUpper) digits (Nat.toDigits base n)

theorem exists_toDigits_eq (hbase : 1 < base) (n : Nat) :
    ∃ digits : List Nat, Nat.toDigits base n = digits.map Nat.digitChar ∧
      (∀ digit ∈ digits, digit < base) ∧ Nat.ofDigits base digits.reverse = n := by
  -- the last digit is split off, so the induction is on the number and not on the digits
  induction n using Nat.strong_induction_on with
  | _ n ih =>
      rw [Nat.toDigits_eq_if hbase]
      split
      case isTrue hlt => exact ⟨[n], rfl, by simpa using hlt, by simp⟩
      case isFalse hle =>
        have hsmaller : n / base < n := Nat.div_lt_self (by omega) hbase
        obtain ⟨digits, hdigits, hbelow, hvalue⟩ := ih (n / base) hsmaller
        have hlast : n % base < base := Nat.mod_lt n (by omega)
        refine ⟨digits ++ [n % base], ?_, ?_, ?_⟩
        · rw [hdigits, List.map_append, List.map_singleton]
        · intro digit hdigit
          rcases List.mem_append.mp hdigit with hdigit | hdigit
          · exact hbelow digit hdigit
          · rwa [List.mem_singleton.mp hdigit]
        · rw [List.reverse_append, List.reverse_singleton, List.singleton_append,
            Nat.ofDigits_cons, hvalue]
          exact Nat.mod_add_div n base

theorem Denotes.zero_cons (hbase : 0 < base) {text : List Char} {n : Nat}
    (hdenotes : Denotes base text n) : Denotes base ('0' :: text) n := by
  obtain ⟨digits, hdigits, hvalue⟩ := hdenotes
  refine ⟨0 :: digits, .cons ⟨hbase, .inl rfl⟩ hdigits, ?_⟩
  rw [Nat.ofDigits_reverse_zero_cons, hvalue]

/-- The usual digits of a number denote it. -/
theorem denotes_of_toDigits (hbase : 1 < base) {n : Nat} {text : List Char}
    (htext : List.Forall₂ (fun c digit => c = digit ∨ c = digit.toUpper) text
      (Nat.toDigits base n)) : Denotes base text n := by
  obtain ⟨digits, hdigits, hbelow, hvalue⟩ := exists_toDigits_eq hbase n
  rw [hdigits, List.forall₂_map_right_iff] at htext
  refine ⟨digits, ?_, hvalue⟩
  clear hdigits hvalue
  induction htext with
  | nil => exact .nil
  | cons hc htext ih =>
      obtain ⟨hdigit, hbelow⟩ := List.forall_mem_cons.mp hbelow
      exact .cons ⟨hdigit, hc⟩ (ih hbelow)

theorem Writes.denotes (hbase : 1 < base) {n : Nat} {text : List Char}
    (hwrites : Writes base n text) : Denotes base text n := by
  obtain ⟨zeros, text, rfl, htext⟩ := hwrites
  induction zeros with
  | zero => exact denotes_of_toDigits hbase htext
  | succ zeros ih =>
      rw [List.replicate_succ, List.cons_append]
      exact ih.zero_cons (by omega)

theorem Writes.ne_nil {n : Nat} {text : List Char} (hwrites : Writes base n text) : text ≠ [] := by
  obtain ⟨zeros, digits, rfl, hdigits⟩ := hwrites
  intro hnil
  have hlength := hdigits.length_eq
  rw [(List.append_eq_nil_iff.mp hnil).2, List.length_nil] at hlength
  exact Nat.toDigits_ne_nil (List.eq_nil_of_length_eq_zero hlength.symm)

theorem Writes.spells (hbase : 1 < base) (hle : base ≤ 16) {n : Nat} {text : List Char}
    (hwrites : Writes base n text) : Spells base text n :=
  (hwrites.denotes hbase).spells hle hwrites.ne_nil

end Mos6502.Text.Numeral
