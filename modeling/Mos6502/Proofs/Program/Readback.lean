import Mos6502.Program.Report
import Mos6502.Proofs.Arithmetic.Integers
import Mos6502.Proofs.Program.Listing.Grammar
import Mos6502.Proofs.Program.Rows

/-!
# A display is a listing

A byte is shown as two upper-case digits (`pair`), a row as its bytes with one blank between them
(`shown`), and the display as its rows with one line end between them.  Each of the three falls
apart as it was put together: the rows are the lines (`lines_text`), the words of a row are its
bytes (`code_shown`), and each of them stands for its byte (`stands_pair`).

All rows but the last are full (`length_of_mem_dropLast_chunks`), and no byte is lost between them
(`flatten_chunks`).
-/

namespace Mos6502.Program.Display

open Text

/-! ## The rows -/

theorem flatten_chunks (bytes : List Byte) : (chunks bytes).flatten = bytes := by
  fun_induction chunks bytes with
  | case1 => rfl
  | case2 byte rest ih => rw [List.flatten_cons, ih, List.take_append_drop]

theorem length_chunks (bytes : List Byte) :
    (chunks bytes).length = (bytes.length + 31) / 32 := by
  rw [chunks_eq, List.length_map, List.length_range]
  rfl

theorem length_of_mem_chunks {bytes row : List Byte} (hrow : row ∈ chunks bytes) :
    1 ≤ row.length ∧ row.length ≤ 32 := by
  fun_induction chunks bytes with
  | case1 => cases hrow
  | case2 byte rest ih =>
      rcases List.mem_cons.mp hrow with rfl | hrow
      · rw [List.length_take, List.length_cons, Cpu.displayWidth]
        omega
      · exact ih hrow

theorem length_of_mem_dropLast_chunks {bytes row : List Byte}
    (hrow : row ∈ (chunks bytes).dropLast) : row.length = 32 := by
  fun_induction chunks bytes with
  | case1 => cases hrow
  | case2 byte rest ih =>
      cases hchunks : chunks ((byte :: rest).drop Cpu.displayWidth) with
      | nil =>
          rw [hchunks] at hrow
          cases hrow
      | cons next rows =>
          rw [hchunks, List.dropLast_cons_of_ne_nil (List.cons_ne_nil next rows),
            ← hchunks] at hrow
          rcases List.mem_cons.mp hrow with rfl | hrow
          · -- a row with another one after it leaves bytes over
            have hcount := length_chunks ((byte :: rest).drop Cpu.displayWidth)
            rw [hchunks, List.length_cons, List.length_drop, Cpu.displayWidth] at hcount
            rw [List.length_take, Cpu.displayWidth]
            omega
          · exact ih hrow

/-! ## One byte -/

/-- A byte as two upper-case hexadecimal digits. -/
def pair (byte : Byte) : List Char :=
  [(Nat.digitChar (byte.toNat / 16)).toUpper, (Nat.digitChar (byte.toNat % 16)).toUpper]

theorem digit_eq : ∀ n < 16, Hex.digit n = (Nat.digitChar n).toUpper := by
  decide

theorem toList_hex (byte : Byte) : (Byte.hex byte).toList = pair byte := by
  have hbyte := byte.toNat_lt
  have hhigh : byte.toNat / 16 % 16 = byte.toNat / 16 := by omega
  rw [Byte.hex, Hex.toList_text, pair, ← digit_eq _ (by omega), ← digit_eq _ (by omega)]
  simp only [Hex.digits, List.nil_append, List.singleton_append, hhigh]

theorem denotes_pair (byte : Byte) : Numeral.Denotes 16 (pair byte) byte.toNat := by
  have hbyte := byte.toNat_lt
  have hhigh : Numeral.IsDigit 16 (Nat.digitChar (byte.toNat / 16)).toUpper (byte.toNat / 16) :=
    ⟨by omega, .inr rfl⟩
  have hlow : Numeral.IsDigit 16 (Nat.digitChar (byte.toNat % 16)).toUpper (byte.toNat % 16) :=
    ⟨by omega, .inr rfl⟩
  have hvalue : Nat.ofDigits 16 [byte.toNat % 16, byte.toNat / 16] = byte.toNat := by
    simp only [Nat.ofDigits_cons, Nat.ofDigits_nil]
    omega
  exact ⟨[byte.toNat / 16, byte.toNat % 16], .cons hhigh (.cons hlow .nil), hvalue⟩

theorem plain_of_mem_pair {byte : Byte} {c : Char} (hc : c ∈ pair byte) :
    isBlank c = false ∧ c ∉ Numeral.reserved :=
  (denotes_pair byte).plain (by decide) hc

theorem stands_pair (byte : Byte) : Listing.Stands (pair byte) byte := by
  have hzeroX : ∀ rest, pair byte ≠ '0' :: 'x' :: rest := by
    intro rest h
    have hx : 'x' ∈ pair byte := h ▸ List.mem_cons_of_mem _ List.mem_cons_self
    exact (plain_of_mem_pair hx).2 (by decide)
  have hdollar : ∀ rest, pair byte ≠ '$' :: rest := by
    intro rest h
    have hsign : '$' ∈ pair byte := h ▸ List.mem_cons_self
    exact (plain_of_mem_pair hsign).2 (by decide)
  exact ⟨pair byte, .unmarked hzeroX hdollar,
    (denotes_pair byte).spells (by decide) (List.cons_ne_nil _ _)⟩

/-! ## One row -/

/-- The bytes of a row with one blank between them. -/
def shown (row : List Byte) : List Char :=
  [' '].intercalate (row.map pair)

theorem toList_row (bytes : List Byte) : (row bytes).toList = shown bytes := by
  rw [row, String.toList_intercalate, List.map_map, shown]
  refine congrArg _ (List.map_congr_left fun byte _ => ?_)
  exact toList_hex byte

theorem mem_shown {row : List Byte} {c : Char} (hc : c ∈ shown row) :
    c = ' ' ∨ ∃ byte ∈ row, c ∈ pair byte := by
  induction row with
  | nil => cases hc
  | cons byte row ih =>
      cases row with
      | nil =>
          rw [shown, List.map_singleton, List.intercalate_singleton] at hc
          exact .inr ⟨byte, List.mem_singleton_self byte, hc⟩
      | cons next row =>
          rw [shown, List.map_cons, List.map_cons, List.intercalate_cons_cons, List.append_assoc,
            List.mem_append, List.mem_append, List.mem_singleton] at hc
          rcases hc with hc | rfl | hc
          · exact .inr ⟨byte, List.mem_cons_self, hc⟩
          · exact .inl rfl
          · rcases ih hc with rfl | ⟨found, hfound, hc⟩
            exacts [.inl rfl, .inr ⟨found, List.mem_cons_of_mem _ hfound, hc⟩]

theorem code_shown (row : List Byte) : Listing.code (shown row) = row.map pair := by
  have hcomment : ';' ∉ shown row := by
    intro hc
    rcases mem_shown hc with hc | ⟨byte, -, hc⟩
    · exact absurd hc (by decide)
    · exact (plain_of_mem_pair hc).2 (by decide)
  rw [Listing.code_of_notMem hcomment, shown, words_intercalate (by decide)]
  intro part hpart
  obtain ⟨byte, -, rfl⟩ := List.mem_map.mp hpart
  exact ⟨List.cons_ne_nil _ _, fun c hc => (plain_of_mem_pair hc).1⟩

theorem shown_ne_nil {row : List Byte} (hrow : 1 ≤ row.length) : shown row ≠ [] := by
  intro hnil
  have hcode := code_shown row
  rw [hnil, Listing.code_nil] at hcode
  rw [List.map_eq_nil_iff.mp hcode.symm] at hrow
  exact absurd hrow (by decide)

/-- The only blanks in a row are spaces. -/
theorem notMem_shown {c : Char} (hblank : isBlank c = true) (hspace : c ≠ ' ') (row : List Byte) :
    c ∉ shown row := by
  intro hc
  rcases mem_shown hc with rfl | ⟨byte, -, hc⟩
  · exact hspace rfl
  · exact absurd hblank (by simp [(plain_of_mem_pair hc).1])

/-! ## The whole display -/

theorem toList_text (bytes : List Byte) :
    (text bytes).toList = ['\n'].intercalate ((chunks bytes).map shown) := by
  have hrows : (rows bytes).map String.toList = (chunks bytes).map shown := by
    rw [rows, List.map_map]
    exact List.map_congr_left fun row _ => toList_row row
  rw [text, String.toList_intercalate, hrows]
  rfl

theorem lines_text (bytes : List Byte) :
    lines (text bytes).toList = (chunks bytes).map shown := by
  rw [toList_text, lines_intercalate]
  intro part hpart
  obtain ⟨row, hrow, rfl⟩ := List.mem_map.mp hpart
  exact ⟨shown_ne_nil (length_of_mem_chunks hrow).1, notMem_shown (by decide) (by decide) row,
    notMem_shown (by decide) (by decide) row⟩

theorem codes_text {bytes : List Byte} (hne : chunks bytes ≠ []) :
    Listing.codes (text bytes).toList = (chunks bytes).map fun row => row.map pair := by
  have hrows : (chunks bytes).map shown ≠ [] := by simpa using hne
  have hfeed : ∀ part ∈ (chunks bytes).map shown, ∀ c ∈ part, (c == '\n') = false := by
    intro part hpart c hc
    obtain ⟨row, -, rfl⟩ := List.mem_map.mp hpart
    refine beq_false_of_ne ?_
    rintro rfl
    exact notMem_shown (by decide) (by decide) row hc
  rw [Listing.codes, toList_text, pieces_intercalate rfl hrows hfeed, List.map_map]
  exact List.map_congr_left fun row _ => code_shown row

/-- The words of a display are its bytes, in order. -/
theorem flatten_codes_text (bytes : List Byte) :
    (Listing.codes (text bytes).toList).flatten = bytes.map pair := by
  cases bytes with
  | nil =>
      have hchunks : chunks [] = [] := by rw [chunks]
      rw [toList_text, hchunks]
      rfl
  | cons byte rest =>
      have hne : chunks (byte :: rest) ≠ [] := by
        intro hnil
        have hflatten := flatten_chunks (byte :: rest)
        rw [hnil] at hflatten
        cases hflatten
      rw [codes_text hne, ← List.map_flatten, flatten_chunks]

theorem parse_text (bytes : List Byte) : Listing.parse (text bytes) = .ok bytes := by
  rw [Listing.parse_eq_ok_iff, flatten_codes_text, List.forall₂_map_left_iff, List.forall₂_same]
  exact fun byte _ => stands_pair byte

theorem parse_text_append_feed (bytes : List Byte) :
    Listing.parse (text bytes ++ "\n") = .ok bytes := by
  have happend : Listing.parse (text bytes ++ "\n" ++ "") = .ok (bytes ++ []) :=
    Listing.parse_append_lineEnd (parse_text bytes) rfl (by decide)
  rwa [String.append_empty, List.append_nil] at happend

theorem displayWindow_eq (cpu : Cpu) :
    cpu.displayWindow =
      (List.range 1024).map fun i => cpu.memory.read (UInt16.ofNat (0x0200 + i)) := by
  refine List.map_congr_left fun i _ => ?_
  rw [UInt16.ofNat_add]
  rfl

/-- A display reads back as the bytes that it shows.  It has one line for every 32 bytes or part of
them; every line but the last shows 32 bytes and the last at least one, in two upper-case digits
with one space between two bytes.  What is printed of the display of a machine, with a line end
after it or without one, reads back as the cells from `0x0200` to `0x05FF`. -/
theorem displays_read_back (bytes : List Byte) :
    Listing.parse (text bytes) = .ok bytes ∧
      (∃ rows : List (List Byte), rows.flatten = bytes ∧
        rows.length = (bytes.length + 31) / 32 ∧
        (∀ row ∈ rows.dropLast, row.length = 32) ∧
        (∀ row ∈ rows.getLast?, 1 ≤ row.length ∧ row.length ≤ 32) ∧
        lines (text bytes).toList = rows.map shown ∧
        (text bytes).toList = ['\n'].intercalate (rows.map shown)) ∧
      ∀ (cpu : Cpu) (options : Options) (tally : Tally), options.display = true →
        ∃ printed, outputLines options cpu tally =
            (if options.quiet then [] else summaryLines cpu tally) ++ printed ∧
          "\n".intercalate printed = text cpu.displayWindow ∧
          ∀ ending ∈ ["", "\n"], Listing.parse ("\n".intercalate printed ++ ending) =
            .ok ((List.range 1024).map fun i => cpu.memory.read (UInt16.ofNat (0x0200 + i))) := by
  refine ⟨parse_text bytes, ⟨chunks bytes, flatten_chunks bytes, length_chunks bytes,
    fun row hrow => length_of_mem_dropLast_chunks hrow,
    fun row hrow => length_of_mem_chunks (List.mem_of_getLast? hrow), lines_text bytes,
    toList_text bytes⟩, fun cpu options tally hdisplay => ?_⟩
  refine ⟨rows cpu.displayWindow, by rw [outputLines, if_pos hdisplay], rfl, ?_⟩
  intro ending hending
  rw [← displayWindow_eq]
  rcases List.mem_pair.mp hending with rfl | rfl
  · rw [String.append_empty]
    exact parse_text _
  · exact parse_text_append_feed _

/-- The display of a fresh machine reads back as zeros, and a full row with one byte after it takes
two lines. -/
theorem displays_read_back_on_power_on :
    (∃ (options : Options) (printed : List String), options.display = true ∧
      outputLines options .fresh .zero = summaryLines .fresh .zero ++ printed ∧
      Listing.parse ("\n".intercalate printed ++ "\n") = .ok (List.replicate 1024 0)) ∧
      (lines (text (List.replicate 33 10)).toList).length = 2 := by
  constructor
  · obtain ⟨printed, houtput, -, hread⟩ := (displays_read_back []).2.2 .fresh
      ⟨"p", 0x600, false, 3, none, none, true, false, .off, none, none⟩ .zero rfl
    have hzero : (List.range 1024).map
        (fun i => Cpu.fresh.memory.read (UInt16.ofNat (0x0200 + i))) = List.replicate 1024 0 := by
      simp [Cpu.fresh, List.map_const']
    exact ⟨_, printed, rfl, houtput,
      (hread "\n" (by decide)).trans (congrArg Except.ok hzero)⟩
  · obtain ⟨-, ⟨rows, -, hlength, -, -, hlines, -⟩, -⟩ :=
      displays_read_back (List.replicate 33 10)
    rw [hlines, List.length_map, hlength, List.length_replicate]

end Mos6502.Program.Display
