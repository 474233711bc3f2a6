import Mathlib.Data.Nat.Digits.Lemmas
import Mos6502.Proofs.Arithmetic.Digits

/-!
# Numbers of several packed decimal bytes

A byte is packed when both of its four-bit digits are decimal ones; then it stands for a number
below 100, and a row of such bytes, the least significant first, for a number whose digits to the
base 100 they are (`packedNumber`).

The decimal kernels correct a digit by six where a carry or a borrow passes between the digits.
For packed bytes that makes them what the binary ones are for the base 256: the byte and the carry
that come out make up what went in.  The digits are settled one by one (`digits_addDecimal`,
`digits_subDecimal`); with the two kernels as one `Combination` the byte follows
(`Combination.value_decimalKernel`), and rows of bytes in which every column hands its carry to the
next (`Combination.apply_chain`).
-/

namespace Mos6502

namespace Arithmetic

/-- Both digits of a byte are decimal. -/
def IsPacked (v : Byte) : Prop :=
  tens v ≤ 9 ∧ units v ≤ 9

instance : DecidablePred IsPacked := fun _ => inferInstanceAs (Decidable (_ ∧ _))

/-- The number that packed bytes make up, the least significant byte first. -/
def packedNumber (bytes : List Byte) : Nat :=
  Nat.ofDigits 100 (bytes.map decimalValue)

/-- Bytes are combined column by column, each column with the carry out of the one before. -/
def chain (kernel : Byte → Byte → Bool → Sum) : Bool → List Byte → List Byte → List Sum
  | carry, a :: as, m :: ms => kernel a m carry :: chain kernel (kernel a m carry).carry as ms
  | _, _, _ => []

/-- The carry out of the last column of a chain, which is the one that went in if there is none. -/
def carryOut (carry : Bool) (columns : List Sum) : Bool :=
  (columns.map Sum.carry).getLastD carry

/-! ## One byte -/

theorem decimalValue_lt_of_packed {v : Byte} (hv : IsPacked v) : decimalValue v < 100 := by
  obtain ⟨htens, hunits⟩ := hv
  unfold decimalValue
  omega

theorem eq_of_decimalValue_eq {v w : Byte} (hv : IsPacked v) (hw : IsPacked w)
    (hvalue : decimalValue v = decimalValue w) : v = w := by
  obtain ⟨-, hunits⟩ := hv
  obtain ⟨-, hother⟩ := hw
  apply UInt8.toNat_inj.mp
  unfold decimalValue tens units at *
  omega

/-- The byte with two given digits. -/
theorem digits_ofNat {high low : Nat} (hhigh : high < 16) (hlow : low < 16) :
    tens (UInt8.ofNat (high * 16 + low)) = high ∧ units (UInt8.ofNat (high * 16 + low)) = low := by
  rw [tens, units, UInt8.toNat_ofNat']
  omega

theorem isNegative_ofNat {n : Nat} (hn : n < 128) : Byte.isNegative (UInt8.ofNat n) = false := by
  rw [Byte.isNegative, UInt8.toNat_ofNat', decide_eq_false_iff_not]
  omega

/-- The sum of two decimal digits and a carry: where it exceeds nine, the correction by six leaves
the digit that is ten less, and a carry. -/
theorem corrected_sum {n : Nat} (hn : n ≤ 19) :
    (if 9 < n then n + 6 else n) % 16 = n % 10 ∧
      (15 < (if 9 < n then n + 6 else n) ↔ n / 10 = 1) := by
  split <;> omega

/-- The difference of two decimal digits and a borrow: where it is negative, the correction by six
leaves the digit that is ten more, and a borrow. -/
theorem corrected_difference {z : Int} (hleft : -10 ≤ z) (hright : z ≤ 9) :
    (if z < 0 then z - 6 else z) % 16 = z % 10 ∧ (z < 0 ↔ z / 10 = -1) := by
  split <;> omega

section Kernels

variable {a m : Byte} (ha : IsPacked a) (hm : IsPacked m) (carry : Bool)

include ha hm

/-- The digits of a decimal sum are those of sums to the base ten. -/
theorem digits_addDecimal :
    units (addDecimal a m carry).value = (units a + units m + carry.toNat) % 10 ∧
      tens (addDecimal a m carry).value =
        (tens a + tens m + (units a + units m + carry.toNat) / 10) % 10 ∧
      (addDecimal a m carry).carry.toNat =
        (tens a + tens m + (units a + units m + carry.toNat) / 10) / 10 := by
  obtain ⟨hta, hua⟩ := ha
  obtain ⟨htm, hum⟩ := hm
  have hin := carry.toNat_le
  obtain ⟨hlow, hbetween⟩ := corrected_sum (show units a + units m + carry.toNat ≤ 19 by omega)
  have hnext : (if (units a + units m + carry.toNat) / 10 = 1 then 1 else 0) =
      (units a + units m + carry.toNat) / 10 := by
    split <;> omega
  obtain ⟨hhigh, hout⟩ := corrected_sum
    (show tens a + tens m + (units a + units m + carry.toNat) / 10 ≤ 19 by omega)
  have hvalue : (addDecimal a m carry).value =
      UInt8.ofNat ((tens a + tens m + (units a + units m + carry.toNat) / 10) % 10 * 16 +
        (units a + units m + carry.toNat) % 10) := by
    simp only [addDecimal, hbetween, hnext, hlow, hhigh]
  obtain ⟨htens, hunits⟩ := digits_ofNat
    (show (tens a + tens m + (units a + units m + carry.toNat) / 10) % 10 < 16 by omega)
    (show (units a + units m + carry.toNat) % 10 < 16 by omega)
  have hcarry : (addDecimal a m carry).carry.toNat = 1 ↔
      (tens a + tens m + (units a + units m + carry.toNat) / 10) / 10 = 1 := by
    simp only [Bool.toNat_eq_one, addDecimal, hbetween, hnext, hout, decide_eq_true_iff]
  have hone := (addDecimal a m carry).carry.toNat_le
  rw [hvalue]
  exact ⟨hunits, htens, by omega⟩

/-- The digits of a decimal difference are those of differences to the base ten, where a borrow is
a quotient of minus one. -/
theorem digits_subDecimal :
    (units (subDecimal a m carry).value : Int) = (units a - units m - (!carry).toNat) % 10 ∧
      (tens (subDecimal a m carry).value : Int) =
        (tens a - tens m + (units a - units m - (!carry).toNat) / 10) % 10 ∧
      ((subDecimal a m carry).carry.toNat : Int) =
        1 + (tens a - tens m + (units a - units m - (!carry).toNat) / 10) / 10 := by
  obtain ⟨hta, hua⟩ := ha
  obtain ⟨htm, hum⟩ := hm
  have hin := (!carry).toNat_le
  generalize hlow : (units a - units m - (!carry).toNat : Int) = low
  generalize hhigh : (tens a - tens m + low / 10 : Int) = high
  obtain ⟨hlowdigit, hbetween⟩ := corrected_difference (show -10 ≤ low by omega)
    (show low ≤ 9 by omega)
  obtain ⟨hhighdigit, hborrow⟩ := corrected_difference (show -10 ≤ high by omega)
    (show high ≤ 9 by omega)
  have hnext : (tens a - tens m - (if low < 0 then 1 else 0) : Int) = high := by
    split <;> omega
  have hvalue : (subDecimal a m carry).value =
      UInt8.ofNat ((high % 10).toNat * 16 + (low % 10).toNat) := by
    have hbyte : (high % 10 * 16 + low % 10).toNat =
        (high % 10).toNat * 16 + (low % 10).toNat := by
      omega
    simp only [subDecimal, hlow, hnext, hlowdigit, hhighdigit, hbyte]
  obtain ⟨htens, hunits⟩ := digits_ofNat (show (high % 10).toNat < 16 by omega)
    (show (low % 10).toNat < 16 by omega)
  have hcarry : (subDecimal a m carry).carry.toNat = 1 ↔ 0 ≤ high := by
    simp only [Bool.toNat_eq_one, subDecimal, hlow, hnext, decide_eq_true_iff]
  have hone := (subDecimal a m carry).carry.toNat_le
  rw [hvalue, htens, hunits]
  exact ⟨by omega, by omega, by omega⟩

/-- No number below 100 has the sign bit set, so there is no overflow. -/
theorem overflow_of_packed :
    (addDecimal a m carry).overflow = false ∧ (subDecimal a m carry).overflow = false := by
  have hfirst := isNegative_ofNat (show decimalValue a < 128 by
    have := decimalValue_lt_of_packed ha
    omega)
  have hsecond := isNegative_ofNat (show decimalValue m < 128 by
    have := decimalValue_lt_of_packed hm
    omega)
  have hsum := isNegative_ofNat
    (show (decimalValue a + decimalValue m + carry.toNat) % 100 < 128 by omega)
  have hdifference := isNegative_ofNat
    (show ((decimalValue a - decimalValue m - (!carry).toNat : Int) % 100).toNat < 128 by omega)
  constructor
  · simp only [addDecimal, signedOverflow, hfirst, hsecond, hsum]
    rfl
  · simp only [subDecimal, hfirst, hsecond, hdifference]
    rfl

end Kernels

end Arithmetic

open Arithmetic

namespace Combination

/-- The combination of two packed bytes. -/
def decimalKernel : Combination → Byte → Byte → Bool → Sum
  | sum => addDecimal
  | difference => subDecimal

variable (op : Combination)

section Column

variable {a m : Byte} (ha : IsPacked a) (hm : IsPacked m) (carry : Bool)

include ha hm

theorem packed_decimalKernel :
    IsPacked (op.decimalKernel a m carry).value ∧
      (op.decimalKernel a m carry).overflow = false := by
  obtain ⟨hadd, hsub⟩ := overflow_of_packed ha hm carry
  cases op with
  | sum =>
      obtain ⟨hunits, htens, -⟩ := digits_addDecimal ha hm carry
      exact ⟨⟨show tens (addDecimal a m carry).value ≤ 9 by omega,
        show units (addDecimal a m carry).value ≤ 9 by omega⟩, hadd⟩
  | difference =>
      obtain ⟨hunits, htens, -⟩ := digits_subDecimal ha hm carry
      exact ⟨⟨show tens (subDecimal a m carry).value ≤ 9 by omega,
        show units (subDecimal a m carry).value ≤ 9 by omega⟩, hsub⟩

/-- The packed byte and the carry that come out make up what went in. -/
theorem value_decimalKernel :
    op.apply (decimalValue a) (decimalValue m) + op.carried carry =
      decimalValue (op.decimalKernel a m carry).value
        + 100 * op.carried (op.decimalKernel a m carry).carry := by
  cases op with
  | sum =>
      obtain ⟨hunits, htens, hcarry⟩ := digits_addDecimal ha hm carry
      simp only [apply, carried, decimalKernel, decimalValue]
      omega
  | difference =>
      obtain ⟨hunits, htens, hcarry⟩ := digits_subDecimal ha hm carry
      have hnot : (!carry).toNat = 1 - carry.toNat := by cases carry <;> rfl
      have hin := carry.toNat_le
      simp only [apply, carried, decimalKernel, decimalValue]
      omega

end Column

end Combination

/-! ## Rows of bytes -/

namespace Arithmetic

/-- Two rows of packed bytes, one as long as the other. -/
inductive PackedRows : List Byte → List Byte → Prop
  | nil : PackedRows [] []
  | cons {a m : Byte} {as ms : List Byte} (ha : IsPacked a) (hm : IsPacked m)
      (rest : PackedRows as ms) : PackedRows (a :: as) (m :: ms)

theorem packedRows_of_forall {as ms : List Byte} (hlength : as.length = ms.length)
    (has : ∀ a ∈ as, IsPacked a) (hms : ∀ m ∈ ms, IsPacked m) : PackedRows as ms := by
  induction as generalizing ms with
  | nil =>
      rw [List.eq_nil_of_length_eq_zero hlength.symm]
      exact .nil
  | cons a as ih =>
      obtain _ | ⟨m, ms⟩ := ms
      · cases hlength
      · rw [List.forall_mem_cons] at has hms
        exact .cons has.1 hms.1 (ih (Nat.succ.inj hlength) has.2 hms.2)

theorem packedNumber_cons (v : Byte) (bytes : List Byte) :
    packedNumber (v :: bytes) = decimalValue v + 100 * packedNumber bytes :=
  Nat.ofDigits_cons ..

theorem packedNumber_lt {bytes : List Byte} (hpacked : ∀ v ∈ bytes, IsPacked v) :
    packedNumber bytes < 100 ^ bytes.length := by
  have hdigits := Nat.ofDigits_lt_base_pow_length (by decide : 1 < 100)
    (l := bytes.map decimalValue) (by
      intro digit hdigit
      obtain ⟨v, hv, rfl⟩ := List.mem_map.mp hdigit
      exact decimalValue_lt_of_packed (hpacked v hv))
  rwa [List.length_map] at hdigits

/-- Rows of packed bytes of one length that make up the same number are the same. -/
theorem PackedRows.eq_of_packedNumber_eq {vs ws : List Byte} (hrows : PackedRows vs ws)
    (hnumber : packedNumber vs = packedNumber ws) : vs = ws := by
  induction hrows with
  | nil => rfl
  | cons hv hw _ ih =>
      have hvlt := decimalValue_lt_of_packed hv
      have hwlt := decimalValue_lt_of_packed hw
      rw [packedNumber_cons, packedNumber_cons] at hnumber
      rw [eq_of_decimalValue_eq hv hw (by omega), ih (by omega)]

end Arithmetic

namespace Combination

variable (op : Combination) {as ms : List Byte} (carry : Bool)

theorem length_chain (hrows : PackedRows as ms) :
    (chain op.decimalKernel carry as ms).length = as.length := by
  induction hrows generalizing carry with
  | nil => rfl
  | cons ha hm _ ih => rw [chain, List.length_cons, List.length_cons, ih]

theorem packed_chain (hrows : PackedRows as ms) :
    ∀ column ∈ chain op.decimalKernel carry as ms,
      IsPacked column.value ∧ column.overflow = false := by
  induction hrows generalizing carry with
  | nil => exact List.forall_mem_nil _
  | cons ha hm _ ih =>
      rw [chain, List.forall_mem_cons]
      exact ⟨op.packed_decimalKernel ha hm carry, ih _⟩

theorem packed_values_chain (hrows : PackedRows as ms) :
    ∀ v ∈ (chain op.decimalKernel carry as ms).map Sum.value, IsPacked v :=
  List.forall_mem_map.mpr fun column hcolumn => (op.packed_chain carry hrows column hcolumn).1

theorem carryOut_cons (carry : Bool) (column : Sum) (columns : List Sum) :
    carryOut carry (column :: columns) = carryOut column.carry columns := by
  rw [carryOut, List.map_cons, List.getLastD_cons, carryOut]

/-- The bytes and the last carry that come out of a chain make up what went in. -/
theorem apply_chain (hrows : PackedRows as ms) :
    op.apply (packedNumber as) (packedNumber ms) + op.carried carry =
      packedNumber ((chain op.decimalKernel carry as ms).map Sum.value)
        + 100 ^ as.length * op.carried (carryOut carry (chain op.decimalKernel carry as ms)) := by
  induction hrows generalizing carry with
  | nil => cases op <;> simp [apply, chain, carryOut, packedNumber]
  | @cons a m as ms ha hm _ ih =>
      have hcolumn := op.value_decimalKernel ha hm carry
      have hrest := ih (op.decimalKernel a m carry).carry
      rw [chain, List.map_cons, packedNumber_cons, packedNumber_cons, packedNumber_cons,
        carryOut_cons, List.length_cons, pow_succ]
      push_cast
      generalize op.decimalKernel a m carry = column at *
      calc op.apply (decimalValue a + 100 * packedNumber as)
              (decimalValue m + 100 * packedNumber ms) + op.carried carry
          = op.apply (decimalValue a) (decimalValue m) + op.carried carry
              + 100 * op.apply (packedNumber as) (packedNumber ms) := by
            rw [apply_add_mul]
            ring
        _ = decimalValue column.value
              + 100 * (op.apply (packedNumber as) (packedNumber ms)
                + op.carried column.carry) := by
            rw [hcolumn]
            ring
        _ = _ := by
            rw [hrest]
            ring

/-- A chain is the combination of whole numbers, with the carry that went in counted to the first
of them. -/
theorem apply_chain_carried (hrows : PackedRows as ms) :
    op.apply (packedNumber as + op.carried carry) (packedNumber ms) =
      packedNumber ((chain op.decimalKernel carry as ms).map Sum.value)
        + 100 ^ as.length * op.carried (carryOut carry (chain op.decimalKernel carry as ms)) := by
  rw [← apply_chain op carry hrows]
  cases op <;> simp only [apply] <;> ring

theorem packedNumber_chain_lt (hrows : PackedRows as ms) :
    (packedNumber ((chain op.decimalKernel carry as ms).map Sum.value) : Int) <
      100 ^ as.length := by
  have hlt := packedNumber_lt (op.packed_values_chain carry hrows)
  rw [List.length_map, op.length_chain carry hrows] at hlt
  exact_mod_cast hlt

theorem packedNumber_chain (hrows : PackedRows as ms) :
    (packedNumber ((chain op.decimalKernel carry as ms).map Sum.value) : Int) =
      op.apply (packedNumber as + op.carried carry) (packedNumber ms) % 100 ^ as.length :=
  op.apply_emod (Int.natCast_nonneg _) (op.packedNumber_chain_lt carry hrows)
    (op.apply_chain_carried carry hrows)

end Combination

namespace Arithmetic

variable {as ms : List Byte} (carry : Bool)

theorem packedNumber_sums (hrows : PackedRows as ms) :
    packedNumber ((chain addDecimal carry as ms).map Sum.value) =
      (packedNumber as + packedNumber ms + carry.toNat) % 100 ^ as.length := by
  have hnumber := Combination.sum.packedNumber_chain carry hrows
  simp only [Combination.apply, Combination.carried, Combination.decimalKernel] at hnumber
  zify
  rw [hnumber]
  ring_nf

theorem carryOut_sums_iff (hrows : PackedRows as ms) :
    carryOut carry (chain addDecimal carry as ms) = true ↔
      100 ^ as.length ≤ packedNumber as + packedNumber ms + carry.toNat := by
  refine (Combination.carry_sum_iff (Int.natCast_nonneg _)
    (Combination.sum.packedNumber_chain_lt carry hrows)
    (Combination.sum.apply_chain_carried carry hrows)).trans ?_
  simp only [Combination.carried]
  zify
  constructor <;> intro hle <;> linarith

theorem packedNumber_differences (hrows : PackedRows as ms) :
    (packedNumber ((chain subDecimal carry as ms).map Sum.value) : Int) =
      (packedNumber as - packedNumber ms - (1 - carry.toNat)) % 100 ^ as.length := by
  have hnumber := Combination.difference.packedNumber_chain carry hrows
  simp only [Combination.apply, Combination.carried, Combination.decimalKernel] at hnumber
  rw [hnumber]
  ring_nf

theorem carryOut_differences_iff (hrows : PackedRows as ms) :
    carryOut carry (chain subDecimal carry as ms) = true ↔
      packedNumber ms + (1 - carry.toNat) ≤ packedNumber as := by
  refine (Combination.carry_difference_iff (Int.natCast_nonneg _)
    (Combination.difference.packedNumber_chain_lt carry hrows)
    (Combination.difference.apply_chain_carried carry hrows)).trans ?_
  have hin := carry.toNat_le
  simp only [Combination.carried]
  omega

/-- A chain of sums and one of differences that begins with the opposite carry undo each other. -/
theorem differences_of_sums (hlength : as.length = ms.length) (has : ∀ a ∈ as, IsPacked a)
    (hms : ∀ m ∈ ms, IsPacked m) :
    (chain subDecimal (!carry) ((chain addDecimal carry as ms).map Sum.value) ms).map Sum.value =
      as := by
  have hrows := packedRows_of_forall hlength has hms
  generalize hvalues : (chain addDecimal carry as ms).map Sum.value = values
  have hcount : values.length = as.length := by
    rw [← hvalues, List.length_map]
    exact Combination.sum.length_chain carry hrows
  have hpacked : ∀ v ∈ values, IsPacked v :=
    hvalues ▸ Combination.sum.packed_values_chain carry hrows
  have hback := packedRows_of_forall (hcount.trans hlength) hpacked hms
  refine PackedRows.eq_of_packedNumber_eq (packedRows_of_forall ?_
    (Combination.difference.packed_values_chain _ hback) has) ?_
  · rw [List.length_map, ← hcount]
    exact Combination.difference.length_chain _ hback
  · have hsum := packedNumber_sums carry hrows
    have hdifference := packedNumber_differences (!carry) hback
    have hx : (packedNumber as : Int) < 100 ^ as.length := by exact_mod_cast packedNumber_lt has
    have hopposite : (1 - (!carry).toNat : Int) = carry.toNat := by cases carry <;> rfl
    rw [hvalues] at hsum
    rw [hcount, hsum, hopposite] at hdifference
    push_cast at hdifference
    zify
    calc (packedNumber ((chain subDecimal (!carry) values ms).map Sum.value) : Int)
        = ((packedNumber as + packedNumber ms + carry.toNat) % 100 ^ as.length
            - packedNumber ms - carry.toNat) % 100 ^ as.length := hdifference
      _ = (packedNumber as + packedNumber ms + carry.toNat
            - packedNumber ms - carry.toNat) % 100 ^ as.length :=
          ((Int.mod_modEq _ _).sub_right _).sub_right _
      _ = packedNumber as % 100 ^ as.length := by ring_nf
      _ = packedNumber as := Int.emod_eq_of_lt (Int.natCast_nonneg _) hx

/-- Chains of decimal sums and differences do arithmetic in the base 100 on numbers of any length,
and stay packed and free of overflow.  A chain of differences takes a number away from a sum again
when it begins with the opposite carry. -/
theorem decimal_chains (hlength : as.length = ms.length) (has : ∀ a ∈ as, IsPacked a)
    (hms : ∀ m ∈ ms, IsPacked m) :
    let sums := chain addDecimal carry as ms
    let differences := chain subDecimal carry as ms
    (sums.length = as.length ∧
      (∀ column ∈ sums, IsPacked column.value ∧ column.overflow = false) ∧
      packedNumber (sums.map Sum.value) =
        (packedNumber as + packedNumber ms + carry.toNat) % 100 ^ as.length ∧
      (carryOut carry sums = true ↔
        100 ^ as.length ≤ packedNumber as + packedNumber ms + carry.toNat)) ∧
    (differences.length = as.length ∧
      (∀ column ∈ differences, IsPacked column.value ∧ column.overflow = false) ∧
      (packedNumber (differences.map Sum.value) : Int) =
        (packedNumber as - packedNumber ms - (1 - carry.toNat)) % 100 ^ as.length ∧
      (carryOut carry differences = true ↔
        packedNumber ms + (1 - carry.toNat) ≤ packedNumber as)) ∧
    (chain subDecimal (!carry) (sums.map Sum.value) ms).map Sum.value = as := by
  have hrows := packedRows_of_forall hlength has hms
  exact ⟨⟨Combination.sum.length_chain carry hrows, Combination.sum.packed_chain carry hrows,
      packedNumber_sums carry hrows, carryOut_sums_iff carry hrows⟩,
    ⟨Combination.difference.length_chain carry hrows,
      Combination.difference.packed_chain carry hrows, packedNumber_differences carry hrows,
      carryOut_differences_iff carry hrows⟩,
    differences_of_sums carry hlength has hms⟩

/-- 4599 and 5401 with a carry: every column carries, and the difference goes back through all of
them. -/
theorem decimal_chains_carrying_through :
    (chain addDecimal true [0x99, 0x45] [0x01, 0x54]).map Sum.value = [0x01, 0x00] ∧
      packedNumber [0x01, 0x00] = (4599 + 5401 + 1) % 100 ^ 2 ∧
      (chain subDecimal false [0x01, 0x00] [0x01, 0x54]).map Sum.value = [0x99, 0x45] := by
  have hvalues : (chain addDecimal true [0x99, 0x45] [0x01, 0x54]).map Sum.value =
      [0x01, 0x00] := by
    decide
  obtain ⟨⟨-, -, hnumber, -⟩, -, hback⟩ := decimal_chains true
    (show [0x99, 0x45].length = [0x01, 0x54].length from rfl) (by decide +kernel)
    (by decide +kernel)
  rw [hvalues] at hnumber hback
  exact ⟨hvalues, hnumber, hback⟩

end Arithmetic

end Mos6502
