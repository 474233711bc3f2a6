import Mathlib.Order.Interval.Set.Nat
import Mathlib.Order.SuccPred.Archimedean
import Mos6502.Proofs.Memory.Loading

/-!
# Loading more than fits

A list may run past the top of memory, and a long one laps the address space, so that several of
its bytes reach one cell (`Memory.reaching`).  The last of them stays (`read_load_of_isGreatest`),
and every cell that is reached has a last one (`exists_isGreatest_reaching`).  What is read back
from the start of the load follows from that, cell by cell.

Distances are counted in natural numbers here; `Word.add_ofNat_eq_iff` ties them to addresses.
-/

namespace Mos6502

theorem Word.add_ofNat_eq_iff (start address : Word) (i : Nat) :
    start + UInt16.ofNat i = address ↔ (start.toNat + i) % 65536 = address.toNat := by
  rw [← UInt16.toNat_inj, UInt16.toNat_add, UInt16.toNat_ofNat', Nat.add_mod_mod]

theorem Word.add_ofNat_eq_ofNat (start : Word) (i : Nat) :
    start + UInt16.ofNat i = UInt16.ofNat ((start.toNat + i) % 65536) := by
  rw [add_ofNat_eq_iff, UInt16.toNat_ofNat', Nat.mod_mod]

namespace Memory

/-- The places in a list of some length whose bytes are written to an address. -/
def reaching (start : Word) (length : Nat) (address : Word) : Set Nat :=
  {i | i < length ∧ (start.toNat + i) % 65536 = address.toNat}

variable (m : Memory) (start : Word) (bytes : List Byte)

theorem exists_isGreatest_reaching {length : Nat} {address : Word}
    (hne : (reaching start length address).Nonempty) :
    ∃ i, IsGreatest (reaching start length address) i := by
  have hbounded : BddAbove (reaching start length address) := ⟨length, fun i hi => hi.1.le⟩
  exact hbounded.exists_isGreatest_of_nonempty hne

/-- Of all bytes that reach a cell the last one stays in it. -/
theorem read_load_of_isGreatest {address : Word} {i : Nat}
    (hgreatest : IsGreatest (reaching start bytes.length address) i) :
    bytes[i]? = some ((m.load start bytes).read address) := by
  obtain ⟨⟨hi, haddress⟩, hlast⟩ := hgreatest
  obtain rfl := (Word.add_ofNat_eq_iff ..).mpr haddress
  have hstays : (m.writeEach start bytes).read (start + UInt16.ofNat i) = bytes[i] := by
    refine read_writeEach_of_last m start hi fun j hj hij heq => ?_
    -- a later byte in the same cell would be a larger place that reaches it
    rw [Word.add_ofNat_eq_iff] at heq
    exact (hlast ⟨hj, heq⟩).not_gt hij
  rw [load_eq_writeEach, hstays, List.getElem?_eq_getElem hi]

theorem read_load_of_reaching_eq_empty {address : Word}
    (hempty : reaching start bytes.length address = ∅) :
    (m.load start bytes).read address = m.read address := by
  refine read_load_of_notMem m start address bytes fun i hi heq => ?_
  have hreached : i ∈ reaching start bytes.length address :=
    ⟨hi, (Word.add_ofNat_eq_iff ..).mp heq⟩
  simp [hempty] at hreached

theorem slice_load (hsize : bytes.length ≤ size) :
    (m.load start bytes).slice start bytes.length = bytes :=
  (slice_eq_iff ..).mpr fun _ hi => read_load_of_lt m start hsize hi

/-- What is read back at a place is the byte at the last place that is a number of laps away. -/
theorem exists_getElem?_slice_load {i : Nat} (hi : i < bytes.length) :
    ∃ j, IsGreatest {j | j < bytes.length ∧ j % 65536 = i % 65536} j ∧
      ((m.load start bytes).slice start bytes.length)[i]? = bytes[j]? := by
  have hsame : reaching start bytes.length (start + UInt16.ofNat i) =
      {j | j < bytes.length ∧ j % 65536 = i % 65536} := by
    ext j
    refine and_congr_right fun _ => ?_
    rw [UInt16.toNat_add, UInt16.toNat_ofNat']
    omega
  have hne : (reaching start bytes.length (start + UInt16.ofNat i)).Nonempty := by
    rw [hsame]
    exact ⟨i, hi, rfl⟩
  obtain ⟨j, hgreatest⟩ := exists_isGreatest_reaching start hne
  refine ⟨j, hsame ▸ hgreatest, ?_⟩
  rw [read_load_of_isGreatest m start bytes hgreatest, List.getElem?_eq_getElem (by simpa using hi),
    getElem_slice]

/-- A block that is copied in one piece is what writing its bytes one by one gives, and a load is
that for every list, in one piece or around the top of memory.  A cell that is reached ends with the
last byte written to it and no other cell changes.  What is read back from the start of the load is
the list itself, unless it laps the address space: then each place shows the last byte that is a
number of laps away. -/
theorem load_wraps :
    (∀ hfits, m.copy start.toNat bytes hfits = m.writeEach start bytes) ∧
      m.load start bytes =
        bytes.zipIdx.foldl
          (fun m (byte, i) => m.write (UInt16.ofNat ((start.toNat + i) % 65536)) byte) m ∧
      (∀ address,
        (∃ i, IsGreatest (reaching start bytes.length address) i ∧
          bytes[i]? = some ((m.load start bytes).read address)) ∨
        (reaching start bytes.length address = ∅ ∧
          (m.load start bytes).read address = m.read address)) ∧
      (∀ (n : Memory) (length : Nat), n.slice start length =
        (List.range length).map fun i => n.read (UInt16.ofNat ((start.toNat + i) % 65536))) ∧
      (bytes.length ≤ 65536 → (m.load start bytes).slice start bytes.length = bytes) ∧
      ∀ i < bytes.length,
        ∃ j, IsGreatest {j | j < bytes.length ∧ j % 65536 = i % 65536} j ∧
          ((m.load start bytes).slice start bytes.length)[i]? = bytes[j]? := by
  refine ⟨m.copy_eq_writeEach start bytes, ?_, fun address => ?_, fun n length => ?_,
    m.slice_load start bytes, fun i => m.exists_getElem?_slice_load start bytes⟩
  · simp only [load_eq_writeEach, writeEach, Word.add_ofNat_eq_ofNat]
  · rcases (reaching start bytes.length address).eq_empty_or_nonempty with hempty | hne
    · exact .inr ⟨hempty, m.read_load_of_reaching_eq_empty start bytes hempty⟩
    · obtain ⟨i, hgreatest⟩ := exists_isGreatest_reaching start hne
      exact .inl ⟨i, hgreatest, m.read_load_of_isGreatest start bytes hgreatest⟩
  · simp only [slice, Word.add_ofNat_eq_ofNat]

/-- Three bytes from the last cell but one on are found again across the top of memory.  In a list
that is one byte longer than the address space the last byte replaces the first. -/
theorem load_wraps_with_last_byte_on_first :
    (zero.load 0xFFFE [1, 2, 3]).slice 0xFFFE 3 = [1, 2, 3] ∧
      ((zero.load 0xFFFE (List.replicate 65536 1 ++ [2])).slice 0xFFFE 65537)[0]? = some 2 := by
  constructor
  · exact (load_wraps zero 0xFFFE [1, 2, 3]).2.2.2.2.1 (by decide)
  · have hlength : (List.replicate 65536 (1 : Byte) ++ [2]).length = 65537 := by
      rw [List.length_append, List.length_replicate, List.length_singleton]
    have hwraps := (load_wraps zero 0xFFFE (List.replicate 65536 1 ++ [2])).2.2.2.2.2
    rw [hlength] at hwraps
    obtain ⟨j, ⟨hj, hlast⟩, hread⟩ := hwraps 0 (by decide)
    have hself : 65536 ≤ j := hlast ⟨by decide, by decide⟩
    obtain rfl : j = 65536 := by
      have hbound : j < 65537 := hj.1
      omega
    rw [hread, List.getElem?_append_right List.length_replicate.le, List.length_replicate]
    rfl

end Memory

end Mos6502
