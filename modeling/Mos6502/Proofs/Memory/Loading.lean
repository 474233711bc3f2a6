import Mathlib.Data.List.Induction
import Mos6502.Memory

/-!
# What the cells hold after loading

`Memory.load` stores bytes in consecutive cells and goes on at cell `0` after the last one.
Written one after the other, the last byte that reaches a cell stays in it
(`read_writeEach_of_last`), and no other cell changes (`read_writeEach_of_notMem`).  A copy in one
piece gives the same memory (`copy_eq_writeEach`), so both ways to load come to the same
(`load_eq_writeEach`).  A list that does not lap the address space leaves each of its bytes in a
cell of its own (`read_load_of_lt`), and no load reaches any other cell (`read_load_of_notMem`).

A list stands at an address when the slice from there is that list; `slice_eq_iff` says it byte
by byte, and `slice_of_append` finds a part of the list where it stands.
-/

namespace Mos6502

/-- Below the top of memory, going on by `i` cells adds `i` to the address. -/
theorem Word.toNat_add_ofNat {w : Word} {i : Nat} (h : w.toNat + i < Memory.size) :
    (w + UInt16.ofNat i).toNat = w.toNat + i := by
  rw [Memory.size] at h
  rw [UInt16.toNat_add, UInt16.toNat_ofNat']
  omega

/-- Less than one lap apart, different distances lead to different cells. -/
theorem Word.add_ofNat_ne (w : Word) {i j : Nat} (hlt : i < j) (hlap : j < i + Memory.size) :
    w + UInt16.ofNat j ≠ w + UInt16.ofNat i := by
  intro heq
  have h := congrArg UInt16.toNat heq
  simp only [UInt16.toNat_add, UInt16.toNat_ofNat'] at h
  rw [Memory.size] at hlap
  omega

namespace Memory

/-! ## Writing one after the other -/

theorem read_writeEach_of_notMem (m : Memory) (start address : Word) (bytes : List Byte)
    (hnot : ∀ i < bytes.length, start + UInt16.ofNat i ≠ address) :
    (m.writeEach start bytes).read address = m.read address := by
  induction bytes using List.reverseRecOn with
  | nil => rfl
  | append_singleton bytes byte ih =>
      rw [List.length_append, List.length_singleton] at hnot
      have hlast : start + UInt16.ofNat bytes.length ≠ address := hnot _ (by omega)
      rw [writeEach_append_singleton, read_write_of_ne _ _ hlast]
      exact ih fun i hi => hnot i (by omega)

/-- The last byte that is written to a cell stays in it. -/
theorem read_writeEach_of_last (m : Memory) (start : Word) {bytes : List Byte} {i : Nat}
    (hi : i < bytes.length)
    (hlast : ∀ j < bytes.length, i < j → start + UInt16.ofNat j ≠ start + UInt16.ofNat i) :
    (m.writeEach start bytes).read (start + UInt16.ofNat i) = bytes[i] := by
  induction bytes using List.reverseRecOn with
  | nil => simp at hi
  | append_singleton bytes byte ih =>
      rw [writeEach_append_singleton]
      simp only [List.length_append, List.length_singleton] at hi hlast
      rcases Nat.lt_succ_iff_lt_or_eq.mp hi with hbefore | rfl
      · have hne := hlast bytes.length (by omega) hbefore
        rw [read_write_of_ne _ _ hne, List.getElem_append_left hbefore]
        exact ih hbefore fun j hj => hlast j (by omega)
      · rw [read_write_self, List.getElem_concat_length rfl]

/-! ## Copying in one piece -/

theorem read_copy (m : Memory) (start : Nat) (bytes : List Byte)
    (hfits : start + bytes.length ≤ 65536) (address : Word) :
    (m.copy start bytes hfits).read address =
      if h : start ≤ address.toNat ∧ address.toNat < start + bytes.length then
        bytes[address.toNat - start]
      else m.read address := by
  have hstart : min start 65536 = start := by omega
  -- the three parts of the list of cells: before, in and after the place of the bytes
  simp only [read, copy, Vector.getElem_mk, List.getElem_toArray, List.getElem_append,
    List.getElem_take, List.getElem_drop, List.length_append, List.length_take,
    Vector.length_toList, Vector.getElem_toList, hstart]
  rcases Nat.lt_or_ge address.toNat start with hbefore | hfrom
  · have hbelow : address.toNat < start + bytes.length := by omega
    rw [dif_pos hbelow, dif_pos hbefore, dif_neg (by omega)]
  · rcases Nat.lt_or_ge address.toNat (start + bytes.length) with hbelow | hafter
    · rw [dif_pos hbelow, dif_neg (Nat.not_lt.mpr hfrom), dif_pos ⟨hfrom, hbelow⟩]
    · rw [dif_neg (Nat.not_lt.mpr hafter), dif_neg (by omega)]
      simp only [Nat.add_sub_of_le hafter]

theorem copy_eq_writeEach (m : Memory) (start : Word) (bytes : List Byte)
    (hfits : start.toNat + bytes.length ≤ 65536) :
    m.copy start.toNat bytes hfits = m.writeEach start bytes := by
  have hplace : ∀ i < bytes.length, (start + UInt16.ofNat i).toNat = start.toNat + i :=
    fun i hi => Word.toNat_add_ofNat (by rw [size]; omega)
  ext address
  rw [read_copy]
  split
  case isTrue hinside =>
    obtain ⟨i, hi⟩ := Nat.exists_eq_add_of_le hinside.1
    have hlt : i < bytes.length := by omega
    have haddress : address = start + UInt16.ofNat i := by
      rw [← UInt16.toNat_inj, hplace i hlt, hi]
    subst haddress
    rw [read_writeEach_of_last m start hlt fun j hj hij =>
      Word.add_ofNat_ne start hij (by rw [size]; omega)]
    simp only [hi, Nat.add_sub_cancel_left]
  case isFalse houtside =>
    rw [read_writeEach_of_notMem]
    rintro i hi rfl
    exact houtside (by rw [hplace i hi]; omega)

/-- Whether bytes are loaded in one piece or one by one, the memory is the same. -/
theorem load_eq_writeEach (m : Memory) (start : Word) (bytes : List Byte) :
    m.load start bytes = m.writeEach start bytes := by
  rw [load]
  split
  case isTrue hfits => exact copy_eq_writeEach m start bytes hfits
  case isFalse => rfl

/-! ## Loading -/

/-- A load changes only the cells that its bytes are written to. -/
theorem read_load_of_notMem (m : Memory) (start address : Word) (bytes : List Byte)
    (hnot : ∀ i < bytes.length, start + UInt16.ofNat i ≠ address) :
    (m.load start bytes).read address = m.read address := by
  rw [load_eq_writeEach]
  exact read_writeEach_of_notMem m start address bytes hnot

/-- A list no longer than the address space is found again, byte for byte. -/
theorem read_load_of_lt (m : Memory) (start : Word) {bytes : List Byte}
    (hsize : bytes.length ≤ size) {i : Nat} (hi : i < bytes.length) :
    (m.load start bytes).read (start + UInt16.ofNat i) = bytes[i] := by
  rw [load_eq_writeEach]
  exact read_writeEach_of_last m start hi fun j hj hij =>
    Word.add_ofNat_ne start hij (by omega)

/-! ## Bytes that stand in memory -/

theorem slice_eq_iff (m : Memory) (start : Word) (bytes : List Byte) :
    m.slice start bytes.length = bytes ↔
      ∀ (i : Nat) (hi : i < bytes.length), m.read (start + UInt16.ofNat i) = bytes[i] := by
  constructor
  · intro h i hi
    rw [← getElem_slice m start bytes.length i (by simpa using hi)]
    exact List.getElem_of_eq h _
  · intro h
    refine List.ext_getElem (length_slice ..) fun i _ hi => ?_
    rw [getElem_slice]
    exact h i hi

/-- A slice depends only on the cells that it covers. -/
theorem slice_congr {m n : Memory} {start : Word} {length : Nat}
    (hread : ∀ i < length, m.read (start + UInt16.ofNat i) = n.read (start + UInt16.ofNat i)) :
    m.slice start length = n.slice start length :=
  List.map_congr_left fun i hi => hread i (List.mem_range.mp hi)

theorem slice_add (m : Memory) (start : Word) (k l : Nat) :
    m.slice start (k + l) = m.slice start k ++ m.slice (start + UInt16.ofNat k) l := by
  simp only [slice, List.range_add, List.map_append, List.map_map]
  congr 1
  refine List.map_congr_left fun i _ => ?_
  rw [Function.comp_apply, UInt16.ofNat_add, UInt16.add_assoc]

/-- A part of a list that stands in memory stands as far from the start as it does in the list. -/
theorem slice_of_append {m : Memory} {start : Word} {front part back : List Byte}
    (h : m.slice start (front ++ (part ++ back)).length = front ++ (part ++ back)) :
    m.slice (start + UInt16.ofNat front.length) part.length = part := by
  rw [List.length_append, List.length_append, slice_add, slice_add] at h
  obtain ⟨-, h⟩ := List.append_inj h (length_slice ..)
  exact (List.append_inj h (length_slice ..)).1

end Memory

end Mos6502
