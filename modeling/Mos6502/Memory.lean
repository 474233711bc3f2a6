import Mos6502.Word

/-!
# Memory

A flat address space of 64 KiB.  Every address is a plain cell: a read has no effect, a
write changes one cell.  A memory is known by what its cells read (`Memory.ext`), and
each operation is described by what the cells read afterwards.
-/

namespace Mos6502

/-- The contents of the address space. -/
structure Memory where
  cells : Vector Byte 65536
deriving DecidableEq

namespace Memory

/-- The number of cells. -/
def size : Nat := 65536

/-- Every cell holds zero. -/
def zero : Memory :=
  ⟨Vector.replicate 65536 0⟩

/-- The byte at an address. -/
@[inline]
def read (m : Memory) (address : Word) : Byte :=
  have haddress : address.toNat < 65536 := address.toNat_lt
  m.cells[address.toNat]

/-- The memory in which one cell is replaced. -/
@[inline]
def write (m : Memory) (address : Word) (value : Byte) : Memory :=
  ⟨m.cells.set address.toNat value address.toNat_lt⟩

/-- The address stored at an address, low byte first; after the last cell comes the first. -/
def readWord (m : Memory) (address : Word) : Word :=
  Word.ofBytes (m.read (address + 1)) (m.read address)

/-- Bytes take the place of as many cells in one piece, which ends at or below the top of
memory. -/
def copy (m : Memory) (start : Nat) (bytes : List Byte) (hfits : start + bytes.length ≤ 65536) :
    Memory :=
  let cells := m.cells.toList
  ⟨⟨(cells.take start ++ bytes ++ cells.drop (start + bytes.length)).toArray, by
    simp only [cells, List.size_toArray, List.length_append, List.length_take, List.length_drop,
      Vector.length_toList]
    omega⟩⟩

/-- Bytes are written one after the other; after the last cell comes the first. -/
def writeEach (m : Memory) (start : Word) (bytes : List Byte) : Memory :=
  bytes.zipIdx.foldl (fun m (byte, i) => m.write (start + UInt16.ofNat i) byte) m

/-- Bytes are stored in consecutive cells: in one piece where they fit below the top of memory,
and otherwise one by one, so that the first cell comes after the last. -/
def load (m : Memory) (start : Word) (bytes : List Byte) : Memory :=
  if hfits : start.toNat + bytes.length ≤ size then m.copy start.toNat bytes hfits
  else m.writeEach start bytes

/-- The contents of consecutive cells; after the last cell comes the first. -/
def slice (m : Memory) (start : Word) (length : Nat) : List Byte :=
  (List.range length).map fun i => m.read (start + UInt16.ofNat i)

/-- All cells in the order of their addresses. -/
def toList (m : Memory) : List Byte :=
  m.cells.toList

/-- The memory with the given cells, if there are as many as addresses. -/
def ofList? (bytes : List Byte) : Option Memory :=
  if hlength : bytes.length = 65536 then
    some ⟨⟨bytes.toArray, by simpa using hlength⟩⟩
  else
    none

/-- How many cells do not hold zero. -/
def nonzero (m : Memory) : Nat :=
  m.cells.countP (· != 0)

/-- A one-line account of a memory: its size and how much of it is in use. -/
def summary (m : Memory) : String :=
  "Memory \x7b size: " ++ toString size ++ ", nonzero: " ++ toString m.nonzero ++ " \x7d"

/-! ## What the cells read -/

/-- Memories that read alike at every address are equal. -/
@[ext]
theorem ext {m n : Memory} (hread : ∀ address, m.read address = n.read address) : m = n := by
  obtain ⟨cells⟩ := m
  obtain ⟨others⟩ := n
  refine congrArg Memory.mk (Vector.ext fun i hi => ?_)
  have h := hread (UInt16.ofNat i)
  simp only [read, UInt16.toNat_ofNat', Nat.mod_eq_of_lt hi] at h
  exact h

@[simp]
theorem read_zero (address : Word) : zero.read address = 0 := by
  simp [read, zero]

/-- A write shows at its own address and nowhere else. -/
theorem read_write (m : Memory) (address other : Word) (value : Byte) :
    (m.write address value).read other = if address = other then value else m.read other := by
  simp only [read, write, Vector.getElem_set, UInt16.toNat_inj]

@[simp]
theorem read_write_self (m : Memory) (address : Word) (value : Byte) :
    (m.write address value).read address = value := by
  simp [read_write]

theorem read_write_of_ne (m : Memory) {address other : Word} (value : Byte)
    (hne : address ≠ other) : (m.write address value).read other = m.read other := by
  simp [read_write, hne]

theorem writeEach_append_singleton (m : Memory) (start : Word) (bytes : List Byte) (byte : Byte) :
    m.writeEach start (bytes ++ [byte]) =
      (m.writeEach start bytes).write (start + UInt16.ofNat bytes.length) byte := by
  simp [writeEach, List.zipIdx_append]

@[simp]
theorem length_slice (m : Memory) (start : Word) (length : Nat) :
    (m.slice start length).length = length := by
  simp [slice]

theorem getElem_slice (m : Memory) (start : Word) (length i : Nat)
    (hi : i < (m.slice start length).length) :
    (m.slice start length)[i] = m.read (start + UInt16.ofNat i) := by
  simp [slice]

@[simp]
theorem length_toList (m : Memory) : m.toList.length = 65536 := by
  simp [toList]

/-- The list of all cells determines the memory. -/
@[simp]
theorem ofList?_toList (m : Memory) : ofList? m.toList = some m := by
  obtain ⟨⟨cells, hcells⟩⟩ := m
  simp [ofList?, toList, hcells]

end Memory

end Mos6502
