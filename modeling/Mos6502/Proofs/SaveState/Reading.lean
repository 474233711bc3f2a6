import Mathlib.Logic.Basic
import Mos6502.Run.Execution
import Mos6502.SaveState

/-!
# What a save state describes

Writing a document and reading one are two programs, and this file ties them together through
what a document says.  `Describes document cpu` lists, part by part, which value a document has
to hold under which name for the machine `cpu`; nothing is said about other names or about the
order of the members.

Each reader accepts what its part asks for and no more (`byte?_eq_some_iff`,
`flags?_eq_some_iff`, `memory_eq_ok_iff`), the reader of an object accepts an object with the
eight parts (`ofMembers_eq_ok_iff`), and so a document without rows is read as the machine that
it describes (`decode_eq_ok_iff`).  The written document of a machine describes it
(`describes_encode`), hence restoring it gives back the machine.
-/

namespace Mos6502

/-! ## Values and members -/

namespace Json

theorem natural?_eq_some_iff {largest n : Nat} {document : Json} :
    document.natural? largest = some n ↔ document = .natural n ∧ n ≤ largest := by
  cases document with
  | natural value =>
      by_cases hle : value ≤ largest
      · simp only [natural?, if_pos hle, Option.some.injEq, natural.injEq]
        exact ⟨fun h => ⟨h, h ▸ hle⟩, And.left⟩
      · simp only [natural?, if_neg hle, natural.injEq]
        exact ⟨fun h => (nomatch h), fun h => absurd (h.1 ▸ h.2) hle⟩
  | _ => simp [natural?]

theorem bool?_eq_some_iff {b : Bool} {document : Json} :
    document.bool? = some b ↔ document = .bool b := by
  cases document <;> simp [bool?]

end Json

namespace SaveState

theorem bind_eq_ok_iff {x : Except Error α} {f : α → Except Error β} {b : β} :
    x >>= f = .ok b ↔ ∃ a, x = .ok a ∧ f a = .ok b := by
  cases x with
  | error e =>
      constructor
      · intro h
        cases h
      · rintro ⟨_, h, -⟩
        cases h
  | ok a =>
      constructor
      · exact fun h => ⟨a, rfl, h⟩
      · rintro ⟨_, h, hf⟩
        cases h
        exact hf

theorem part_eq_ok_iff {read : Json → Option α} {document : Json} {x : α} :
    part read document = .ok x ↔ read document = some x := by
  unfold part
  cases read document <;> simp [Option.elim]

/-- A member that was read is there and has the right form. -/
theorem member_eq_ok_some_iff {members : List (String × Json)} {key : String}
    {read : Json → Except Error α} {x : α} :
    member members key read = .ok (some x) ↔
      ∃ document, members.lookup key = some document ∧ read document = .ok x := by
  unfold member
  cases members.lookup key with
  | none => simp
  | some document =>
      simp only [Option.some.injEq, exists_eq_left']
      cases read document <;> simp [Functor.map, Except.map]

theorem member_part_eq_ok_some_iff {members : List (String × Json)} {key : String}
    {read : Json → Option α} {x : α} {form : Json}
    (hread : ∀ document, read document = some x ↔ document = form) :
    member members key (part read) = .ok (some x) ↔ members.lookup key = some form := by
  simp only [member_eq_ok_some_iff, part_eq_ok_iff, hread, exists_eq_right]

/-! ## The parts of the status -/

/-- A type whose values are the natural numbers up to a bound. -/
structure Ranges (toNat : α → Nat) (ofNat : Nat → α) (largest : Nat) : Prop where
  toNat_le : ∀ a, toNat a ≤ largest
  toNat_ofNat : ∀ n ≤ largest, toNat (ofNat n) = n
  ofNat_toNat : ∀ a, ofNat (toNat a) = a

theorem ranges_byte : Ranges UInt8.toNat UInt8.ofNat 255 where
  toNat_le b := Nat.le_of_lt_succ b.toNat_lt
  toNat_ofNat _ hn := UInt8.toNat_ofNat_of_lt' (Nat.lt_succ_of_le hn)
  ofNat_toNat _ := UInt8.ofNat_toNat

theorem ranges_word : Ranges UInt16.toNat UInt16.ofNat 65535 where
  toNat_le w := Nat.le_of_lt_succ w.toNat_lt
  toNat_ofNat _ hn := UInt16.toNat_ofNat_of_lt' (Nat.lt_succ_of_le hn)
  ofNat_toNat _ := UInt16.ofNat_toNat

theorem ranges_count : Ranges UInt64.toNat UInt64.ofNat largestCount where
  toNat_le c := Nat.le_of_lt_succ c.toNat_lt
  toNat_ofNat _ hn := UInt64.toNat_ofNat_of_lt' (Nat.lt_succ_of_le hn)
  ofNat_toNat _ := UInt64.ofNat_toNat

theorem Ranges.map_natural?_eq_some_iff {toNat : α → Nat} {ofNat : Nat → α} {largest : Nat}
    (h : Ranges toNat ofNat largest) {document : Json} {a : α} :
    (document.natural? largest).map ofNat = some a ↔ document = .natural (toNat a) := by
  simp only [Option.map_eq_some_iff, Json.natural?_eq_some_iff]
  constructor
  · rintro ⟨n, ⟨rfl, hn⟩, rfl⟩
    rw [h.toNat_ofNat n hn]
  · rintro rfl
    exact ⟨toNat a, ⟨rfl, h.toNat_le a⟩, h.ofNat_toNat a⟩

theorem byte?_eq_some_iff {document : Json} {b : Byte} :
    byte? document = some b ↔ document = .natural b.toNat :=
  ranges_byte.map_natural?_eq_some_iff

theorem word?_eq_some_iff {document : Json} {w : Word} :
    word? document = some w ↔ document = .natural w.toNat :=
  ranges_word.map_natural?_eq_some_iff

theorem count?_eq_some_iff {document : Json} {c : UInt64} :
    count? document = some c ↔ document = .natural c.toNat :=
  ranges_count.map_natural?_eq_some_iff

/-- The members of an object are the seven conditions. -/
structure FlagMembers (members : List (String × Json)) (f : Flags) : Prop where
  carry : members.lookup "carry" = some (.bool f.carry)
  zero : members.lookup "zero" = some (.bool f.zero)
  interrupt : members.lookup "interrupt" = some (.bool f.interrupt)
  decimal : members.lookup "decimal" = some (.bool f.decimal)
  breakCommand : members.lookup "break_command" = some (.bool f.breakCommand)
  overflow : members.lookup "overflow" = some (.bool f.overflow)
  negative : members.lookup "negative" = some (.bool f.negative)

/-- The seven conditions in a row. -/
def flagRow (f : Flags) : List Json :=
  [.bool f.carry, .bool f.zero, .bool f.interrupt, .bool f.decimal, .bool f.breakCommand,
    .bool f.overflow, .bool f.negative]

/-- A document stands for flags, by name or in a row. -/
def DescribesFlags (document : Json) (f : Flags) : Prop :=
  (∃ members, document = .object members ∧ FlagMembers members f) ∨
    document = .array (flagRow f)

theorem flags?_object_eq_some_iff {members : List (String × Json)} {f : Flags} :
    flags? (.object members) = some f ↔ FlagMembers members f := by
  have hmember (key : String) (b : Bool) :
      (members.lookup key).bind Json.bool? = some b ↔ members.lookup key = some (.bool b) := by
    rw [Option.bind_eq_some_iff]
    simp only [Json.bool?_eq_some_iff, exists_eq_right]
  simp only [flags?, Option.bind_eq_bind, Option.bind_eq_some_iff, hmember, Option.pure_def,
    Option.some.injEq]
  constructor
  · rintro ⟨carry, hcarry, zero, hzero, interrupt, hinterrupt, decimal, hdecimal, breakCommand,
      hbreakCommand, overflow, hoverflow, negative, hnegative, rfl⟩
    exact ⟨hcarry, hzero, hinterrupt, hdecimal, hbreakCommand, hoverflow, hnegative⟩
  · rintro ⟨hcarry, hzero, hinterrupt, hdecimal, hbreakCommand, hoverflow, hnegative⟩
    exact ⟨_, hcarry, _, hzero, _, hinterrupt, _, hdecimal, _, hbreakCommand, _, hoverflow, _,
      hnegative, rfl⟩

theorem flags?_array_eq_some_iff {items : List Json} {f : Flags} :
    flags? (.array items) = some f ↔ items = flagRow f := by
  unfold flags?
  split
  · rename_i carry zero interrupt decimal breakCommand overflow negative heq
    cases heq
    simp only [Option.bind_eq_bind, Option.bind_eq_some_iff, Json.bool?_eq_some_iff,
      Option.pure_def, Option.some.injEq]
    constructor
    · rintro ⟨_, rfl, _, rfl, _, rfl, _, rfl, _, rfl, _, rfl, _, rfl, rfl⟩
      rfl
    · intro hrow
      cases hrow
      exact ⟨_, rfl, _, rfl, _, rfl, _, rfl, _, rfl, _, rfl, _, rfl, rfl⟩
  · rename_i heq
    cases heq
  · rename_i hseven _
    constructor
    · intro h
      cases h
    · exact fun h => absurd (congrArg Json.array h) (hseven _ _ _ _ _ _ _)

theorem flags?_eq_some_iff {document : Json} {f : Flags} :
    flags? document = some f ↔ DescribesFlags document f := by
  cases document with
  | object members => simp [DescribesFlags, flags?_object_eq_some_iff]
  | array items => simp [DescribesFlags, flags?_array_eq_some_iff]
  | _ => simp [DescribesFlags, flags?]

theorem mapM_byte?_eq_some_iff {items : List Json} {bytes : List Byte} :
    items.mapM byte? = some bytes ↔ items = bytes.map fun byte => .natural byte.toNat := by
  induction items generalizing bytes with
  | nil => cases bytes <;> simp
  | cons item items ih =>
      simp only [List.mapM_cons, Option.bind_eq_bind, Option.bind_eq_some_iff,
        byte?_eq_some_iff, ih, Option.pure_def, Option.some.injEq]
      constructor
      · rintro ⟨byte, rfl, rest, rfl, rfl⟩
        rfl
      · intro h
        cases bytes with
        | nil => cases h
        | cons byte rest =>
            cases h
            exact ⟨byte, rfl, rest, rfl, rfl⟩

theorem ofList?_eq_some_iff {bytes : List Byte} {m : Memory} :
    Memory.ofList? bytes = some m ↔ bytes = m.toList := by
  constructor
  · intro h
    unfold Memory.ofList? at h
    split at h
    · cases h
      rfl
    · cases h
  · rintro rfl
    exact Memory.ofList?_toList m

theorem memory_eq_ok_iff {document : Json} {m : Memory} :
    memory document = .ok m ↔ document = encodeMemory m := by
  unfold memory encodeMemory
  cases document with
  | array items =>
      simp only [bind_eq_ok_iff, part_eq_ok_iff, mapM_byte?_eq_some_iff, Json.array.injEq]
      constructor
      · rintro ⟨bytes, rfl, h⟩
        cases hm : Memory.ofList? bytes with
        | none =>
            rw [hm] at h
            cases h
        | some m' =>
            rw [hm] at h
            cases h
            rw [ofList?_eq_some_iff.mp hm]
      · rintro rfl
        refine ⟨m.toList, rfl, ?_⟩
        rw [Memory.ofList?_toList]
        rfl
  | _ =>
      constructor
      · intro h
        cases h
      · intro h
        cases h

/-! ## The status and the document -/

/-- The members of an object are the eight parts of a machine. -/
structure StatusMembers (members : List (String × Json)) (cpu : Cpu) : Prop where
  a : members.lookup "a" = some (.natural cpu.a.toNat)
  x : members.lookup "x" = some (.natural cpu.x.toNat)
  y : members.lookup "y" = some (.natural cpu.y.toNat)
  sp : members.lookup "sp" = some (.natural cpu.sp.toNat)
  pc : members.lookup "pc" = some (.natural cpu.pc.toNat)
  flags : ∃ document, members.lookup "flags" = some document ∧ DescribesFlags document cpu.flags
  cycles : members.lookup "cycles" = some (.natural cpu.cycles.toNat)
  memory : members.lookup "memory" = some (encodeMemory cpu.memory)

/-- A document is a save state of a machine, whatever else it holds. -/
structure Describes (document : Json) (cpu : Cpu) : Prop where
  version : document.get? "version" = some (.natural 1)
  system : document.get? "system" = some (.string "6502")
  status : ∃ members, document.get? "status" = some (.object members) ∧ StatusMembers members cpu

theorem ofMembers_eq_ok_iff {members : List (String × Json)} {cpu : Cpu} :
    ofMembers members = .ok cpu ↔ StatusMembers members cpu := by
  have hbyte (key : String) (b : Byte) : member members key (part byte?) = .ok (some b) ↔
      members.lookup key = some (.natural b.toNat) :=
    member_part_eq_ok_some_iff fun _ => byte?_eq_some_iff
  have hword (key : String) (w : Word) : member members key (part word?) = .ok (some w) ↔
      members.lookup key = some (.natural w.toNat) :=
    member_part_eq_ok_some_iff fun _ => word?_eq_some_iff
  have hcount (key : String) (c : UInt64) : member members key (part count?) = .ok (some c) ↔
      members.lookup key = some (.natural c.toNat) :=
    member_part_eq_ok_some_iff fun _ => count?_eq_some_iff
  have hflags (key : String) (f : Flags) : member members key (part flags?) = .ok (some f) ↔
      ∃ document, members.lookup key = some document ∧ DescribesFlags document f := by
    simp only [member_eq_ok_some_iff, part_eq_ok_iff, flags?_eq_some_iff]
  have hmemory (key : String) (m : Memory) : member members key memory = .ok (some m) ↔
      members.lookup key = some (encodeMemory m) := by
    simp only [member_eq_ok_some_iff, memory_eq_ok_iff, exists_eq_right]
  simp only [ofMembers, bind_eq_ok_iff]
  constructor
  · rintro ⟨a, ha, cycles, hcycles, flags, hflag, cells, hcells, pc, hpc, sp, hsp, x, hx, y, hy, h⟩
    split at h
    · cases h
      exact
        { a := (hbyte ..).mp ha
          x := (hbyte ..).mp hx
          y := (hbyte ..).mp hy
          sp := (hbyte ..).mp hsp
          pc := (hword ..).mp hpc
          flags := (hflags ..).mp hflag
          cycles := (hcount ..).mp hcycles
          memory := (hmemory ..).mp hcells }
    · cases h
  · intro h
    exact ⟨_, (hbyte ..).mpr h.a, _, (hcount ..).mpr h.cycles, _, (hflags ..).mpr h.flags,
      _, (hmemory ..).mpr h.memory, _, (hword ..).mpr h.pc, _, (hbyte ..).mpr h.sp,
      _, (hbyte ..).mpr h.x, _, (hbyte ..).mpr h.y, rfl⟩

/-- The version that a document names; zero if it names none that a counter could hold. -/
def versionOf (document : Json) : Nat :=
  match document.get? "version" with
  | some (.natural version) => if version < UInt64.size then version else 0
  | _ => 0

/-- The system that a document names; empty if it names none. -/
def systemOf (document : Json) : String :=
  match document.get? "system" with
  | some (.string system) => system
  | _ => ""

theorem versionOf_eq_one_iff {document : Json} :
    versionOf document = 1 ↔ document.get? "version" = some (.natural 1) := by
  constructor
  · intro h
    unfold versionOf at h
    split at h
    · rename_i version heq
      split at h
      · rw [heq, h]
      · cases h
    · cases h
  · intro h
    rw [versionOf, h]
    rfl

theorem systemOf_eq_iff {document : Json} :
    systemOf document = "6502" ↔ document.get? "system" = some (.string "6502") := by
  constructor
  · intro h
    unfold systemOf at h
    split at h
    · rename_i heq
      rw [heq, h]
    · exact absurd h (by decide)
  · intro h
    rw [systemOf, h]

/-- The version is looked at first, then the system, then the status. -/
theorem decode_eq (document : Json) :
    decode document =
      if versionOf document ≠ 1 then .error (.version (versionOf document))
      else if systemOf document ≠ "6502" then .error (.system (systemOf document))
      else (document.get? "status").elim (.error .malformed) decodeStatus := by
  have hversion : ((document.get? "version").bind (Json.natural? largestCount)).getD 0 =
      versionOf document := by
    unfold versionOf
    cases document.get? "version" with
    | none => rfl
    | some version =>
        cases version with
        | natural n =>
            have hle : n ≤ largestCount ↔ n < UInt64.size := by
              rw [largestCount, UInt64.size]
              omega
            simp only [Option.bind_some, Json.natural?, hle]
            split <;> rfl
        | _ => rfl
  have hsystem : ((document.get? "system").bind Json.string?).getD "" = systemOf document := by
    unfold systemOf
    cases document.get? "system" with
    | none => rfl
    | some system => cases system <;> rfl
  unfold decode
  rw [hversion, hsystem]
  rfl

/-- A document whose status is no row is read as the machine that it describes. -/
theorem decode_eq_ok_iff {document : Json} {cpu : Cpu}
    (hrow : ∀ items, document.get? "status" ≠ some (.array items)) :
    decode document = .ok cpu ↔ Describes document cpu := by
  rw [decode_eq]
  constructor
  · intro h
    split at h
    · cases h
    rename_i hversion
    split at h
    · cases h
    rename_i hsystem
    refine ⟨versionOf_eq_one_iff.mp (not_ne_iff.mp hversion),
      systemOf_eq_iff.mp (not_ne_iff.mp hsystem), ?_⟩
    cases hstatus : document.get? "status" with
    | none =>
        rw [hstatus] at h
        cases h
    | some status =>
        rw [hstatus] at h
        cases status with
        | object members => exact ⟨members, rfl, ofMembers_eq_ok_iff.mp h⟩
        | array items => exact absurd hstatus (hrow items)
        | _ => cases h
  · rintro ⟨hversion, hsystem, members, hstatus, hmembers⟩
    rw [if_neg (not_ne_iff.mpr (versionOf_eq_one_iff.mpr hversion)),
      if_neg (not_ne_iff.mpr (systemOf_eq_iff.mpr hsystem)), hstatus]
    exact ofMembers_eq_ok_iff.mpr hmembers

/-! ## Writing -/

theorem describes_encode (cpu : Cpu) : Describes (encode cpu) cpu where
  version := rfl
  system := rfl
  status := by
    refine ⟨_, rfl, ?_⟩
    have hflags : FlagMembers
        [("break_command", .bool cpu.flags.breakCommand), ("carry", .bool cpu.flags.carry),
          ("decimal", .bool cpu.flags.decimal), ("interrupt", .bool cpu.flags.interrupt),
          ("negative", .bool cpu.flags.negative), ("overflow", .bool cpu.flags.overflow),
          ("zero", .bool cpu.flags.zero)] cpu.flags :=
      ⟨rfl, rfl, rfl, rfl, rfl, rfl, rfl⟩
    exact ⟨rfl, rfl, rfl, rfl, rfl, ⟨_, rfl, .inl ⟨_, rfl, hflags⟩⟩, rfl, rfl⟩

theorem decode_encode (cpu : Cpu) : decode (encode cpu) = .ok cpu :=
  (decode_eq_ok_iff fun _ h => by cases h).mpr (describes_encode cpu)

end SaveState

/-- A machine that takes on the save state of another one is the other one from then on: it
steps alike, at the same cost, and runs every program to the same answer. -/
theorem Cpu.restore_encode (saved cpu : Cpu) :
    let restored := (cpu.restore (SaveState.encode saved)).2
    (cpu.restore (SaveState.encode saved)).1 = .ok () ∧ restored = saved ∧
      (∀ n, (restored.after n).step = (saved.after n).step ∧ restored.spent n = saved.spent n) ∧
      ∀ entry program limit fuel,
        restored.execute entry program limit fuel = saved.execute entry program limit fuel := by
  intro restored
  have hrestore : cpu.restore (SaveState.encode saved) = (.ok (), saved) := by
    rw [restore, SaveState.decode_encode]
  have hsame : restored = saved := congrArg Prod.snd hrestore
  refine ⟨congrArg Prod.fst hrestore, hsame, fun n => ?_, fun entry program limit fuel => ?_⟩
  · rw [hsame]
    exact ⟨rfl, rfl⟩
  · rw [hsame]

end Mos6502
