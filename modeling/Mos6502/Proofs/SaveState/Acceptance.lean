import Mos6502.Proofs.SaveState.Reading

/-!
# Which documents are accepted

Every document has one of four outcomes: its version is refused, its system is refused, a part
of its status is refused, or it is accepted.  `Acceptable` says what the status has to look like
for the last, in terms of the document alone: numbers of a certain size, truth values, an array
of a certain length.  It is equivalent to there being a machine that the document describes
(`isStatus_iff`), and so to the document being read.

Nothing is lost but what has no meaning.  `tidy` drops the members that have no meaning, puts
the others in the order of their names and writes a row of flags as an object; saving the machine
that was read from a document gives the tidy document (`encode_eq_tidy`).
-/

namespace Mos6502

namespace Json

/-- A natural number of at most the given size. -/
def IsNatural (largest : Nat) (document : Json) : Prop :=
  ∃ n ≤ largest, document = .natural n

/-- A truth value. -/
def IsBool (document : Json) : Prop :=
  ∃ b, document = .bool b

end Json

namespace SaveState

open Json

/-! ## The form of a status -/

/-- A member is there and has a form. -/
def Has (members : List (String × Json)) (key : String) (form : Json → Prop) : Prop :=
  ∃ document, members.lookup key = some document ∧ form document

/-- The names of the flags in the order of their declaration. -/
def flagNames : List String :=
  ["carry", "zero", "interrupt", "decimal", "break_command", "overflow", "negative"]

/-- Seven truth values, by name or in a row. -/
inductive IsFlags : Json → Prop
  | named {members : List (String × Json)} (hnamed : ∀ key ∈ flagNames, Has members key IsBool) :
      IsFlags (.object members)
  | row {items : List Json} (hlength : items.length = 7) (hitems : ∀ item ∈ items, IsBool item) :
      IsFlags (.array items)

/-- An array with one byte for each cell. -/
def IsMemory (document : Json) : Prop :=
  ∃ items, document = .array items ∧ items.length = 65536 ∧ ∀ item ∈ items, IsNatural 255 item

/-- The members of an object that a status needs. -/
structure IsStatus (members : List (String × Json)) : Prop where
  a : Has members "a" (IsNatural 255)
  x : Has members "x" (IsNatural 255)
  y : Has members "y" (IsNatural 255)
  sp : Has members "sp" (IsNatural 255)
  pc : Has members "pc" (IsNatural 65535)
  cycles : Has members "cycles" (IsNatural (UInt64.size - 1))
  flags : Has members "flags" IsFlags
  memory : Has members "memory" IsMemory

/-- The status of a document is an object with the eight parts of a machine. -/
def Acceptable (document : Json) : Prop :=
  ∃ members, document.get? "status" = some (.object members) ∧ IsStatus members

/-! ## A status of that form describes a machine -/

theorem Ranges.isNatural_iff {toNat : α → Nat} {ofNat : Nat → α} {largest : Nat}
    (h : Ranges toNat ofNat largest) {document : Json} :
    IsNatural largest document ↔ ∃ a, document = .natural (toNat a) := by
  constructor
  · rintro ⟨n, hn, rfl⟩
    exact ⟨ofNat n, by rw [h.toNat_ofNat n hn]⟩
  · rintro ⟨a, rfl⟩
    exact ⟨toNat a, h.toNat_le a, rfl⟩

theorem isFlags_iff {document : Json} :
    IsFlags document ↔ ∃ f, DescribesFlags document f := by
  constructor
  · rintro (hnamed | ⟨hlength, hitems⟩)
    · simp only [flagNames, List.forall_mem_cons, Has, IsBool] at hnamed
      obtain ⟨⟨_, hcarry, carry, rfl⟩, ⟨_, hzero, zero, rfl⟩, ⟨_, hinterrupt, interrupt, rfl⟩,
        ⟨_, hdecimal, decimal, rfl⟩, ⟨_, hbreakCommand, breakCommand, rfl⟩,
        ⟨_, hoverflow, overflow, rfl⟩, ⟨_, hnegative, negative, rfl⟩, -⟩ := hnamed
      exact ⟨⟨carry, zero, interrupt, decimal, breakCommand, overflow, negative⟩,
        .inl ⟨_, rfl, hcarry, hzero, hinterrupt, hdecimal, hbreakCommand, hoverflow, hnegative⟩⟩
    · rename_i items
      match items, hlength with
      | [carry, zero, interrupt, decimal, breakCommand, overflow, negative], _ =>
          simp only [List.forall_mem_cons, IsBool] at hitems
          obtain ⟨⟨carry, rfl⟩, ⟨zero, rfl⟩, ⟨interrupt, rfl⟩, ⟨decimal, rfl⟩,
            ⟨breakCommand, rfl⟩, ⟨overflow, rfl⟩, ⟨negative, rfl⟩, -⟩ := hitems
          exact ⟨⟨carry, zero, interrupt, decimal, breakCommand, overflow, negative⟩, .inr rfl⟩
  · rintro ⟨f, ⟨members, rfl, hmembers⟩ | rfl⟩
    · refine .named ?_
      simp only [flagNames, List.forall_mem_cons]
      exact ⟨⟨_, hmembers.carry, _, rfl⟩, ⟨_, hmembers.zero, _, rfl⟩,
        ⟨_, hmembers.interrupt, _, rfl⟩, ⟨_, hmembers.decimal, _, rfl⟩,
        ⟨_, hmembers.breakCommand, _, rfl⟩, ⟨_, hmembers.overflow, _, rfl⟩,
        ⟨_, hmembers.negative, _, rfl⟩, List.forall_mem_nil _⟩
    · refine .row rfl ?_
      simp [flagRow, IsBool]

theorem exists_bytes {items : List Json} (hitems : ∀ item ∈ items, IsNatural 255 item) :
    ∃ bytes : List Byte, items = bytes.map fun byte => .natural byte.toNat := by
  induction items with
  | nil => exact ⟨[], rfl⟩
  | cons item items ih =>
      rw [List.forall_mem_cons] at hitems
      obtain ⟨byte, rfl⟩ := ranges_byte.isNatural_iff.mp hitems.1
      obtain ⟨bytes, rfl⟩ := ih hitems.2
      exact ⟨byte :: bytes, rfl⟩

theorem isMemory_iff {document : Json} : IsMemory document ↔ ∃ m, document = encodeMemory m := by
  constructor
  · rintro ⟨items, rfl, hlength, hitems⟩
    obtain ⟨bytes, rfl⟩ := exists_bytes hitems
    rw [List.length_map] at hlength
    have hmemory : Memory.ofList? bytes = some ⟨⟨bytes.toArray, by simpa using hlength⟩⟩ :=
      dif_pos hlength
    exact ⟨_, by rw [encodeMemory, ← ofList?_eq_some_iff.mp hmemory]⟩
  · rintro ⟨m, rfl⟩
    refine ⟨_, rfl, ?_, ?_⟩
    · rw [List.length_map, Memory.length_toList]
    · intro item hitem
      obtain ⟨byte, -, rfl⟩ := List.mem_map.mp hitem
      exact ranges_byte.isNatural_iff.mpr ⟨byte, rfl⟩

theorem isStatus_iff {members : List (String × Json)} :
    IsStatus members ↔ ∃ cpu, StatusMembers members cpu := by
  constructor
  · rintro ⟨⟨_, ha, ha'⟩, ⟨_, hx, hx'⟩, ⟨_, hy, hy'⟩, ⟨_, hsp, hsp'⟩, ⟨_, hpc, hpc'⟩,
      ⟨_, hcycles, hcycles'⟩, ⟨_, hflags, hflags'⟩, ⟨_, hmemory, hmemory'⟩⟩
    obtain ⟨a, rfl⟩ := ranges_byte.isNatural_iff.mp ha'
    obtain ⟨x, rfl⟩ := ranges_byte.isNatural_iff.mp hx'
    obtain ⟨y, rfl⟩ := ranges_byte.isNatural_iff.mp hy'
    obtain ⟨sp, rfl⟩ := ranges_byte.isNatural_iff.mp hsp'
    obtain ⟨pc, rfl⟩ := ranges_word.isNatural_iff.mp hpc'
    obtain ⟨cycles, rfl⟩ := ranges_count.isNatural_iff.mp hcycles'
    obtain ⟨flags, hflags'⟩ := isFlags_iff.mp hflags'
    obtain ⟨memory, rfl⟩ := isMemory_iff.mp hmemory'
    exact ⟨⟨⟨a, x, y, sp, pc, flags⟩, cycles, memory⟩, ha, hx, hy, hsp, hpc,
      ⟨_, hflags, hflags'⟩, hcycles, hmemory⟩
  · rintro ⟨cpu, h⟩
    obtain ⟨flags, hflags, hflags'⟩ := h.flags
    exact
      { a := ⟨_, h.a, ranges_byte.isNatural_iff.mpr ⟨_, rfl⟩⟩
        x := ⟨_, h.x, ranges_byte.isNatural_iff.mpr ⟨_, rfl⟩⟩
        y := ⟨_, h.y, ranges_byte.isNatural_iff.mpr ⟨_, rfl⟩⟩
        sp := ⟨_, h.sp, ranges_byte.isNatural_iff.mpr ⟨_, rfl⟩⟩
        pc := ⟨_, h.pc, ranges_word.isNatural_iff.mpr ⟨_, rfl⟩⟩
        cycles := ⟨_, h.cycles, ranges_count.isNatural_iff.mpr ⟨_, rfl⟩⟩
        flags := ⟨_, hflags, isFlags_iff.mpr ⟨_, hflags'⟩⟩
        memory := ⟨_, h.memory, isMemory_iff.mpr ⟨_, rfl⟩⟩ }

/-! ## Refusals of a part -/

/-- The refusals that are about the form of a part. -/
def Error.OfForm : Error → Prop
  | .memorySize _ | .malformed => True
  | .version _ | .system _ => False

/-- A reading that fails for the form of a part only. -/
def FormOnly (x : Except Error α) : Prop :=
  ∀ error, x = .error error → error.OfForm

theorem formOnly_ok (a : α) : FormOnly (.ok a) :=
  fun _ h => by cases h

theorem formOnly_malformed : FormOnly (.error .malformed : Except Error α) :=
  fun _ h => by cases h; trivial

theorem FormOnly.bind {x : Except Error α} {f : α → Except Error β} (hx : FormOnly x)
    (hf : ∀ a, FormOnly (f a)) : FormOnly (x >>= f) := by
  cases x with
  | error e => exact fun _ h => by cases h; exact hx e rfl
  | ok a => exact hf a

theorem formOnly_part (read : Json → Option α) (document : Json) :
    FormOnly (part read document) := by
  unfold part
  cases read document with
  | none => exact formOnly_malformed
  | some a => exact formOnly_ok a

theorem formOnly_memory (document : Json) : FormOnly (memory document) := by
  unfold memory
  cases document with
  | array items =>
      refine (formOnly_part _ _).bind fun bytes => ?_
      cases Memory.ofList? bytes with
      | none => exact fun _ h => by cases h; trivial
      | some m => exact formOnly_ok m
  | _ => exact formOnly_malformed

theorem formOnly_member (members : List (String × Json)) (key : String)
    {read : Json → Except Error α} (hread : ∀ document, FormOnly (read document)) :
    FormOnly (member members key read) := by
  unfold member
  cases members.lookup key with
  | none => exact formOnly_ok none
  | some document => exact (hread document).bind fun a => formOnly_ok (some a)

theorem formOnly_ofMembers (members : List (String × Json)) : FormOnly (ofMembers members) := by
  have hplain {α : Type} (key : String) (read : Json → Option α) :
      FormOnly (member members key (part read)) :=
    formOnly_member members key (formOnly_part read)
  refine (hplain _ _).bind fun a => (hplain _ _).bind fun cycles => (hplain _ _).bind fun flags =>
    (formOnly_member members _ formOnly_memory).bind fun memory => (hplain _ _).bind fun pc =>
    (hplain _ _).bind fun sp => (hplain _ _).bind fun x => (hplain _ _).bind fun y => ?_
  split
  · exact formOnly_ok _
  · exact formOnly_malformed

theorem formOnly_decodeStatus {status : Json} (hrow : ∀ items, status ≠ .array items) :
    FormOnly (decodeStatus status) := by
  cases status with
  | object members => exact formOnly_ofMembers members
  | array items => exact absurd rfl (hrow items)
  | _ => exact formOnly_malformed

/-! ## The tidy document -/

/-- The members with the given names in the order of the names, each brought into a form. -/
def keep (forms : List (String × (Json → Json))) (members : List (String × Json)) :
    List (String × Json) :=
  forms.filterMap fun (key, form) => (members.lookup key).map fun document => (key, form document)

theorem keep_cons_of_lookup {forms : List (String × (Json → Json))}
    {members : List (String × Json)} {key : String} {form : Json → Json} {document : Json}
    (h : members.lookup key = some document) :
    keep ((key, form) :: forms) members = (key, form document) :: keep forms members := by
  simp only [keep, List.filterMap_cons, h, Option.map_some]

/-- The names of the flags in alphabetical order. -/
def flagForms : List (String × (Json → Json)) :=
  [("break_command", id), ("carry", id), ("decimal", id), ("interrupt", id), ("negative", id),
    ("overflow", id), ("zero", id)]

/-- Flags by name, and nothing else. -/
def tidyFlags : Json → Json
  | .object members => .object (keep flagForms members)
  | .array items => .object (keep flagForms (flagNames.zip items))
  | document => document

/-- The parts of a machine, and nothing else. -/
def tidyStatus : Json → Json
  | .object members =>
      .object <| keep
        [("a", id), ("cycles", id), ("flags", tidyFlags), ("memory", id), ("pc", id), ("sp", id),
          ("x", id), ("y", id)] members
  | document => document

/-- A document without the members that have no meaning, the others in alphabetical order, and
the flags by name. -/
def tidy : Json → Json
  | .object members =>
      .object (keep [("status", tidyStatus), ("system", id), ("version", id)] members)
  | document => document

theorem encodeFlags_eq_of_members {members : List (String × Json)} {f : Flags}
    (h : FlagMembers members f) : encodeFlags f = .object (keep flagForms members) := by
  rw [flagForms, keep_cons_of_lookup h.breakCommand, keep_cons_of_lookup h.carry,
    keep_cons_of_lookup h.decimal, keep_cons_of_lookup h.interrupt,
    keep_cons_of_lookup h.negative, keep_cons_of_lookup h.overflow, keep_cons_of_lookup h.zero]
  rfl

theorem encodeFlags_eq_tidy {document : Json} {f : Flags} (h : DescribesFlags document f) :
    encodeFlags f = tidyFlags document := by
  rcases h with ⟨members, rfl, hmembers⟩ | rfl
  · exact encodeFlags_eq_of_members hmembers
  · exact encodeFlags_eq_of_members ⟨rfl, rfl, rfl, rfl, rfl, rfl, rfl⟩

theorem encodeStatus_eq_tidy {members : List (String × Json)} {cpu : Cpu}
    (h : StatusMembers members cpu) : encodeStatus cpu = tidyStatus (.object members) := by
  obtain ⟨flags, hflags, hflags'⟩ := h.flags
  rw [tidyStatus, keep_cons_of_lookup h.a, keep_cons_of_lookup h.cycles,
    keep_cons_of_lookup hflags, keep_cons_of_lookup h.memory, keep_cons_of_lookup h.pc,
    keep_cons_of_lookup h.sp, keep_cons_of_lookup h.x, keep_cons_of_lookup h.y,
    ← encodeFlags_eq_tidy hflags']
  rfl

/-- Saving the machine that a document describes gives the tidy document. -/
theorem encode_eq_tidy {document : Json} {cpu : Cpu} (h : Describes document cpu) :
    encode cpu = tidy document := by
  obtain ⟨hversion, hsystem, status, hstatus, hmembers⟩ := h
  cases document with
  | object members =>
      rw [tidy, keep_cons_of_lookup hstatus, keep_cons_of_lookup hsystem,
        keep_cons_of_lookup hversion, ← encodeStatus_eq_tidy hmembers]
      rfl
  | _ => cases hversion

/-! ## The outcomes -/

theorem exists_describes {document : Json} (hversion : document.get? "version" = some (.natural 1))
    (hsystem : document.get? "system" = some (.string "6502")) (h : Acceptable document) :
    ∃ cpu, Describes document cpu := by
  obtain ⟨members, hstatus, hmembers⟩ := h
  obtain ⟨cpu, hcpu⟩ := isStatus_iff.mp hmembers
  exact ⟨cpu, hversion, hsystem, members, hstatus, hcpu⟩

theorem Describes.acceptable {document : Json} {cpu : Cpu} (h : Describes document cpu) :
    Acceptable document := by
  obtain ⟨members, hstatus, hmembers⟩ := h.status
  exact ⟨members, hstatus, isStatus_iff.mpr ⟨cpu, hmembers⟩⟩

/-- A document with the right heading and an unacceptable status is refused for its form. -/
theorem exists_decode_eq_error {document : Json}
    (hrow : ∀ items, document.get? "status" ≠ some (.array items))
    (hversion : document.get? "version" = some (.natural 1))
    (hsystem : document.get? "system" = some (.string "6502")) (h : ¬Acceptable document) :
    ∃ error : Error, error.OfForm ∧ decode document = .error error := by
  cases hdecode : decode document with
  | ok cpu => exact absurd ((decode_eq_ok_iff hrow).mp hdecode).acceptable h
  | error error =>
      refine ⟨error, ?_, rfl⟩
      rw [decode_eq, if_neg (not_ne_iff.mpr (versionOf_eq_one_iff.mpr hversion)),
        if_neg (not_ne_iff.mpr (systemOf_eq_iff.mpr hsystem))] at hdecode
      cases hstatus : document.get? "status" with
      | none =>
          rw [hstatus] at hdecode
          exact formOnly_malformed error hdecode
      | some status =>
          rw [hstatus] at hdecode
          refine formOnly_decodeStatus ?_ error hdecode
          rintro items rfl
          exact hrow items hstatus

end SaveState

namespace Cpu

open SaveState

theorem restore_of_decode_error {document : Json} {error : SaveState.Error}
    (h : decode document = .error error) (cpu : Cpu) :
    cpu.restore document = (.error error, cpu) := by
  rw [restore, h]

/-- What becomes of a machine that is given a document, whatever the document is and whatever
the machine was.  A refused document leaves it alone, for the version first, then for the system,
then for the form; an accepted one alone decides what the machine is afterwards, and saving it
gives the document back, tidied. -/
theorem restore_outcome (document : Json)
    (hrow : ∀ items, document.get? "status" ≠ some (.array items)) :
    (document.get? "version" ≠ some (.natural 1) →
      ∀ cpu : Cpu, cpu.restore document = (.error (.version (versionOf document)), cpu)) ∧
    (document.get? "version" = some (.natural 1) →
      document.get? "system" ≠ some (.string "6502") →
      ∀ cpu : Cpu, cpu.restore document = (.error (.system (systemOf document)), cpu)) ∧
    (document.get? "version" = some (.natural 1) →
      document.get? "system" = some (.string "6502") →
      (Acceptable document → ∃ restored : Cpu,
        (∀ cpu : Cpu, cpu.restore document = (.ok (), restored)) ∧
        restored.memory.toList.length = 65536 ∧ encode restored = tidy document) ∧
      (¬Acceptable document → ∃ error : SaveState.Error, error.OfForm ∧
        ∀ cpu : Cpu, cpu.restore document = (.error error, cpu))) := by
  refine ⟨fun hversion => restore_of_decode_error ?_,
    fun hversion hsystem => restore_of_decode_error ?_,
    fun hversion hsystem => ⟨fun h => ?_, fun h => ?_⟩⟩
  · rw [decode_eq, if_pos (mt versionOf_eq_one_iff.mp hversion)]
  · rw [decode_eq, if_neg (not_ne_iff.mpr (versionOf_eq_one_iff.mpr hversion)),
      if_pos (mt systemOf_eq_iff.mp hsystem)]
  · obtain ⟨restored, hdescribes⟩ := exists_describes hversion hsystem h
    refine ⟨restored, fun cpu => ?_, Memory.length_toList _, encode_eq_tidy hdescribes⟩
    rw [restore, (decode_eq_ok_iff hrow).mpr hdescribes]
  · obtain ⟨error, hform, hdecode⟩ := exists_decode_eq_error hrow hversion hsystem h
    exact ⟨error, hform, restore_of_decode_error hdecode⟩

/-- A status with its flags in a row and a member that has no meaning is taken on, and is saved
with the flags by name and without that member. -/
theorem restore_of_row_of_flags :
    let parts (flags : Json) : List (String × Json) :=
      [("a", .natural 7), ("cycles", .natural 1000), ("flags", flags),
        ("memory", .array (List.replicate 65536 (.natural 234))), ("pc", .natural 512),
        ("sp", .natural 253), ("x", .natural 0), ("y", .natural 255)]
    let heading : List (String × Json) := [("system", .string "6502"), ("version", .natural 1)]
    let row : Json := .array
      [.bool true, .bool false, .bool false, .bool false, .bool false, .bool false, .bool true]
    let named : Json := .object
      [("break_command", .bool false), ("carry", .bool true), ("decimal", .bool false),
        ("interrupt", .bool false), ("negative", .bool true), ("overflow", .bool false),
        ("zero", .bool false)]
    ∃ restored : Cpu,
      (∀ cpu : Cpu, cpu.restore
        (.object (("status", .object (("note", .null) :: parts row)) :: heading)) =
          (.ok (), restored)) ∧
      encode restored = .object (("status", .object (parts named)) :: heading) := by
  intro parts heading row named
  have hnatural (largest n : Nat) (h : n ≤ largest) : Json.IsNatural largest (.natural n) :=
    ⟨n, h, rfl⟩
  have hacceptable : Acceptable
      (.object (("status", .object (("note", .null) :: parts row)) :: heading)) := by
    refine ⟨_, rfl, ?_⟩
    exact
      { a := ⟨_, rfl, hnatural _ _ (by decide)⟩
        x := ⟨_, rfl, hnatural _ _ (by decide)⟩
        y := ⟨_, rfl, hnatural _ _ (by decide)⟩
        sp := ⟨_, rfl, hnatural _ _ (by decide)⟩
        pc := ⟨_, rfl, hnatural _ _ (by decide)⟩
        cycles := ⟨_, rfl, hnatural _ _ (by decide)⟩
        flags := ⟨_, rfl, .row rfl (by simp [Json.IsBool])⟩
        memory := ⟨_, rfl, _, rfl, List.length_replicate, fun item hitem =>
          List.eq_of_mem_replicate hitem ▸ hnatural _ _ (by decide)⟩ }
  obtain ⟨restored, hrestored, -, hencode⟩ :=
    ((restore_outcome _ fun items h => by cases h).2.2 rfl rfl).1 hacceptable
  exact ⟨restored, hrestored, hencode⟩

end Cpu

end Mos6502
