import Mos6502.Program.Options.Draft

/-!
# Reading a command line

A setting takes the value that is attached by `=`, or else the next word.  One word that is no
option names the program, and after `--` no word is an option.

Words are read from left to right.  A setting and the program are examined only when the
next option or the program begins, or at the end; so a word that is refused at once, such
as an unknown option, comes before a bad value to its left.
-/

namespace Mos6502.Program.Options

/-- Something that has been read and is not examined yet. -/
inductive Pending where
  /-- The word that names the program. -/
  | program (word : String)
  /-- A setting, with its value if that has come. -/
  | setting (setting : Setting) (value : Option String)
deriving DecidableEq, Repr

/-- The state between two words. -/
structure Reading where
  draft : Draft
  pending : Option Pending
  /-- Whether a word has named the program. -/
  named : Bool
  /-- Whether the options are over. -/
  ended : Bool
deriving DecidableEq, Repr

namespace Reading

/-- Before the first word. -/
def start : Reading :=
  ⟨.empty, none, false, false⟩

/-- What is pending is examined. -/
def settle (reading : Reading) : Except UsageError Reading := do
  let draft ←
    match reading.pending with
    | none => pure reading.draft
    | some (.program word) =>
        let word ← readName "PROGRAM" word
        pure { reading.draft with program := some word }
    | some (.setting setting value) => reading.draft.set setting value
  return { reading with draft, pending := none }

/-- A word that is no option: the value of the setting before it, or the program. -/
def nextPlain (reading : Reading) (word : String) : Except UsageError Reading :=
  match reading.pending, reading.ended with
  | some (.setting setting none), false =>
      .ok { reading with pending := some (.setting setting (some word)) }
  | _, _ =>
      if reading.named then
        .error (.unknownArgument word)
      else do
        let reading ← reading.settle
        return { reading with pending := some (.program word), named := true }

/-- An option, by its name and the value attached to it. -/
def nextOption (reading : Reading) (word name : String) (attached : Option String) :
    Except UsageError Reading :=
  match Setting.all.find? (·.name == name), Switch.all.find? (·.name == name) with
  | some setting, _ => do
      let reading ← reading.settle
      let reading := { reading with pending := some (.setting setting attached) }
      if attached.isSome then reading.settle else return reading
  | none, some switch =>
      if attached.isSome then
        .error (.unwantedValue ("--" ++ name))
      else do
        let reading ← reading.settle
        return { reading with draft := ← reading.draft.turnOn switch }
  | none, none => .error (.unknownArgument word)

/-- The name of a long option and the value after the first equals sign. -/
def splitOption (chars : List Char) : String × Option String :=
  let name := chars.takeWhile (· != '=')
  match chars.dropWhile (· != '=') with
  | [] => (String.ofList name, none)
  | _ :: value => (String.ofList name, some (String.ofList value))

/-- One more word. -/
def next (reading : Reading) (word : String) : Except UsageError Reading :=
  if reading.ended then
    reading.nextPlain word
  else
    match word.toList with
    | ['-', '-'] => .ok { reading with ended := true }
    | '-' :: '-' :: option =>
        let (name, attached) := splitOption option
        reading.nextOption word name attached
    | '-' :: 'h' :: _ => do
        let _ ← reading.settle
        .error .help
    | '-' :: _ :: _ => .error (.unknownArgument word)
    | _ => reading.nextPlain word

end Reading

/-- What the words of a command line ask for. -/
def parse (words : List String) : Except UsageError Options := do
  let reading ← words.foldlM Reading.next Reading.start
  let reading ← reading.settle
  ofDraft reading.draft

end Mos6502.Program.Options
