/-!
# The system around the program

What the program asks of the system that it runs on, and nothing of how the system does it: a
`World` says what becomes of each request in some monad.  The program itself is written for any
world.  One of them is made of fixed answers and keeps a record of what the program did.
-/

namespace Mos6502.Program

/-- Why a file cannot be read, opened, created or written. -/
inductive FileError where
  | notFound
  | permissionDenied
  | notADirectory
  | isADirectory
  | nameTooLong
  /-- The bytes are no UTF-8 text. -/
  | notText
  /-- Another cause, with its text. -/
  | other (text : String)
deriving DecidableEq, Repr

/-- The text of a cause. -/
def FileError.message : FileError → String
  | .notFound => "No such file or directory (os error 2)"
  | .permissionDenied => "Permission denied (os error 13)"
  | .notADirectory => "Not a directory (os error 20)"
  | .isADirectory => "Is a directory (os error 21)"
  | .nameTooLong => "File name too long (os error 36)"
  | .notText => "stream did not contain valid UTF-8"
  | .other text => text

/-- What becomes of the requests of the program.  An open file is a `φ`. -/
structure World (m : Type → Type) (φ : Type) where
  /-- The contents of the file at a path. -/
  read : String → m (Except FileError ByteArray)
  /-- An empty file is made at a path, in place of the one that is there. -/
  create : String → m (Except FileError φ)
  /-- A file is opened to be added to, and made if there is none. -/
  append : String → m (Except FileError φ)
  /-- A text is written to an open file. -/
  write : φ → String → m (Except FileError Unit)
  /-- A line is printed. -/
  print : String → m Unit
  /-- A text goes to the error stream, with a line end after it. -/
  complain : String → m Unit

/-! ## A world of fixed answers -/

/-- What the program did to the system. -/
inductive Deed where
  | create (path : String)
  | append (path : String)
  | write (path : String) (text : String)
  | print (line : String)
  | complain (text : String)
deriving DecidableEq, Repr

/-- What a system answers to each request for a file. -/
structure Answers where
  read : String → Except FileError ByteArray
  create : String → Except FileError Unit
  append : String → Except FileError Unit
  write : String → String → Except FileError Unit

namespace Deed

/-- A deed is recorded if the answer to it is that it was done. -/
def attempt (deed : Deed) (answer : Except FileError Unit) (result : α) :
    StateM (List Deed) (Except FileError α) := do
  if answer.isOk then
    modify (· ++ [deed])
  return answer.map fun _ => result

end Deed

/-- The world that answers as it is told to, and keeps a record of what was done, first to
last. -/
def World.recording (answers : Answers) : World (StateM (List Deed)) String where
  read path := pure (answers.read path)
  create path := Deed.attempt (.create path) (answers.create path) path
  append path := Deed.attempt (.append path) (answers.append path) path
  write path text := Deed.attempt (.write path text) (answers.write path text) ()
  print line := modify (· ++ [.print line])
  complain text := modify (· ++ [.complain text])

end Mos6502.Program
