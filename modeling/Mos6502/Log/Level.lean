/-!
# Levels of detail

How much a log tells, from nothing to every instruction.
-/

namespace Mos6502.Log

/-- How detailed a message is, or how much detail is wanted. -/
inductive Level where
  | off
  | error
  | warn
  | info
  | debug
  | trace
deriving DecidableEq, Repr

namespace Level

/-- The place of a level in the order from quiet to noisy. -/
def rank : Level → Nat
  | off => 0
  | error => 1
  | warn => 2
  | info => 3
  | debug => 4
  | trace => 5

/-- The name of a level. -/
def name : Level → String
  | off => "Off"
  | error => "Error"
  | warn => "Warn"
  | info => "Info"
  | debug => "Debug"
  | trace => "Trace"

/-- Every level, from quiet to noisy. -/
def all : List Level :=
  [off, error, warn, info, debug, trace]

/-- The words that stand for a level, in small letters. -/
def spellings : Level → List String
  | off => ["off", "0"]
  | error => ["error", "err", "1"]
  | warn => ["warn", "warning", "2"]
  | info => ["info", "3"]
  | debug => ["debug", "4"]
  | trace => ["trace", "5"]

/-- The level that a word stands for; the case of ASCII letters does not matter. -/
def parse? (word : String) : Option Level :=
  let small := String.ofList (word.toList.map Char.toLower)
  all.find? fun level => level.spellings.contains small

end Level

end Mos6502.Log
