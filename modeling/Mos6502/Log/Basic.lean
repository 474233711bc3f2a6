import Mos6502.Log.Event
import Mos6502.Log.Limiter

/-!
# The log

Which events are wanted, what the limiter of each category has seen, and the lines written
so far.  An event that is not wanted does not reach the limiter.
-/

namespace Mos6502

namespace Log

/-- Which events are wanted, and how many in one span of time. -/
structure Settings where
  /-- The level of categories without a level of their own. -/
  overall : Level
  /-- The level of each category; `off` leaves it to the overall level. -/
  own : PerCategory Level
  /-- How many messages of one category are written in one span of time. -/
  rate : Nat
deriving DecidableEq, Repr

namespace Settings

/-- The number of messages of one category, unless another is set. -/
def defaultRate : Nat := 60

/-- Nothing is wanted. -/
def quiet : Settings :=
  ⟨.off, .same .off, defaultRate⟩

/-- The level up to which events of a category are wanted. -/
def effective (settings : Settings) (category : Category) : Level :=
  match settings.own.get category with
  | .off => settings.overall
  | level => level

/-- Whether events of a category and level are wanted; level `off` never is. -/
def wants (settings : Settings) (category : Category) (level : Level) : Bool :=
  level != .off && level.rank ≤ (settings.effective category).rank

/-- All levels go back to `off`; the rate stays. -/
def reset (settings : Settings) : Settings :=
  { quiet with rate := settings.rate }

end Settings

/-- What is written at a time: one line, or several if a note has line ends in it. -/
inductive Line where
  /-- The text of an event. -/
  | message (event : Event)
  /-- A report that messages of a category were dropped. -/
  | dropped (category : Category) (count : Nat)
deriving DecidableEq, Repr

namespace Line

/-- What a line is about. -/
def category : Line → Category
  | message event => event.category
  | dropped category _ => category

/-- The text of a line. -/
def text : Line → String
  | message event => event.text
  | dropped category count =>
      "[" ++ category.name ++ "] rate limit exceeded, " ++ toString count
        ++ " message(s) dropped"

end Line

end Log

/-- A log in one span of time. -/
structure Log where
  settings : Log.Settings
  limiters : Log.PerCategory Log.Limiter
  /-- The lines written so far, first to last. -/
  lines : Array Log.Line
deriving DecidableEq

namespace Log

/-- The log that nothing was told. -/
def fresh : Log :=
  ⟨.quiet, .same .fresh, #[]⟩

/-- The lines that a verdict on an event calls for: the report comes first. -/
def Verdict.lines (verdict : Verdict) (event : Event) : List Line :=
  (verdict.report.map (Line.dropped event.category)).toList
    ++ if verdict.allowed then [.message event] else []

/-- An event is told to the log. -/
def emit (log : Log) (event : Event) : Log :=
  if log.settings.wants event.category event.level then
    let (verdict, limiter) := (log.limiters.get event.category).offer log.settings.rate
    { log with
      limiters := log.limiters.set event.category limiter
      lines := log.lines ++ verdict.lines event }
  else
    log

/-! ## Small facts -/

@[simp]
theorem settings_emit (log : Log) (event : Event) : (log.emit event).settings = log.settings := by
  unfold emit
  split <;> rfl

theorem emit_of_not_wants {log : Log} {event : Event}
    (hwants : log.settings.wants event.category event.level = false) : log.emit event = log := by
  simp [emit, hwants]

end Log

/-! ## Whoever is told events -/

/-- Something that can be told events. -/
class Listener (ℓ : Type) where
  /-- An event is told. -/
  emit : ℓ → Log.Event → ℓ

instance : Listener Log :=
  ⟨Log.emit⟩

namespace Listener

/-- Events are told one after the other. -/
def emitAll [Listener ℓ] (listener : ℓ) (events : List Log.Event) : ℓ :=
  events.foldl emit listener

theorem emitAll_append [Listener ℓ] (listener : ℓ) (first second : List Log.Event) :
    emitAll listener (first ++ second) = emitAll (emitAll listener first) second :=
  List.foldl_append

end Listener

end Mos6502
