import Mos6502.Log.Basic

/-!
# A log with room writes all that is wanted

A `Notice` is an event together with the category and the level that it is told under.  A log
has room for notices when the rate leaves place for the wanted ones of each category after
what was written already, and no earlier drop waits for its report.  Such a log writes the
wanted notices in their order and nothing else (`Hears.lines_eq`).

The limiters count the messages of one span of time, and in a long run time passes.  `Hears`
lets it pass between any two messages: some of what was written counts no more, which only
leaves more room.  A `Timed` log is one that can be told notices while time passes for it, and
what it is told it hears (`Timed.hears_tellAll`).
-/

namespace Mos6502

namespace Log

/-- An event, and the category and level that it is told under. -/
structure Notice where
  category : Category
  level : Level
  event : Event
  category_eq : event.category = category
  level_eq : event.level = level

namespace Settings

/-- Whether a notice is wanted. -/
def selects (settings : Settings) (notice : Notice) : Bool :=
  settings.wants notice.category notice.level

/-- The lines of the wanted notices. -/
def select (settings : Settings) (notices : List Notice) : List Line :=
  (notices.filter settings.selects).map fun notice => .message notice.event

/-- How many of the wanted notices are about a category. -/
def demand (settings : Settings) (category : Category) (notices : List Notice) : Nat :=
  notices.countP fun notice => decide (notice.category = category) && settings.selects notice

theorem wants_event (settings : Settings) (notice : Notice) :
    settings.wants notice.event.category notice.event.level = settings.selects notice := by
  rw [notice.category_eq, notice.level_eq]
  rfl

theorem demand_cons_of_not_selects {settings : Settings} {notice : Notice}
    (hselects : settings.selects notice = false) (category : Category) (notices : List Notice) :
    settings.demand category (notice :: notices) = settings.demand category notices := by
  simp [demand, hselects]

theorem demand_cons_self {settings : Settings} {notice : Notice}
    (hselects : settings.selects notice = true) (notices : List Notice) :
    settings.demand notice.category (notice :: notices) =
      settings.demand notice.category notices + 1 := by
  simp [demand, hselects]

theorem demand_cons_of_ne (settings : Settings) {notice : Notice} {category : Category}
    (hne : notice.category ≠ category) (notices : List Notice) :
    settings.demand category (notice :: notices) = settings.demand category notices := by
  simp [demand, hne]

theorem demand_le_length (settings : Settings) (category : Category) (notices : List Notice) :
    settings.demand category notices ≤ notices.length :=
  List.countP_le_length

end Settings

/-- The rate leaves room for the wanted notices, and no drop waits for its report. -/
def HasRoom (log : Log) (notices : List Notice) : Prop :=
  ∀ category, (log.limiters.get category).pending = 0 ∧
    (log.limiters.get category).written + log.settings.demand category notices
      ≤ log.settings.rate

/-- When no message was told in the present span of time, a rate above the number of messages
leaves room. -/
theorem hasRoom_of_length_lt {log : Log} (hfresh : log.limiters = .same .fresh)
    {notices : List Notice} (hlength : notices.length < log.settings.rate) :
    log.HasRoom notices := by
  intro category
  have hdemand := log.settings.demand_le_length category notices
  rw [hfresh, PerCategory.get_same]
  exact ⟨rfl, by simp only [Limiter.fresh]; omega⟩

/-- Time passes for a log: it may forget messages that it wrote and that a drop was reported. -/
structure Ages (log later : Log) : Prop where
  settings : later.settings = log.settings
  lines : later.lines = log.lines
  written : ∀ category,
    (later.limiters.get category).written ≤ (log.limiters.get category).written
  pending : ∀ category,
    (later.limiters.get category).pending = (log.limiters.get category).pending

/-- Notices are told to a log one after the other, and time passes in between. -/
inductive Hears : Log → List Notice → Log → Prop
  | nil (log : Log) : Hears log [] log
  | tell {log final : Log} (notice : Notice) {notices : List Notice}
      (rest : Hears (log.emit notice.event) notices final) : Hears log (notice :: notices) final
  | wait {log later final : Log} {notices : List Notice} (ages : log.Ages later)
      (rest : Hears later notices final) : Hears log notices final

/-- A log for which time passes before each message. -/
structure Timed where
  log : Log
  /-- How many messages it was told. -/
  heard : Nat
  /-- What time makes of a log before the message that comes after so many others. -/
  pass : Nat → Log → Log
  ages : ∀ (heard : Nat) (log : Log), log.Ages (pass heard log)

instance : Listener Timed where
  emit timed event :=
    { timed with
      log := (timed.pass timed.heard timed.log).emit event
      heard := timed.heard + 1 }

end Log

/-- Notices are told one after the other. -/
def Listener.tellAll {ℓ : Type} [Listener ℓ] (listener : ℓ) (notices : List Log.Notice) : ℓ :=
  emitAll listener (notices.map Log.Notice.event)

theorem Listener.tellAll_append {ℓ : Type} [Listener ℓ] (listener : ℓ)
    (first second : List Log.Notice) :
    tellAll listener (first ++ second) = tellAll (tellAll listener first) second := by
  rw [tellAll, List.map_append, emitAll_append]
  rfl

namespace Log

theorem hears_tellAll (log : Log) (notices : List Notice) :
    log.Hears notices (Listener.tellAll log notices) := by
  induction notices generalizing log with
  | nil => exact .nil log
  | cons notice notices ih => exact .tell notice (ih (log.emit notice.event))

theorem Timed.hears_tellAll (timed : Timed) (notices : List Notice) :
    timed.log.Hears notices (Listener.tellAll timed notices).log := by
  induction notices generalizing timed with
  | nil => exact .nil timed.log
  | cons notice notices ih =>
      have hages := timed.ages timed.heard timed.log
      exact .wait hages (.tell notice (ih (Listener.emit timed notice.event)))

/-! ## One message -/

theorem Limiter.offer_of_room {limiter : Limiter} {rate : Nat} (hpending : limiter.pending = 0)
    (hwritten : limiter.written < rate) :
    limiter.offer rate = (⟨true, none⟩, { limiter with written := limiter.written + 1 }) := by
  rw [offer, if_pos hwritten, if_pos hpending]

section Message

variable {log : Log} {notice : Notice} {notices : List Notice}

theorem HasRoom.ages {later : Log} (hroom : log.HasRoom notices) (hages : log.Ages later) :
    later.HasRoom notices := by
  intro category
  obtain ⟨hpending, hrate⟩ := hroom category
  have hwritten := hages.written category
  rw [hages.pending, hages.settings]
  exact ⟨hpending, by omega⟩

theorem HasRoom.tail (hroom : log.HasRoom (notice :: notices))
    (hselects : log.settings.selects notice = false) : log.HasRoom notices := by
  intro category
  have hcategory := hroom category
  rwa [log.settings.demand_cons_of_not_selects hselects] at hcategory

/-- A wanted message that there is room for takes one place of its category and one line. -/
theorem emit_of_hasRoom (hroom : log.HasRoom (notice :: notices))
    (hselects : log.settings.selects notice = true) :
    log.emit notice.event =
      { log with
        limiters := log.limiters.set notice.category
          { log.limiters.get notice.category with
            written := (log.limiters.get notice.category).written + 1 }
        lines := log.lines ++ [Line.message notice.event] } := by
  obtain ⟨hpending, hrate⟩ := hroom notice.category
  rw [Settings.demand_cons_self hselects] at hrate
  have hwritten : (log.limiters.get notice.category).written < log.settings.rate := by omega
  rw [emit, if_pos (log.settings.wants_event notice ▸ hselects), notice.category_eq,
    Limiter.offer_of_room hpending hwritten]
  rfl

theorem HasRoom.emit (hroom : log.HasRoom (notice :: notices)) :
    (log.emit notice.event).HasRoom notices := by
  cases hselects : log.settings.selects notice with
  | false =>
      rw [emit_of_not_wants (log.settings.wants_event notice ▸ hselects)]
      exact hroom.tail hselects
  | true =>
      rw [emit_of_hasRoom hroom hselects]
      intro category
      obtain ⟨hpending, hrate⟩ := hroom category
      by_cases hcategory : notice.category = category
      · subst hcategory
        rw [Settings.demand_cons_self hselects] at hrate
        simp only [PerCategory.get_set_self]
        exact ⟨hpending, by omega⟩
      · rw [Settings.demand_cons_of_ne _ hcategory] at hrate
        simp only [PerCategory.get_set_of_ne _ _ hcategory]
        exact ⟨hpending, hrate⟩

theorem lines_emit_of_hasRoom (hroom : log.HasRoom (notice :: notices)) :
    (log.emit notice.event).lines.toList = log.lines.toList ++ log.settings.select [notice] := by
  cases hselects : log.settings.selects notice with
  | false =>
      rw [emit_of_not_wants (log.settings.wants_event notice ▸ hselects)]
      simp [Settings.select, hselects]
  | true =>
      rw [emit_of_hasRoom hroom hselects]
      simp [Settings.select, hselects]

end Message

/-! ## All messages -/

/-- A log with room for what it hears writes the wanted notices in their order. -/
theorem Hears.lines_eq {log final : Log} {notices : List Notice} (hhears : log.Hears notices final)
    (hroom : log.HasRoom notices) :
    final.lines.toList = log.lines.toList ++ log.settings.select notices := by
  induction hhears with
  | nil log => simp [Settings.select]
  | wait hages _ ih => rw [ih (hroom.ages hages), hages.lines, hages.settings]
  | tell notice _ ih =>
      rw [ih hroom.emit, lines_emit_of_hasRoom hroom, settings_emit, List.append_assoc]
      simp only [Settings.select, ← List.map_append, ← List.filter_append]
      rfl

end Log

end Mos6502
