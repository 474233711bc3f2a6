import Mathlib.Data.List.Induction
import Mos6502.Log.Basic
import Mos6502.Proofs.Log.Verdicts

/-!
# What becomes of every message

A message is made only when it is written, and making it may have an effect: `Log.call` makes it
after the limiter has allowed it.  On events that are there already this is `Log.emit`
(`call_eq`).

A `Course` is a log in one span of time, from empty limiters on, with all messages that it was told
so far and the verdicts on them.  In between, the rate and the levels may change in any way.  Each
step keeps the books (`Course.Accounts`): the limiter of a category has judged the wanted messages
of that category and no others, its reports are in the lines, and the messages that were written
are those that were made, one after the other.  What follows for the numbers comes from the laws of
one limiter (`Limiter.Judged`).

That the categories do not come into each other's way is a comparison of two courses, one of which
is spared the messages of the other categories (`Course.Mirrors`).
-/

namespace Mos6502.Log

variable {σ : Type}

/-! ## Messages that are made when they are written -/

/-- A message that is not made yet.  Making it may depend on a state and change it. -/
structure Message (σ : Type) where
  category : Category
  level : Level
  make : σ → Event × σ
  category_make : ∀ state, (make state).1.category = category
  level_make : ∀ state, (make state).1.level = level

namespace Message

/-- A message whose text is there already. -/
def note (category : Category) (level : Level) (text : String) : Message σ where
  category := category
  level := level
  make state := (.note category level text, state)
  category_make _ := rfl
  level_make _ := rfl

/-- Messages are made one after the other. -/
def makeAll : List (Message σ) → σ → List Event × σ
  | [], state => ([], state)
  | message :: messages, state =>
      let (event, state) := message.make state
      let (events, state) := makeAll messages state
      (event :: events, state)

theorem makeAll_cons (message : Message σ) (messages : List (Message σ)) (state : σ) :
    makeAll (message :: messages) state =
      ((message.make state).1 :: (makeAll messages (message.make state).2).1,
        (makeAll messages (message.make state).2).2) := rfl

theorem makeAll_snoc (messages : List (Message σ)) (message : Message σ) (state : σ) :
    makeAll (messages ++ [message]) state =
      ((makeAll messages state).1 ++ [(message.make (makeAll messages state).2).1],
        (message.make (makeAll messages state).2).2) := by
  induction messages generalizing state with
  | nil => rfl
  | cons first messages ih =>
      rw [List.cons_append, makeAll_cons, ih, makeAll_cons]
      rfl

end Message

/-- The verdict on a message, if the message is wanted. -/
def verdict? (log : Log) (message : Message σ) : Option Verdict :=
  if log.settings.wants message.category message.level then
    some ((log.limiters.get message.category).offer log.settings.rate).1
  else
    none

/-- A message is told to the log, which makes it if it is to be written. -/
def call (log : Log) (message : Message σ) (state : σ) : Log × σ :=
  if log.settings.wants message.category message.level then
    let (verdict, limiter) := (log.limiters.get message.category).offer log.settings.rate
    let log := { log with
      limiters := log.limiters.set message.category limiter
      lines := log.lines ++ (verdict.report.map (Line.dropped message.category)).toList }
    if verdict.allowed then
      let (event, state) := message.make state
      ({ log with lines := log.lines.push (.message event) }, state)
    else
      (log, state)
  else
    (log, state)

section Call

variable (log : Log) (message : Message σ) (state : σ)

/-- Telling a message is telling the event that it makes, but the effect of making it is only there
when it is written. -/
theorem call_eq :
    log.call message state =
      (log.emit (message.make state).1,
        if (log.verdict? message).any Verdict.allowed then (message.make state).2 else state) := by
  rw [call, emit, verdict?, message.category_make, message.level_make]
  split
  · obtain ⟨verdict, limiter⟩ := (log.limiters.get message.category).offer log.settings.rate
    obtain ⟨allowed, report⟩ := verdict
    cases allowed with
    | false => simp [Verdict.lines, message.category_make]
    | true =>
        have hlines : ∀ (lines : List Line) (line : Line),
            (log.lines ++ lines).push line = log.lines ++ (lines ++ [line]) := fun lines line =>
          Array.toList_inj.mp (by simp)
        simp [Verdict.lines, message.category_make, hlines]
  · rfl

variable {log message} in
theorem call_of_unwanted (hverdict : log.verdict? message = none) :
    log.call message state = (log, state) := by
  rw [verdict?] at hverdict
  split at hverdict
  · cases hverdict
  · next hwants => exact if_neg hwants

variable {log message} in
/-- What becomes of a wanted message. -/
theorem exists_offers_of_verdict {verdict : Verdict}
    (hverdict : log.verdict? message = some verdict) :
    ∃ limiter,
      Limiter.Offers log.settings.rate (log.limiters.get message.category) verdict limiter ∧
      log.call message state =
        ({ log with
            limiters := log.limiters.set message.category limiter
            lines := log.lines ++ verdict.lines (message.make state).1 },
          if verdict.allowed then (message.make state).2 else state) := by
  have hcall := log.call_eq message state
  rw [hverdict] at hcall
  rw [verdict?] at hverdict
  split at hverdict
  · next hwants =>
      cases hverdict
      refine ⟨_, Limiter.offers_offer .., ?_⟩
      rw [hcall, emit, message.category_make, message.level_make, if_pos hwants]
      rfl
  · cases hverdict

theorem settings_call : (log.call message state).1.settings = log.settings := by
  rw [call_eq]
  exact settings_emit ..

theorem limiters_call_self :
    (log.call message state).1.limiters.get message.category =
      if log.settings.wants message.category message.level then
        ((log.limiters.get message.category).offer log.settings.rate).2
      else
        log.limiters.get message.category := by
  rw [call_eq, emit, message.category_make, message.level_make]
  split
  · exact PerCategory.get_set_self ..
  · rfl

theorem limiters_call_of_ne {category : Category} (hne : message.category ≠ category) :
    (log.call message state).1.limiters.get category = log.limiters.get category := by
  rw [call_eq, emit, message.category_make, message.level_make]
  split
  · exact PerCategory.get_set_of_ne _ _ hne
  · rfl

end Call

/-! ## What the lines say -/

namespace Line

/-- The numbers of dropped messages that are reported of a category. -/
def reportsAbout (category : Category) (lines : List Line) : List Nat :=
  lines.filterMap fun
    | message _ => none
    | dropped other count => if other = category then some count else none

/-- The messages among the lines. -/
def messages (lines : List Line) : List Event :=
  lines.filterMap fun
    | message event => some event
    | dropped .. => none

/-- How many of the lines are messages of a category. -/
def messagesAbout (category : Category) (lines : List Line) : Nat :=
  (messages lines).countP fun event => event.category = category

section Append

variable (category : Category) (first second : List Line)

theorem reportsAbout_append :
    reportsAbout category (first ++ second) =
      reportsAbout category first ++ reportsAbout category second :=
  List.filterMap_append

theorem messages_append : messages (first ++ second) = messages first ++ messages second :=
  List.filterMap_append

theorem messagesAbout_append :
    messagesAbout category (first ++ second) =
      messagesAbout category first + messagesAbout category second := by
  rw [messagesAbout, messages_append, List.countP_append]
  rfl

end Append

end Line

namespace Verdict

variable (verdict : Verdict) (event : Event)

theorem reportsAbout_lines (category : Category) :
    Line.reportsAbout category (verdict.lines event) =
      if event.category = category then verdict.report.toList else [] := by
  obtain ⟨_ | _, _ | count⟩ := verdict
  all_goals by_cases hcategory : event.category = category
  all_goals simp [lines, Line.reportsAbout, hcategory]

theorem messages_lines :
    Line.messages (verdict.lines event) = if verdict.allowed then [event] else [] := by
  obtain ⟨_ | _, _ | count⟩ := verdict
  all_goals rfl

theorem messagesAbout_lines (category : Category) :
    Line.messagesAbout category (verdict.lines event) =
      if event.category = category then verdict.allowed.toNat else 0 := by
  rw [Line.messagesAbout, messages_lines]
  cases verdict.allowed <;> simp

end Verdict

/-! ## What was told -/

section Told

variable (told : List (Message σ × Option Verdict)) (message : Message σ)
  (verdict : Option Verdict)

/-- The verdicts on the wanted messages of a category. -/
def verdictsAbout (category : Category) : List Verdict :=
  told.filterMap fun (message, verdict) =>
    if message.category = category then verdict else none

/-- The messages that are written. -/
def writtenOf : List (Message σ) :=
  (told.filter fun (_, verdict) => verdict.any Verdict.allowed).map Prod.fst

theorem verdictsAbout_snoc (category : Category) :
    verdictsAbout (told ++ [(message, verdict)]) category =
      verdictsAbout told category ++
        if message.category = category then verdict.toList else [] := by
  rw [verdictsAbout, List.filterMap_append]
  by_cases hcategory : message.category = category
  all_goals cases verdict <;> simp [hcategory, verdictsAbout]

theorem writtenOf_snoc :
    writtenOf (told ++ [(message, verdict)]) =
      writtenOf told ++ if verdict.any Verdict.allowed then [message] else [] := by
  rw [writtenOf, List.filter_append, List.map_append]
  by_cases hallowed : verdict.any Verdict.allowed = true
  all_goals simp [hallowed, writtenOf]

end Told

/-! ## Courses -/

/-- A change of what is wanted, or of how much of it. -/
inductive Change where
  | rate (limit : Nat)
  | overall (level : Level)
  | own (category : Category) (level : Level)
  | reset

/-- The settings after a change. -/
def Settings.apply (settings : Settings) : Change → Settings
  | .rate limit => { settings with rate := limit }
  | .overall level => { settings with overall := level }
  | .own category level => { settings with own := settings.own.set category level }
  | .reset => settings.reset

/-- What may happen to a log. -/
inductive Action (σ : Type) where
  | call (message : Message σ)
  | configure (change : Change)

/-- Whether it matters for a category: the messages of the others do not. -/
def Action.concerns (category : Category) : Action σ → Bool
  | .call message => message.category = category
  | .configure _ => true

/-- A log, the state that its messages are made from, and all messages that it was told with the
verdicts on them. -/
structure Course (σ : Type) where
  log : Log
  state : σ
  told : List (Message σ × Option Verdict)

namespace Course

/-- Nothing was told in the present span of time. -/
def start (settings : Settings) (state : σ) : Course σ :=
  ⟨⟨settings, .same .fresh, #[]⟩, state, []⟩

def next (course : Course σ) : Action σ → Course σ
  | .call message =>
      let (log, state) := course.log.call message course.state
      ⟨log, state, course.told ++ [(message, course.log.verdict? message)]⟩
  | .configure change =>
      { course with log := { course.log with settings := course.log.settings.apply change } }

/-- Actions follow one another, all in one span of time. -/
def run (settings : Settings) (state : σ) (actions : List (Action σ)) : Course σ :=
  actions.foldl next (start settings state)

theorem run_snoc (settings : Settings) (state : σ) (actions : List (Action σ))
    (action : Action σ) :
    run settings state (actions ++ [action]) = (run settings state actions).next action := by
  rw [run, List.foldl_append]
  rfl

section Call

variable {course : Course σ} {message : Message σ}

theorem next_of_unwanted (hverdict : course.log.verdict? message = none) :
    course.next (.call message) =
      { course with told := course.told ++ [(message, none)] } := by
  rw [next, call_of_unwanted course.state hverdict, hverdict]

theorem exists_next_of_verdict {verdict : Verdict}
    (hverdict : course.log.verdict? message = some verdict) :
    ∃ limiter,
      Limiter.Offers course.log.settings.rate (course.log.limiters.get message.category) verdict
        limiter ∧
      course.next (.call message) =
        { log := { course.log with
            limiters := course.log.limiters.set message.category limiter
            lines := course.log.lines ++ verdict.lines (message.make course.state).1 }
          state := if verdict.allowed then (message.make course.state).2 else course.state
          told := course.told ++ [(message, some verdict)] } := by
  obtain ⟨limiter, hoffers, hcall⟩ := exists_offers_of_verdict course.state hverdict
  refine ⟨limiter, hoffers, ?_⟩
  rw [next, hcall, hverdict]

end Call

/-! ## The books are kept -/

/-- What is in the log and what was told to it agree. -/
structure Accounts (begun : σ) (course : Course σ) : Prop where
  /-- The limiter of a category saw its wanted messages and nothing else. -/
  judged : ∀ category, Limiter.Judged (verdictsAbout course.told category)
    (course.log.limiters.get category)
  reports : ∀ category, Line.reportsAbout category course.log.lines.toList =
    Verdict.reports (verdictsAbout course.told category)
  messages : ∀ category, Line.messagesAbout category course.log.lines.toList =
    Verdict.admitted (verdictsAbout course.told category)
  /-- The messages that were written, and no others, were made. -/
  made : Message.makeAll (writtenOf course.told) begun =
    (Line.messages course.log.lines.toList, course.state)

theorem accounts_start (settings : Settings) (begun : σ) :
    Accounts begun (start settings begun) where
  judged category := by
    rw [start, PerCategory.get_same]
    exact .fresh
  reports _ := rfl
  messages _ := rfl
  made := rfl

section Accounts

variable {begun : σ} {course : Course σ}

theorem Accounts.next_of_unwanted (accounts : Accounts begun course) {message : Message σ}
    (hverdict : course.log.verdict? message = none) :
    Accounts begun (course.next (.call message)) := by
  have habout : ∀ category, verdictsAbout (course.told ++ [(message, none)]) category =
      verdictsAbout course.told category := by
    intro category
    rw [verdictsAbout_snoc, Option.toList_none, ite_self, List.append_nil]
  rw [Course.next_of_unwanted hverdict]
  constructor
  · exact fun category => habout category ▸ accounts.judged category
  · exact fun category => habout category ▸ accounts.reports category
  · exact fun category => habout category ▸ accounts.messages category
  · rw [writtenOf_snoc]
    exact (List.append_nil (writtenOf course.told)).symm ▸ accounts.made

theorem Accounts.next_of_verdict (accounts : Accounts begun course) {message : Message σ}
    {verdict : Verdict} (hverdict : course.log.verdict? message = some verdict) :
    Accounts begun (course.next (.call message)) := by
  obtain ⟨limiter, hoffers, hnext⟩ := exists_next_of_verdict hverdict
  rw [hnext]
  constructor
  · -- one more verdict for the limiter of the message's own category, and no other is touched
    intro category
    rw [verdictsAbout_snoc]
    by_cases hcategory : message.category = category
    · subst hcategory
      rw [if_pos rfl, PerCategory.get_set_self]
      exact .offer (accounts.judged _) hoffers
    · rw [if_neg hcategory, List.append_nil, PerCategory.get_set_of_ne _ _ hcategory]
      exact accounts.judged category
  · intro category
    rw [verdictsAbout_snoc, Array.toList_appendList, Line.reportsAbout_append,
      Verdict.reportsAbout_lines, message.category_make, accounts.reports]
    split
    · exact (Verdict.reports_snoc ..).symm
    · rw [List.append_nil, List.append_nil]
  · intro category
    rw [verdictsAbout_snoc, Array.toList_appendList, Line.messagesAbout_append,
      Verdict.messagesAbout_lines, message.category_make, accounts.messages]
    split
    · exact (Verdict.admitted_snoc ..).symm
    · rw [List.append_nil, Nat.add_zero]
  · rw [writtenOf_snoc, Array.toList_appendList, Line.messages_append, Verdict.messages_lines,
      Option.any_some]
    cases verdict.allowed with
    | false =>
        simp only [Bool.false_eq_true, if_false, List.append_nil]
        exact accounts.made
    | true =>
        simp only [if_true]
        rw [Message.makeAll_snoc, accounts.made]

theorem Accounts.next (accounts : Accounts begun course) (action : Action σ) :
    Accounts begun (course.next action) := by
  cases action with
  | call message =>
      cases hverdict : course.log.verdict? message with
      | none => exact accounts.next_of_unwanted hverdict
      | some verdict => exact accounts.next_of_verdict hverdict
  | configure change =>
      exact ⟨accounts.judged, accounts.reports, accounts.messages, accounts.made⟩

end Accounts

theorem accounts_run (settings : Settings) (begun : σ) (actions : List (Action σ)) :
    Accounts begun (run settings begun actions) := by
  induction actions using List.reverseRecOn with
  | nil => exact accounts_start settings begun
  | append_singleton actions action ih =>
      rw [run_snoc]
      exact ih.next action

/-! ## The messages of the other categories do not matter -/

/-- What concerns a category is the same in a course that was spared the messages of the other
categories. -/
structure Mirrors (category : Category) (spared course : Course σ) : Prop where
  settings : spared.log.settings = course.log.settings
  limiter : spared.log.limiters.get category = course.log.limiters.get category
  told : spared.told = course.told.filter fun (message, _) => message.category = category

section Mirrors

variable {category : Category} {spared course : Course σ} {action : Action σ}

theorem Mirrors.next_both (mirrors : Mirrors category spared course)
    (hconcerns : action.concerns category = true) :
    Mirrors category (spared.next action) (course.next action) := by
  obtain ⟨hsettings, hlimiter, htold⟩ := mirrors
  cases action with
  | configure change => exact ⟨congrArg (Settings.apply · change) hsettings, hlimiter, htold⟩
  | call message =>
      obtain rfl : message.category = category := of_decide_eq_true hconcerns
      have hverdict : spared.log.verdict? message = course.log.verdict? message := by
        rw [Log.verdict?, Log.verdict?, hsettings, hlimiter]
      constructor
      · exact (settings_call ..).trans (hsettings.trans (settings_call ..).symm)
      · refine (limiters_call_self ..).trans (Eq.trans ?_ (limiters_call_self ..).symm)
        rw [hsettings, hlimiter]
      · show spared.told ++ [(message, spared.log.verdict? message)] = _
        rw [next, List.filter_append, htold, hverdict]
        simp

/-- Only one of the courses is told what does not concern the category. -/
theorem Mirrors.next_other (mirrors : Mirrors category spared course)
    (hconcerns : action.concerns category = false) :
    Mirrors category spared (course.next action) := by
  obtain ⟨hsettings, hlimiter, htold⟩ := mirrors
  cases action with
  | configure change => cases hconcerns
  | call message =>
      have hne : message.category ≠ category := of_decide_eq_false hconcerns
      constructor
      · exact hsettings.trans (settings_call ..).symm
      · exact hlimiter.trans (limiters_call_of_ne _ _ _ hne).symm
      · rw [next, List.filter_append, htold]
        simp [hne]

end Mirrors

theorem mirrors_run (settings : Settings) (begun other : σ) (actions : List (Action σ))
    (category : Category) :
    Mirrors category (run settings other (actions.filter (Action.concerns category)))
      (run settings begun actions) := by
  induction actions using List.reverseRecOn with
  | nil => exact ⟨rfl, rfl, rfl⟩
  | append_singleton actions action ih =>
      rw [run_snoc, List.filter_append]
      cases hconcerns : action.concerns category with
      | true =>
          rw [List.filter_cons_of_pos hconcerns, List.filter_nil, run_snoc]
          exact ih.next_both hconcerns
      | false =>
          rw [List.filter_cons_of_neg (Bool.not_eq_true _ ▸ hconcerns), List.filter_nil,
            List.append_nil]
          exact ih.next_other hconcerns

/-! ## Each message and all of them -/

section Decision

variable {begun : σ} {course : Course σ}

/-- A wanted message is allowed as long as fewer of its category were written than the rate that is
in force. -/
theorem Accounts.decision (accounts : Accounts begun course) (message : Message σ) :
    (course.log.verdict? message).map Verdict.allowed =
      if course.log.settings.wants message.category message.level then
        some (decide (Line.messagesAbout message.category course.log.lines.toList <
          course.log.settings.rate))
      else none := by
  rw [Log.verdict?, accounts.messages, ← (accounts.judged _).written_eq]
  split
  · rw [Option.map_some, Limiter.allowed_offer]
  · rfl

theorem messages_next (course : Course σ) (message : Message σ) :
    (Line.messages (course.next (.call message)).log.lines.toList,
        (course.next (.call message)).state) =
      if (course.log.verdict? message).any Verdict.allowed then
        (Line.messages course.log.lines.toList ++ [(message.make course.state).1],
          (message.make course.state).2)
      else (Line.messages course.log.lines.toList, course.state) := by
  cases hverdict : course.log.verdict? message with
  | none =>
      rw [next_of_unwanted hverdict]
      rfl
  | some verdict =>
      obtain ⟨limiter, -, hnext⟩ := exists_next_of_verdict hverdict
      rw [hnext, Array.toList_appendList, Line.messages_append, Verdict.messages_lines,
        Option.any_some]
      cases verdict.allowed <;> simp

/-- A message is made and written, or neither. -/
theorem Accounts.messages_next (accounts : Accounts begun course) (message : Message σ) :
    (Line.messages (course.next (.call message)).log.lines.toList,
        (course.next (.call message)).state) =
      if course.log.settings.wants message.category message.level &&
          decide (Line.messagesAbout message.category course.log.lines.toList <
            course.log.settings.rate) then
        (Line.messages course.log.lines.toList ++ [(message.make course.state).1],
          (message.make course.state).2)
      else (Line.messages course.log.lines.toList, course.state) := by
  have hallowed : (course.log.verdict? message).any Verdict.allowed =
      ((course.log.verdict? message).map Verdict.allowed).any id := by
    cases course.log.verdict? message <;> rfl
  rw [Course.messages_next, hallowed, accounts.decision]
  cases course.log.settings.wants message.category message.level <;> rfl

end Decision

/-- After any calls and changes that follow one another in one span of time:

* the suppressed messages of a category are those in its reports and those that still wait for one,
  and no report is about none;
* the verdicts on a category are those without the messages of the other categories, whatever these
  would have done;
* a message that comes next is written exactly if it is wanted and fewer of its category were
  written than the rate in force allows, and it is made exactly if it is written;
* all that was made are the written messages, one after the other. -/
theorem run_accounts (settings : Settings) (begun : σ) (actions : List (Action σ)) :
    let course := run settings begun actions
    let lines := course.log.lines.toList
    (∀ category,
      Verdict.suppressed (verdictsAbout course.told category) =
          (Line.reportsAbout category lines).sum + (course.log.limiters.get category).pending ∧
        (∀ count ∈ Line.reportsAbout category lines, 0 < count) ∧
        ∀ other, (run settings other (actions.filter (Action.concerns category))).told =
          course.told.filter fun (message, _) => message.category = category) ∧
    (∀ message : Message σ,
      let next := course.next (.call message)
      let wanted := course.log.settings.wants message.category message.level
      let room := decide (Line.messagesAbout message.category lines < course.log.settings.rate)
      next.log = course.log.emit (message.make course.state).1 ∧
        (course.log.verdict? message).map Verdict.allowed =
          (if wanted then some room else none) ∧
        (Line.messages next.log.lines.toList, next.state) =
          if wanted && room then
            (Line.messages lines ++ [(message.make course.state).1],
              (message.make course.state).2)
          else (Line.messages lines, course.state)) ∧
    Message.makeAll (writtenOf course.told) begun = (Line.messages lines, course.state) := by
  have haccounts := accounts_run settings begun actions
  refine ⟨fun category => ⟨?_, ?_, fun other => ?_⟩, fun message => ⟨?_, ?_, ?_⟩,
    haccounts.made⟩
  · rw [haccounts.reports]
    exact (haccounts.judged category).suppressed_eq
  · rw [haccounts.reports]
    exact (haccounts.judged category).pos_of_mem_reports
  · exact (mirrors_run settings begun other actions category).told
  · rw [next, call_eq]
  · exact haccounts.decision message
  · exact haccounts.messages_next message

end Course

end Mos6502.Log
