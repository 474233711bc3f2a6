import Mos6502.Program.Command

/-!
# What the program does in a world of fixed answers

`Does action result deeds` says that an action has a result and adds deeds to the record, whatever
was recorded before it.  `Does.bind` puts together what two actions do one after the other, and
`Does.bind_ok` does so where the first of them could have failed.

With these every part of the program has one lemma that says what it does when the system refuses
it nothing.  They come together in `does_publish`, and `outcome_eq` says that the program as a
whole does what its report asks for.
-/

namespace Mos6502.Program

/-- An action has a result, and adds deeds to the record. -/
def Does {α : Type} (action : StateM (List Deed) α) (result : α) (deeds : List Deed) : Prop :=
  ∀ before, action.run before = (result, before ++ deeds)

namespace Does

variable {α β ε : Type} {result : α} {first second : List Deed}

theorem pure (result : α) : Does (Pure.pure result) result [] := by
  intro before
  rw [List.append_nil]
  rfl

theorem bind {action : StateM (List Deed) α} {next : α → StateM (List Deed) β} {last : β}
    (hfirst : Does action result first) (hsecond : Does (next result) last second) :
    Does (action >>= next) last (first ++ second) := by
  intro before
  rw [StateT.run_bind, hfirst, ← List.append_assoc]
  exact hsecond (before ++ first)

/-- After an action that did not fail the next one follows. -/
theorem bind_ok {action : ExceptT ε (StateM (List Deed)) α}
    {next : α → ExceptT ε (StateM (List Deed)) β} {last : Except ε β}
    (hfirst : Does action.run (.ok result) first) (hsecond : Does (next result).run last second) :
    Does (action >>= next).run last (first ++ second) := by
  rw [ExceptT.run_bind]
  exact bind hfirst hsecond

theorem lift {action : StateM (List Deed) α} {deeds : List Deed}
    (hdoes : Does action result deeds) :
    Does (liftM action : ExceptT ε (StateM (List Deed)) α).run (.ok result) deeds := by
  intro before
  exact congrArg (fun done : α × List Deed => (Except.ok done.1, done.2)) (hdoes before)

theorem forM {action : α → StateM (List Deed) Unit} {deed : α → Deed}
    (hstep : ∀ item, Does (action item) () [deed item]) (items : List α) :
    Does (items.forM action) () (items.map deed) := by
  induction items with
  | nil => exact pure ()
  | cons item items ih => exact bind (hstep item) ih

/-- What is done is in the record. -/
theorem attempt {deed : Deed} {answer : Except FileError Unit} (hanswer : answer = .ok ())
    (result : α) : Does (deed.attempt answer result) (.ok result) [deed] := by
  intro before
  rw [hanswer]
  rfl

end Does

/-! ## The parts of the program -/

/-- The options ask for no log file, and if there is to be a save state, its file can be created
and takes what is written to it. -/
structure Accepts (answers : Answers) (options : Options) : Prop where
  noLogFile : options.logFile = none
  creatable : ∀ path, options.save = some path → answers.create path = .ok ()
  writable : ∀ path, options.save = some path → ∀ text, answers.write path text = .ok ()

/-- What a report asks for, if the system refuses nothing. -/
def Report.deeds (report : Report) : List Deed :=
  report.log.map (fun line => .complain line.text)
    ++ (report.output.map .print
      ++ report.document.toList.flatMap fun (path, document) =>
        [.create path, .write path document.pretty])

/-- What a report comes to if the system refuses nothing. -/
def Report.outcome (report : Report) : Outcome where
  exitCode := if report.failure.isSome then 1 else 0
  deeds := report.deeds ++ report.failure.toList.map fun failure => .complain failure.text

section Recording

open World (recording)

variable {answers : Answers} {options : Options}

theorem does_printAll (lines : List String) :
    Does ((recording answers).printAll lines) () (lines.map .print) :=
  .forM (fun _ _ => rfl) lines

theorem does_writeLog (log : List Log.Line) :
    Does ((recording answers).writeLog none log) () (log.map fun line => .complain line.text) :=
  .forM (fun _ _ => rfl) log

theorem does_saveDocument {path : String} (hcreate : answers.create path = .ok ())
    (hwrite : ∀ text, answers.write path text = .ok ()) (document : Json) :
    Does ((recording answers).saveDocument path document).run (.ok ())
      [.create path, .write path document.pretty] := by
  have hcreated : Does ((recording answers).create path) (.ok path) [.create path] :=
    .attempt hcreate path
  have hwritten : Does ((recording answers).write path document.pretty) (.ok ())
      [.write path document.pretty] :=
    .attempt (hwrite document.pretty) ()
  exact .bind_ok hcreated.lift (.bind_ok hwritten.lift (.pure (Except.ok ())))

theorem does_publish (haccepts : Accepts answers options) (report : Report)
    (hdocument : ∀ path document, report.document = some (path, document) →
      options.save = some path) :
    Does ((recording answers).publish none report).run (report.failure.elim (.ok ()) .error)
      report.deeds := by
  obtain ⟨log, output, document, failure⟩ := report
  refine .bind_ok (does_writeLog log).lift (.bind_ok (does_printAll output).lift ?_)
  cases document with
  | none => cases failure <;> exact .pure _
  | some saved =>
      have hsave := hdocument _ _ rfl
      -- What follows the document can fail, but does nothing.
      rw [← List.append_nil (List.flatMap ..)]
      refine .bind_ok
        (does_saveDocument (haccepts.creatable _ hsave) (haccepts.writable _ hsave) _) ?_
      cases failure <;> exact .pure _

theorem does_conclude (failure : Option Failure) :
    Does ((recording answers).conclude (failure.elim (.ok ()) .error))
      (if failure.isSome then 1 else 0)
      (failure.toList.map fun failure => .complain failure.text) := by
  cases failure with
  | none => exact .pure 0
  | some failure => exact .bind (fun _ => rfl) (.pure 1)

/-! ## The program -/

/-- A document goes where the options say. -/
theorem save_of_document_report {contents : Except FileError ByteArray} {path : String}
    {document : Json} (hdocument : (report options contents).document = some (path, document)) :
    options.save = some path := by
  have hran : ∀ session tally failure,
      (reportRun options session tally failure).document = some (path, document) →
      options.save = some path := by
    intro session tally failure hsaved
    obtain ⟨_, hsave, hpair⟩ := Option.map_eq_some_iff.mp hsaved
    cases hpair
    exact hsave
  unfold report at hdocument
  split at hdocument
  · cases hdocument
  · unfold runBytes at hdocument
    dsimp only at hdocument
    split at hdocument
    · exact hran _ _ _ hdocument
    · exact hran _ _ _ hdocument
    · cases hdocument

/-- The program does what its report asks for. -/
theorem outcome_eq (haccepts : Accepts answers options) :
    outcome answers options = (report options (answers.read options.program)).outcome := by
  have hlog : Does ((recording answers).openLog options).run (.ok none) [] := by
    rw [World.openLog, haccepts.noLogFile]
    exact .pure (Except.ok none)
  have hread : Does ((recording answers).read options.program) (answers.read options.program) [] :=
    .pure _
  have hpublish := does_publish haccepts (report options (answers.read options.program))
    fun _ _ hdocument => save_of_document_report hdocument
  have hperform : Does ((recording answers).perform options).run _ _ :=
    .bind_ok hlog (.bind_ok hread.lift hpublish)
  have hrun : Does ((recording answers).run options) _ _ :=
    .bind hperform (does_conclude _)
  rw [outcome, hrun []]
  rfl

end Recording

end Mos6502.Program
