import Mos6502.Proofs.Run.Bounds

/-!
# Limits only truncate

All runs of a program from one machine follow the same states; a limit decides no more than at
which of them the run is over.  A tighter limit is met wherever a wider one is
(`Met.of_tightens`), so it stops the run at the same state or at an earlier one.  A run that left
the program was not stopped by its limit at all, and one that the wider limit cut short was
inside the program at every state before.

Two bounds together are met where one of them is (`over_both_iff`), which makes a run under both
the shorter of the runs under each.
-/

namespace Mos6502

namespace Limit

/-- Every bound of the wider limit is a bound of the tighter one, and no larger there; a bound
that is absent counts as infinite. -/
structure Tightens (tight wide : Limit) : Prop where
  instructions : ∀ bound, wide.instructions = some bound →
    ∃ smaller ≤ bound, tight.instructions = some smaller
  cycles : ∀ bound, wide.cycles = some bound → ∃ smaller ≤ bound, tight.cycles = some smaller

theorem Met.of_tightens {tight wide : Limit} {instructions cycles : Nat}
    (h : tight.Tightens wide) (hmet : wide.Met instructions cycles) :
    tight.Met instructions cycles := by
  rcases hmet with ⟨bound, hbound, hle⟩ | ⟨bound, hbound, hle⟩
  · obtain ⟨smaller, hsmaller, htight⟩ := h.instructions bound hbound
    exact .inl ⟨smaller, htight, hsmaller.trans hle⟩
  · obtain ⟨smaller, hsmaller, htight⟩ := h.cycles bound hbound
    exact .inr ⟨smaller, htight, hsmaller.trans hle⟩

end Limit

namespace Cpu

/-! ## One orbit, two limits -/

section Limits

variable {start : Cpu} {window : Window} {tight wide : Limit} {m n : Nat}

theorem Over.of_tightens (h : tight.Tightens wide) (hover : start.Over window wide n) :
    start.Over window tight n := by
  rcases hover with hleft | hmet
  · exact .inl hleft
  · exact .inr (hmet.of_tightens h)

/-- Where the tighter limit lets a run leave the window, the wider one does. -/
theorem isLeast_of_tightens_of_left (h : tight.Tightens wide)
    (hleast : IsLeast {k | start.Over window tight k} n)
    (hleft : ¬ window.Covers (start.after n).pc) : IsLeast {k | start.Over window wide k} n :=
  ⟨.inl hleft, fun _ hover => hleast.2 (Over.of_tightens h hover)⟩

/-- Before a run is over and when it is cut short, it is inside the window. -/
theorem covers_of_le_of_isLeast (hleast : IsLeast {k | start.Over window wide k} n)
    (hcovers : window.Covers (start.after n).pc) (hle : m ≤ n) :
    window.Covers (start.after m).pc := by
  by_contra hleft
  have hge : n ≤ m := hleast.2 (.inl hleft)
  exact hleft (le_antisymm hle hge ▸ hcovers)

theorem exists_isLeast_of_tightens (h : tight.Tightens wide)
    (hleast : IsLeast {k | start.Over window wide k} n) :
    ∃ m ≤ n, IsLeast {k | start.Over window tight k} m := by
  have hover : start.Over window tight n := Over.of_tightens h hleast.1
  obtain ⟨m, hm⟩ := exists_isLeast_over hover
  exact ⟨m, hm.2 hover, hm⟩

/-- A limit with two bounds ends a run where one of its bounds alone does. -/
theorem over_both_iff {b c : Nat} :
    start.Over window ⟨some b, some c⟩ n ↔
      start.Over window ⟨some b, none⟩ n ∨ start.Over window ⟨none, some c⟩ n := by
  simp only [Over, Limit.Met]
  grind

theorem isLeast_both_of_le {b c : Nat}
    (hfirst : IsLeast {k | start.Over window ⟨some b, none⟩ k} m)
    (hsecond : IsLeast {k | start.Over window ⟨none, some c⟩ k} n) :
    (m ≤ n → IsLeast {k | start.Over window ⟨some b, some c⟩ k} m) ∧
      (n ≤ m → IsLeast {k | start.Over window ⟨some b, some c⟩ k} n) := by
  constructor
  · intro hle
    refine ⟨over_both_iff.mpr (.inl hfirst.1), fun k hover => ?_⟩
    rcases over_both_iff.mp hover with hover | hover
    · exact hfirst.2 hover
    · exact hle.trans (hsecond.2 hover)
  · intro hle
    refine ⟨over_both_iff.mpr (.inr hsecond.1), fun k hover => ?_⟩
    rcases over_both_iff.mp hover with hover | hover
    · exact hle.trans (hfirst.2 hover)
    · exact hsecond.2 hover

end Limits

/-! ## One program, two limits -/

section Answers

variable {start : Cpu} {window : Window} {n : Nat} {tally : Tally} {pc : Word}

theorem not_covers_of_result_answer (hresult : (start.answer window n).result = .ok tally) :
    ¬ window.Covers (start.after n).pc := by
  intro hcovers
  rw [answer_of_covers hcovers] at hresult
  cases hresult

theorem covers_of_result_answer
    (hresult : (start.answer window n).result = .error (.limitReached tally pc)) :
    window.Covers (start.after n).pc ∧ tally = start.tally n := by
  by_cases hcovers : window.Covers (start.after n).pc
  · rw [answer_of_covers hcovers] at hresult
    cases hresult
    exact ⟨hcovers, rfl⟩
  · rw [answer_of_not_covers hcovers] at hresult
    cases hresult

end Answers

/-- Of two limits the tighter one only truncates.  A run that completes under it completes alike
under the wider one.  A run that the wider one cuts short is cut short by the tighter one too, at
a state from which the remaining instructions, at the remaining cost, lead to the other state.
And a run under two bounds is the run under that one of them that allows fewer instructions. -/
theorem limits_truncate (cpu : Cpu) {entry : Word} {program : List Byte}
    (hfits : entry.toNat + program.length ≤ Memory.size) :
    (∀ tight wide : Limit, tight.Tightens wide →
      (∀ n execution tally, cpu.Returns entry program tight n execution →
        execution.result = .ok tally → cpu.Returns entry program wide n execution) ∧
      ∀ n' execution' tally' pc', cpu.Returns entry program wide n' execution' →
        execution'.result = .error (.limitReached tally' pc') →
        ∃ n ≤ n', ∃ execution tally, cpu.Returns entry program tight n execution ∧
          execution.result = .error (.limitReached tally execution.state.pc) ∧
          tally.instructions = n ∧ tally'.instructions = n' ∧
          execution.state.after (n' - n) = execution'.state ∧
          tally.cycles + execution.state.spent (n' - n) = tally'.cycles) ∧
    ∀ b c, ∃ m first n second,
      cpu.Returns entry program ⟨some b, none⟩ m first ∧
      cpu.Returns entry program ⟨none, some c⟩ n second ∧
      (m ≤ n → cpu.Returns entry program ⟨some b, some c⟩ m first) ∧
      (n ≤ m → cpu.Returns entry program ⟨some b, some c⟩ n second) := by
  refine ⟨fun tight wide h => ⟨?_, ?_⟩, fun b c => ?_⟩
  · intro n execution tally hreturns hresult
    obtain ⟨hleast, rfl⟩ := (returns_iff_isLeast hfits).mp hreturns
    have hleft := not_covers_of_result_answer hresult
    exact returns_of_isLeast hfits (isLeast_of_tightens_of_left h hleast hleft)
  · intro n' execution' tally' pc' hreturns hresult
    obtain ⟨hleast', rfl⟩ := (returns_iff_isLeast hfits).mp hreturns
    obtain ⟨hcovers', rfl⟩ := covers_of_result_answer hresult
    obtain ⟨n, hle, hleast⟩ := exists_isLeast_of_tightens h hleast'
    have hcovers := covers_of_le_of_isLeast hleast' hcovers' hle
    have hreturns := returns_of_isLeast hfits hleast
    rw [answer_of_covers hcovers] at hreturns
    have hspent := spent_add (cpu.loadProgram entry program) n (n' - n)
    rw [Nat.add_sub_cancel' hle] at hspent
    refine ⟨n, hle, _, (cpu.loadProgram entry program).tally n, hreturns, rfl, rfl, rfl, ?_,
      hspent.symm⟩
    rw [state_answer, ← after_add, Nat.add_sub_cancel' hle]
  · have hinstructions : (cpu.loadProgram entry program).Over ⟨entry, program.length⟩
        ⟨some b, none⟩ b := over_of_instructions rfl
    have hcycles : (cpu.loadProgram entry program).Over ⟨entry, program.length⟩
        ⟨none, some c⟩ ((c + 1) / 2) := over_of_cycles rfl
    obtain ⟨m, hfirst⟩ := exists_isLeast_over hinstructions
    obtain ⟨n, hsecond⟩ := exists_isLeast_over hcycles
    have hboth := isLeast_both_of_le hfirst hsecond
    exact ⟨m, _, n, _, returns_of_isLeast hfits hfirst, returns_of_isLeast hfits hsecond,
      fun hle => returns_of_isLeast hfits (hboth.1 hle),
      fun hle => returns_of_isLeast hfits (hboth.2 hle)⟩

/-- A jump to itself, cut short after three instructions by one limit, and after two by a limit
whose bounds are both met by the second instruction. -/
theorem limits_truncate_of_tie :
    ∃ second third tally,
      fresh.Returns 0 [0x4C, 0, 0] ⟨some 3, none⟩ 3 third ∧
      fresh.Returns 0 [0x4C, 0, 0] ⟨some 2, some 6⟩ 2 second ∧
      second.result = .error (.limitReached tally second.state.pc) ∧
      second.state.after 1 = third.state := by
  have htightens : Limit.Tightens ⟨some 2, some 6⟩ ⟨some 3, none⟩ := by
    constructor
    · intro bound hbound
      cases hbound
      exact ⟨2, by decide, rfl⟩
    · intro bound hbound
      cases hbound
  have hgoing : (∀ k < 3, ¬ (fresh.loadProgram 0 [0x4C, 0, 0]).Over ⟨0, 3⟩ ⟨some 3, none⟩ k) ∧
      ∀ k < 2, ¬ (fresh.loadProgram 0 [0x4C, 0, 0]).Over ⟨0, 3⟩ ⟨some 2, some 6⟩ k := by
    decide +kernel
  have hcovers : Window.Covers ⟨0, 3⟩ ((fresh.loadProgram 0 [0x4C, 0, 0]).after 3).pc := by
    decide +kernel
  have hresult := congrArg Execution.result (answer_of_covers hcovers)
  have hfits : (0 : Word).toNat + ([0x4C, 0, 0] : List Byte).length ≤ Memory.size := by decide
  have hthird :=
    returns_of_isLeast hfits (isLeast_of_not_over (over_of_instructions rfl) hgoing.1)
  have hsecond :=
    returns_of_isLeast hfits (isLeast_of_not_over (over_of_instructions rfl) hgoing.2)
  obtain ⟨htruncate, -⟩ := limits_truncate fresh hfits
  obtain ⟨n, -, second, tally, hreturns, hcut, -, -, hstate, -⟩ :=
    (htruncate _ _ htightens).2 3 _ _ _ hthird hresult
  obtain ⟨rfl, -⟩ := hreturns.unique hsecond
  exact ⟨second, _, tally, hthird, hreturns, hcut, hstate⟩

end Cpu

end Mos6502
