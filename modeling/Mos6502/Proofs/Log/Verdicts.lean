import Mathlib.Algebra.Ring.Nat
import Mathlib.Data.List.Induction
import Mos6502.Log.Limiter

/-!
# A limiter under changing rates

Messages are offered one by one, each under the rate that is in force at that moment.  What a
limiter does with one message is one of four things (`Limiter.Offers`), and `Limiter.Judged` is a
limiter that was fresh together with the verdicts on all it was offered since.

Whatever the rates were, a limiter has written what its verdicts allowed (`Judged.written_eq`), and
every suppressed message is in one report or still pending (`Judged.suppressed_eq`).  There is a
second report exactly if a message was written after two had been suppressed
(`Judged.length_reports_le_one_iff`): the first drop is reported at once and the next one waits.
-/

namespace Mos6502.Log

namespace Verdict

/-- How many messages are written. -/
def admitted (verdicts : List Verdict) : Nat :=
  verdicts.countP allowed

/-- How many messages are not. -/
def suppressed (verdicts : List Verdict) : Nat :=
  verdicts.countP fun verdict => !verdict.allowed

/-- The numbers of dropped messages that are reported, first to last. -/
def reports (verdicts : List Verdict) : List Nat :=
  verdicts.filterMap report

/-- A message is written after two were suppressed. -/
def Resumes (verdicts : List Verdict) : Prop :=
  ∃ before verdict after, verdicts = before ++ verdict :: after ∧ verdict.allowed = true ∧
    2 ≤ suppressed before

/-! ## One more verdict -/

variable (verdicts : List Verdict) (verdict : Verdict)

theorem admitted_snoc :
    admitted (verdicts ++ [verdict]) = admitted verdicts + verdict.allowed.toNat := by
  rw [admitted, List.countP_append, admitted, List.countP_singleton]
  cases verdict.allowed <;> rfl

theorem suppressed_snoc :
    suppressed (verdicts ++ [verdict]) = suppressed verdicts + (!verdict.allowed).toNat := by
  rw [suppressed, List.countP_append, suppressed, List.countP_singleton]
  cases verdict.allowed <;> rfl

theorem reports_snoc :
    reports (verdicts ++ [verdict]) = reports verdicts ++ verdict.report.toList := by
  obtain ⟨allowed, _ | count⟩ := verdict <;> simp [reports]

theorem resumes_snoc :
    Resumes (verdicts ++ [verdict]) ↔
      Resumes verdicts ∨ verdict.allowed = true ∧ 2 ≤ suppressed verdicts := by
  constructor
  · rintro ⟨before, last, after, heq, hallowed, htwo⟩
    rcases List.eq_nil_or_concat after with rfl | ⟨rest, final, rfl⟩
    · obtain ⟨rfl, hlast⟩ := List.append_inj' heq rfl
      cases hlast
      exact .inr ⟨hallowed, htwo⟩
    · rw [List.concat_eq_append, ← List.cons_append, ← List.append_assoc] at heq
      obtain ⟨hbefore, -⟩ := List.append_inj' heq rfl
      exact .inl ⟨before, last, rest, hbefore, hallowed, htwo⟩
  · rintro (⟨before, earlier, after, rfl, hallowed, htwo⟩ | ⟨hallowed, htwo⟩)
    · exact ⟨before, earlier, after ++ [verdict], by simp, hallowed, htwo⟩
    · exact ⟨verdicts, verdict, [], rfl, hallowed, htwo⟩

end Verdict

namespace Limiter

/-! ## One message -/

/-- What becomes of a message that is offered under a rate. -/
inductive Offers (rate : Nat) : Limiter → Verdict → Limiter → Prop
  | written {written : Nat} {reported : Bool} (hroom : written < rate) :
      Offers rate ⟨written, 0, reported⟩ ⟨true, none⟩ ⟨written + 1, 0, reported⟩
  -- the drops since the last report are told of before the message
  | resumed {written pending : Nat} {reported : Bool} (hroom : written < rate) :
      Offers rate ⟨written, pending + 1, reported⟩ ⟨true, some (pending + 1)⟩
        ⟨written + 1, 0, true⟩
  | counted {written pending : Nat} (hfull : rate ≤ written) :
      Offers rate ⟨written, pending, true⟩ ⟨false, none⟩ ⟨written, pending + 1, true⟩
  | announced {written pending : Nat} (hfull : rate ≤ written) :
      Offers rate ⟨written, pending, false⟩ ⟨false, some (pending + 1)⟩ ⟨written, 0, true⟩

theorem offers_offer (limiter : Limiter) (rate : Nat) :
    Offers rate limiter (limiter.offer rate).1 (limiter.offer rate).2 := by
  obtain ⟨written, pending, reported⟩ := limiter
  by_cases hroom : written < rate
  · cases pending with
    | zero =>
        rw [offer, if_pos hroom, if_pos rfl]
        exact .written hroom
    | succ pending =>
        rw [offer, if_pos hroom, if_neg (Nat.succ_ne_zero pending)]
        exact .resumed hroom
  · rw [offer, if_neg hroom]
    cases reported with
    | true => exact .counted (Nat.le_of_not_lt hroom)
    | false => exact .announced (Nat.le_of_not_lt hroom)

/-! ## All messages -/

/-- A limiter that was fresh, and the verdicts on the messages it was offered since. -/
inductive Judged : List Verdict → Limiter → Prop
  | fresh : Judged [] .fresh
  | offer {verdicts : List Verdict} {verdict : Verdict} {limiter next : Limiter} {rate : Nat}
      (judged : Judged verdicts limiter) (offers : Offers rate limiter verdict next) :
      Judged (verdicts ++ [verdict]) next

namespace Judged

open Verdict

variable {verdicts : List Verdict} {limiter : Limiter}

theorem written_eq (judged : Judged verdicts limiter) : limiter.written = admitted verdicts := by
  induction judged with
  | fresh => rfl
  | offer _ offers ih =>
      rw [admitted_snoc, ← ih]
      cases offers <;> rfl

theorem suppressed_eq (judged : Judged verdicts limiter) :
    suppressed verdicts = (reports verdicts).sum + limiter.pending := by
  induction judged with
  | fresh => rfl
  | offer _ offers ih =>
      rw [suppressed_snoc, reports_snoc, List.sum_append, ih]
      cases offers <;> simp <;> omega

theorem pending_le_suppressed (judged : Judged verdicts limiter) :
    limiter.pending ≤ suppressed verdicts := by
  rw [judged.suppressed_eq]
  exact Nat.le_add_left ..

theorem pos_of_mem_reports (judged : Judged verdicts limiter) :
    ∀ count ∈ reports verdicts, 0 < count := by
  induction judged with
  | fresh => exact List.forall_mem_nil _
  | offer _ offers ih =>
      rw [reports_snoc, List.forall_mem_append]
      refine ⟨ih, ?_⟩
      cases offers <;> simp

/-- Drops were reported exactly if there were any. -/
theorem reported_iff (judged : Judged verdicts limiter) :
    limiter.reported = true ↔ 0 < suppressed verdicts := by
  induction judged with
  | fresh => exact ⟨nofun, nofun⟩
  | offer judged offers ih =>
      rw [suppressed_snoc]
      cases offers with
      | written hroom => exact ih
      | resumed hroom =>
          exact ⟨fun _ => Nat.lt_of_lt_of_le (Nat.succ_pos _) judged.pending_le_suppressed,
            fun _ => rfl⟩
      | counted hfull | announced hfull => exact ⟨fun _ => Nat.succ_pos _, fun _ => rfl⟩

/-- As long as no message is written after two suppressed ones, the first drop is in the only
report and the others are pending. -/
theorem length_reports_of_not_resumes (judged : Judged verdicts limiter)
    (hresumes : ¬ Resumes verdicts) :
    (reports verdicts).length = min 1 (suppressed verdicts) ∧
      limiter.pending = suppressed verdicts - 1 := by
  induction judged with
  | fresh => exact ⟨rfl, rfl⟩
  | offer judged offers ih =>
      rw [resumes_snoc, not_or] at hresumes
      obtain ⟨hbefore, hnow⟩ := hresumes
      obtain ⟨hlength, hpending⟩ := ih hbefore
      have hreported := judged.reported_iff
      rw [reports_snoc, suppressed_snoc, List.length_append, hlength]
      cases offers with
      | written hroom => exact ⟨rfl, hpending⟩
      | resumed hroom =>
          -- drops are pending only from the second one on
          simp only [true_and] at hnow hpending
          omega
      | counted hfull =>
          simp only [true_iff] at hreported hpending
          simp only [Option.toList_none, List.length_nil, Bool.not_false, Bool.toNat_true]
          omega
      | announced hfull =>
          simp only [Bool.false_eq_true, false_iff] at hreported
          simp only [Option.toList_some, List.length_singleton, Bool.not_false, Bool.toNat_true]
          omega

theorem two_le_length_reports (judged : Judged verdicts limiter)
    (hresumes : Resumes verdicts) : 2 ≤ (reports verdicts).length := by
  induction judged with
  | fresh =>
      obtain ⟨before, verdict, after, heq, -⟩ := hresumes
      simp at heq
  | @offer verdicts _ _ _ _ judged offers ih =>
      rw [reports_snoc, List.length_append]
      by_cases hbefore : Resumes verdicts
      · have hlength := ih hbefore
        omega
      · obtain ⟨hallowed, htwo⟩ := (resumes_snoc ..).mp hresumes |>.resolve_left hbefore
        obtain ⟨hlength, hpending⟩ := judged.length_reports_of_not_resumes hbefore
        cases offers with
        | written hroom =>
            simp only at hpending
            omega
        | resumed hroom =>
            simp only [Option.toList_some, List.length_singleton]
            omega
        | counted hfull | announced hfull => cases hallowed

/-- There is a second report exactly if a message was written after two had been suppressed. -/
theorem length_reports_le_one_iff (judged : Judged verdicts limiter) :
    (reports verdicts).length ≤ 1 ↔ ¬ Resumes verdicts := by
  constructor
  · intro hle hresumes
    have htwo := judged.two_le_length_reports hresumes
    omega
  · intro hresumes
    have hlength := (judged.length_reports_of_not_resumes hresumes).1
    omega

end Judged

end Limiter

end Mos6502.Log
