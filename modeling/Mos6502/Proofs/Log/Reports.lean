import Mos6502.Proofs.Log.Course

/-!
# How often drops are reported

Within one span of time the first drop of a category is reported at once, and the drops after it are
counted.  They are told of with the next message that is written.  At the same rate no message is
written after a drop, and so there is one report; but when the rate goes up in between, there is
another one, and once more each time that it goes up again.

`Limiter.owed` bounds the reports that may still come while the rate stays as it is.  Together with
the reports that are written it makes the `Course.burden` of a category: no message adds to it, and
a change of the settings adds one at most, when it raises the rate (`burden_foldl_le`).
-/

namespace Mos6502.Log

namespace Limiter

/-- How many reports may still come while the rate stays: one as long as there was none, and one
if there are drops to tell of and room for a message. -/
def owed (limiter : Limiter) (rate : Nat) : Nat :=
  if limiter.reported = false ∨ limiter.written < rate ∧ 0 < limiter.pending then 1 else 0

theorem owed_le_one (limiter : Limiter) (rate : Nat) : limiter.owed rate ≤ 1 := by
  unfold owed
  split <;> omega

theorem owed_le_owed (limiter : Limiter) {rate higher : Nat} (hle : rate ≤ higher) :
    limiter.owed rate ≤ limiter.owed higher := by
  unfold owed
  split
  · next howed =>
      have hstill : limiter.reported = false ∨ limiter.written < higher ∧ 0 < limiter.pending :=
        howed.imp_right fun ⟨hroom, hpending⟩ => ⟨Nat.lt_of_lt_of_le hroom hle, hpending⟩
      exact Nat.le_of_eq (if_pos hstill).symm
  · exact Nat.zero_le _

/-- A report that is written was owed. -/
theorem Offers.owed_le {rate : Nat} {limiter next : Limiter} {verdict : Verdict}
    (offers : Offers rate limiter verdict next) :
    verdict.report.toList.length + next.owed rate ≤ limiter.owed rate := by
  cases offers with
  | written hroom => simp [owed]
  | resumed hroom => simp [owed, hroom]
  | counted hfull => simp [owed, Nat.not_lt_of_le hfull]
  | announced hfull => simp [owed]

end Limiter

variable {σ : Type}

/-- How often actions raise the rate, from given settings on. -/
def raises : Settings → List (Action σ) → Nat
  | _, [] => 0
  | settings, .call _ :: actions => raises settings actions
  | settings, .configure change :: actions =>
      (if settings.rate < (settings.apply change).rate then 1 else 0)
        + raises (settings.apply change) actions

namespace Course

/-- The reports about a category that are written and those that are owed. -/
def burden (course : Course σ) (category : Category) : Nat :=
  (Line.reportsAbout category course.log.lines.toList).length
    + (course.log.limiters.get category).owed course.log.settings.rate

section Burden

variable (course : Course σ) (category : Category)

theorem burden_start (settings : Settings) (begun : σ) :
    (start settings begun).burden category = 1 := by
  cases category <;> rfl

theorem burden_call_le (message : Message σ) :
    (course.next (.call message)).burden category ≤ course.burden category := by
  cases hverdict : course.log.verdict? message with
  | none =>
      rw [next_of_unwanted hverdict]
      exact Nat.le_refl _
  | some verdict =>
      obtain ⟨limiter, hoffers, hnext⟩ := exists_next_of_verdict hverdict
      rw [hnext, burden, burden, Array.toList_appendList, Line.reportsAbout_append,
        List.length_append, Verdict.reportsAbout_lines, message.category_make]
      by_cases hcategory : message.category = category
      · subst hcategory
        have howed := hoffers.owed_le
        rw [if_pos rfl, PerCategory.get_set_self]
        simp only
        omega
      · rw [if_neg hcategory, PerCategory.get_set_of_ne _ _ hcategory]
        exact Nat.le_refl _

theorem burden_configure_le (change : Change) :
    (course.next (.configure change)).burden category ≤
      course.burden category +
        if course.log.settings.rate < (course.log.settings.apply change).rate then 1 else 0 := by
  rw [next, burden, burden]
  split
  · have hone := (course.log.limiters.get category).owed_le_one
      (course.log.settings.apply change).rate
    simp only
    omega
  · next hraise =>
      have howed := (course.log.limiters.get category).owed_le_owed (Nat.le_of_not_lt hraise)
      simp only
      omega

theorem burden_foldl_le (actions : List (Action σ)) :
    (actions.foldl next course).burden category ≤
      course.burden category + raises course.log.settings actions := by
  induction actions generalizing course with
  | nil => exact Nat.le_refl _
  | cons action actions ih =>
      have hrest := ih (course.next action)
      cases action with
      | call message =>
          have hfirst := course.burden_call_le category message
          have hsettings : (course.next (.call message)).log.settings = course.log.settings :=
            settings_call ..
          rw [hsettings] at hrest
          rw [List.foldl_cons, raises]
          omega
      | configure change =>
          have hfirst := course.burden_configure_le category change
          have hsettings : (course.next (.configure change)).log.settings =
              course.log.settings.apply change := rfl
          rw [hsettings] at hrest
          rw [List.foldl_cons, raises]
          omega

end Burden

/-- In one span of time there is more than one report about a category exactly if one of its
messages was written after two others had been suppressed.  There are at most as many further
reports as there are raises of the rate. -/
theorem one_report_iff (settings : Settings) (begun : σ) (actions : List (Action σ))
    (category : Category) :
    let course := run settings begun actions
    let reports := Line.reportsAbout category course.log.lines.toList
    (reports.length ≤ 1 ↔ ¬ Verdict.Resumes (verdictsAbout course.told category)) ∧
      reports.length ≤ 1 + raises settings actions := by
  have haccounts := accounts_run settings begun actions
  constructor
  · rw [haccounts.reports]
    exact (haccounts.judged category).length_reports_le_one_iff
  · have hburden := burden_foldl_le (start settings begun) category actions
    rw [burden_start] at hburden
    exact Nat.le_trans (Nat.le_add_right ..) hburden

/-- Three messages at a rate of one and another one after the rate was raised: the first drop is
reported at once, the second one with the last message. -/
theorem two_reports_after_raise :
    ¬ ∀ (settings : Settings) (actions : List (Action Unit)) (category : Category),
      (Line.reportsAbout category (run settings () actions).log.lines.toList).length ≤ 1 := by
  intro hone
  obtain ⟨settings, actions, hreports⟩ : ∃ settings, ∃ actions : List (Action Unit),
      Line.reportsAbout .cpu (run settings () actions).log.lines.toList = [1, 1] :=
    ⟨⟨.info, .same .off, 1⟩,
      [.call (.note .cpu .info "m0"), .call (.note .cpu .info "m1"), .call (.note .cpu .info "m2"),
        .configure (.rate 5), .call (.note .cpu .info "m0")], by decide⟩
  have hlength := hone settings actions .cpu
  rw [hreports] at hlength
  exact absurd hlength (by decide)

end Course

end Mos6502.Log
