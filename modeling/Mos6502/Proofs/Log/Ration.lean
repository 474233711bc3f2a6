import Mathlib.Data.List.Induction
import Mathlib.Order.Defs.LinearOrder
import Mos6502.Proofs.Log.Transcript

/-!
# A rate keeps the first messages of each category

While the settings stay as they are, a limiter that began empty is determined by the rate and by
how many messages it was offered (`Limiter.loaded`): it writes the first ones, reports the next
one as dropped, and passes over all that follow.  So what a notice adds to the log depends on how
many wanted notices of its category came before it (`Settings.share`), and the lines of the log are
the shares one after the other (`Settings.rationed`, `loaded_tellAll_of_fresh`).

Of these lines, those of one category are its first wanted messages and at most one report
(`about_rationed`); the other categories do not come into it.

Messages come from the operations of a machine and from calls beside them.  `tellsAll` collects
from the machine alone what both tell, and `callAll_eq` says that this is what the log is told.
-/

namespace Mos6502

open Listener (tellAll tellAll_append)

namespace Log

/-! ## One limiter -/

namespace Limiter

/-- The limiter that was fresh before it was offered a number of messages under one rate. -/
def loaded (rate offered : Nat) : Limiter :=
  ⟨min offered rate, offered - (rate + 1), decide (rate < offered)⟩

theorem loaded_zero (rate : Nat) : loaded rate 0 = fresh := by
  simp [loaded, fresh]

section Offer

variable {rate offered : Nat}

theorem offer_loaded_of_lt (hlt : offered < rate) :
    (loaded rate offered).offer rate = (⟨true, none⟩, loaded rate (offered + 1)) := by
  have hwritten : min offered rate < rate := by omega
  have hpending : offered - (rate + 1) = 0 := by omega
  rw [offer, loaded, if_pos hwritten, if_pos hpending]
  refine Prod.ext rfl (Limiter.ext ?_ ?_ ?_)
  · show min offered rate + 1 = min (offered + 1) rate
    omega
  · show offered - (rate + 1) = offered + 1 - (rate + 1)
    omega
  · exact decide_eq_decide.mpr (by omega)

theorem offer_loaded_self (rate : Nat) :
    (loaded rate rate).offer rate = (⟨false, some 1⟩, loaded rate (rate + 1)) := by
  have hwritten : ¬ min rate rate < rate := by omega
  have hreported : ¬ decide (rate < rate) = true := by simp
  have hpending : rate - (rate + 1) = 0 := by omega
  rw [offer, loaded, if_neg hwritten, if_neg hreported, hpending]
  refine Prod.ext rfl (Limiter.ext ?_ ?_ ?_)
  · show min rate rate = min (rate + 1) rate
    omega
  · show 0 = rate + 1 - (rate + 1)
    omega
  · show true = decide (rate < rate + 1)
    simp

theorem offer_loaded_of_gt (hgt : rate < offered) :
    (loaded rate offered).offer rate = (⟨false, none⟩, loaded rate (offered + 1)) := by
  have hwritten : ¬ min offered rate < rate := by omega
  rw [offer, loaded, if_neg hwritten, if_pos (decide_eq_true hgt)]
  refine Prod.ext rfl (Limiter.ext ?_ ?_ ?_)
  · show min offered rate = min (offered + 1) rate
    omega
  · show offered - (rate + 1) + 1 = offered + 1 - (rate + 1)
    omega
  · exact decide_eq_decide.mpr (by omega)

end Offer

end Limiter

/-! ## The lines of a log -/

/-- The lines of one category. -/
def Line.about (category : Category) (lines : List Line) : List Line :=
  lines.filter fun line => line.category = category

theorem Line.about_append (category : Category) (first second : List Line) :
    about category (first ++ second) = about category first ++ about category second :=
  List.filter_append ..

namespace Settings

/-- The wanted notices of one category. -/
def wanted (settings : Settings) (category : Category) (notices : List Notice) : List Notice :=
  notices.filter fun notice => decide (notice.category = category) && settings.selects notice

/-- What a notice adds to the lines of a log that heard others before it. -/
def share (settings : Settings) (before : List Notice) (notice : Notice) : List Line :=
  if settings.selects notice then
    if settings.demand notice.category before < settings.rate then [.message notice.event]
    else if settings.demand notice.category before = settings.rate then
      [.dropped notice.category 1]
    else []
  else []

/-- The lines of a log that hears notices from the first on, each at its place. -/
def rationed (settings : Settings) (notices : List Notice) : List Line :=
  notices.zipIdx.flatMap fun (notice, place) => settings.share (notices.take place) notice

theorem length_wanted (settings : Settings) (category : Category) (notices : List Notice) :
    (settings.wanted category notices).length = settings.demand category notices :=
  List.countP_eq_length_filter.symm

theorem wanted_eq (settings : Settings) (category : Category) (notices : List Notice) :
    settings.wanted category notices =
      (notices.filter fun notice => notice.category = category).filter settings.selects := by
  rw [List.filter_filter]
  simp only [Bool.and_comm]
  rfl

section Share

variable {settings : Settings} {before : List Notice} {notice : Notice}

theorem share_of_not_selects (hselects : settings.selects notice = false) :
    settings.share before notice = [] := by
  simp [share, hselects]

theorem share_of_lt (hselects : settings.selects notice = true)
    (hlt : settings.demand notice.category before < settings.rate) :
    settings.share before notice = [.message notice.event] := by
  rw [share, if_pos hselects, if_pos hlt]

theorem share_of_eq (hselects : settings.selects notice = true)
    (heq : settings.demand notice.category before = settings.rate) :
    settings.share before notice = [.dropped notice.category 1] := by
  rw [share, if_pos hselects, if_neg heq.not_lt, if_pos heq]

theorem share_of_gt (hselects : settings.selects notice = true)
    (hgt : settings.rate < settings.demand notice.category before) :
    settings.share before notice = [] := by
  rw [share, if_pos hselects, if_neg hgt.not_gt, if_neg hgt.ne']

theorem category_of_mem_share {line : Line} (hline : line ∈ settings.share before notice) :
    line.category = notice.category := by
  unfold share at hline
  split at hline
  · split at hline
    · rw [List.mem_singleton.mp hline]
      exact notice.category_eq
    · split at hline
      · rw [List.mem_singleton.mp hline]
        rfl
      · cases hline
  · cases hline

end Share

section Snoc

variable {settings : Settings} {notices : List Notice} {notice : Notice} {category : Category}

theorem rationed_snoc (settings : Settings) (notices : List Notice) (notice : Notice) :
    settings.rationed (notices ++ [notice]) =
      settings.rationed notices ++ settings.share notices notice := by
  have hbefore : ∀ entry ∈ notices.zipIdx,
      settings.share ((notices ++ [notice]).take entry.2) entry.1 =
        settings.share (notices.take entry.2) entry.1 := by
    intro entry hentry
    have hplace := (List.mem_zipIdx hentry).2.1
    rw [List.take_append_of_le_length (by omega)]
  rw [rationed, List.zipIdx_append, List.flatMap_append, List.flatMap_def,
    List.map_congr_left hbefore, ← List.flatMap_def]
  simp [rationed]

theorem wanted_snoc_self (hselects : settings.selects notice = true) :
    settings.wanted notice.category (notices ++ [notice]) =
      settings.wanted notice.category notices ++ [notice] := by
  simp [wanted, hselects]

theorem wanted_snoc_of_not
    (hnot : ¬ (notice.category = category ∧ settings.selects notice = true)) :
    settings.wanted category (notices ++ [notice]) = settings.wanted category notices := by
  have hfalse : (decide (notice.category = category) && settings.selects notice) = false := by
    simpa using hnot
  simp [wanted, hfalse]

theorem demand_snoc_self (hselects : settings.selects notice = true) :
    settings.demand notice.category (notices ++ [notice]) =
      settings.demand notice.category notices + 1 := by
  rw [← length_wanted, wanted_snoc_self hselects, List.length_append, length_wanted]
  rfl

theorem demand_snoc_of_not
    (hnot : ¬ (notice.category = category ∧ settings.selects notice = true)) :
    settings.demand category (notices ++ [notice]) = settings.demand category notices := by
  rw [← length_wanted, wanted_snoc_of_not hnot, length_wanted]

end Snoc

/-- The lines of one category are its first wanted messages, as many as the rate allows, and a
report of one drop if there are more. -/
theorem about_rationed (settings : Settings) (category : Category) (notices : List Notice) :
    Line.about category (settings.rationed notices) =
      ((settings.wanted category notices).take settings.rate).map
          (fun notice => Line.message notice.event) ++
        if settings.rate < (settings.wanted category notices).length then
          [Line.dropped category 1]
        else [] := by
  induction notices using List.reverseRecOn with
  | nil => simp [rationed, wanted, Line.about]
  | append_singleton notices notice ih =>
      rw [rationed_snoc, Line.about_append, ih]
      by_cases hwanted : notice.category = category ∧ settings.selects notice = true
      · obtain ⟨rfl, hselects⟩ := hwanted
        have hkept : Line.about notice.category (settings.share notices notice) =
            settings.share notices notice :=
          List.filter_eq_self.mpr fun line hline =>
            decide_eq_true (category_of_mem_share hline)
        have hlength := settings.length_wanted notice.category notices
        rw [hkept, wanted_snoc_self hselects, List.length_append, List.length_singleton, hlength]
        rcases Nat.lt_trichotomy (settings.demand notice.category notices) settings.rate
          with hlt | heq | hgt
        · -- there is room, and what was kept before is all that came before
          rw [share_of_lt hselects hlt, if_neg (by omega), if_neg (by omega),
            List.take_of_length_le (by omega),
            List.take_of_length_le (by rw [List.length_append, hlength]; exact hlt)]
          simp
        · rw [share_of_eq hselects heq, if_neg (by omega), if_pos (by omega), ← heq, ← hlength,
            List.take_left, List.take_length]
          simp
        · rw [share_of_gt hselects hgt, if_pos hgt, if_pos (by omega), List.append_nil,
            List.take_append_of_le_length (by omega)]
      · have hnone : Line.about category (settings.share notices notice) = [] := by
          refine List.filter_eq_nil_iff.mpr fun line hline heq => hwanted ?_
          have hcategory := category_of_mem_share hline
          rw [of_decide_eq_true heq] at hcategory
          refine ⟨hcategory.symm, ?_⟩
          by_contra hselects
          rw [share_of_not_selects (Bool.not_eq_true _ ▸ hselects)] at hline
          cases hline
        rw [wanted_snoc_of_not hwanted, hnone, List.append_nil]

end Settings

/-! ## Telling a fresh log -/

/-- The limiters have been offered the wanted ones of some notices, and nothing else. -/
def Loaded (log : Log) (before : List Notice) : Prop :=
  ∀ category, log.limiters.get category =
    .loaded log.settings.rate (log.settings.demand category before)

theorem loaded_of_fresh {log : Log} (hfresh : log.limiters = .same .fresh) : log.Loaded [] := by
  intro category
  rw [hfresh, PerCategory.get_same]
  exact (Limiter.loaded_zero _).symm

theorem emit_of_offer {log : Log} {notice : Notice} {verdict : Verdict} {limiter : Limiter}
    (hselects : log.settings.selects notice = true)
    (hoffer : (log.limiters.get notice.category).offer log.settings.rate = (verdict, limiter)) :
    log.emit notice.event =
      { log with
        limiters := log.limiters.set notice.category limiter
        lines := log.lines ++ verdict.lines notice.event } := by
  rw [emit, if_pos (log.settings.wants_event notice ▸ hselects), notice.category_eq, hoffer]

/-- A notice that is wanted takes its share and counts for its category. -/
theorem exists_offer_of_loaded {log : Log} {before : List Notice} (hloaded : log.Loaded before)
    {notice : Notice} (hselects : log.settings.selects notice = true) :
    ∃ verdict : Verdict,
      (log.limiters.get notice.category).offer log.settings.rate =
        (verdict, .loaded log.settings.rate
          (log.settings.demand notice.category (before ++ [notice]))) ∧
      verdict.lines notice.event = log.settings.share before notice := by
  rw [hloaded notice.category, Settings.demand_snoc_self hselects]
  rcases Nat.lt_trichotomy (log.settings.demand notice.category before) log.settings.rate
    with hlt | heq | hgt
  · refine ⟨_, Limiter.offer_loaded_of_lt hlt, ?_⟩
    rw [Settings.share_of_lt hselects hlt]
    rfl
  · rw [heq]
    refine ⟨_, Limiter.offer_loaded_self _, ?_⟩
    rw [Settings.share_of_eq hselects heq, ← notice.category_eq]
    rfl
  · refine ⟨_, Limiter.offer_loaded_of_gt hgt, ?_⟩
    rw [Settings.share_of_gt hselects hgt]
    rfl

theorem Loaded.emit {log : Log} {before : List Notice} (hloaded : log.Loaded before)
    (notice : Notice) :
    (log.emit notice.event).Loaded (before ++ [notice]) ∧
      (log.emit notice.event).lines.toList =
        log.lines.toList ++ log.settings.share before notice := by
  cases hselects : log.settings.selects notice with
  | false =>
      rw [emit_of_not_wants (log.settings.wants_event notice ▸ hselects),
        Settings.share_of_not_selects hselects, List.append_nil]
      refine ⟨fun category => ?_, rfl⟩
      rw [Settings.demand_snoc_of_not (by simp [hselects])]
      exact hloaded category
  | true =>
      obtain ⟨verdict, hoffer, hlines⟩ := exists_offer_of_loaded hloaded hselects
      rw [emit_of_offer hselects hoffer]
      refine ⟨fun category => ?_, ?_⟩
      · by_cases hcategory : notice.category = category
        · subst hcategory
          exact PerCategory.get_set_self ..
        · rw [Settings.demand_snoc_of_not fun hwanted => hcategory hwanted.1]
          exact (PerCategory.get_set_of_ne _ _ hcategory).trans (hloaded category)
      · rw [← hlines]
        simp

theorem settings_tellAll (log : Log) (notices : List Notice) :
    (tellAll log notices).settings = log.settings := by
  induction notices generalizing log with
  | nil => rfl
  | cons notice notices ih => exact (ih _).trans (settings_emit ..)

theorem tellAll_snoc (log : Log) (notices : List Notice) (notice : Notice) :
    tellAll log (notices ++ [notice]) = (tellAll log notices).emit notice.event :=
  tellAll_append log notices [notice]

theorem loaded_tellAll_of_fresh {log : Log} (hfresh : log.limiters = .same .fresh)
    (notices : List Notice) :
    (tellAll log notices).Loaded notices ∧
      (tellAll log notices).lines.toList = log.lines.toList ++ log.settings.rationed notices := by
  induction notices using List.reverseRecOn with
  | nil => exact ⟨loaded_of_fresh hfresh, (List.append_nil _).symm⟩
  | append_singleton notices notice ih =>
      obtain ⟨hloaded, hlines⟩ := ih
      obtain ⟨hnext, hadded⟩ := hloaded.emit notice
      rw [tellAll_snoc]
      refine ⟨hnext, ?_⟩
      rw [hadded, hlines, settings_tellAll, Settings.rationed_snoc, List.append_assoc]

end Log

/-! ## Messages of a machine and beside it -/

/-- A message from outside the machine, or an operation of the machine. -/
inductive Call where
  | note (category : Log.Category) (level : Log.Level) (text : String)
  | operate (request : Request)

namespace Cpu

/-- What a call tells, and the machine after it; `none` means that a run was still going. -/
def tells (fuel : Nat) (cpu : Cpu) : Call → Option (List Log.Notice × Cpu)
  | .note category level text =>
      some ([⟨category, level, .note category level text, rfl, rfl⟩], cpu)
  | .operate request =>
      (device.serve fuel cpu request).map fun (reply, next) =>
        (Exchange.notices ⟨cpu, request, reply, next⟩, next)

/-- What calls tell one after the other, and the machine after them. -/
def tellsAll (fuel : Nat) : Cpu → List Call → Option (List Log.Notice × Cpu)
  | cpu, [] => some ([], cpu)
  | cpu, call :: calls =>
      (cpu.tells fuel call).bind fun (first, next) =>
        (tellsAll fuel next calls).map fun (rest, last) => (first ++ rest, last)

end Cpu

namespace Session

/-- A message is told to the log of a session, or its machine is operated. -/
def call (fuel : Nat) (session : Session) : Call → Option Session
  | .note category level text =>
      some { session with log := session.log.emit (.note category level text) }
  | .operate request => (device.serve fuel session request).map Prod.snd

def callAll (fuel : Nat) : Session → List Call → Option Session
  | session, [] => some session
  | session, call :: calls => (session.call fuel call).bind (callAll fuel · calls)

theorem call_eq (fuel : Nat) (cpu : Cpu) (log : Log) (call : Call) :
    Session.call fuel ⟨cpu, log⟩ call =
      (cpu.tells fuel call).map fun (notices, next) => ⟨next, tellAll log notices⟩ := by
  cases call with
  | note category level text => rfl
  | operate request =>
      rw [Session.call, serve_session, Cpu.tells, Option.map_map, Option.map_map]
      rfl

/-- A session is its machine, and a log that was told what the calls tell. -/
theorem callAll_eq (fuel : Nat) (cpu : Cpu) (log : Log) (calls : List Call) :
    callAll fuel ⟨cpu, log⟩ calls =
      (cpu.tellsAll fuel calls).map fun (notices, last) => ⟨last, tellAll log notices⟩ := by
  induction calls generalizing cpu log with
  | nil => rfl
  | cons call calls ih =>
      rw [callAll, call_eq, Cpu.tellsAll]
      cases cpu.tells fuel call with
      | none => rfl
      | some told =>
          obtain ⟨first, next⟩ := told
          simp only [Option.map_some, Option.bind_some]
          rw [ih, Option.map_map]
          refine congrArg (Option.map · _) (funext fun rest => ?_)
          rw [Function.comp_apply, tellAll_append]

/-- A log whose limiters are fresh writes what it hears at its place: of each category the first
wanted messages, as many as the rate allows, with their text unchanged, and at the place of the
next one a report of a single drop.  So there is at most one line more than the rate allows, and
the lines of a category are the same whatever is told about the others. -/
theorem callAll_rationed {fuel : Nat} {cpu : Cpu} {log : Log} {calls : List Call} {final : Session}
    (hfresh : log.limiters = .same .fresh)
    (hcalls : callAll fuel ⟨cpu, log⟩ calls = some final) :
    ∃ notices, cpu.tellsAll fuel calls = some (notices, final.cpu) ∧
      final.log.lines.toList = log.lines.toList ++ log.settings.rationed notices ∧
      ∀ category,
        (Log.Line.about category (log.settings.rationed notices)).map Log.Line.text =
          ((log.settings.wanted category notices).take log.settings.rate).map
              (fun notice => notice.event.text) ++
            (if log.settings.rate < (log.settings.wanted category notices).length then
              ["[" ++ category.name ++ "] rate limit exceeded, 1 message(s) dropped"]
            else []) ∧
        (Log.Line.about category (log.settings.rationed notices)).length
          ≤ log.settings.rate + 1 ∧
        ∀ others : List Log.Notice,
          others.filter (fun notice => notice.category = category) =
            notices.filter (fun notice => notice.category = category) →
          Log.Line.about category (log.settings.rationed others) =
            Log.Line.about category (log.settings.rationed notices) := by
  rw [callAll_eq] at hcalls
  obtain ⟨⟨notices, last⟩, htells, rfl⟩ := Option.map_eq_some_iff.mp hcalls
  obtain ⟨-, hlines⟩ := Log.loaded_tellAll_of_fresh hfresh notices
  refine ⟨notices, htells, hlines, fun category => ⟨?_, ?_, fun others hothers => ?_⟩⟩
  · have htext : (Log.Line.dropped category 1).text =
        "[" ++ category.name ++ "] rate limit exceeded, 1 message(s) dropped" := by
      cases category <;> rfl
    rw [Log.Settings.about_rationed, List.map_append, List.map_map, apply_ite (List.map _),
      List.map_singleton, htext]
    rfl
  · rw [Log.Settings.about_rationed, List.length_append, List.length_map, List.length_take]
    split
    · rw [List.length_singleton]
      omega
    · rw [List.length_nil]
      omega
  · rw [Log.Settings.about_rationed, Log.Settings.about_rationed, Log.Settings.wanted_eq,
      hothers, ← Log.Settings.wanted_eq]

/-- At a rate of one the second message about the stack, which comes from the machine, is reported
and the third is not. -/
theorem callAll_rationed_between_notes :
    ∃ final,
      callAll 0 ⟨Cpu.fresh.loadProgram 0 [0x48], ⟨⟨.trace, .same .off, 1⟩, .same .fresh, #[]⟩⟩
        [.note .stack .error "first", .operate .step, .note .stack .info "third"] = some final ∧
      (Log.Line.about .stack final.log.lines.toList).map Log.Line.text =
        ["first", "[Stack] rate limit exceeded, 1 message(s) dropped"] := by
  have hsome : (callAll 0
      ⟨Cpu.fresh.loadProgram 0 [0x48], ⟨⟨.trace, .same .off, 1⟩, .same .fresh, #[]⟩⟩
      [.note .stack .error "first", .operate .step, .note .stack .info "third"]).isSome = true := by
    decide +kernel
  obtain ⟨final, hcalls⟩ := Option.isSome_iff_exists.mp hsome
  obtain ⟨notices, htells, hlines, hcategory⟩ := callAll_rationed rfl hcalls
  have hwanted : ((Cpu.fresh.loadProgram 0 [0x48]).tellsAll 0
      [.note .stack .error "first", .operate .step, .note .stack .info "third"]).map (fun told =>
        (Log.Settings.wanted ⟨.trace, .same .off, 1⟩ .stack told.1).map fun notice =>
          notice.event) =
      some [.note .stack .error "first", .stack (.push 0 0x01FF),
        .note .stack .info "third"] := by
    decide +kernel
  rw [htells, Option.map_some, Option.some_inj] at hwanted
  have hlength : (Log.Settings.wanted ⟨.trace, .same .off, 1⟩ .stack notices).length = 3 := by
    simpa using congrArg List.length hwanted
  have hfirst : ((Log.Settings.wanted ⟨.trace, .same .off, 1⟩ .stack notices).take 1).map
      (fun notice => notice.event.text) = ["first"] := by
    have htake := congrArg (fun events => (events.take 1).map Log.Event.text) hwanted
    rwa [← List.map_take, List.map_map] at htake
  obtain ⟨htexts, -⟩ := hcategory .stack
  rw [hfirst, hlength, if_pos (by decide)] at htexts
  refine ⟨final, hcalls, ?_⟩
  rw [hlines]
  exact htexts

end Session

end Mos6502
