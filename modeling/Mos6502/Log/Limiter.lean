/-!
# Limiting the number of messages

Messages are offered one by one within a span of time.  As many are written as the rate
allows; the others are dropped and counted, and the count is reported with the first of
them and with the next message that is written.
-/

namespace Mos6502.Log

/-- What happened to the messages of a span of time. -/
@[ext]
structure Limiter where
  /-- How many were written. -/
  written : Nat
  /-- How many were dropped and are in no report. -/
  pending : Nat
  /-- Whether drops were reported. -/
  reported : Bool
deriving DecidableEq, Repr

/-- What is to be done about one message. -/
structure Verdict where
  /-- The message is written. -/
  allowed : Bool
  /-- That many dropped messages are reported first. -/
  report : Option Nat
deriving DecidableEq, Repr

namespace Limiter

/-- Nothing was offered. -/
def fresh : Limiter :=
  ⟨0, 0, false⟩

/-- One more message is offered, under the rate in force. -/
def offer (limiter : Limiter) (rate : Nat) : Verdict × Limiter :=
  if limiter.written < rate then
    if limiter.pending = 0 then
      (⟨true, none⟩, { limiter with written := limiter.written + 1 })
    else
      (⟨true, some limiter.pending⟩, ⟨limiter.written + 1, 0, true⟩)
  else if limiter.reported then
    (⟨false, none⟩, { limiter with pending := limiter.pending + 1 })
  else
    (⟨false, some (limiter.pending + 1)⟩, { limiter with pending := 0, reported := true })

/-- A message is written exactly when fewer than the rate were written before. -/
theorem allowed_offer (limiter : Limiter) (rate : Nat) :
    (limiter.offer rate).1.allowed = decide (limiter.written < rate) := by
  unfold offer
  split
  · split <;> simp_all
  · split <;> simp_all

end Limiter

end Mos6502.Log
