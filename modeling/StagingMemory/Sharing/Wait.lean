import StagingMemory.Duration
/-!
Bounded waiting. Somebody who waits looks, and when there is nothing to see reads the clock: at or
after the deadline the wait is over, and before it there is a pause no longer than the poll interval
and no longer than the time left, after which one looks again.
-/
namespace StagingMemory

structure Wait where
  /-- When the wait began. -/
  started : Nat
  deadline : Nat
  /-- The longest pause between two looks. -/
  interval : Nat
  deriving DecidableEq, Repr

namespace Wait

def lastSecond : Nat := 0x7fffffffffffffff

/-- A wait that begins now, if the clock can hold its deadline. -/
def start? (now : Nat) (timeout interval : Duration) : Option Wait :=
  let deadline := now + timeout.nanoseconds
  if deadline / Duration.perSecond ≤ lastSecond then
    some ⟨now, deadline, interval.nanoseconds⟩
  else none

inductive Verdict where
  /-- The wait is over, after this long. -/
  | expired (waited : Duration)
  /-- Pause so many nanoseconds before the next look. -/
  | pause (length : Nat)
  deriving DecidableEq, Repr

/-- What to do after a look that found nothing, by the clock's reading. -/
def judge (w : Wait) (now : Nat) : Verdict :=
  if w.deadline ≤ now then .expired ⟨now - w.started⟩
  else .pause (min w.interval (w.deadline - now))

/-- A pause never reaches past the deadline. -/
theorem add_le_deadline_of_judge_eq_pause {w : Wait} {now length : Nat}
    (h : w.judge now = .pause length) : now + length ≤ w.deadline := by
  unfold judge at h
  split at h
  · cases h
  · cases h
    omega

end Wait
end StagingMemory
