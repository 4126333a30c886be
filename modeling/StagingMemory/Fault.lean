/-!
Faults: the ways in which a call stops without an answer. A call either returns, stops with a
fault after which its process goes on, or aborts its process.
-/
namespace StagingMemory

inductive Fault where
  | addOverflow
  | subtractOverflow
  | multiplyOverflow
  /-- A point in time lies beyond what the clock can hold. -/
  | deadlineOverflow
  /-- A diagnostic was fatal under the strict mode. -/
  | strict (code message context : String)
  deriving DecidableEq, Repr

def Fault.message : Fault → String
  | addOverflow => "attempt to add with overflow"
  | subtractOverflow => "attempt to subtract with overflow"
  | multiplyOverflow => "attempt to multiply with overflow"
  | deadlineOverflow => "overflow when adding duration to instant"
  | strict code message context =>
    "[stagealloc][" ++ code ++ "] " ++ message ++ context ++
      "\nStrict mode enabled - diagnostics are fatal."

inductive Outcome (α : Type u) where
  | returned (value : α)
  | faulted (fault : Fault)
  | aborted
  deriving DecidableEq, Repr

namespace Outcome

def map (f : α → β) : Outcome α → Outcome β
  | returned a => returned (f a)
  | faulted e => faulted e
  | aborted => aborted

@[simp] theorem map_returned (f : α → β) (a : α) : (returned a).map f = returned (f a) := rfl

@[simp] theorem map_faulted (f : α → β) (e : Fault) : (faulted e).map f = faulted e := rfl

@[simp] theorem map_aborted (f : α → β) : aborted.map f = aborted := rfl

theorem map_eq_returned_iff {f : α → β} {o : Outcome α} {b : β} :
    o.map f = returned b ↔ ∃ a, o = returned a ∧ f a = b := by
  cases o <;> simp

end Outcome
end StagingMemory
