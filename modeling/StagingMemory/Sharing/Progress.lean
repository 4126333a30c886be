import StagingMemory.Fault
/-!
Calls in flight. A call that touches memory shared with other processes is a sequence of steps, each
one access; between two steps anything may happen elsewhere. A call is in a phase, or done. How an
object is used in this way is its protocol.
-/
namespace StagingMemory

universe u v w x

inductive Progress (φ : Type u) (α : Type v) where
  | running (phase : φ)
  | done (outcome : Outcome α)
  deriving DecidableEq, Repr

namespace Progress

def map (f : φ → ψ) (g : α → β) : Progress φ α → Progress ψ β
  | running phase => running (f phase)
  | done outcome => done (outcome.map g)

/-- How the call ended. A call that never ends is given up with its process. -/
def outcome : Progress φ α → Outcome α
  | running _ => .aborted
  | done outcome => outcome

@[simp] theorem outcome_done (o : Outcome α) : (done o : Progress φ α).outcome = o := rfl

@[simp] theorem map_running (f : φ → ψ) (g : α → β) (phase : φ) :
    (running phase).map f g = running (f phase) := rfl

@[simp] theorem map_done (f : φ → ψ) (g : α → β) (outcome : Outcome α) :
    (done outcome : Progress φ α).map f g = done (outcome.map g) := rfl

end Progress

/-- How requests to an object are carried out, access by access. -/
structure Protocol (ρ : Type u) (σ : Type v) (γ : Type w) (α : Type x) where
  first : ρ → γ
  step : γ → σ → Progress γ α × σ

def Protocol.alone {ρ : Type u} {σ : Type v} {γ : Type w} {α : Type x} (P : Protocol ρ σ γ α) :
    Nat → Progress γ α × σ → Progress γ α × σ
  | more + 1, (.running c, s) => P.alone more (P.step c s)
  | _, reached => reached

end StagingMemory
