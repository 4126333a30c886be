import StagingMemory.Account.Gauge
import StagingMemory.Size
/-!
The account of a resource: how often it allocated, released and failed, and the bytes it has handed
out. The account holds numbers only, never the blocks.
-/
namespace StagingMemory

structure Statistics where
  /-- Allocations that handed out a block. -/
  allocations : Counter
  releases : Counter
  /-- Allocations that returned an error. -/
  failures : Counter
  /-- Bytes handed out and not yet released. -/
  bytes : Gauge
  deriving DecidableEq, Repr

namespace Statistics

def zero : Statistics := ⟨.zero, .zero, .zero, .zero⟩

instance : Inhabited Statistics := ⟨zero⟩

def recordAllocation (s : Statistics) (n : UInt64) : Outcome Unit × Statistics :=
  let (outcome, bytes) := s.bytes.add n
  (outcome, { s with allocations := s.allocations.increment, bytes })

def recordFailure (s : Statistics) : Statistics :=
  { s with failures := s.failures.increment }

def recordRelease (s : Statistics) (n : UInt64) : Statistics :=
  { s with releases := s.releases.increment, bytes := s.bytes.sub n }

theorem recordRelease_eq (s : Statistics) (n : UInt64) :
    s.recordRelease n = { s with
      releases := ⟨s.releases.count + 1⟩
      bytes.current := .ofNat (s.bytes.current.toNat - n.toNat) } := by
  rw [← Gauge.current_sub]
  rfl

def active (s : Statistics) : UInt64 :=
  if s.releases.count ≤ s.allocations.count then s.allocations.count - s.releases.count else 0

def render (s : Statistics) : String :=
  "Resource Statistics:\n" ++
  "  In use:          " ++ Size.render s.bytes.current ++ "\n" ++
  "  Peak:            " ++ Size.render s.bytes.peak ++ "\n" ++
  "  Allocations:     " ++ toString s.allocations.count ++ "\n" ++
  "  Deallocations:   " ++ toString s.releases.count ++ "\n" ++
  "  Failed:          " ++ toString s.failures.count ++ "\n"

end Statistics
end StagingMemory
