import StagingMemory.Sharing.Progress
/-!
A gauge of bytes that remembers its highest reading, and a counter of events. Both are words that
threads change by single accesses; adding to a gauge is one access to the reading and one to the
peak.
-/
namespace StagingMemory

structure Counter where
  count : UInt64
  deriving DecidableEq, Repr, Inhabited

namespace Counter

def zero : Counter := ⟨0⟩

def increment (c : Counter) : Counter := ⟨c.count + 1⟩

end Counter

structure Gauge where
  current : UInt64
  peak : UInt64
  deriving DecidableEq, Repr, Inhabited

namespace Gauge

def zero : Gauge := ⟨0, 0⟩

/-! ### Single accesses -/

def addCurrent (g : Gauge) (n : UInt64) : Gauge := { g with current := g.current + n }

def subtractCurrent (g : Gauge) (n : UInt64) : Gauge :=
  { g with current := if n ≤ g.current then g.current - n else 0 }

def raisePeak (g : Gauge) (reading : UInt64) : Gauge := { g with peak := max g.peak reading }

def overflows (reading n : UInt64) : Bool := UInt64.size ≤ reading.toNat + n.toNat

/-! ### Adding and subtracting -/

/-- Adds bytes and raises the peak. An addition that leaves the words stores the wrapped reading and
stops there. -/
def add (g : Gauge) (n : UInt64) : Outcome Unit × Gauge :=
  let added := g.addCurrent n
  if overflows g.current n then (.faulted .addOverflow, added)
  else (.returned (), added.raisePeak (g.current + n))

/-- Removes bytes. A block may be released through another resource than the one that allocated it,
so a gauge may be asked for more than it holds. -/
def sub (g : Gauge) (n : UInt64) : Gauge := g.subtractCurrent n

theorem current_sub (g : Gauge) (n : UInt64) :
    (g.sub n).current = .ofNat (g.current.toNat - n.toNat) := by
  simp only [sub, subtractCurrent]
  split
  case isTrue h => rw [← UInt64.toNat_sub_of_le _ _ h, UInt64.ofNat_toNat]
  case isFalse h =>
    have hlt : g.current.toNat < n.toNat := Nat.not_le.mp h
    rw [Nat.sub_eq_zero_of_le (Nat.le_of_lt hlt)]
    rfl

/-! ### Adding and subtracting, access by access -/

inductive Request where
  | add (n : UInt64)
  | sub (n : UInt64)
  deriving DecidableEq

inductive Access where
  | add (n : UInt64)
  | raise (reading : UInt64)
  | sub (n : UInt64)
  deriving DecidableEq

def Request.first : Request → Access
  | add n => .add n
  | sub n => .sub n

/-- An addition whose sum leaves the words stops after it has stored the wrapped reading. -/
def Access.step : Access → Gauge → Progress Access Unit × Gauge
  | add n, g => (if overflows g.current n then .done (.faulted .addOverflow)
      else .running (.raise (g.current + n)), g.addCurrent n)
  | raise reading, g => (.done (.returned ()), g.raisePeak reading)
  | sub n, g => (.done (.returned ()), g.subtractCurrent n)

def protocol : Protocol Request Gauge Access Unit := ⟨Request.first, Access.step⟩

/-- Accesses that nobody comes between make an addition. -/
theorem alone_add (g : Gauge) (n : UInt64) :
    protocol.alone 2 (.running (protocol.first (.add n)), g) =
      (.done (g.add n).1, (g.add n).2) := by
  show protocol.alone 1 ((Access.add n).step g) = _
  unfold add Access.step
  by_cases h : overflows g.current n <;> simp only [h] <;> rfl

theorem alone_sub (g : Gauge) (n : UInt64) :
    protocol.alone 1 (.running (protocol.first (.sub n)), g) = (.done (.returned ()), g.sub n) :=
  rfl

end Gauge
end StagingMemory
