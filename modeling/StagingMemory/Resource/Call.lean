import StagingMemory.Resource.Basic
import StagingMemory.Resource.Pinned
import StagingMemory.Sharing.Attach
import StagingMemory.Sharing.Detach
/-!
Allocating from a resource and releasing to it. A request for nothing is answered at once. On pinned
memory a call is one step; on shared memory it takes many, between which other calls may step.
`allocate` and `release` run a call with nobody else about, passing the time while it pauses.
-/
namespace StagingMemory

inductive Reply where
  /-- The block, or `none` for a request of zero bytes. -/
  | allocated (block : Option Block)
  | refused (error : AllocationError)
  | released
  deriving DecidableEq

def Reply.ofResult : Except AllocationError Block → Reply
  | .ok block => .allocated (some block)
  | .error e => .refused e

/-- A call on shared memory between two of its steps. -/
inductive Call where
  | attach (a : Attach) (phase : Attach.Phase)
  | detach (d : Detach) (phase : Detach.Phase)
  deriving DecidableEq

namespace Call

def ofAttach (a : Attach) : Progress Attach.Phase Attach.Result × Site → Progress Call Reply × Site
  | (progress, s) => (progress.map (.attach a) .ofResult, s)

def ofDetach (d : Detach) : Progress Detach.Phase Unit × Site → Progress Call Reply × Site
  | (progress, s) => (progress.map (.detach d) fun _ => .released, s)

/-- One step. A paused call whose time has not come stays as it is. -/
def step : Call → Site → Progress Call Reply × Site
  | attach a phase, s => ofAttach a (a.step phase s)
  | detach d phase, s => ofDetach d (d.step phase s)

def wake? : Call → Option Nat
  | attach _ phase => Attach.wake? phase
  | detach _ phase => Detach.wake? phase

def asleep (c : Call) (now : Nat) : Bool :=
  match c.wake? with
  | some wake => now < wake
  | none => false

def timeout : Call → Duration
  | attach a _ => a.config.bootstrapTimeout
  | detach d _ => d.config.teardownTimeout

/-- No more steps lie between two pauses, nor before the first or after the last. -/
def longestBurst : Nat := 32

/-- A number of steps within which the call ends: each pause takes the clock's grain at least. -/
def stepBound (c : Call) : Nat :=
  (c.timeout.nanoseconds / Kernel.grain + 3) * longestBurst

def advance (c : Call) (s : Site) : Progress Call Reply × Site :=
  match c.wake? with
  | some wake => c.step { s with kernel := s.kernel.passUntil wake }
  | none => c.step s

end Call

def runAlone : (steps : Nat) → Progress Call Reply × Site → Progress Call Reply × Site
  | steps + 1, (.running c, s) => runAlone steps (c.advance s)
  | _, ended => ended

def runAwake : (steps : Nat) → Progress Call Reply × Site → Progress Call Reply × Site
  | steps + 1, (.running c, s) =>
    if c.asleep s.kernel.clock then (.running c, s) else runAwake steps (c.step s)
  | _, ended => ended

@[simp] theorem runAlone_done (steps : Nat) (o : Outcome Reply) (s : Site) :
    runAlone steps (.done o, s) = (.done o, s) := by
  cases steps <;> rfl

namespace Resource

/-- Starts an allocation, and ends it at once where it takes a single step. -/
def beginAllocate (r : Resource) (bytes : UInt64) (s : Site) : Progress Call Reply × Site :=
  if bytes = 0 then (.done (.returned (.allocated none)), s)
  else match r.strategy with
  | .pinned =>
    let (outcome, process) := Pinned.allocate ⟨r.device, r.account⟩ bytes s.process
    (.done (outcome.map .ofResult), { s with process })
  | .shared config =>
    let a : Attach := ⟨config, r.device, r.account, bytes⟩
    Call.ofAttach a (a.begin s)

def beginRelease (r : Resource) (block : Block) (s : Site) : Progress Call Reply × Site :=
  match r.strategy with
  | .pinned =>
    let (outcome, process) := Pinned.release ⟨r.device, r.account⟩ block s.process
    (.done (outcome.map fun _ => .released), { s with process })
  | .shared config =>
    let d : Detach := ⟨config, r.device, r.account, block⟩
    Call.ofDetach d (d.begin s)

def stepBound : Progress Call Reply → Nat
  | .running c => c.stepBound
  | .done _ => 0

def allocate (r : Resource) (bytes : UInt64) (s : Site) : Progress Call Reply × Site :=
  let begun := r.beginAllocate bytes s
  runAlone (stepBound begun.1) begun

def release (r : Resource) (block : Block) (s : Site) : Progress Call Reply × Site :=
  let begun := r.beginRelease block s
  runAlone (stepBound begun.1) begun

/-- Nothing is asked for, and nothing happens. -/
theorem allocate_zero (r : Resource) (s : Site) :
    r.allocate 0 s = (.done (.returned (.allocated none)), s) := rfl

end Resource
end StagingMemory
