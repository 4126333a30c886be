import StagingMemory.Session.World
/-!
Time in a session. Calls of other threads step whenever time passes; the thread that carries out the
commands lets time pass only while it sleeps, waits for such a call, starts a process, or makes a
call that pauses. A thread begins its call when time first passes after it was started.
-/
namespace StagingMemory.Session

def Request.begin : Request → Site → Progress Call Reply × Site
  | allocate r bytes, s => r.beginAllocate bytes s
  | release r block, s => r.beginRelease block s

/-- When a paused thread goes on; one that has yet to begin does so at once. -/
def Stage.wake? : Stage → Option Nat
  | starting _ => some 0
  | calling c => c.wake?

def Stage.run : Stage → Site → Progress Call Reply × Site
  | starting request, s => runAwake Call.longestBurst (request.begin s)
  | calling c, s => runAwake Call.longestBurst (.running c, s)

namespace Job

def wake? (j : Job) : Option Nat :=
  match j.progress with
  | .running stage => stage.wake?
  | .done _ => none

/-- Runs a part of a job, keeping apart what it logs. -/
def capture (run : Site → α × Site) (s : Site) : α × List LogLine × Site :=
  let written := s.process.output
  let (result, t) := run { s with process := { s.process with output := [] } }
  let (logged, rest) := t.process.output.partition Output.isLogged
  (result, Output.logLines logged,
    { t with process := { t.process with output := written ++ rest } })

def poll (j : Job) (s : Site) : Job × Site :=
  match j.progress with
  | .running stage =>
    let (progress, log, s) := capture stage.run s
    ({ j with progress := progress.map .calling fun reply => reply, log := j.log ++ log }, s)
  | .done _ => (j, s)

/-- The longest time, in steps, that the job can still take. -/
def stepBound (j : Job) : Nat :=
  match j.progress with
  | .running (.calling c) => c.stepBound
  | _ => 0

def pollAll : List Job → Site → List Job × Site
  | [], s => ([], s)
  | j :: rest, s =>
    let (j, s) := j.poll s
    let (rest, s) := pollAll rest s
    (j :: rest, s)

end Job

def Frame.poll (f : Frame) (k : Kernel) : Frame × Kernel :=
  let (jobs, s) := Job.pollAll f.jobs ⟨k, f.process⟩
  ({ f with jobs, process := s.process }, s.kernel)

def pollFrames : List Frame → Kernel → List Frame × Kernel
  | [], k => ([], k)
  | f :: rest, k =>
    let (f, k) := f.poll k
    let (rest, k) := pollFrames rest k
    (f :: rest, k)

namespace World

def poll (w : World) : World :=
  let (frame, kernel) := w.frame.poll w.kernel
  let (parents, kernel) := pollFrames w.parents kernel
  { w with kernel, frame, parents }

def jobs (w : World) : List Job := (w.frame :: w.parents).flatMap Frame.jobs

/-- Time passes until the first call of another thread wakes, or the given point is reached. -/
def pass (w : World) (time : Nat) : World :=
  poll { w with kernel := w.kernel.passUntil ((w.jobs.filterMap Job.wake?).foldl min time) }

def sleep : (times : Nat) → Nat → World → World
  | 0, _, w => w
  | times + 1, time, w => if time ≤ w.kernel.clock then w else sleep times time (w.pass time)

/-- A moment passes: the threads that were started begin. -/
def passMoment (w : World) : World := w.pass w.kernel.clock

def sleepUntil (w : World) (time : Nat) : World :=
  sleep ((time - w.kernel.clock) / Kernel.grain + 1) time w

def settle : (turns : Nat) → Progress Call Reply → World → Progress Call Reply × World
  | turns + 1, .running c, w =>
    match c.wake? with
    | some wake =>
      if wake ≤ w.kernel.clock then
        let (progress, s) := c.step w.site
        settle turns progress (w.withSite s)
      else settle turns (.running c) (w.pass wake)
    | none =>
      let (progress, s) := c.step w.site
      settle turns progress (w.withSite s)
  | _, progress, w => (progress, w)

def call (w : World) (begun : Site → Progress Call Reply × Site) : Outcome Reply × World :=
  let (progress, s) := begun w.site
  let (ended, w) := settle (2 * Resource.stepBound progress) progress (w.withSite s)
  (ended.outcome, w)

end World
end StagingMemory.Session
