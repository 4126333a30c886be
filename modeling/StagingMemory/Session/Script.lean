import StagingMemory.Session.Memory
import StagingMemory.Session.Devices
import StagingMemory.Session.Diagnostics
import StagingMemory.Session.Jobs
import StagingMemory.Session.Segments
/-!
Scripts of commands. Each step has an answer, shows what it touched and collects what its process
wrote meanwhile. A command may start another process with a script of its own, which shares the
segments and nothing else; what that process holds is not released when it ends.
-/
namespace StagingMemory.Session

mutual
inductive Command where
  | resource (command : ResourceCommand)
  | memory (command : MemoryCommand)
  | device (command : DeviceCommand)
  | segment (command : SegmentCommand)
  | diagnostic (command : DiagnosticCommand)
  | job (command : JobCommand)
  | lockLimit (bytes : Nat)
  /-- Another process, with the value of its strict mode's variable. -/
  | subprocess (steps : List Step) (strict : Option String)

inductive Step where
  /-- A silent step shows nothing but its answer; while a step is starved, no descriptor can be
  had. -/
  | step (command : Command) (silent starved : Bool)
end

def Command.subject : Command → Subject
  | .resource c => c.subject
  | .memory c => c.subject
  | .device c => c.subject
  | .job c => c.subject
  | .segment _ | .diagnostic _ | .lockLimit _ | .subprocess _ _ => .nothing

namespace World

def dummyOf (w : World) : Device → Option DummyDevice
  | .dummy index => some (w.frame.process.dummy index)
  | .host _ => none

def segmentOf (w : World) : Strategy → Option Peek
  | .shared config => some (w.site.peek config.segment)
  | .pinned => none

def view (w : World) : Subject → Option View
  | .nothing => none
  | .resource id =>
    (w.frame.resources.get? id).map fun r =>
      ⟨some (w.frame.process.account r.account), w.segmentOf r.strategy, w.dummyOf r.device⟩
  | .device id =>
    ((w.frame.devices.get? id).bind w.dummyOf).map fun dummy => ⟨none, none, some dummy⟩

/-! ### Processes -/

/-- Starts a process and lets this one wait for it. It inherits nothing, the lock limit included. -/
def spawn (w : World) (strict : Option String) : World :=
  { kernel := w.kernel.start w.nextPid
    frame := .fresh (Frame.withFirstSink { Process.fresh w.nextPid with strictVariable := strict })
    parents := w.frame :: w.parents
    nextPid := w.nextPid + 1 }

def exit (w : World) : World :=
  match w.parents with
  | parent :: rest =>
    { w with kernel := w.kernel.kill w.frame.process.pid, frame := parent, parents := rest }
  | [] => w

/-! ### Steps -/

def beforeStep (w : World) (starved : Bool) : World :=
  w.withProcess { w.frame.process with output := [], descriptorsExhausted := starved }

def afterStep (w : World) : World :=
  w.withProcess { w.frame.process with output := [], descriptorsExhausted := false }

def jobAborted (w : World) : Bool := w.frame.jobs.any fun j => j.progress == .done .aborted

def closeStep (subject : Subject) (silent : Bool) :
    Outcome Answer × World → Except (List Output) StepAnswer × World
  | (outcome, w) =>
    let written := w.frame.process.output
    let after := w.afterStep
    match Answer.ofOutcome? outcome, w.jobAborted with
    | some answer, false =>
      (.ok (.step answer (if silent then none else after.view subject) written), after)
    | _, _ => (.error written, after)

end World

mutual
def Command.perform : Command → Effect
  | .resource c, w => c.perform w
  | .memory c, w => c.perform w
  | .device c, w => c.perform w
  | .segment c, w => c.perform w
  | .diagnostic c, w => c.perform w
  | .job c, w => c.perform w
  | .lockLimit bytes, w =>
    let p := w.frame.process
    (w.withProcess { p with space := { p.space with lockLimit := bytes } }).answer .ok
  | .subprocess steps strict, w =>
    let (answers, ending, w) := runSteps steps (w.passMoment.spawn strict)
    w.exit.answer (.subprocess answers ending)

/-- Carries out a step; an aborted process leaves only what it wrote. -/
def Step.run : Step → World → Except (List Output) StepAnswer × World
  | .step command silent starved, w =>
    World.closeStep command.subject silent (command.perform (w.beforeStep starved))

def runSteps : List Step → World → List StepAnswer × Ending × World
  | [], w => ([], .exited, w)
  | s :: rest, w =>
    match s.run w with
    | (.ok answer, w) =>
      let (answers, ending, w) := runSteps rest w
      (answer :: answers, ending, w)
    | (.error written, w) => ([], .aborted written, w)
end

def answers (steps : List Step) : List StepAnswer := (runSteps steps .initial).1

end StagingMemory.Session
