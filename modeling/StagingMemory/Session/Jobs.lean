import StagingMemory.Session.Resources
/-!
Commands on threads and time: making a call on a thread of its own, waiting for its end, and
sleeping.
-/
namespace StagingMemory.Session

inductive JobCommand where
  | allocate (id resource slot : String) (bytes : UInt64)
  | release (id resource slot : String)
  /-- Waits for a call, and shows a resource besides. -/
  | join (id : String) (resource : Option String)
  | sleep (time : Duration)
  deriving DecidableEq

namespace World

def job? (w : World) (id : String) : Option Job := w.frame.jobs.find? (·.id == id)

def startJob (w : World) (id slot : String) (request : Request) : World :=
  w.modifyFrame fun f => { f with jobs := f.jobs ++ [⟨id, slot, .running (.starting request), []⟩] }

def dropJob (w : World) (id : String) : World :=
  w.modifyFrame fun f => { f with jobs := f.jobs.filter (·.id != id) }

def awaitJob : (times : Nat) → String → World → World
  | 0, _, w => w
  | times + 1, id, w =>
    match (w.job? id).bind Job.wake? with
    | some wake => awaitJob times id (w.pass wake)
    | none => w

/-- The answer of a job that has ended. A fault ends its thread alone. -/
def settleJob (j : Job) : Outcome Answer × World → Outcome Answer × World
  | (.returned result, w) => w.answer (.joined result j.log)
  | (.faulted fault, w) => w.answer (.joined (.failed (.fault fault)) j.log)
  | (.aborted, w) => (.aborted, w)

end World

namespace JobCommand

def subject : JobCommand → Subject
  | join _ (some resource) => .resource resource
  | _ => .nothing

def perform : JobCommand → Effect
  | allocate id resource slot bytes, w =>
    w.withResource resource fun r w => (w.startJob id slot (.allocate r bytes)).answer .ok
  | release id resource slot, w =>
    w.withResource resource fun r w =>
      w.withBlock slot fun block w =>
        ((w.takeBlock slot).startJob id slot (.release r block)).answer .ok
  | join id _, w =>
    let w := w.passMoment
    w.withThing (w.job? id) "job" fun j w =>
      let w := World.awaitJob (2 * j.stepBound) id w
      w.withThing (w.job? id) "job" fun j w =>
        World.settleJob j (World.settleAllocation j.slot (j.progress.outcome, w.dropJob id))
  | sleep time, w => (w.sleepUntil (w.kernel.clock + time.nanoseconds)).answer .ok

end JobCommand
end StagingMemory.Session
