import StagingMemory.Session.World
/-!
Commands on diagnostics: the strict mode and its guards, sinks, and reports.
-/
namespace StagingMemory.Session

inductive DiagnosticCommand where
  | setMode (mode : StrictMode)
  | readMode
  | makeGuard (id : String) (mode : StrictMode)
  | dropGuard (id : String)
  | silence (on : Bool)
  /-- Installs a sink, which is made if there is none of that name. -/
  | installSink (id : String)
  | removeSink
  | querySink (id code : String)
  | clearSink (id : String)
  /-- Hands a report to a sink alone. -/
  | deliver (id : String) (diagnostic : Diagnostic) (context : Option String)
  | emit (diagnostic : Diagnostic) (context : String)
  /-- Reports and aborts. -/
  | abort (diagnostic : Diagnostic) (context : String)
  deriving DecidableEq

namespace World

def answerMode (w : World) : Outcome Answer × World :=
  let (mode, process) := w.frame.process.readStrictMode
  (w.withProcess process).answer (.mode mode)

def leaveGuard (w : World) (guard : Option StrictGuard) : World :=
  match guard with
  | some g => w.withProcess (w.frame.process.leaveGuard g)
  | none => w

def withSink (w : World) (id : String) (next : List Report → Effect) : Outcome Answer × World :=
  w.withThing (w.frame.process.sinks.get? id) "sink" next

def putSink (p : Process) (id : String) (reports : List Report) : Process :=
  { p with sinks := p.sinks.insert id reports }

end World

namespace DiagnosticCommand

/-- Carries out a command. Dropping a guard that is not there changes nothing. -/
def perform : DiagnosticCommand → Effect
  | setMode mode, w => (w.withProcess (w.frame.process.setStrictMode mode)).answer .ok
  | readMode, w =>
    let (mode, process) := w.frame.process.readStrictMode
    (w.withProcess process).answer (.strictness mode)
  | makeGuard id mode, w =>
    -- The new guard is made before the one of that name, if any, is dropped.
    let (guard, process) := w.frame.process.enterGuard mode
    let replaced := w.frame.guards.get? id
    let w := (w.withProcess process).modifyFrame fun f =>
      { f with guards := f.guards.insert id guard }
    (w.leaveGuard replaced).answerMode
  | dropGuard id, w =>
    ((w.leaveGuard (w.frame.guards.get? id)).modifyFrame fun f =>
      { f with guards := f.guards.erase id }).answerMode
  | silence on, w => (w.withProcess { w.frame.process with quiet := on }).answer (.truth on)
  | installSink id, w =>
    let p := w.frame.process
    let made := if p.sinks.contains id then p else World.putSink p id []
    (w.withProcess { made with sink := some id }).answer (.previousSink p.sink)
  | removeSink, w =>
    let p := w.frame.process
    (w.withProcess { p with sink := none }).answer (.previousSink p.sink)
  | querySink id code, w => w.withSink id fun reports w => w.answer (.collected reports code)
  | clearSink id, w =>
    w.withSink id fun _ w => (w.withProcess (World.putSink w.frame.process id [])).answer .ok
  | deliver id diagnostic context, w =>
    w.withSink id fun _ w =>
      (w.withProcess (w.frame.process.deliver id ⟨diagnostic, context⟩)).answer .ok
  | emit diagnostic context, w =>
    let (outcome, process) := w.frame.process.emit diagnostic context
    (outcome.map fun _ => .ok, w.withProcess process)
  | abort diagnostic context, w =>
    (.aborted, w.withProcess (w.frame.process.emitLast diagnostic context))

end DiagnosticCommand
end StagingMemory.Session
