import StagingMemory.Account.Statistics
import StagingMemory.Device.Dummy
import StagingMemory.Diagnostic.Catalogue
import StagingMemory.Diagnostic.StrictGuard
import StagingMemory.Memory.AddressSpace
/-!
One process: its address space, its dummy devices, the accounts of its resources, its strict mode,
and where its diagnostics go. Reporting a diagnostic writes it to standard error unless the process
is quiet, to the log and to the installed sink, and only then faults if the strict mode asks for it.
-/
namespace StagingMemory

inductive Output where
  /-- A report on standard error. -/
  | printed (report : Report)
  | logged (line : LogLine)
  /-- A report handed to the named sink. -/
  | delivered (sink : String) (report : Report)
  deriving DecidableEq, Repr

namespace Output

def isLogged : Output → Bool
  | logged _ => true
  | _ => false

def standardError (written : List Output) : String :=
  String.join (written.filterMap fun
    | printed report => some report.render
    | _ => none)

def logLines (written : List Output) : List LogLine :=
  written.filterMap fun
    | logged line => some line
    | _ => none

def deliveries (written : List Output) : List (String × Report) :=
  written.filterMap fun
    | delivered sink report => some (sink, report)
    | _ => none

end Output

structure Process where
  pid : UInt32
  space : Memory.AddressSpace
  dummies : List DummyDevice
  accounts : List Statistics
  strict : StrictCell
  /-- The value of the variable that the strict mode falls back on. -/
  strictVariable : Option String
  /-- Diagnostics are not written to standard error, unless they are fatal. -/
  quiet : Bool
  /-- What each sink has collected, oldest first. -/
  sinks : Table String (List Report)
  /-- The installed sink. -/
  sink : Option String
  /-- What was written, oldest first. -/
  output : List Output
  /-- No new descriptor can be had, so nothing can be opened. -/
  descriptorsExhausted : Bool
  /-- What the system reports of the machine's memory. -/
  machineMemory : MemoryInfo
  deriving DecidableEq, Repr

namespace Process

def standardMachine : MemoryInfo := ⟨0x200000000, 0x400000000⟩

def fresh (pid : UInt32) : Process where
  pid
  space := .fresh
  dummies := []
  accounts := []
  strict := .fresh
  strictVariable := none
  quiet := false
  sinks := .empty
  sink := none
  output := []
  descriptorsExhausted := false
  machineMemory := standardMachine

instance : Inhabited Process := ⟨fresh 1⟩

/-! ### Output -/

def write (p : Process) (o : Output) : Process := { p with output := p.output ++ [o] }

def trace (p : Process) (text : String) : Process := p.write (.logged ⟨.debug, text⟩)

def deliver (p : Process) (sink : String) (r : Report) : Process :=
  { p with sinks := p.sinks.insert sink ((p.sinks.get? sink).getD [] ++ [r]) }.write
    (.delivered sink r)

def log (p : Process) (r : Report) : Process :=
  { p with output := p.output ++ r.logLines.map .logged }

/-- Sends a report to the log and to the installed sink. -/
def forward (p : Process) (r : Report) : Process :=
  match p.sink with
  | some sink => (p.log r).deliver sink r
  | none => p.log r

/-! ### Strict mode -/

def setStrictMode (p : Process) (mode : StrictMode) : Process :=
  { p with strict := p.strict.set mode }

def readStrictMode (p : Process) : StrictMode × Process :=
  let (mode, cell) := p.strict.read p.strictVariable
  (mode, { p with strict := cell })

/-- Whether a diagnostic of this severity is fatal now. Notes and help never are, and the mode is
not read for them. -/
def fatalNow (p : Process) (severity : Severity) : Bool × Process :=
  match severity with
  | .error => let (mode, p) := p.readStrictMode; (mode.errorsFatal, p)
  | .warning => let (mode, p) := p.readStrictMode; (mode.warningsFatal, p)
  | .note | .help => (false, p)

/-! ### Diagnostics -/

def strictFault (d : Diagnostic) (context : String) : Fault :=
  .strict d.code d.message (" (" ++ context ++ ")")

def emit (p : Process) (d : Diagnostic) (context : String) : Outcome Unit × Process :=
  let r : Report := ⟨d, some context⟩
  let printed := if p.quiet then p else p.write (.printed r)
  let (fatal, q) := (printed.forward r).fatalNow d.severity
  (if fatal then .faulted (strictFault d context) else .returned (), q)

def emitAny (p : Process) (d : Diagnostic) (context : Option String) : Outcome Unit × Process :=
  match context with
  | some context => p.emit d context
  | none => (.returned (), p)

/-- Reports a diagnostic before the process aborts, also when it is quiet. -/
def emitLast (p : Process) (d : Diagnostic) (context : String) : Process :=
  let r : Report := ⟨d, some context⟩
  (p.write (.printed r)).forward r

/-! ### Accounts -/

def account (p : Process) (id : Nat) : Statistics := p.accounts[id]?.getD .zero

def modifyAccount (p : Process) (id : Nat) (f : Statistics → Statistics) : Process :=
  { p with accounts := p.accounts.modify id f }

def openAccount (p : Process) : Nat × Process :=
  (p.accounts.length, { p with accounts := p.accounts ++ [.zero] })

def recordAllocation (p : Process) (id : Nat) (bytes : UInt64) : Outcome Unit × Process :=
  (((p.account id).recordAllocation bytes).1,
    p.modifyAccount id fun s => (s.recordAllocation bytes).2)

def recordFailure (p : Process) (id : Nat) : Process := p.modifyAccount id .recordFailure

def recordRelease (p : Process) (id : Nat) (bytes : UInt64) : Process :=
  p.modifyAccount id (·.recordRelease bytes)

/-! ### Guards of the strict mode -/

def enterGuard (p : Process) (mode : StrictMode) : StrictGuard × Process :=
  let (guard, strict) := StrictGuard.enter p.strict p.strictVariable mode
  (guard, { p with strict })

def leaveGuard (p : Process) (guard : StrictGuard) : Process :=
  { p with strict := guard.leave p.strict }

/-! ### Dummy devices -/

def dummy (p : Process) (index : Nat) : DummyDevice := p.dummies[index]?.getD default

def modifyDummy (p : Process) (index : Nat) (f : DummyDevice → DummyDevice) : Process :=
  { p with dummies := p.dummies.modify index f }

def addDummy (p : Process) (memory : MemoryInfo) : Nat × Process :=
  (p.dummies.length, { p with dummies := p.dummies ++ [.withMemory memory] })

end Process
end StagingMemory
