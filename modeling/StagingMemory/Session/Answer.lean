import StagingMemory.Segment.Peek
import StagingMemory.StagingBuffer
/-!
The answers to the commands of a session: one kind of answer for each thing a command can tell, and
the failures it can end with. A command of a process that aborts has no answer.
-/
namespace StagingMemory.Session

inductive Failure where
  | config (error : ConfigError)
  | allocation (error : AllocationError)
  | device (error : DeviceError)
  | query (error : QueryError)
  | system (error : SystemError)
  | fault (fault : Fault)
  /-- The command names something that is not there. -/
  | missing (thing : String)
  /-- The command would cut a segment. -/
  | shrinking
  deriving DecidableEq

structure View where
  statistics : Option Statistics
  segment : Option Peek
  dummy : Option DummyDevice
  deriving DecidableEq

/-- How a process ended: by itself, or by aborting after it wrote something. -/
inductive Ending where
  | exited
  | aborted (output : List Output)
  deriving DecidableEq

mutual
inductive Answer where
  | ok
  /-- An allocation of zero bytes. -/
  | noBlock
  | block (block : Block)
  | policy (policy : LockPolicy)
  /-- The figures of a dummy, and those of the machine. -/
  | memory (info : MemoryInfo)
  | machineMemory (info : MemoryInfo)
  | statistics (statistics : Statistics)
  | comparison (interchangeable : Bool)
  | description (resource : Resource)
  | bytes (bytes : List UInt8)
  | buffer (buffer : StagingBuffer)
  | bufferDetails (buffer : StagingBuffer)
  | parts (block : Option Block) (length : UInt64)
  | registration (range : Option (UInt64 × RegisterFlags))
  | truth (value : Bool)
  | number (value : Nat)
  | mapping (length : Nat)
  | payload (length : Nat) (same : Bool)
  | peek (found : Peek)
  | header (value : Option Bool) (view : HeaderView)
  | mode (mode : StrictMode)
  | strictness (mode : StrictMode)
  /-- The sink that was installed before. -/
  | previousSink (id : Option String)
  | collected (reports : List Report) (code : String)
  | failed (failure : Failure)
  | joined (result : Answer) (log : List LogLine)
  | subprocess (steps : List StepAnswer) (ending : Ending)

inductive StepAnswer where
  | step (answer : Answer) (view : Option View) (output : List Output)
end

namespace Answer

instance : Inhabited Answer := ⟨ok⟩

def ofReply : Reply → Answer
  | .allocated (some b) => .block b
  | .allocated none => .noBlock
  | .refused e => .failed (.allocation e)
  | .released => .ok

def ofDevice : Except DeviceError Unit → Answer
  | .ok _ => .ok
  | .error e => .failed (.device e)

/-- The answer of a command that ended: a fault is a failure, and a process that aborts answers
nothing. -/
def ofOutcome? : Outcome Answer → Option Answer
  | .returned answer => some answer
  | .faulted fault => some (.failed (.fault fault))
  | .aborted => none

end Answer

namespace Failure

def message : Failure → String
  | config e => e.message
  | allocation e => e.message
  | device e => e.message
  | query e => e.message
  | system e => e.message
  | fault f => f.message
  | missing thing => "no such " ++ thing
  | shrinking => "segments only grow"

def causes : Failure → List String
  | allocation e => e.causes
  | device e => e.causes
  | query e => e.causes
  | _ => []

end Failure
end StagingMemory.Session
