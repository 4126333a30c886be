import StagingMemory.Session.Answer
/-!
The world of a session: the kernel, the process that carries out the commands with the objects it
named, and the processes that wait for it to end.
-/
namespace StagingMemory.Session

inductive Request where
  | allocate (resource : Resource) (bytes : UInt64)
  | release (resource : Resource) (block : Block)
  deriving DecidableEq

/-- What a thread is about: it has yet to begin, or is in its call. -/
inductive Stage where
  | starting (request : Request)
  | calling (call : Call)
  deriving DecidableEq

structure Job where
  id : String
  /-- Where the block of an allocation goes. -/
  slot : String
  progress : Progress Stage Reply
  /-- What the thread has logged. -/
  log : List LogLine
  deriving DecidableEq

structure Frame where
  process : Process
  devices : Table String Device
  resources : Table String Resource
  blocks : Table String Block
  descriptors : Table String SegmentId
  mappings : Table String Mapping
  buffers : Table String StagingBuffer
  guards : Table String StrictGuard
  /-- The calls in flight, oldest first. -/
  jobs : List Job

structure World where
  kernel : Kernel
  frame : Frame
  /-- The processes that wait for this one, nearest first. -/
  parents : List Frame
  /-- The number of the next process. -/
  nextPid : UInt32

abbrev Effect := World → Outcome Answer × World

namespace Frame

def fresh (process : Process) : Frame where
  process
  devices := .empty
  resources := .empty
  blocks := .empty
  descriptors := .empty
  mappings := .empty
  buffers := .empty
  guards := .empty
  jobs := []

def firstSink : String := "main"

def withFirstSink (p : Process) : Process :=
  { p with sink := some firstSink, sinks := p.sinks.insert firstSink [] }

end Frame

namespace World

/-- The first process of all, which is always alive. -/
def rootPid : UInt32 := 1

/-- The number of a session's own process. Later ones count on from it, far from the numbers that a
session is likely to write out. -/
def firstPid : UInt32 := 2718281

def dawn : Nat := 1000000000000

/-- A session begins with one process, in the mildest strict mode, and no segment. -/
def initial : World where
  kernel := .initial [firstPid, rootPid] dawn
  frame := .fresh (Frame.withFirstSink ((Process.fresh firstPid).setStrictMode .warn))
  parents := []
  nextPid := firstPid + 1

def site (w : World) : Site := ⟨w.kernel, w.frame.process⟩

def withSite (w : World) (s : Site) : World :=
  { w with kernel := s.kernel, frame := { w.frame with process := s.process } }

def withProcess (w : World) (process : Process) : World :=
  { w with frame := { w.frame with process } }

def modifyFrame (w : World) (f : Frame → Frame) : World := { w with frame := f w.frame }

/-! ### Answering -/

def answer (w : World) (a : Answer) : Outcome Answer × World := (.returned a, w)

def fail (w : World) (f : Failure) : Outcome Answer × World := w.answer (.failed f)

def withThing (w : World) (found : Option α) (thing : String) (next : α → Effect) :
    Outcome Answer × World :=
  match found with
  | some x => next x w
  | none => w.fail (.missing thing)

def withResource (w : World) (id : String) (next : Resource → Effect) : Outcome Answer × World :=
  w.withThing (w.frame.resources.get? id) "resource" next

def withDevice (w : World) (id : String) (next : Device → Effect) : Outcome Answer × World :=
  w.withThing (w.frame.devices.get? id) "runtime" next

def withBlock (w : World) (slot : String) (next : Block → Effect) : Outcome Answer × World :=
  w.withThing (w.frame.blocks.get? slot) "block" next

def withName (w : World) (text : String) (next : SegmentName → Effect) : Outcome Answer × World :=
  match SegmentName.ofText text with
  | .ok name => next name w
  | .error e => w.fail (.config e)

def putBlock (w : World) (slot : String) (block : Block) : World :=
  w.modifyFrame fun f => { f with blocks := f.blocks.insert slot block }

def takeBlock (w : World) (slot : String) : World :=
  w.modifyFrame fun f => { f with blocks := f.blocks.erase slot }

end World
end StagingMemory.Session
