import StagingMemory.Session.Resources
/-!
Commands on memory: reading and writing blocks, and making, using and giving up staging buffers.
-/
namespace StagingMemory.Session

inductive MemoryCommand where
  | write (slot : String) (offset : Nat) (bytes : List UInt8)
  | read (slot : String) (offset length : Nat)
  | makeBuffer (resource slot : String) (length : UInt64)
  | describeBuffer (slot : String)
  | fillBuffer (slot : String) (byte : UInt8)
  | writeBuffer (slot : String) (offset : Nat) (bytes : List UInt8)
  | readBuffer (slot : String) (offset length : Nat)
  | sumBuffer (slot : String)
  | dropBuffer (resource slot : String)
  /-- Splits a buffer into its parts; the block goes to a slot. -/
  | splitBuffer (slot target : String)
  deriving DecidableEq

namespace World

def withBuffer (w : World) (slot : String) (next : StagingBuffer → Effect) :
    Outcome Answer × World :=
  w.withThing (w.frame.buffers.get? slot) "buffer" next

def takeBuffer (w : World) (slot : String) : World :=
  w.modifyFrame fun f => { f with buffers := f.buffers.erase slot }

def load (w : World) (address length : Nat) : List UInt8 := w.site.load address length

def store (w : World) (address : Nat) (bytes : Array UInt8) : World :=
  w.withSite (w.site.store address bytes)

end World

namespace MemoryCommand

def subject : MemoryCommand → Subject
  | makeBuffer resource _ _ | dropBuffer resource _ => .resource resource
  | _ => .nothing

/-- Puts a buffer into a slot. The one that was there, if any, is dropped afterwards. -/
def putBuffer (slot : String) (buffer : StagingBuffer) (w : World) : Outcome Answer × World :=
  let placed := w.modifyFrame fun f => { f with buffers := f.buffers.insert slot buffer }
  match w.frame.buffers.get? slot with
  | none => placed.answer (.buffer buffer)
  | some replaced =>
    let (outcome, w) := placed.call replaced.beginDrop
    (outcome.map fun _ => .buffer buffer, w)

def settleBuffer (resource : Resource) (slot : String) (length : UInt64) :
    Outcome Reply × World → Outcome Answer × World
  | (.returned (.allocated block), w) => putBuffer slot (.ofAllocated resource length block) w
  | (outcome, w) => (outcome.map .ofReply, w)

def sum (bytes : List UInt8) : Nat := bytes.foldl (fun total b => total + b.toNat) 0

def perform : MemoryCommand → Effect
  | write slot offset bytes, w =>
    w.withBlock slot fun block w => (w.store (block.address + offset) bytes.toArray).answer .ok
  | read slot offset length, w =>
    w.withBlock slot fun block w => w.answer (.bytes (w.load (block.address + offset) length))
  | makeBuffer resource slot length, w =>
    w.withResource resource fun r w =>
      settleBuffer r slot length (w.call (r.beginAllocate length))
  | describeBuffer slot, w => w.withBuffer slot fun b w => w.answer (.bufferDetails b)
  | fillBuffer slot byte, w =>
    w.withBuffer slot fun b w =>
      (w.store b.address (Array.replicate b.accessible byte)).answer .ok
  | writeBuffer slot offset bytes, w =>
    w.withBuffer slot fun b w => (w.store (b.address + offset) bytes.toArray).answer .ok
  | readBuffer slot offset length, w =>
    w.withBuffer slot fun b w => w.answer (.bytes (w.load (b.address + offset) length))
  | sumBuffer slot, w =>
    w.withBuffer slot fun b w => w.answer (.number (sum (w.load b.address b.accessible)))
  | dropBuffer _ slot, w =>
    match w.frame.buffers.get? slot with
    | none => w.answer .ok
    | some b => World.settleRelease ((w.takeBuffer slot).call b.beginDrop)
  | splitBuffer slot target, w =>
    w.withBuffer slot fun b w =>
      let w := w.takeBuffer slot
      match b.intoRaw with
      | (some address, length) =>
        (w.putBlock target ⟨address, length⟩).answer (.parts (some ⟨address, length⟩) length)
      | (none, length) => w.answer (.parts none length)

end MemoryCommand
end StagingMemory.Session
