import StagingMemory.Session.Resources
/-!
Commands on devices: making them, telling a dummy which calls to fail, and calling them directly.
-/
namespace StagingMemory.Session

/-- Where a call to a device points: at the block in a slot, or at any address. -/
inductive Place where
  | slot (id : String)
  | address (n : Nat)
  deriving DecidableEq

inductive DeviceCommand where
  | makeDummy (id : String) (memory : MemoryInfo)
  | makeHost (id : String) (policy : LockPolicy)
  | failOn (id : String) (call : DeviceCall)
  | clearFailures (id : String)
  | registration (id : String) (place : Place)
  | allocate (id slot : String) (bytes : UInt64)
  /-- The length, where it is left out, is the block's. -/
  | free (id : String) (place : Place) (bytes : Option UInt64)
  | register (id : String) (place : Place) (bytes : Option UInt64) (flags : RegisterFlags)
  | unregister (id : String) (place : Place) (bytes : Option UInt64)
  | memoryInfo (id : String)
  deriving DecidableEq

namespace World

def addDevice (w : World) (id : String) (device : Device) : World :=
  w.modifyFrame fun f => { f with devices := f.devices.insert id device }

def withDummy (w : World) (id : String) (next : Nat → Effect) : Outcome Answer × World :=
  w.withDevice id fun
    | .dummy index, w => next index w
    | .host _, w => w.fail (.missing "dummy")

def withRange (w : World) (place : Place) (bytes : Option UInt64) (next : Block → Effect) :
    Outcome Answer × World :=
  match place with
  | .slot id => w.withBlock id fun block w => next ⟨block.address, bytes.getD block.bytes⟩ w
  | .address n => next ⟨n, bytes.getD 0⟩ w

end World

namespace DeviceCommand

def subject : DeviceCommand → Subject
  | makeDummy .. | makeHost .. => .nothing
  | failOn id _ | clearFailures id | registration id _ | allocate id _ _ | free id _ _
  | register id _ _ _ | unregister id _ _ | memoryInfo id => .device id

def vacate (place : Place) (w : World) : World :=
  match place with
  | .slot id => w.takeBlock id
  | .address _ => w

def perform : DeviceCommand → Effect
  | makeDummy id memory, w =>
    let (index, process) := w.frame.process.addDummy memory
    ((w.withProcess process).addDevice id (.dummy index)).answer .ok
  | makeHost id policy, w => (w.addDevice id (.host policy)).answer (.policy policy)
  | failOn id call, w =>
    w.withDummy id fun index w =>
      (w.withProcess (w.frame.process.modifyDummy index (·.failOn call))).answer .ok
  | clearFailures id, w =>
    w.withDummy id fun index w =>
      (w.withProcess (w.frame.process.modifyDummy index .clearFailures)).answer .ok
  | registration id place, w =>
    w.withDummy id fun index w =>
      w.withRange place none fun range w =>
        w.answer (.registration ((w.frame.process.dummy index).registration? range.address))
  | allocate id slot bytes, w =>
    w.withDevice id fun device w =>
      match device.allocate w.frame.process bytes with
      | (.returned (.ok address), process) =>
        ((w.withProcess process).putBlock slot ⟨address, bytes⟩).answer (.block ⟨address, bytes⟩)
      | (.returned (.error e), process) => (w.withProcess process).fail (.device e)
      | (.faulted fault, process) => (.faulted fault, w.withProcess process)
      | (.aborted, process) => (.aborted, w.withProcess process)
  | free id place bytes, w =>
    w.withDevice id fun device w =>
      w.withRange place bytes fun range w =>
        match device.free w.frame.process range.address range.bytes with
        | (.ok _, process) => (vacate place (w.withProcess process)).answer .ok
        | (.error e, process) => (w.withProcess process).fail (.device e)
  | register id place bytes flags, w =>
    w.withDevice id fun device w =>
      w.withRange place bytes fun range w =>
        let (outcome, process) :=
          device.register w.frame.process range.address range.bytes flags
        (outcome.map Answer.ofDevice, w.withProcess process)
  | unregister id place bytes, w =>
    w.withDevice id fun device w =>
      w.withRange place bytes fun range w =>
        let (result, process) := device.unregister w.frame.process range.address range.bytes
        (w.withProcess process).answer (.ofDevice result)
  | memoryInfo id, w =>
    w.withDevice id fun device w =>
      match device.memoryInfo w.frame.process with
      | (.ok info, process) => (w.withProcess process).answer (.ofMemory device info)
      | (.error e, process) => (w.withProcess process).fail (.device e)

end DeviceCommand
end StagingMemory.Session
