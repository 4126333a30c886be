import StagingMemory.Resource.Error
import StagingMemory.Device.Access
import StagingMemory.Site
/-!
Pinned memory: blocks come straight from the device's allocator and go back to it. A failed
allocation is counted and not reported; a block that the device will not take back aborts the
process.
-/
namespace StagingMemory

structure Pinned where
  device : Device
  account : Nat
  deriving DecidableEq

namespace Pinned

def allocated (r : Pinned) (bytes : UInt64) (result : Except DeviceError Nat) (p : Process) :
    Outcome (Except AllocationError Block) × Process :=
  match result with
  | .ok address =>
    match p.recordAllocation r.account bytes with
    | (.returned _, p) =>
      (.returned (.ok ⟨address, bytes⟩),
        p.trace ("pinned alloc " ++ Size.render bytes ++ " at " ++ renderAddress address))
    | (.faulted fault, p) => (.faulted fault, p)
    | (.aborted, p) => (.aborted, p)
  | .error e =>
    (.returned (.error (.device DeviceCall.allocate.name e)), p.recordFailure r.account)

def allocate (r : Pinned) (bytes : UInt64) (p : Process) :
    Outcome (Except AllocationError Block) × Process :=
  match r.device.allocate p bytes with
  | (.returned result, p) => r.allocated bytes result p
  | (.faulted fault, p) => (.faulted fault, p)
  | (.aborted, p) => (.aborted, p)

def release (r : Pinned) (block : Block) (p : Process) : Outcome Unit × Process :=
  match r.device.free p block.address block.bytes with
  | (.ok _, p) => (.returned (), p.recordRelease r.account block.bytes)
  | (.error e, p) =>
    (.aborted, p.emitLast .freeFailed
      (renderAddress block.address ++ " (" ++ Size.render block.bytes ++ "): " ++ e.message))

end Pinned
end StagingMemory
