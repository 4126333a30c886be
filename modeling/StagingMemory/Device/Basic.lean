import StagingMemory.SystemError
/-!
What a device offers for host memory: allocating and freeing page-locked memory, registering and
unregistering memory that is already mapped, and a query for free and total memory. Two kinds of
device exist: the host itself, which locks pages under a policy, and a dummy that records its calls.
-/
namespace StagingMemory

inductive DeviceCall where
  | allocate
  | free
  | register
  | unregister
  | memoryInfo
  deriving DecidableEq, Repr

def DeviceCall.name : DeviceCall → String
  | allocate => "host_alloc"
  | free => "host_free"
  | register => "host_register"
  | unregister => "host_unregister"
  | memoryInfo => "mem_info"

inductive DeviceError where
  /-- A call to the system failed. -/
  | system (call : String) (error : SystemError)
  | outOfMemory (bytes : UInt64)
  | notRegistered
  /-- The dummy was told to fail this call. -/
  | injected (call : DeviceCall)
  deriving DecidableEq, Repr

namespace DeviceError

def message : DeviceError → String
  | system call error => call ++ " failed: " ++ error.message
  | outOfMemory bytes => "out of host memory (" ++ toString bytes ++ " bytes requested)"
  | notRegistered => "host memory range is not registered"
  | injected call => "injected failure in " ++ call.name

def causes : DeviceError → List String
  | system _ error => [error.message]
  | _ => []

end DeviceError

/-- What to do when the system refuses to lock pages. -/
inductive LockPolicy where
  /-- The call fails. -/
  | required
  /-- The call warns and leaves the memory unlocked. -/
  | bestEffort
  /-- Pages are never locked. -/
  | disabled
  deriving DecidableEq, Repr

/-- The host under a policy, or one of the process's dummies by its number. -/
inductive Device where
  | host (policy : LockPolicy)
  | dummy (index : Nat)
  deriving DecidableEq, Repr

/-- The kind of a device. Memory of one kind cannot be given back to the other. -/
inductive Backend where
  | host
  | dummy
  deriving DecidableEq, Repr

def Device.backend : Device → Backend
  | host _ => .host
  | dummy _ => .dummy

namespace Backend

def name : Backend → String
  | host => "host"
  | dummy => "dummy"

def title : Backend → String
  | host => "Host"
  | dummy => "Dummy"

end Backend

structure RegisterFlags where
  bits : UInt32
  deriving DecidableEq, Repr

namespace RegisterFlags

def standard : RegisterFlags := ⟨0⟩

/-- Registered for every context of the device, not only the current one. -/
def portable : RegisterFlags := ⟨1⟩

def mapped : RegisterFlags := ⟨2⟩

def union (a b : RegisterFlags) : RegisterFlags := ⟨a.bits ||| b.bits⟩

def contains (a b : RegisterFlags) : Bool := a.bits &&& b.bits == b.bits

end RegisterFlags

structure MemoryInfo where
  free : UInt64
  total : UInt64
  deriving DecidableEq, Repr

def MemoryInfo.none : MemoryInfo := ⟨0, 0⟩

end StagingMemory
