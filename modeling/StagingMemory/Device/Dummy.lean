import StagingMemory.Device.Basic
import StagingMemory.Table
/-!
The dummy device: it keeps registrations in a table, records every call made to it, and fails the
calls it is told to fail. A failing call leaves nothing but its record.
-/
namespace StagingMemory

structure DummyDevice where
  /-- The calls made so far, newest first, failed ones included. -/
  history : List DeviceCall
  /-- The calls that fail. -/
  failing : List DeviceCall
  /-- The registered ranges by address: length and flags. -/
  registered : Table Nat (UInt64 × RegisterFlags)
  memory : MemoryInfo
  deriving DecidableEq, Repr

namespace DummyDevice

def withMemory (memory : MemoryInfo) : DummyDevice := ⟨[], [], .empty, memory⟩

/-- One gibibyte in all, three quarters of it free. -/
def standardMemory : MemoryInfo := ⟨0x30000000, 0x40000000⟩

instance : Inhabited DummyDevice := ⟨withMemory standardMemory⟩

def failOn (d : DummyDevice) (call : DeviceCall) : DummyDevice :=
  { d with failing := call :: d.failing }

def clearFailures (d : DummyDevice) : DummyDevice := { d with failing := [] }

def calls (d : DummyDevice) (call : DeviceCall) : Nat := d.history.count call

def totalCalls (d : DummyDevice) : Nat := d.history.length

def record (d : DummyDevice) (call : DeviceCall) : DummyDevice :=
  { d with history := call :: d.history }

def enter (d : DummyDevice) (call : DeviceCall) : Except DeviceError Unit × DummyDevice :=
  (if call ∈ d.failing then .error (.injected call) else .ok (), d.record call)

/-- No block is larger; beyond it the padding to whole pages would leave the address range. -/
def blockLimit : Nat := 0x8000000000000000 - 4096

def register (d : DummyDevice) (address : Nat) (bytes : UInt64) (flags : RegisterFlags) :
    Except DeviceError Unit × DummyDevice :=
  match d.enter .register with
  | (.error e, d) => (.error e, d)
  | (.ok _, d) => (.ok (), { d with registered := d.registered.insert address (bytes, flags) })

/-- Forgets the range at an address. It is an error if that range has another length. -/
def unregister (d : DummyDevice) (address : Nat) (bytes : UInt64) :
    Except DeviceError Unit × DummyDevice :=
  match d.enter .unregister with
  | (.error e, d) => (.error e, d)
  | (.ok _, d) =>
    let result := match d.registered.get? address with
      | some (length, _) => if length = bytes then .ok () else .error .notRegistered
      | none => .error .notRegistered
    (result, { d with registered := d.registered.erase address })

def memoryInfo (d : DummyDevice) : Except DeviceError MemoryInfo × DummyDevice :=
  match d.enter .memoryInfo with
  | (.error e, d) => (.error e, d)
  | (.ok _, d) => (.ok d.memory, d)

def registration? (d : DummyDevice) (address : Nat) : Option (UInt64 × RegisterFlags) :=
  d.registered.get? address

theorem calls_record (d : DummyDevice) (call other : DeviceCall) :
    (d.record call).calls other = d.calls other + if call = other then 1 else 0 := by
  simp [calls, record, List.count_cons]

@[simp] theorem registered_enter (d : DummyDevice) (call : DeviceCall) :
    (d.enter call).2.registered = d.registered := rfl

end DummyDevice
end StagingMemory
