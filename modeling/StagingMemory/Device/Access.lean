import StagingMemory.Process
/-!
The calls of a process to a device. The host maps memory of the process's own and locks its pages
as its policy says; a dummy takes memory of the process's own and records the call.
-/
namespace StagingMemory

def renderAddress (address : Nat) : String :=
  "0x" ++ String.ofList (Nat.toDigits 16 address)

namespace Process

/-- Locks a range as the policy says. Only a warning can be fatal here. -/
def lockPages (p : Process) (policy : LockPolicy) (address : Nat) (bytes : UInt64) :
    Outcome (Except DeviceError Unit) × Process :=
  match policy with
  | .disabled => (.returned (.ok ()), p)
  | _ =>
    match p.space.lock address bytes.toNat with
    | .ok space => (.returned (.ok ()), { p with space })
    | .error e =>
      let error := DeviceError.system "mlock" e
      if policy = .bestEffort then
        let (outcome, p) := p.emit .lockFailed
          (Size.render bytes ++ " at " ++ renderAddress address ++ ": " ++ error.message)
        (outcome.map fun _ => .ok (), p)
      else (.returned (.error error), p)

/-- Unlocks a range as the policy says. Under best effort it may never have been locked. -/
def unlockPages (p : Process) (policy : LockPolicy) (address : Nat) (bytes : UInt64) :
    Except DeviceError Unit × Process :=
  match policy with
  | .disabled => (.ok (), p)
  | _ =>
    match p.space.unlock address bytes.toNat with
    | .ok space => (.ok (), { p with space })
    | .error e =>
      if policy = .bestEffort then (.ok (), p) else (.error (.system "munlock" e), p)

/-- Memory of the host: fresh pages, locked. Pages that could not be locked are given back, unless
the call faults over it. -/
def hostAllocate (p : Process) (policy : LockPolicy) (bytes : UInt64) :
    Outcome (Except DeviceError Nat) × Process :=
  match Page.roundUp? bytes with
  | none => (.returned (.error (.outOfMemory bytes)), p)
  | some length =>
    match p.space.mapOwn length.toNat with
    | .error e => (.returned (.error (.system "mmap" e)), p)
    | .ok (address, space) =>
      match { p with space }.lockPages policy address length with
      | (.returned (.ok _), p) => (.returned (.ok address), p)
      | (.returned (.error e), p) =>
        (.returned (.error e),
          { p with space := p.space.release address length.toNat })
      | (.faulted fault, p) => (.faulted fault, p)
      | (.aborted, p) => (.aborted, p)

def hostFree (p : Process) (address : Nat) (bytes : UInt64) : Except DeviceError Unit × Process :=
  match Page.roundUp? bytes with
  | none => (.error (.outOfMemory bytes), p)
  | some length =>
    match p.space.unmap address length.toNat with
    | .error e => (.error (.system "munmap" e), p)
    | .ok space => (.ok (), { p with space })

def dummyAllocate (p : Process) (index : Nat) (bytes : UInt64) :
    Except DeviceError Nat × Process :=
  let (entered, d) := (p.dummy index).enter .allocate
  let p := p.modifyDummy index fun _ => d
  match entered with
  | .error e => (.error e, p)
  | .ok _ =>
    match p.space.grow? bytes.toNat with
    | some (address, space) => (.ok address, { p with space })
    | none => (.error (.outOfMemory bytes), p)

def dummyFree (p : Process) (index : Nat) (address : Nat) (bytes : UInt64) :
    Except DeviceError Unit × Process :=
  let (entered, d) := (p.dummy index).enter .free
  let p := p.modifyDummy index fun _ => d
  match entered with
  | .error e => (.error e, p)
  | .ok _ =>
    if DummyDevice.blockLimit < bytes.toNat then (.error (.outOfMemory bytes), p)
    else (.ok (), { p with space := p.space.release address bytes.toNat })

end Process

namespace Device

def allocate (device : Device) (p : Process) (bytes : UInt64) :
    Outcome (Except DeviceError Nat) × Process :=
  match device with
  | .host policy => p.hostAllocate policy bytes
  | .dummy index => let (result, p) := p.dummyAllocate index bytes; (.returned result, p)

def free (device : Device) (p : Process) (address : Nat) (bytes : UInt64) :
    Except DeviceError Unit × Process :=
  match device with
  | .host _ => p.hostFree address bytes
  | .dummy index => p.dummyFree index address bytes

/-- Registers mapped memory. On the host every lock holds for the whole process, so the flags say
nothing more there. -/
def register (device : Device) (p : Process) (address : Nat) (bytes : UInt64)
    (flags : RegisterFlags) : Outcome (Except DeviceError Unit) × Process :=
  match device with
  | .host policy => p.lockPages policy address bytes
  | .dummy index =>
    let (result, d) := (p.dummy index).register address bytes flags
    (.returned result, p.modifyDummy index fun _ => d)

def unregister (device : Device) (p : Process) (address : Nat) (bytes : UInt64) :
    Except DeviceError Unit × Process :=
  match device with
  | .host policy => p.unlockPages policy address bytes
  | .dummy index =>
    let (result, d) := (p.dummy index).unregister address bytes
    (result, p.modifyDummy index fun _ => d)

def memoryInfo (device : Device) (p : Process) : Except DeviceError MemoryInfo × Process :=
  match device with
  | .host _ => (.ok p.machineMemory, p)
  | .dummy index =>
    let (result, d) := (p.dummy index).memoryInfo
    (result, p.modifyDummy index fun _ => d)

end Device
end StagingMemory
