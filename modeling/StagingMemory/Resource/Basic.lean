import StagingMemory.Resource.Error
import StagingMemory.Device.Access
import StagingMemory.Sharing.Config
import StagingMemory.Text.Record
/-!
Memory resources. A resource obtains memory by a strategy through a device, and keeps an account of
what it handed out. Whether one resource may release what another allocated depends on the kinds of
their strategies and devices alone.
-/
namespace StagingMemory

inductive ResourceKind where
  /-- Page-locked memory of the process's own. -/
  | pinned
  /-- A named segment that a group of processes maps. -/
  | shared
  deriving DecidableEq, Repr

namespace ResourceKind

def name : ResourceKind → String
  | pinned => "pinned"
  | shared => "shared"

def title : ResourceKind → String
  | pinned => "Pinned"
  | shared => "Shared"

end ResourceKind

inductive Strategy where
  | pinned
  | shared (config : SharingConfig)
  deriving DecidableEq

def Strategy.kind : Strategy → ResourceKind
  | pinned => .pinned
  | shared _ => .shared

structure Resource where
  strategy : Strategy
  device : Device
  /-- The resource's account, by its number in the process. -/
  account : Nat
  deriving DecidableEq

namespace Resource

def kind (r : Resource) : ResourceKind := r.strategy.kind

def backend (r : Resource) : Backend := r.device.backend

/-- Either may release what the other allocated. -/
def interchangeable (a b : Resource) : Bool := a.kind == b.kind && a.backend == b.backend

/-- A resource with the same strategy and device, and an account of its own. -/
def clone (r : Resource) (p : Process) : Resource × Process :=
  let (account, p) := p.openAccount
  ({ r with account }, p)

/-- Calls are synchronous: the stream they are made on changes nothing. -/
def honoursStreams (_ : Resource) : Bool := false

def reportsMemory (_ : Resource) : Bool := true

def memoryInfo (r : Resource) (p : Process) : Except QueryError MemoryInfo × Process :=
  let (result, p) := r.device.memoryInfo p
  (result.mapError QueryError.mk, p)

/-! ### Descriptions -/

def describeConfig (config : SharingConfig) : List (String × String) :=
  [("segment", "SegmentName(" ++ Text.quote config.segment.text ++ ")"),
    ("rank", toString config.rank)]

def describe (r : Resource) : String :=
  match r.strategy with
  | .pinned => Text.record "PinnedMemoryResource" [("backend", r.backend.title)]
  | .shared config =>
    Text.record "SharedMemoryResource" (("backend", r.backend.title) :: describeConfig config)

def describeKind (r : Resource) : String :=
  Text.record "MemoryResource" [("kind", r.kind.title), ("backend", r.backend.title)]

@[simp] theorem strategy_clone (r : Resource) (p : Process) :
    (r.clone p).1.strategy = r.strategy := rfl

@[simp] theorem device_clone (r : Resource) (p : Process) : (r.clone p).1.device = r.device := rfl

theorem interchangeable_iff (a b : Resource) :
    a.interchangeable b = true ↔ a.kind = b.kind ∧ a.backend = b.backend := by
  simp [interchangeable]

end Resource
end StagingMemory
