import StagingMemory.Resource.Call
/-!
Staging buffers: where a block lies, its length and the resource it goes back to, so that it is
released once and with the length it was allocated with. A buffer of length zero owns no memory.
-/
namespace StagingMemory

structure StagingBuffer where
  resource : Resource
  length : UInt64
  address? : Option Nat
  deriving DecidableEq

namespace StagingBuffer

/-- The buffer over what an allocation of `length` bytes has handed out. -/
def ofAllocated (resource : Resource) (length : UInt64) (block : Option Block) : StagingBuffer :=
  ⟨resource, length, block.map Block.address⟩

def isEmpty (b : StagingBuffer) : Bool := b.length == 0

def address (b : StagingBuffer) : Nat := b.address?.getD 0

def accessible (b : StagingBuffer) : Nat := if b.address?.isSome then b.length.toNat else 0

/-- What is to be given back: as many bytes as the buffer is long. -/
def block? (b : StagingBuffer) : Option Block := b.address?.map fun address => ⟨address, b.length⟩

def beginDrop (b : StagingBuffer) (s : Site) : Progress Call Reply × Site :=
  match b.block? with
  | some block => b.resource.beginRelease block s
  | none => (.done (.returned .released), s)

/-- The parts of a buffer that is given up without releasing its memory: whoever holds them releases
it. -/
def intoRaw (b : StagingBuffer) : Option Nat × UInt64 := (b.address?, b.length)

def describe (b : StagingBuffer) : String :=
  Text.record "StagingBuffer"
    [("ptr", renderAddress b.address), ("len", toString b.length),
      ("kind", b.resource.kind.title)]

theorem beginDrop_of_block?_eq_some {b : StagingBuffer} {block : Block} (h : b.block? = some block)
    (s : Site) : b.beginDrop s = b.resource.beginRelease block s := by
  simp [beginDrop, h]

end StagingBuffer
end StagingMemory
