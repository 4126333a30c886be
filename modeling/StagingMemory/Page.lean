import StagingMemory.Fault
import StagingMemory.Size
/-!
Pages: the unit in which memory is mapped and locked, and alignment to powers of two.
-/
namespace StagingMemory.Page

def size : Nat := 4096

/-- The bytes in front of a segment's payload: one page, so that the payload starts on a page. -/
def headerLength : Nat := size

/-- Rounds `length` up to a multiple of `alignment` by an addition and a mask. It is the least such
multiple when `alignment` is a power of two; `none` when the addition leaves the word. -/
def alignUp? (length alignment : UInt64) : Outcome (Option UInt64) :=
  if alignment = 0 then .faulted .subtractOverflow
  else if length.toNat + (alignment - 1).toNat < Size.wordValues then
    .returned (some ((length + (alignment - 1)) &&& ~~~(alignment - 1)))
  else .returned none

def roundUp? (length : UInt64) : Option UInt64 :=
  match alignUp? length (UInt64.ofNat size) with
  | .returned rounded => rounded
  | _ => none

end StagingMemory.Page
