/-!
Bytes of an object in memory, addressed by offset. An object begins with every byte zero; the
contents hold what was written since, newest first.
-/
namespace StagingMemory.Memory

structure Contents where
  writes : List (Nat × Array UInt8)
  deriving DecidableEq, Repr

namespace Contents

def zeros : Contents := ⟨[]⟩

instance : Inhabited Contents := ⟨zeros⟩

/-- The byte that one write left at an offset, if it reached that far. -/
def written? (w : Nat × Array UInt8) (offset : Nat) : Option UInt8 :=
  if w.1 ≤ offset then w.2[offset - w.1]? else none

def byteAt (c : Contents) (offset : Nat) : UInt8 :=
  (c.writes.findSome? (written? · offset)).getD 0

def read (c : Contents) (offset length : Nat) : List UInt8 :=
  (List.range length).map fun i => c.byteAt (offset + i)

def write (c : Contents) (offset : Nat) (bytes : Array UInt8) : Contents :=
  ⟨(offset, bytes) :: c.writes⟩

def truncate (c : Contents) (length : Nat) : Contents :=
  ⟨c.writes.map fun w => (w.1, w.2.take (length - w.1))⟩

@[simp] theorem byteAt_zeros (offset : Nat) : zeros.byteAt offset = 0 := rfl

theorem byteAt_write (c : Contents) (start : Nat) (bytes : Array UInt8) (offset : Nat) :
    (c.write start bytes).byteAt offset =
      if start ≤ offset ∧ offset < start + bytes.size then bytes[offset - start]?.getD 0
      else c.byteAt offset := by
  by_cases h : start ≤ offset
  · by_cases hlt : offset - start < bytes.size
    · have hend : offset < start + bytes.size := by omega
      simp [byteAt, write, written?, h, hlt, hend]
    · have hend : ¬ offset < start + bytes.size := by omega
      simp [byteAt, write, written?, h, hlt, hend]
  · simp [byteAt, write, written?, h]

end Contents
end StagingMemory.Memory
