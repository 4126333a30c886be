/-!
Streams: tokens for the context in which a device orders its work. Resources accept them and keep
no order by them.
-/
namespace StagingMemory

structure Stream where
  handle : UInt64
  deriving DecidableEq, Repr

namespace Stream

def standard : Stream := ⟨0⟩

def isStandard (s : Stream) : Bool := s.handle == 0

end Stream
end StagingMemory
