import StagingMemory.Site
/-!
Looking at a segment from outside: what is bound under a name, and what its header says to a given
process.
-/
namespace StagingMemory

inductive HeaderState where
  | unpublished
  | ready
  | retired
  /-- A word that no participant writes. -/
  | other
  deriving DecidableEq, Repr

/-- Who a header's owner is to the process that looks. -/
inductive OwnerView where
  | nobody
  | self
  | alive
  | dead
  deriving DecidableEq, Repr

structure HeaderView where
  state : HeaderState
  bytes : UInt64
  joined : UInt32
  live : UInt32
  owner : OwnerView
  deriving DecidableEq, Repr

inductive Peek where
  | absent
  | unopenable
  /-- A segment too short for a header. -/
  | short (length : Nat)
  | segment (header : HeaderView) (length : Nat)
  deriving DecidableEq, Repr

def HeaderState.ofWord (word : UInt64) : HeaderState :=
  if word = 0 then unpublished
  else if word = Header.readyMark then ready
  else if word = Header.retiredMark then retired
  else other

namespace Site

def viewOwner (s : Site) (owner : UInt32) : OwnerView :=
  if owner = 0 then .nobody
  else if owner = s.process.pid then .self
  else if s.kernel.processAlive owner then .alive
  else .dead

def viewHeader (s : Site) (h : Header) : HeaderView :=
  ⟨.ofWord h.state, h.bytes, h.joined, h.live, s.viewOwner h.owner⟩

def peek (s : Site) (name : SegmentName) : Peek :=
  match s.openSegment name with
  | .error e => if e = .notFound then .absent else .unopenable
  | .ok id =>
    let length := s.kernel.segmentLength id
    if length < Page.headerLength then .short length
    else .segment (s.viewHeader (s.kernel.header id)) length

end Site
end StagingMemory
