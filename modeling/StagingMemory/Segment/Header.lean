/-!
The control header in front of a segment's payload. Processes that map a segment coordinate through
it by single reads, writes and additions of its words; claiming, publishing, joining, leaving and
retiring are made of these accesses. The two counts wrap at 32 bits.
-/
namespace StagingMemory

structure Header where
  state : UInt64
  /-- The payload's length, as published. -/
  bytes : UInt64
  /-- How many participants have ever joined, the leader included. -/
  joined : UInt32
  /-- How many are attached now. -/
  live : UInt32
  /-- The process that created the segment; zero before it was claimed. -/
  owner : UInt32
  deriving DecidableEq, Repr

namespace Header

def blank : Header := ⟨0, 0, 0, 0, 0⟩

instance : Inhabited Header := ⟨blank⟩

/-- The state of a segment that followers may join. -/
def readyMark : UInt64 := 0x5354414745524459

/-- The state of a segment that its leader has given up. -/
def retiredMark : UInt64 := 0x5354414752455444

theorem readyMark_ne_retiredMark : readyMark ≠ retiredMark := by decide

/-! ### Single accesses -/

def setState (h : Header) (mark : UInt64) : Header := { h with state := mark }

def setBytes (h : Header) (bytes : UInt64) : Header := { h with bytes }

def setJoined (h : Header) (n : UInt32) : Header := { h with joined := n }

def setLive (h : Header) (n : UInt32) : Header := { h with live := n }

def claim (h : Header) (pid : UInt32) : Header := { h with owner := pid }

def raiseLive (h : Header) : Header := { h with live := h.live + 1 }

def lowerLive (h : Header) : Header := { h with live := h.live - 1 }

def raiseJoined (h : Header) : Header := { h with joined := h.joined + 1 }

def isReady (h : Header) : Bool := h.state == readyMark

/-! ### What participants do -/

/-- Makes the segment visible to followers. The leader counts as joined; the state is written
last. -/
def publish (h : Header) (bytes : UInt64) : Header :=
  (((h.setBytes bytes).setJoined 1).setLive 1).setState readyMark

/-- Attaches a follower unless the segment is not ready. The count is raised before the state is
read, and lowered again on refusal. -/
def join (h : Header) : Bool × Header :=
  let raised := h.raiseLive
  if raised.isReady then (true, raised.raiseJoined) else (false, raised.lowerLive)

def leave (h : Header) : Header := h.lowerLive

def retire (h : Header) : Header := h.setState retiredMark

/-- The bytes of a header word below `kept`, read as the word they leave. No word has more than
eight. -/
def lowBytes (kept n : Nat) : Nat := n % (1 <<< (8 * min kept 8))

theorem lowBytes_zero (kept : Nat) : lowBytes kept 0 = 0 := Nat.zero_mod _

/-- The header as it reads after the segment was cut to `length` bytes and grown again: the words
lie one after the other from the start, least byte first, and what was cut off is zero. -/
def truncate (h : Header) (length : Nat) : Header where
  state := .ofNat (lowBytes length h.state.toNat)
  bytes := .ofNat (lowBytes (length - 8) h.bytes.toNat)
  joined := .ofNat (lowBytes (length - 16) h.joined.toNat)
  live := .ofNat (lowBytes (length - 20) h.live.toNat)
  owner := .ofNat (lowBytes (length - 24) h.owner.toNat)

theorem lowerLive_raiseLive (h : Header) : h.raiseLive.lowerLive = h := by
  simp [raiseLive, lowerLive]

end Header
end StagingMemory
