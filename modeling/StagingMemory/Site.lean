import StagingMemory.Device.Access
import StagingMemory.Kernel
/-!
A process together with the kernel it runs on, and what it does there with segments: opening,
creating, mapping and unlinking them. Opening anything needs a free descriptor.
-/
namespace StagingMemory

structure Site where
  kernel : Kernel
  process : Process
  deriving DecidableEq

structure Mapping where
  base : Nat
  length : Nat
  segment : SegmentId
  deriving DecidableEq, Repr

def Mapping.payload (m : Mapping) : Nat := m.base + Page.headerLength

structure Block where
  address : Nat
  bytes : UInt64
  deriving DecidableEq, Repr

def Block.pageAligned (b : Block) : Bool := b.address % Page.size == 0

namespace Site

def openSegment (s : Site) (name : SegmentName) : Except SystemError SegmentId :=
  if s.process.descriptorsExhausted then .error .tooManyOpenFiles else s.kernel.openSegment name

def createSegment (s : Site) (name : SegmentName) (mode : UInt32) :
    Except SystemError (SegmentId × Site) :=
  if s.process.descriptorsExhausted then .error .tooManyOpenFiles
  else match s.kernel.createSegment name mode with
    | .ok (id, kernel) => .ok (id, { s with kernel })
    | .error e => .error e

def resizeSegment (s : Site) (id : SegmentId) (length : Nat) : Except SystemError Site :=
  match s.kernel.resizeSegment id length with
  | .ok kernel => .ok { s with kernel }
  | .error e => .error e

def mapSegment (s : Site) (id : SegmentId) (length : Nat) : Except SystemError (Mapping × Site) :=
  match s.process.space.mapSegment id length with
  | .ok (base, space) => .ok (⟨base, length, id⟩, { s with process := { s.process with space } })
  | .error e => .error e

def unmap (s : Site) (m : Mapping) : Site :=
  { s with process := { s.process with space := s.process.space.release m.base m.length } }

def unlink (s : Site) (name : SegmentName) : Except SystemError Unit × Site :=
  match s.kernel.unlink name with
  | .ok kernel => (.ok (), { s with kernel })
  | .error e => (.error e, s)

def modifyHeader (s : Site) (m : Mapping) (f : Header → Header) : Site :=
  { s with kernel := s.kernel.modifyHeader m.segment f }

def header (s : Site) (m : Mapping) : Header := s.kernel.header m.segment

/-- Whether the name is taken. What cannot be opened exists unless it is absent. -/
def exists? (s : Site) (name : SegmentName) : Bool :=
  let opened := if s.process.descriptorsExhausted then .error .tooManyOpenFiles
    else s.kernel.probe name
  match opened with
  | .ok _ => true
  | .error e => e != .notFound

def mappingOf? (s : Site) (block : Block) : Option Mapping :=
  let base := block.address - Page.headerLength
  (s.process.space.segmentAt? base).map fun id =>
    ⟨base, Page.headerLength + block.bytes.toNat, id⟩

theorem names_of_openSegment {s : Site} {name : SegmentName} {id : SegmentId}
    (h : s.openSegment name = .ok id) : s.kernel.names.get? name = some id := by
  unfold openSegment at h
  split at h
  · cases h
  · exact Kernel.names_of_openSegment h

theorem created_of_createSegment {s t : Site} {name : SegmentName} {mode : UInt32} {id : SegmentId}
    (h : s.createSegment name mode = .ok (id, t)) :
    s.kernel.Created name id t.kernel ∧ t.process = s.process := by
  unfold createSegment at h
  split at h
  · cases h
  · split at h
    case h_1 hk =>
      cases h
      exact ⟨Kernel.created_of_createSegment hk, rfl⟩
    case h_2 => cases h

theorem of_resizeSegment {s t : Site} {id : SegmentId} {length : Nat}
    (h : s.resizeSegment id length = .ok t) :
    t = { s with kernel := s.kernel.modifySegment id (·.resize length) } := by
  unfold resizeSegment Kernel.resizeSegment at h
  split at h
  case h_1 hk =>
    split at hk
    · cases hk
    · cases hk
      cases h
      rfl
  case h_2 => cases h

/-- What mapping changes: the process's address space, by one mapping. -/
theorem mapped_of_mapSegment {s t : Site} {id : SegmentId} {length : Nat} {m : Mapping}
    (h : s.mapSegment id length = .ok (m, t)) :
    m.segment = id ∧ m.length = length ∧ t = { s with process := { s.process with
      space := t.process.space } } ∧
      s.process.space.Mapped length (.segment id) m.base t.process.space := by
  unfold mapSegment at h
  split at h
  case h_1 hm =>
    cases h
    exact ⟨rfl, rfl, rfl, Memory.AddressSpace.mapped_of_map_eq_ok hm⟩
  case h_2 => cases h

def unbind (s : Site) (name : SegmentName) : Site := { s with kernel := s.kernel.unbind name }

theorem unlink_of_bound {s : Site} {name : SegmentName} {id : SegmentId}
    (h : s.kernel.names.get? name = some id) : s.unlink name = (.ok (), s.unbind name) := by
  simp [unlink, unbind, Kernel.unlink_of_bound h]

theorem unlink_of_unbound {s : Site} {name : SegmentName} (h : s.kernel.names.get? name = none) :
    ∃ e, s.unlink name = (.error e, s) := by
  obtain ⟨e, he⟩ := Kernel.unlink_of_unbound h
  exact ⟨e, by simp [unlink, he]⟩

/-- Whether the name was bound or not, it is not bound afterwards. -/
theorem unlink_snd (s : Site) (name : SegmentName) : (s.unlink name).2 = s.unbind name := by
  cases h : s.kernel.names.get? name with
  | none =>
    obtain ⟨e, he⟩ := unlink_of_unbound h
    simp [he, unbind, Kernel.unbind_of_unbound h]
  | some id => simp [unlink_of_bound h]

/-! ### Bytes of mapped memory -/

/-- The bytes from an address on, all within one mapping. -/
def load (s : Site) (address length : Nat) : List UInt8 :=
  match s.process.space.resolve? address with
  | some (.segment id, offset) =>
    (((s.kernel.segment? id).map Segment.contents).getD .zeros).read offset length
  | some (.own id, offset) => (s.process.space.memory id).read offset length
  | none => []

def store (s : Site) (address : Nat) (bytes : Array UInt8) : Site :=
  match s.process.space.resolve? address with
  | some (.segment id, offset) =>
    { s with kernel := s.kernel.modifySegment id fun segment =>
        { segment with contents := segment.contents.write offset bytes } }
  | some (.own id, offset) =>
    { s with process := { s.process with
        space := s.process.space.modifyMemory id (·.write offset bytes) } }
  | none => s

end Site
end StagingMemory
