import StagingMemory.Memory.Contents
import StagingMemory.Segment.Header
import StagingMemory.SegmentName
import StagingMemory.SystemError
import StagingMemory.Table
/-!
What the processes of one machine share: the segments, the names bound to them, the processes
alive and the clock. A segment outlives its name as long as somebody maps it, so it is known by a
number of its own, in the order of creation.
-/
namespace StagingMemory

structure Segment where
  /-- The length in bytes. -/
  length : Nat
  /-- Permission bits. -/
  mode : UInt32
  header : Header
  contents : Memory.Contents
  deriving DecidableEq, Repr

namespace Segment

def empty (mode : UInt32) : Segment := ⟨0, mode, .blank, .zeros⟩

/-- The bits that let a program run as the segment's owner, or as its group. -/
def setOwner : UInt32 := 0o4000
def setGroup : UInt32 := 0o2000

def groupExecutes : UInt32 := 0o010

/-- The mode after a change of length: nothing runs as the owner any more, nor as a group that may
execute it. -/
def modeResized (mode : UInt32) : UInt32 :=
  if mode &&& groupExecutes = 0 then mode &&& ~~~setOwner
  else mode &&& ~~~setOwner &&& ~~~setGroup

/-- Cuts or grows the segment; what a cut takes away reads as zero afterwards. -/
def resize (s : Segment) (length : Nat) : Segment :=
  let sized := { s with length, mode := modeResized s.mode }
  if length < s.length then
    { sized with
      header := s.header.truncate length
      contents := s.contents.truncate length }
  else sized

@[simp] theorem length_resize (s : Segment) (length : Nat) : (s.resize length).length = length := by
  unfold resize
  split <;> rfl

/-- Growing a segment keeps what it holds. -/
theorem contents_resize_of_le {s : Segment} {length : Nat} (h : s.length ≤ length) :
    (s.resize length).contents = s.contents := by
  have hcut : ¬ length < s.length := by omega
  simp [resize, hcut]

theorem header_resize_of_le {s : Segment} {length : Nat} (h : s.length ≤ length) :
    (s.resize length).header = s.header := by
  have hcut : ¬ length < s.length := by omega
  simp [resize, hcut]

end Segment

abbrev SegmentId := Nat

/-- A name of dots alone denotes a directory, not a segment. -/
def SegmentName.isDirectory (name : SegmentName) : Bool :=
  name.objectName == "/.".toUTF8.data.toList || name.objectName == "/..".toUTF8.data.toList

structure Kernel where
  names : Table SegmentName SegmentId
  segments : List Segment
  /-- The processes that exist. -/
  alive : List UInt32
  /-- Nanoseconds since the clock's start. -/
  clock : Nat
  /-- Names are bound to segments that exist. -/
  names_bound : ∀ name id, names.get? name = some id → id < segments.length
  names_regular : ∀ name id, names.get? name = some id → name.isDirectory = false
  deriving DecidableEq

namespace Kernel

def initial (alive : List UInt32) (clock : Nat) : Kernel where
  names := .empty
  segments := []
  alive
  clock
  names_bound := by simp
  names_regular := by simp

def lengthLimit : Nat := 0x7fffffffffffffff

/-- The bits that the processes' mask takes from the mode of what they create. -/
def modeMask : UInt32 := 0o022

/-- The bits of a mode that are kept at all. -/
def modeBits : UInt32 := 0o7777

def ownerRead : UInt32 := 0o400
def ownerReadWrite : UInt32 := 0o600

def segment? (k : Kernel) (id : SegmentId) : Option Segment := k.segments[id]?

def header (k : Kernel) (id : SegmentId) : Header := ((k.segment? id).map Segment.header).getD .blank

def segmentLength (k : Kernel) (id : SegmentId) : Nat := ((k.segment? id).map Segment.length).getD 0

def segmentMode (k : Kernel) (id : SegmentId) : UInt32 := ((k.segment? id).map Segment.mode).getD 0

def modifySegment (k : Kernel) (id : SegmentId) (f : Segment → Segment) : Kernel :=
  { k with
    segments := k.segments.modify id f
    names_bound := by
      intro name j h
      rw [List.length_modify]
      exact k.names_bound name j h }

def modifyHeader (k : Kernel) (id : SegmentId) (f : Header → Header) : Kernel :=
  k.modifySegment id fun s => { s with header := f s.header }

def grants (k : Kernel) (id : SegmentId) (bits : UInt32) : Bool :=
  match k.segment? id with
  | some s => s.mode &&& bits == bits
  | none => false

def openSegment (k : Kernel) (name : SegmentName) : Except SystemError SegmentId :=
  if name.isDirectory then .error .invalidArgument
  else match k.names.get? name with
    | none => .error .notFound
    | some id => if k.grants id ownerReadWrite then .ok id else .error .permissionDenied

/-- Opens what is under a name to read only, and forgets it again. -/
def probe (k : Kernel) (name : SegmentName) : Except SystemError Unit :=
  if name.isDirectory then .ok ()
  else match k.names.get? name with
    | none => .error .notFound
    | some id => if k.grants id ownerRead then .ok () else .error .permissionDenied

def createSegment (k : Kernel) (name : SegmentName) (mode : UInt32) :
    Except SystemError (SegmentId × Kernel) :=
  if h : name.isDirectory || k.names.contains name then .error .alreadyExists
  else
    let id := k.segments.length
    .ok (id, { k with
      names := k.names.insert name id
      segments := k.segments ++ [Segment.empty (mode &&& modeBits &&& ~~~modeMask)]
      names_bound := by
        intro other j h
        rw [Table.get?_insert] at h
        rw [List.length_append, List.length_singleton]
        split at h
        · cases h
          exact Nat.lt_succ_self _
        · exact Nat.lt_succ_of_lt (k.names_bound other j h)
      names_regular := by
        intro other j hj
        rw [Table.get?_insert] at hj
        split at hj
        case isTrue heq =>
          subst heq
          simp only [Bool.or_eq_true, not_or, Bool.not_eq_true] at h
          exact h.1
        case isFalse => exact k.names_regular other j hj })

def resizeSegment (k : Kernel) (id : SegmentId) (length : Nat) : Except SystemError Kernel :=
  if lengthLimit < length then .error .fileTooLarge
  else .ok (k.modifySegment id (·.resize length))

/-- The kernel without the name. Whoever maps the segment keeps it. -/
def unbind (k : Kernel) (name : SegmentName) : Kernel :=
  { k with
    names := k.names.erase name
    names_bound := by
      intro other j h
      rw [Table.get?_erase] at h
      split at h
      · cases h
      · exact k.names_bound other j h
    names_regular := by
      intro other j h
      rw [Table.get?_erase] at h
      split at h
      · cases h
      · exact k.names_regular other j h }

def unlink (k : Kernel) (name : SegmentName) : Except SystemError Kernel :=
  if name.isDirectory then .error .isDirectory
  else if k.names.contains name then .ok (k.unbind name)
  else .error .notFound

/-- Process numbers lie between 1 and this one. -/
def pidLimit : UInt32 := 0x7FFFFFFF

def processAlive (k : Kernel) (pid : UInt32) : Bool :=
  pid != 0 && pid ≤ pidLimit && k.alive.contains pid

def ownerAlive (k : Kernel) (id : SegmentId) : Bool := k.processAlive (k.header id).owner

def start (k : Kernel) (pid : UInt32) : Kernel := { k with alive := pid :: k.alive }

/-- The clock's grain, in nanoseconds: no pause is shorter. -/
def grain : Nat := 50000

def pauseEnd (k : Kernel) (length : Nat) : Nat := k.clock + max length grain

def passUntil (k : Kernel) (time : Nat) : Kernel :=
  { k with clock := max time (k.clock + grain) }

/-- The process is gone; its segments and their counts stay as they are. -/
def kill (k : Kernel) (pid : UInt32) : Kernel := { k with alive := k.alive.filter (· != pid) }

theorem segment?_modifySegment (k : Kernel) (id j : SegmentId) (f : Segment → Segment) :
    (k.modifySegment id f).segment? j =
      if id = j then (k.segment? j).map f else k.segment? j := by
  simp only [segment?, modifySegment, List.getElem?_modify]
  by_cases h : id = j <;> simp [h]

theorem segment?_modifyHeader (k : Kernel) (id j : SegmentId) (f : Header → Header) :
    (k.modifyHeader id f).segment? j =
      if id = j then (k.segment? j).map fun s => { s with header := f s.header }
      else k.segment? j :=
  segment?_modifySegment k id j _

theorem segment?_eq_none_of_le {k : Kernel} {id : SegmentId} (h : k.segments.length ≤ id) :
    k.segment? id = none :=
  List.getElem?_eq_none h

@[simp] theorem names_modifySegment (k : Kernel) (id : SegmentId) (f : Segment → Segment) :
    (k.modifySegment id f).names = k.names := rfl

@[simp] theorem names_modifyHeader (k : Kernel) (id : SegmentId) (f : Header → Header) :
    (k.modifyHeader id f).names = k.names := rfl

theorem segmentLength_modifyHeader (k : Kernel) (id j : SegmentId) (f : Header → Header) :
    (k.modifyHeader id f).segmentLength j = k.segmentLength j := by
  simp only [segmentLength, modifyHeader, segment?_modifySegment]
  by_cases h : id = j
  · cases hs : k.segment? j <;> simp [h]
  · simp [h]

theorem header_modifyHeader_of_ne (k : Kernel) {id j : SegmentId} (f : Header → Header)
    (h : id ≠ j) : (k.modifyHeader id f).header j = k.header j := by
  simp [header, modifyHeader, segment?_modifySegment, h]

theorem header_modifyHeader_self (k : Kernel) (id : SegmentId) (f : Header → Header)
    {s : Segment} (hs : k.segment? id = some s) :
    (k.modifyHeader id f).header id = f (k.header id) := by
  simp [header, modifyHeader, segment?_modifySegment, hs]

theorem header_of_le {k : Kernel} {id : SegmentId} (h : k.segments.length ≤ id) :
    k.header id = .blank := by
  simp only [header, segment?_eq_none_of_le h, Option.map_none, Option.getD_none]

theorem header_modifyHeader {k : Kernel} {id : SegmentId} (h : id < k.segments.length)
    (j : SegmentId) (f : Header → Header) :
    (k.modifyHeader id f).header j = if j = id then f (k.header j) else k.header j := by
  split
  case isTrue heq =>
    subst heq
    exact header_modifyHeader_self k j f (List.getElem?_eq_getElem h)
  case isFalse hne => exact header_modifyHeader_of_ne k f (Ne.symm hne)

theorem header_modifySegment_of_ne (k : Kernel) {id j : SegmentId} (f : Segment → Segment)
    (h : id ≠ j) : (k.modifySegment id f).header j = k.header j := by
  simp [header, segment?_modifySegment, h]

/-- Cutting a segment leaves no word of its header that was zero other than zero. -/
theorem header_resize (k : Kernel) (id : SegmentId) (length : Nat) :
    let h := k.header id
    let h' := (k.modifySegment id (·.resize length)).header id
    (h.state = 0 → h'.state = 0) ∧ (h.joined = 0 → h'.joined = 0) ∧ (h.live = 0 → h'.live = 0) := by
  simp only [header, segment?_modifySegment, if_true]
  cases k.segment? id with
  | none => simp
  | some s =>
    simp only [Option.map_some, Option.getD_some, Segment.resize]
    split
    · simp only [Header.truncate]
      refine ⟨fun hz => ?_, fun hz => ?_, fun hz => ?_⟩ <;>
        simp [hz, Header.lowBytes_zero]
    · exact ⟨fun h => h, fun h => h, fun h => h⟩

/-! ### Names -/

theorem names_of_openSegment {k : Kernel} {name : SegmentName} {id : SegmentId}
    (h : k.openSegment name = .ok id) : k.names.get? name = some id := by
  unfold openSegment at h
  split at h
  · cases h
  · split at h
    · cases h
    · split at h
      · cases h
        assumption
      · cases h

theorem get?_names_unbind (k : Kernel) (name other : SegmentName) :
    (k.unbind name).names.get? other = if other = name then none else k.names.get? other :=
  Table.get?_erase k.names name other

@[simp] theorem segment?_unbind (k : Kernel) (name : SegmentName) (id : SegmentId) :
    (k.unbind name).segment? id = k.segment? id := rfl

/-- What freeing a name changes: it is bound to nothing any more, and nothing else. -/
structure Removed (k : Kernel) (name : SegmentName) (removed : Kernel) : Prop where
  unbound : removed.names.get? name = none
  names_eq : ∀ other, other ≠ name → removed.names.get? other = k.names.get? other
  segment?_eq : ∀ id, removed.segment? id = k.segment? id
  alive_eq : removed.alive = k.alive
  clock_eq : removed.clock = k.clock

theorem removed_unbind (k : Kernel) (name : SegmentName) : k.Removed name (k.unbind name) where
  unbound := by rw [get?_names_unbind, if_pos rfl]
  names_eq other h := by rw [get?_names_unbind, if_neg h]
  segment?_eq _ := rfl
  alive_eq := rfl
  clock_eq := rfl

theorem unbind_of_unbound {k : Kernel} {name : SegmentName} (h : k.names.get? name = none) :
    k.unbind name = k := by
  simp only [unbind, Table.erase_of_get?_eq_none h]

/-- A bound name can always be removed. -/
theorem unlink_of_bound {k : Kernel} {name : SegmentName} {id : SegmentId}
    (h : k.names.get? name = some id) : k.unlink name = .ok (k.unbind name) := by
  have hregular := k.names_regular name id h
  have hbound : k.names.contains name = true := by simp [Table.contains, h]
  simp [unlink, hregular, hbound]

theorem unlink_of_unbound {k : Kernel} {name : SegmentName} (h : k.names.get? name = none) :
    ∃ e, k.unlink name = .error e := by
  have hbound : k.names.contains name = false := Table.contains_eq_false_iff.mpr h
  unfold unlink
  split
  · exact ⟨_, rfl⟩
  · exact ⟨_, by rw [hbound]; rfl⟩

/-- What creating changes: the name, which was free, is bound to one more segment, an empty one. -/
structure Created (k : Kernel) (name : SegmentName) (id : SegmentId) (created : Kernel) : Prop where
  unbound : k.names.get? name = none
  id_eq : id = k.segments.length
  names_eq : ∀ other, created.names.get? other =
    if other = name then some id else k.names.get? other
  segment?_eq : ∃ mode, ∀ j, created.segment? j =
    if j = id then some (Segment.empty mode) else k.segment? j
  length_eq : created.segments.length = id + 1
  alive_eq : created.alive = k.alive
  clock_eq : created.clock = k.clock

namespace Created

variable {k created : Kernel} {name : SegmentName} {id : SegmentId}

theorem length_le (h : k.Created name id created) : k.segments.length ≤ id :=
  Nat.le_of_eq h.id_eq.symm

/-- The new segment was not bound to any name. -/
theorem get?_names_ne (h : k.Created name id created) (other : SegmentName) :
    k.names.get? other ≠ some id := by
  intro hbound
  have hlt := k.names_bound other id hbound
  exact absurd hlt (Nat.not_lt.mpr h.length_le)

end Created

theorem created_of_createSegment {k created : Kernel} {name : SegmentName} {mode : UInt32}
    {id : SegmentId} (h : k.createSegment name mode = .ok (id, created)) :
    k.Created name id created := by
  unfold createSegment at h
  split at h
  case isTrue => cases h
  case isFalse hfree =>
    simp only [Bool.or_eq_true, not_or, Bool.not_eq_true] at hfree
    cases h
    refine ⟨Table.contains_eq_false_iff.mp hfree.2, rfl, ?_,
      ⟨mode &&& modeBits &&& ~~~modeMask, fun j => ?_⟩, ?_, rfl, rfl⟩
    · intro other
      exact Table.get?_insert _ _ _ _
    · simp only [segment?]
      rcases Nat.lt_trichotomy j k.segments.length with hlt | rfl | hgt
      · rw [List.getElem?_append_left hlt, if_neg (Nat.ne_of_lt hlt)]
      · rw [List.getElem?_concat_length, if_pos rfl]
      · rw [if_neg (Nat.ne_of_gt hgt), List.getElem?_eq_none (Nat.le_of_lt hgt)]
        refine List.getElem?_eq_none ?_
        rw [List.length_append, List.length_singleton]
        exact hgt
    · simp

theorem header_created {k created : Kernel} {name : SegmentName} {id : SegmentId}
    (h : k.Created name id created) (j : SegmentId) : created.header j = k.header j := by
  obtain ⟨mode, hsegment⟩ := h.segment?_eq
  simp only [header, hsegment]
  split
  case isTrue heq =>
    rw [heq, segment?_eq_none_of_le h.length_le]
    rfl
  case isFalse => rfl

theorem segmentLength_created {k created : Kernel} {name : SegmentName} {id : SegmentId}
    (h : k.Created name id created) (j : SegmentId) :
    created.segmentLength j = k.segmentLength j := by
  obtain ⟨mode, hsegment⟩ := h.segment?_eq
  simp only [segmentLength, hsegment]
  split
  case isTrue heq =>
    rw [heq, segment?_eq_none_of_le h.length_le]
    rfl
  case isFalse => rfl

@[simp] theorem header_unbind (k : Kernel) (name : SegmentName) (id : SegmentId) :
    (k.unbind name).header id = k.header id := rfl

end Kernel
end StagingMemory
