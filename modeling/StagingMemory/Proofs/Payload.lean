import StagingMemory.Proofs.Custody
import StagingMemory.Proofs.Teardown
/-!
The bytes of segments. A segment begins with the words of its header and goes on with its contents,
of which a block shows those from the second page on. Main statements: no step of an allocation or a
release changes the contents of any segment, because only segments of length zero are ever given
another length (`Machine.contents_of_step`, `Machine.Unsized.step`), and within a block the bytes of
the process's memory are those of the block's segment (`Block.Held.load_eq`, `Block.Held.store_eq`).
-/
namespace StagingMemory

/-! ### Layout -/

namespace Header

def wordBytes (count n : Nat) : List UInt8 :=
  (List.range count).map fun i => .ofNat (n >>> (8 * i))

/-- The bytes of a header: its words lie one after the other. -/
def layout (h : Header) : List UInt8 :=
  wordBytes 8 h.state.toNat ++ wordBytes 8 h.bytes.toNat ++ wordBytes 4 h.joined.toNat ++
    wordBytes 4 h.live.toNat ++ wordBytes 4 h.owner.toNat

/-- A header fits the page in front of the payload. -/
theorem length_layout_le (h : Header) : h.layout.length ≤ Page.headerLength := by
  simp [layout, wordBytes, Page.headerLength, Page.size]

end Header

namespace Kernel

variable {k : Kernel} {id : SegmentId}

def contents (k : Kernel) (id : SegmentId) : Memory.Contents :=
  ((k.segment? id).map Segment.contents).getD .zeros

/-- A byte of a segment: one of its header, and behind that one of its contents. -/
def byteAt (k : Kernel) (id : SegmentId) (offset : Nat) : UInt8 :=
  (k.header id).layout[offset]?.getD ((k.contents id).byteAt offset)

/-- Behind the first page the header has no bytes. -/
theorem byteAt_of_le {offset : Nat} (h : Page.headerLength ≤ offset) :
    k.byteAt id offset = (k.contents id).byteAt offset := by
  have hnone : (k.header id).layout[offset]? = none :=
    List.getElem?_eq_none (Nat.le_trans (k.header id).length_layout_le h)
  rw [byteAt, hnone, Option.getD_none]

theorem contents_of_le (h : k.segments.length ≤ id) : k.contents id = .zeros := by
  rw [contents, segment?_eq_none_of_le h]
  rfl

theorem contents_modifySegment (k : Kernel) (id j : SegmentId) (f : Segment → Segment) :
    (k.modifySegment id f).contents j =
      if id = j then ((k.segment? j).map fun s => (f s).contents).getD .zeros
      else k.contents j := by
  rw [contents, segment?_modifySegment]
  split
  · rw [Option.map_map]
    rfl
  · rfl

/-- What changes no segment's contents changes no contents. -/
theorem contents_modifySegment_of_eq {f : Segment → Segment}
    (hf : ∀ s, k.segment? id = some s → (f s).contents = s.contents) (j : SegmentId) :
    (k.modifySegment id f).contents j = k.contents j := by
  rw [contents_modifySegment]
  split
  case isTrue heq =>
    subst heq
    cases hs : k.segment? id with
    | none => rw [contents, hs]; rfl
    | some s =>
      rw [contents, hs]
      exact hf s hs
  case isFalse => rfl

theorem contents_modifyHeader (k : Kernel) (id j : SegmentId) (f : Header → Header) :
    (k.modifyHeader id f).contents j = k.contents j :=
  contents_modifySegment_of_eq (f := fun s => { s with header := f s.header }) (fun _ _ => rfl) j

theorem contents_resize {length : Nat} (h : k.segmentLength id ≤ length) (j : SegmentId) :
    (k.modifySegment id (·.resize length)).contents j = k.contents j := by
  refine contents_modifySegment_of_eq (fun s hs => Segment.contents_resize_of_le ?_) j
  simpa only [segmentLength, hs, Option.map_some, Option.getD_some] using h

theorem contents_created {created : Kernel} {name : SegmentName} (h : k.Created name id created)
    (j : SegmentId) : created.contents j = k.contents j := by
  obtain ⟨mode, hsegment⟩ := h.segment?_eq
  simp only [contents, hsegment]
  split
  case isTrue heq =>
    rw [heq, segment?_eq_none_of_le h.length_le]
    rfl
  case isFalse => rfl

theorem segmentLength_modifySegment_of_eq {f : Segment → Segment}
    (hf : ∀ s, (f s).length = s.length) (j : SegmentId) :
    (k.modifySegment id f).segmentLength j = k.segmentLength j := by
  simp only [segmentLength, segment?_modifySegment]
  split
  · cases k.segment? j with
    | none => rfl
    | some s => exact hf s
  · rfl

theorem segmentLength_of_le (h : k.segments.length ≤ id) : k.segmentLength id = 0 := by
  rw [segmentLength, segment?_eq_none_of_le h]
  rfl

def overwrite (k : Kernel) (id : SegmentId) (offset : Nat) (bytes : Array UInt8) : Kernel :=
  k.modifySegment id fun s => { s with contents := s.contents.write offset bytes }

theorem contents_overwrite (h : id < k.segments.length) (offset : Nat) (bytes : Array UInt8)
    (j : SegmentId) : (k.overwrite id offset bytes).contents j =
      if id = j then (k.contents j).write offset bytes else k.contents j := by
  rw [overwrite, contents_modifySegment]
  split
  case isTrue heq =>
    subst heq
    have hs : k.segment? id = some (k.segments.get ⟨id, h⟩) := List.getElem?_eq_getElem h
    rw [contents, hs]
    rfl
  case isFalse => rfl

theorem header_overwrite (k : Kernel) (id : SegmentId) (offset : Nat) (bytes : Array UInt8)
    (j : SegmentId) : (k.overwrite id offset bytes).header j = k.header j := by
  simp only [header, overwrite, segment?_modifySegment]
  split
  · rw [Option.map_map]
    rfl
  · rfl

/-- Bytes of other segments stay. -/
theorem byteAt_overwrite_of_ne {j : SegmentId} (h : id ≠ j) (offset : Nat) (bytes : Array UInt8)
    (place : Nat) : (k.overwrite id offset bytes).byteAt j place = k.byteAt j place := by
  rw [byteAt, header_overwrite, overwrite, contents_modifySegment, if_neg h, byteAt]

/-- Bytes in front of what is written stay. -/
theorem byteAt_overwrite_of_lt (h : id < k.segments.length) {offset place : Nat}
    (hplace : place < offset) (bytes : Array UInt8) (j : SegmentId) :
    (k.overwrite id offset bytes).byteAt j place = k.byteAt j place := by
  rw [byteAt, header_overwrite, contents_overwrite h, byteAt]
  split
  · rw [Memory.Contents.byteAt_write, if_neg fun hin => absurd hin.1 (Nat.not_le.mpr hplace)]
  · rfl

end Kernel

/-! ### What a step of a call leaves alone -/

namespace Attach.Transition

variable {a : Attach} {phase : Phase} {s t : Site} {progress : Progress Phase Result}

theorem contents_eq (h : Transition a phase s progress t)
    (hsize : ∀ id, phase = .resize id → s.kernel.segmentLength id = 0) (id : SegmentId) :
    t.kernel.contents id = s.kernel.contents id := by
  cases h with
  | leftoverMapped h | mapped h | foundMapped h =>
    rw [(Site.mapped_of_mapSegment h).2.2.1]
  | created h => exact Kernel.contents_created (Site.created_of_createSegment h).1 id
  | resized h =>
    rw [Site.of_resizeSegment h]
    refine Kernel.contents_resize ?_ id
    rw [hsize _ rfl]
    exact Nat.zero_le _
  | undoneError | undoneFault | undoneAbort =>
    unfold undone
    split
    · rfl
    · exact s.kernel.contents_modifyHeader _ id _
  | leftoverRetired | claimed | raised | withdrawn | joined | bytesPublished | joinedPublished |
    livePublished | statePublished => exact s.kernel.contents_modifyHeader _ id _
  | _ => rfl

/-- Only a segment that is given its length changes its length. -/
theorem segmentLength_eq (h : Transition a phase s progress t) {id : SegmentId}
    (hid : phase ≠ .resize id) : t.kernel.segmentLength id = s.kernel.segmentLength id := by
  cases h with
  | leftoverMapped h | mapped h | foundMapped h =>
    rw [(Site.mapped_of_mapSegment h).2.2.1]
  | created h => exact Kernel.segmentLength_created (Site.created_of_createSegment h).1 id
  | @resized _ _ j h =>
    rw [Site.of_resizeSegment h]
    have hne : j ≠ id := fun heq => hid (congrArg Phase.resize heq)
    simp only [Kernel.segmentLength, Kernel.segment?_modifySegment, if_neg hne]
  | undoneError | undoneFault | undoneAbort =>
    unfold undone
    split
    · rfl
    · exact s.kernel.segmentLength_modifyHeader _ id _
  | leftoverRetired | claimed | raised | withdrawn | joined | bytesPublished | joinedPublished |
    livePublished | statePublished => exact s.kernel.segmentLength_modifyHeader _ id _
  | _ => rfl

end Attach.Transition

namespace Detach.Transition

variable {d : Detach} {phase : Phase} {s t : Site} {progress : Progress Phase Unit}

theorem contents_eq (h : Transition d phase s progress t) (id : SegmentId) :
    t.kernel.contents id = s.kernel.contents id := by
  cases h with
  | retired | left => exact s.kernel.contents_modifyHeader _ id _
  | _ => rfl

theorem segmentLength_eq (h : Transition d phase s progress t) (id : SegmentId) :
    t.kernel.segmentLength id = s.kernel.segmentLength id := by
  cases h with
  | retired | left => exact s.kernel.segmentLength_modifyHeader _ id _
  | _ => rfl

end Detach.Transition

namespace Call

theorem contents_step (c : Call) (s : Site)
    (hsize : ∀ a id, c = .attach a (.resize id) → s.kernel.segmentLength id = 0) (id : SegmentId) :
    (c.step s).2.kernel.contents id = s.kernel.contents id := by
  cases c with
  | attach a phase =>
    exact (a.step_transition phase s).contents_eq (fun j hj => hsize a j (congrArg _ hj)) id
  | detach d phase => exact (d.step_transition phase s).contents_eq id

theorem segmentLength_step (c : Call) (s : Site) {id : SegmentId}
    (hid : ∀ a, c ≠ .attach a (.resize id)) :
    (c.step s).2.kernel.segmentLength id = s.kernel.segmentLength id := by
  cases c with
  | attach a phase =>
    exact (a.step_transition phase s).segmentLength_eq fun hphase => hid a (congrArg _ hphase)
  | detach d phase => exact (d.step_transition phase s).segmentLength_eq id

/-- What a call is about to give its length it has just created. -/
theorem created_of_resize {c : Call} {s : Site} {a : Attach} {id : SegmentId}
    (h : (c.step s).1 = .running (.attach a (.resize id))) :
    c = .attach a .create ∧ s.kernel.Created a.config.segment id (c.step s).2.kernel := by
  obtain ⟨phase, rfl, ht⟩ := attach_of_step h
  generalize (step (.attach a phase) s).2 = t at ht ⊢
  generalize hnext : Progress.running (Attach.Phase.resize id) = next at ht
  cases ht with
  | created hcreate =>
    cases hnext
    exact ⟨rfl, (Site.created_of_createSegment hcreate).1⟩
  | registered => split at hnext <;> cases hnext
  | _ => cases hnext

end Call

namespace Machine

variable {κ : Type u} {ι : Type v}

/-- A segment about to be given its length is empty, and only its creator is to do so. -/
def Unsized (m : Machine κ ι) : Prop :=
  ∀ i a id, m.stage i = .calling (.attach a (.resize id)) →
    m.kernel.segmentLength id = 0 ∧
      ∀ j b, m.stage j = .calling (.attach b (.resize id)) → j = i

theorem unsized_of_idle {m : Machine κ ι} (hidle : ∀ i, m.stage i = .idle) : m.Unsized := by
  intro i a id hi
  rw [hidle i] at hi
  cases hi

/-- Where lengths and stages stay, so does this. -/
theorem Unsized.frame {m next : Machine κ ι} (h : m.Unsized) (hstage : next.stage = m.stage)
    (hlength : ∀ id, next.kernel.segmentLength id = m.kernel.segmentLength id) : next.Unsized := by
  intro i a id hi
  rw [hstage] at hi ⊢
  rw [hlength]
  exact h i a id hi

variable [DecidableEq κ] [DecidableEq ι] {roster : ι → Member κ} {m next : Machine κ ι}
  {access : Option (Access ι)}

/-- Without an access no segment changes. -/
theorem segment?_of_begin (hstep : Step roster m none next) (id : SegmentId) :
    next.kernel.segment? id = m.kernel.segment? id := by
  cases hstep with
  | allocate i bytes =>
    rw [settle, Member.beginAllocate_site]
    rfl
  | release | elapse | populate | move => rfl

theorem contents_of_step (h : m.Unsized) (hstep : Step roster m access next) (id : SegmentId) :
    next.kernel.contents id = m.kernel.contents id := by
  cases access with
  | none => rw [Kernel.contents, segment?_of_begin hstep, Kernel.contents]
  | some x =>
    obtain ⟨i, c⟩ := x
    rw [kernel_of_access hstep]
    refine c.contents_step _ (fun a j hc => ?_) id
    subst hc
    exact (h i a j (stage_of_step hstep)).1

theorem segmentLength_of_step (hstep : Step roster m access next) {id : SegmentId}
    (hid : ∀ i a, access ≠ some ⟨i, .attach a (.resize id)⟩) :
    next.kernel.segmentLength id = m.kernel.segmentLength id := by
  cases access with
  | none => rw [Kernel.segmentLength, segment?_of_begin hstep, Kernel.segmentLength]
  | some x =>
    obtain ⟨i, c⟩ := x
    rw [kernel_of_access hstep]
    refine c.segmentLength_step _ fun a hc => hid i a ?_
    rw [hc]

/-- Who is about to give a segment its length was so before, or has created the segment. -/
theorem resize_before (hstep : Step roster m access next) {i : ι} {a : Attach} {id : SegmentId}
    (hi : next.stage i = .calling (.attach a (.resize id))) :
    m.stage i = .calling (.attach a (.resize id)) ∨
      access = some ⟨i, .attach a .create⟩ ∧
        m.kernel.Created a.config.segment id next.kernel := by
  generalize hc : Call.attach a (.resize id) = c at hi
  cases origin_of_step hstep hi with
  | stayed hbefore => exact Or.inl hbefore
  | allocates _ hfirst =>
    cases hc
    cases hfirst
  | releases => cases hc
  | steps haccess _ hnext =>
    subst hc haccess
    obtain ⟨rfl, hcreated⟩ := Call.created_of_resize hnext
    exact Or.inr ⟨rfl, kernel_of_access hstep ▸ hcreated⟩

theorem Unsized.step (h : m.Unsized) (hsound : m.Sound roster)
    (hstep : Step roster m access next) : next.Unsized := by
  -- A segment that somebody is about to size is known, so it is not the one created now.
  have hold : ∀ j b id, m.stage j = .calling (.attach b (.resize id)) →
      ¬ m.kernel.segments.length ≤ id := by
    intro j b id hj
    refine Nat.not_le.mpr (hsound.known j id ?_)
    rw [segment?, hj]
    rfl
  intro i a id hi
  rcases resize_before hstep hi with hbefore | ⟨haccess, hcreated⟩
  · obtain ⟨hlength, hsole⟩ := h i a id hbefore
    constructor
    · rw [segmentLength_of_step hstep, hlength]
      intro j b haccess
      subst haccess
      have hj := stage_of_step hstep
      obtain rfl := hsole j b hj
      have hafter := (stage_after_step hstep).symm.trans hi
      obtain ⟨heq, -⟩ := Call.created_of_resize (Stage.after_eq_calling hafter)
      cases heq
    · intro j b hj
      rcases resize_before hstep hj with hj | ⟨-, hcreated⟩
      · exact hsole j b hj
      · exact absurd hcreated.length_le (hold i a id hbefore)
  · constructor
    · rw [Kernel.segmentLength_created hcreated]
      exact Kernel.segmentLength_of_le hcreated.length_le
    · intro j b hj
      rcases resize_before hstep hj with hj | ⟨haccess', -⟩
      · exact absurd hcreated.length_le (hold j b id hj)
      · cases haccess.symm.trans haccess'
        rfl

end Machine

/-! ### Bytes behind an address -/

namespace Memory.AddressSpace

theorem resolve?_of_page? {a : AddressSpace} {address : Nat} {content : Backing × Nat}
    (h : a.page? (address / Page.size) = some content) :
    a.resolve? address = some (content.1, address - content.2 * Page.size) := by
  obtain ⟨r, hr, rfl⟩ := Option.map_eq_some_iff.mp h
  rw [resolve?, region?, hr]
  rfl

end Memory.AddressSpace

/-- A byte of a mapping is the byte of its segment at the same distance from the start. -/
theorem Mapping.Placed.resolve?_eq {m : Mapping} {a : Memory.AddressSpace} (h : m.Placed a)
    {offset : Nat} (hoffset : offset < m.length) :
    a.resolve? (m.base + offset) = some (.segment m.segment, offset) := by
  have haligned := h.aligned
  have hpage : (m.base + offset) / Page.size ∈
      Memory.AddressSpace.mappingSpan m.base m.length := by
    simp only [Memory.AddressSpace.mappingSpan, Memory.AddressSpace.pagesFor, Memory.Span.mem_def,
      Page.size] at haligned ⊢
    omega
  rw [Memory.AddressSpace.resolve?_of_page? (h.page?_eq _ hpage), haligned, Nat.add_sub_cancel_left]

namespace Block.Held

variable {block : Block} {m : Mapping} {s : Site}

theorem resolve?_eq (h : block.Held m s) {offset : Nat} (hoffset : offset < block.bytes.toNat) :
    s.process.space.resolve? (block.address + offset) =
      some (.segment m.segment, Page.headerLength + offset) := by
  rw [h.payload_eq, Mapping.payload, Nat.add_assoc]
  apply h.placed.resolve?_eq
  rw [h.length_eq]
  exact Nat.add_lt_add_left hoffset _

/-- What is read within a block stands in the block's segment, behind the header. -/
theorem load_eq (h : block.Held m s) {offset length : Nat}
    (hrange : offset + length ≤ block.bytes.toNat) :
    s.load (block.address + offset) length =
      (List.range length).map fun i =>
        s.kernel.byteAt m.segment (Page.headerLength + (offset + i)) := by
  cases length with
  | zero =>
    unfold Site.load
    split <;> rfl
  | succ n =>
    have hoffset : offset < block.bytes.toNat := by omega
    simp only [Site.load, h.resolve?_eq hoffset, Memory.Contents.read]
    refine List.map_congr_left fun i _ => ?_
    rw [Kernel.byteAt_of_le (Nat.le_add_right _ _), Nat.add_assoc]
    rfl

/-- What is written within a block goes to the block's segment, behind the header. -/
theorem store_eq (h : block.Held m s) {offset : Nat} {bytes : Array UInt8}
    (hsize : 0 < bytes.size) (hrange : offset + bytes.size ≤ block.bytes.toNat) :
    s.store (block.address + offset) bytes =
      { s with kernel := s.kernel.overwrite m.segment (Page.headerLength + offset) bytes } := by
  have hoffset : offset < block.bytes.toNat := by omega
  simp only [Site.store, h.resolve?_eq hoffset]
  rfl

end Block.Held
end StagingMemory
