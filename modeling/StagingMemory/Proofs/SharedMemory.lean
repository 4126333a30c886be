import StagingMemory.Proofs.Payload
/-!
One memory for all who share a segment. Members allocate and release blocks, anybody changes headers
as they like, and who holds a block writes to it; a history lists the segments that were created,
opened and written to. Main statement: what a block shows is what was last written through any block
of its segment, whoever wrote and whatever has become of the segment's name meanwhile, and no use of
the memory reaches further than it should (`Machine.memory_shared`).
-/
namespace StagingMemory

/-! ### How a call comes by its segment -/

def Call.opens? : Call → Stage → Option SegmentId
  | attach _ (.find _), .calling (.attach _ (.measure _ id)) => some id
  | _, _ => none

theorem Call.bound_of_opens? {c : Call} {s : Site} {id : SegmentId}
    (h : c.opens? (.after (c.step s).1) = some id) :
    ∃ a w, c = .attach a (.find w) ∧ s.kernel.names.get? a.config.segment = some id := by
  unfold opens? at h
  split at h
  case h_1 a w b v j hafter =>
    cases h
    obtain ⟨phase, heq, ht⟩ := Call.attach_of_step (Stage.after_eq_calling hafter)
    cases heq
    refine ⟨a, w, rfl, ?_⟩
    generalize (step (.attach a (.find w)) s).2 = t at ht
    cases ht with
    | found hopen => exact Site.names_of_openSegment hopen
  case h_2 => cases h

/-- The segment that the call is to share: a leader's is the one that it has created, not a
leftover. -/
def Attach.own? : Attach.Phase → Option SegmentId
  | .measureLeftover _ | .mapLeftover _ | .checkLeftover _ | .retireLeftover _ => none
  | phase => segment? phase

def Stage.own? (s : Site) : Stage → Option SegmentId
  | calling (.attach _ phase) => Attach.own? phase
  | stage => stage.segment? s

theorem Stage.segment?_of_own? {stage : Stage} {s : Site} {id : SegmentId}
    (h : stage.own? s = some id) : stage.segment? s = some id := by
  cases stage with
  | idle | holding | halted => exact h
  | calling c =>
    cases c with
    | detach => exact h
    | attach a phase => cases phase <;> first | exact h | cases h

namespace Attach.Transition

variable {a : Attach} {phase : Phase} {s t : Site} {progress : Progress Phase Result}

/-- A leader's call comes by its segment when it creates it, a follower's when it finds it. -/
theorem own_cases (h : Transition a phase s progress t) (hsuits : a.Suits phase)
    (hplaced : ∀ m, mapping? phase = some m → m.Placed s.process.space) {id : SegmentId}
    (hid : (Stage.after (progress.map (.attach a) .ofResult)).own? t = some id) :
    own? phase = some id ∨
      (a.config.isLeader = true ∧ (Call.attach a phase).creates?
        (.after (progress.map (.attach a) .ofResult)) = some id) ∨
      a.config.isLeader = false ∧ (Call.attach a phase).opens?
        (.after (progress.map (.attach a) .ofResult)) = some id := by
  cases h with
  | created => exact Or.inr (Or.inl ⟨hsuits, hid⟩)
  | found => exact Or.inr (Or.inr ⟨hsuits, hid⟩)
  | mapped h | foundMapped h =>
    cases hid
    rw [(Site.mapped_of_mapSegment h).1]
    exact Or.inl rfl
  | @finished _ m _ p h =>
    obtain ⟨hbooked, ho⟩ := succeeded_spec h
    have hspace := Memory.AddressSpace.Relocked.of_eq hbooked.space_eq
    split at ho
    · subst ho
      have hm := ((hplaced m rfl).relocked hspace).mappingOf?_eq (s := ⟨s.kernel, p⟩) hsuits
      simp only [Progress.map, Outcome.map, Reply.ofResult, Stage.after, Stage.own?,
        Stage.segment?, Stage.mapping?, hm] at hid
      exact Or.inl hid
    · subst ho
      cases hid
  | failed h =>
    rcases (failed_spec h).2 with rfl | ⟨_, _, _, rfl⟩ <;> cases hid
  | registered => split at hid <;> exact Or.inl hid
  | _ => first | exact Or.inl hid | cases hid

end Attach.Transition

theorem Call.own_cases (c : Call) {s : Site} {config : SharingConfig}
    (hsuits : (Stage.calling c).Suits config s)
    (hplaced : ∀ m, c.mapping? s = some m → m.Placed s.process.space) {id : SegmentId}
    (hid : (Stage.after (c.step s).1).own? (c.step s).2 = some id) :
    (Stage.calling c).own? s = some id ∨
      (config.isLeader = true ∧ c.creates? (.after (c.step s).1) = some id) ∨
      config.isLeader = false ∧ c.opens? (.after (c.step s).1) = some id := by
  cases c with
  | attach a phase =>
    obtain ⟨rfl, hsuits⟩ := hsuits
    exact (a.step_transition phase s).own_cases hsuits hplaced hid
  | detach d phase =>
    exact Or.inl ((d.step_transition phase s).segment_before (Stage.segment?_of_own? hid))

namespace Machine

/-! ### Uses of the memory -/

inductive Event (ι : Type v) where
  | created (i : ι) (id : SegmentId)
  | opened (i : ι) (id : SegmentId)
  /-- The member wrote to its block, whose segment this is, from an offset on. -/
  | wrote (i : ι) (id : SegmentId) (offset : Nat) (bytes : Array UInt8)

/-- The byte last written at an offset of a segment's payload since the segment was created, or else
zero. The history lists the newest event first. -/
def lastWritten {ι : Type v} : List (Event ι) → SegmentId → Nat → UInt8
  | [], _, _ => 0
  | .created _ j :: earlier, id, offset => if j = id then 0 else lastWritten earlier id offset
  | .opened _ _ :: earlier, id, offset => lastWritten earlier id offset
  | .wrote _ j start bytes :: earlier, id, offset =>
    if j = id ∧ start ≤ offset ∧ offset < start + bytes.size then bytes[offset - start]?.getD 0
    else lastWritten earlier id offset

section

variable {κ : Type u} {ι : Type v}

def event? (next : Machine κ ι) (access : Option (Access ι)) : Option (Event ι) :=
  access.bind fun x =>
    ((x.call.creates? (next.stage x.member)).map (.created x.member)).or
      ((x.call.opens? (next.stage x.member)).map (.opened x.member))

def modifyHeader (m : Machine κ ι) (id : SegmentId) (change : Header → Header) : Machine κ ι :=
  { m with kernel := m.kernel.modifyHeader id change }

def write [DecidableEq κ] (m : Machine κ ι) (home : κ) (address : Nat) (bytes : Array UInt8) :
    Machine κ ι :=
  { m with
    kernel := ((m.site home).store address bytes).kernel
    process := Function.update m.process home ((m.site home).store address bytes).process }

variable [DecidableEq κ] [DecidableEq ι]

/-- One use of the memory, and its event: a step of the machine, any change of a header, or a write
of some bytes within a block that a member holds. -/
inductive Use (roster : ι → Member κ) : Machine κ ι → Option (Event ι) → Machine κ ι → Prop
  | step {m next : Machine κ ι} {access : Option (Access ι)} (h : Step roster m access next) :
      Use roster m (next.event? access) next
  | header {m : Machine κ ι} (id : SegmentId) (change : Header → Header) :
      Use roster m none (m.modifyHeader id change)
  | write {m : Machine κ ι} (i : ι) (block : Block) (id : SegmentId) (offset : Nat)
      (bytes : Array UInt8) (hholding : m.stage i = .holding block)
      (hid : m.segment? roster i = some id) (hsize : 0 < bytes.size)
      (hrange : offset + bytes.size ≤ block.bytes.toNat) :
      Use roster m (some (.wrote i id offset bytes))
        (m.write (roster i).home (block.address + offset) bytes)

/-- Any uses one after the other, through machines that satisfy `Allowed`; their events are listed
newest first. -/
inductive Usage (roster : ι → Member κ) (Allowed : Machine κ ι → Prop) (m₀ : Machine κ ι) :
    List (Event ι) → Machine κ ι → Prop
  | start (h : Allowed m₀) : Usage roster Allowed m₀ [] m₀
  | use {history : List (Event ι)} {m next : Machine κ ι} {event : Option (Event ι)}
      (husage : Usage roster Allowed m₀ history m) (huse : Use roster m event next)
      (h : Allowed next) : Usage roster Allowed m₀ (event.toList ++ history) next

def attachment (roster : ι → Member κ) (i : ι) (id : SegmentId) : Event ι :=
  if (roster i).config.isLeader then .created i id else .opened i id

/-- In the use that led from `old` to `new` the member came by the segment; since then it has not
come by another, nor has it been idle. -/
def Attached (roster : ι → Member κ) (m₀ : Machine κ ι) (history : List (Event ι))
    (m : Machine κ ι) (i : ι) (id : SegmentId) (before : List (Event ι)) (old new : Machine κ ι) :
    Prop :=
  Usage roster (fun _ => True) m₀ before old ∧ Use roster old (some (attachment roster i id)) new ∧
    ∃ after, Usage roster (fun m => m.stage i ≠ .idle) new after m ∧
      history = after ++ attachment roster i id :: before ∧
      ∀ other, attachment roster i other ∉ after

end

section

variable {κ : Type u} {ι : Type v}

def own? (m : Machine κ ι) (roster : ι → Member κ) (i : ι) : Option SegmentId :=
  (m.stage i).own? (m.site (roster i).home)

variable {roster : ι → Member κ} {m next : Machine κ ι} {access : Option (Access ι)}

theorem own?_stays {j : ι} (hstage : next.stage j = m.stage j)
    (hmapping : next.mapping? roster j = m.mapping? roster j) :
    next.own? roster j = m.own? roster j := by
  have hsegment := segment?_stays hstage hmapping
  simp only [own?, segment?] at hsegment ⊢
  rw [hstage] at hsegment ⊢
  cases hs : m.stage j with
  | idle | holding | halted =>
    rw [hs] at hsegment
    exact hsegment
  | calling c =>
    cases c with
    | attach => rfl
    | detach =>
      rw [hs] at hsegment
      exact hsegment

/-! ### Events of steps -/

theorem event?_cases {event : Event ι} (h : next.event? access = some event) :
    (∃ i c id, access = some ⟨i, c⟩ ∧ c.creates? (next.stage i) = some id ∧
      event = .created i id) ∨
    ∃ i c id, access = some ⟨i, c⟩ ∧ c.opens? (next.stage i) = some id ∧ event = .opened i id := by
  obtain ⟨⟨i, c⟩, rfl, h⟩ := Option.bind_eq_some_iff.mp h
  rcases Option.or_eq_some_iff.mp h with h | ⟨-, h⟩
  · obtain ⟨id, hid, rfl⟩ := Option.map_eq_some_iff.mp h
    exact Or.inl ⟨i, c, id, rfl, hid, rfl⟩
  · obtain ⟨id, hid, rfl⟩ := Option.map_eq_some_iff.mp h
    exact Or.inr ⟨i, c, id, rfl, hid, rfl⟩

variable [DecidableEq κ] [DecidableEq ι]

/-- Who creates a segment is a leader, and binds its name. -/
theorem created_of_event (hsound : m.Sound roster) (hstep : Step roster m access next) {i : ι}
    {id : SegmentId} (h : next.event? access = some (.created i id)) :
    (roster i).config.isLeader = true ∧ m.own? roster i = none ∧
      m.kernel.Created (roster i).config.segment id next.kernel := by
  rcases event?_cases h with ⟨j, c, id', rfl, hcreates, heq⟩ | ⟨j, c, id', -, -, heq⟩
  · cases heq
    have hcalling := stage_of_step hstep
    have hsuits := hsound.suits i
    rw [stage_after_step hstep] at hcreates
    obtain ⟨a, rfl, -, hcreated⟩ := Call.created_of_creates? hcreates
    rw [hcalling] at hsuits
    obtain ⟨hconfig, hrole⟩ := hsuits
    refine ⟨hconfig ▸ hrole, ?_, ?_⟩
    · rw [own?, hcalling]
      rfl
    · rw [kernel_of_access hstep, ← hconfig]
      exact hcreated
  · cases heq

/-- Who opens a segment is a follower, and finds it under its name. -/
theorem bound_of_event (hsound : m.Sound roster) (hstep : Step roster m access next) {i : ι}
    {id : SegmentId} (h : next.event? access = some (.opened i id)) :
    (roster i).config.isLeader = false ∧ m.own? roster i = none ∧
      m.kernel.names.get? (roster i).config.segment = some id := by
  rcases event?_cases h with ⟨j, c, id', -, -, heq⟩ | ⟨j, c, id', rfl, hopens, heq⟩
  · cases heq
  · cases heq
    have hcalling := stage_of_step hstep
    have hsuits := hsound.suits i
    rw [stage_after_step hstep] at hopens
    obtain ⟨a, w, rfl, hbound⟩ := Call.bound_of_opens? hopens
    rw [hcalling] at hsuits
    obtain ⟨hconfig, hrole⟩ := hsuits
    refine ⟨hconfig ▸ hrole, ?_, hconfig ▸ hbound⟩
    rw [own?, hcalling]
    rfl

/-- Who comes by a segment had none before. -/
theorem own?_of_event (hsound : m.Sound roster) (hstep : Step roster m access next) {i : ι}
    {id : SegmentId} (h : next.event? access = some (attachment roster i id)) :
    m.own? roster i = none := by
  unfold attachment at h
  split at h
  · exact (created_of_event hsound hstep h).2.1
  · exact (bound_of_event hsound hstep h).2.1

/-- What a member shares after a step it shared before, or the step's event is that it came by
it. -/
theorem own_before (hsound : m.Sound roster) (hstep : Step roster m access next) {i : ι}
    {id : SegmentId} (hid : next.own? roster i = some id) :
    m.own? roster i = some id ∨ next.event? access = some (attachment roster i id) := by
  rcases acts_cases hsound hstep i with
    ⟨hstage, hmapping⟩ | ⟨bytes, hidle, rfl⟩ | ⟨block, hholding, rfl⟩ | ⟨c, rfl, hcalling, rfl⟩
  · exact Or.inl ((own?_stays hstage hmapping).symm.trans hid)
  · rw [own?, stage_settle_self, site_settle_self] at hid
    rcases (roster i).beginAllocate_spec bytes (m.site (roster i).home) with
      ⟨phase, hfirst, heq⟩ | ⟨o, heq, hafter⟩
    · rw [heq] at hid
      cases hfirst <;> cases hid
    · rw [heq, hafter] at hid
      cases hid
  · rw [own?, stage_settle_self, site_settle_self] at hid
    rw [own?, hholding]
    exact Or.inl hid
  · have hsuits := hsound.suits i
    have hplaced := hsound.placed i
    rw [own?, stage_settle_self, site_settle_self] at hid
    simp only [mapping?, own?, hcalling] at hsuits hplaced ⊢
    rcases c.own_cases hsuits hplaced hid with hown | ⟨hrole, hcreates⟩ | ⟨hrole, hopens⟩
    · exact Or.inl hown
    · right
      simp [event?, attachment, hrole, hcreates]
    · right
      have hcreates : c.creates? (.after (c.step (m.site (roster i).home)).1) = none := by
        obtain ⟨a, w, rfl, -⟩ := Call.bound_of_opens? hopens
        rfl
      simp [event?, attachment, hrole, hcreates, hopens]

/-- A name bound after a step was bound before, or the step's event is that somebody has created the
segment under it. -/
theorem bound_before (hsound : m.Sound roster) (hstep : Step roster m access next)
    {name : SegmentName} {id : SegmentId} (hbound : next.kernel.names.get? name = some id) :
    m.kernel.names.get? name = some id ∨
      ∃ i, next.event? access = some (.created i id) ∧ (roster i).config.segment = name := by
  cases access with
  | none =>
    rcases names_before hstep hbound with h | ⟨_, _, haccess, -⟩
    · exact Or.inl h
    · cases haccess
  | some x =>
    obtain ⟨i, c⟩ := x
    have hsuits := hsound.suits i
    rw [stage_of_step hstep] at hsuits
    rw [kernel_of_access hstep] at hbound
    cases c.names_step (m.site (roster i).home) with
    | keeps hnames => exact Or.inl ((hnames name).symm.trans hbound)
    | @binds a new hc hnext hcreated =>
      rw [hcreated.names_eq] at hbound
      split at hbound
      case isTrue heq =>
        cases hbound
        subst hc
        refine Or.inr ⟨i, ?_, ?_⟩
        · simp [event?, stage_after_step hstep, hnext, Stage.after, Call.creates?]
        · rw [← Call.config_eq hsuits]
          exact heq.symm
      case isFalse => exact Or.inl hbound
    | unbinds _ hnames =>
      rw [hnames] at hbound
      split at hbound
      · cases hbound
      · exact Or.inl hbound

end

/-! ### What a use is -/

section

variable {κ : Type u} {ι : Type v}

/-- What every use needs and keeps: mappings are in place, blocks lie behind headers, and segments
about to be given their length are empty. -/
structure Intact (m : Machine κ ι) (roster : ι → Member κ) : Prop where
  sound : m.Sound roster
  behind : ∀ i block, m.stage i = .holding block → Page.headerLength ≤ block.address
  unsized : m.Unsized

structure Touched (m next : Machine κ ι) : Prop where
  stage_eq : next.stage = m.stage
  process_eq : next.process = m.process
  names_eq : next.kernel.names = m.kernel.names
  segments_length_eq : next.kernel.segments.length = m.kernel.segments.length
  segmentLength_eq : ∀ id, next.kernel.segmentLength id = m.kernel.segmentLength id

variable {roster : ι → Member κ} {m next : Machine κ ι}

theorem touched_modifySegment (m : Machine κ ι) (id : SegmentId) {f : Segment → Segment}
    (hf : ∀ s, (f s).length = s.length) :
    m.Touched { m with kernel := m.kernel.modifySegment id f } where
  stage_eq := rfl
  process_eq := rfl
  names_eq := rfl
  segments_length_eq := List.length_modify ..
  segmentLength_eq := Kernel.segmentLength_modifySegment_of_eq hf

theorem Touched.mapping?_eq (h : m.Touched next) (hsound : m.Sound roster) (i : ι) :
    next.mapping? roster i = m.mapping? roster i := by
  refine mapping?_stays hsound (congrFun h.stage_eq i) fun mapping hmapping => ?_
  rw [h.process_eq]
  exact hsound.placed i mapping hmapping

theorem Touched.segment?_eq (h : m.Touched next) (hsound : m.Sound roster) (i : ι) :
    next.segment? roster i = m.segment? roster i :=
  segment?_stays (congrFun h.stage_eq i) (h.mapping?_eq hsound i)

theorem own?_of_holding {i : ι} {block : Block} (hholding : m.stage i = .holding block) :
    m.own? roster i = m.segment? roster i := by
  rw [own?, segment?, hholding]
  rfl

theorem Touched.intact (h : m.Touched next) (hintact : m.Intact roster) : next.Intact roster where
  sound := by
    refine hintact.sound.stays h.stage_eq (Nat.le_of_eq h.segments_length_eq.symm) ?_
    intro i mapping hmapping
    rw [h.process_eq]
    exact hintact.sound.placed i mapping hmapping
  behind := by
    rw [h.stage_eq]
    exact hintact.behind
  unsized := hintact.unsized.frame h.stage_eq h.segmentLength_eq

/-- What a member holds is there, on the segment that it shares. -/
theorem Intact.held (h : m.Intact roster) {i : ι} {block : Block}
    (hholding : m.stage i = .holding block) :
    ∃ mapping, m.segment? roster i = some mapping.segment ∧
      block.Held mapping (m.site (roster i).home) := by
  obtain ⟨mapping, -, hheld⟩ := h.sound.held hholding (h.behind i block hholding)
  refine ⟨mapping, ?_, hheld⟩
  rw [segment?, hholding]
  simp only [Stage.segment?, Stage.mapping?, hheld.mappingOf?_eq, Option.map_some]

/-- A write within a block goes to the segment that the member shares. -/
theorem Intact.write_eq [DecidableEq κ] (h : m.Intact roster) {i : ι} {block : Block}
    (hholding : m.stage i = .holding block) {id : SegmentId} (hid : m.segment? roster i = some id)
    {offset : Nat} {bytes : Array UInt8} (hsize : 0 < bytes.size)
    (hrange : offset + bytes.size ≤ block.bytes.toNat) :
    id < m.kernel.segments.length ∧
      m.write (roster i).home (block.address + offset) bytes =
        { m with kernel := m.kernel.overwrite id (Page.headerLength + offset) bytes } := by
  obtain ⟨mapping, hsegment, hheld⟩ := h.held hholding
  cases hid.symm.trans hsegment
  refine ⟨hheld.known, ?_⟩
  rw [write, hheld.store_eq hsize hrange]
  simp only [site, Function.update_eq_self]

theorem intact_of_idle (hidle : ∀ i, m.stage i = .idle) : m.Intact roster where
  sound := sound_of_idle hidle
  behind := by
    intro i block hholding
    rw [hidle i] at hholding
    cases hholding
  unsized := unsized_of_idle hidle

variable [DecidableEq κ] [DecidableEq ι] {access : Option (Access ι)} {event : Option (Event ι)}

theorem Intact.step (h : m.Intact roster) (hstep : Step roster m access next) :
    next.Intact roster where
  sound := sound_step h.sound hstep
  behind := by
    intro i block hholding
    rcases holding_before hstep hholding with hbefore | ⟨c, -, hdone⟩
    · exact h.behind i block hbefore
    · exact c.headerLength_le_of_step hdone
  unsized := h.unsized.step h.sound hstep

/-- A use is a step of the machine, or it changes what segments hold: their headers, or the bytes of
one payload. -/
theorem Use.cases (h : m.Intact roster) (huse : Use roster m event next) :
    (∃ access, Step roster m access next ∧ event = next.event? access) ∨
    (m.Touched next ∧ event = none ∧
      ∀ id, next.kernel.contents id = m.kernel.contents id) ∨
    ∃ i id offset bytes, m.Touched next ∧ event = some (.wrote i id offset bytes) ∧
      id < m.kernel.segments.length ∧
      next.kernel = m.kernel.overwrite id (Page.headerLength + offset) bytes := by
  cases huse with
  | step hstep => exact Or.inl ⟨_, hstep, rfl⟩
  | header id change =>
    exact Or.inr (Or.inl ⟨m.touched_modifySegment id fun _ => rfl, rfl, fun j =>
      m.kernel.contents_modifyHeader id j change⟩)
  | write i block id offset bytes hholding hid hsize hrange =>
    obtain ⟨hlt, hwrite⟩ := h.write_eq hholding hid hsize hrange
    rw [hwrite]
    exact Or.inr (Or.inr ⟨i, id, offset, bytes, m.touched_modifySegment id fun _ => rfl, rfl, hlt,
      rfl⟩)

theorem Intact.use (h : m.Intact roster) (huse : Use roster m event next) :
    next.Intact roster := by
  rcases Use.cases h huse with ⟨access, hstep, -⟩ | ⟨htouched, -⟩ | ⟨_, _, _, _, htouched, -⟩
  · exact h.step hstep
  · exact htouched.intact h
  · exact htouched.intact h

/-- A segment is created in a step of the machine. -/
theorem created_of_use (h : m.Intact roster) {i : ι} {id : SegmentId}
    (huse : Use roster m (some (.created i id)) next) :
    m.kernel.Created (roster i).config.segment id next.kernel := by
  rcases Use.cases h huse with ⟨access, hstep, hevent⟩ | ⟨-, hevent, -⟩ | ⟨_, _, _, _, -, hevent, -⟩
  · exact (created_of_event h.sound hstep hevent.symm).2.2
  · cases hevent
  · cases hevent

/-- A segment is opened in a step of the machine. -/
theorem bound_of_use (h : m.Intact roster) {i : ι} {id : SegmentId}
    (huse : Use roster m (some (.opened i id)) next) :
    m.kernel.names.get? (roster i).config.segment = some id := by
  rcases Use.cases h huse with ⟨access, hstep, hevent⟩ | ⟨-, hevent, -⟩ | ⟨_, _, _, _, -, hevent, -⟩
  · exact (bound_of_event h.sound hstep hevent.symm).2.2
  · cases hevent
  · cases hevent

/-- A write is no step of the machine. -/
theorem overwrites_of_use (h : m.Intact roster) {i : ι} {id : SegmentId} {offset : Nat}
    {bytes : Array UInt8} (huse : Use roster m (some (.wrote i id offset bytes)) next) :
    m.Touched next ∧ id < m.kernel.segments.length ∧
      next.kernel = m.kernel.overwrite id (Page.headerLength + offset) bytes := by
  rcases Use.cases h huse with ⟨access, -, hevent⟩ | ⟨-, hevent, -⟩ |
    ⟨_, _, _, _, htouched, hevent, hlt, hkernel⟩
  · rcases event?_cases hevent.symm with ⟨_, _, _, -, -, heq⟩ | ⟨_, _, _, -, -, heq⟩ <;> cases heq
  · cases hevent
  · cases hevent
    exact ⟨htouched, hlt, hkernel⟩

/-- Who goes on holding a block goes on sharing its segment. -/
theorem Intact.segment?_eq (h : m.Intact roster) (huse : Use roster m event next) {i : ι}
    {block : Block} (hholding : m.stage i = .holding block)
    (hnext : next.stage i = .holding block) : next.segment? roster i = m.segment? roster i := by
  rcases Use.cases h huse with ⟨access, hstep, -⟩ | ⟨htouched, -⟩ | ⟨_, _, _, _, htouched, -⟩
  · obtain ⟨mapping, hsegment, -⟩ := (h.use huse).held hnext
    obtain ⟨mapping', hsegment', -⟩ := h.held hholding
    rw [← own?_of_holding hnext] at hsegment
    rw [← own?_of_holding hholding] at hsegment'
    rw [← own?_of_holding hnext, ← own?_of_holding hholding]
    rcases own_before h.sound hstep hsegment with hown | hevent
    · rw [hsegment, hown]
    · rw [own?_of_event h.sound hstep hevent] at hsegment'
      cases hsegment'
  · exact htouched.segment?_eq h.sound i
  · exact htouched.segment?_eq h.sound i

end

/-! ### What the history tells -/

section

variable {κ : Type u} {ι : Type v}

/-- The segments and names agree with the history: every segment created in it exists and was
created once, a bound name is bound to the last one created under it, and behind the header stands
what was last written. -/
structure Recorded (m : Machine κ ι) (roster : ι → Member κ) (history : List (Event ι)) : Prop where
  known : ∀ i id, .created i id ∈ history → id < m.kernel.segments.length
  sole : ∀ i j id, .created i id ∈ history → .created j id ∈ history → i = j
  bound : ∀ name id, m.kernel.names.get? name = some id →
    (∃ i, (roster i).config.isLeader = true ∧ (roster i).config.segment = name ∧
      .created i id ∈ history) ∧
    ∀ i other, (roster i).config.segment = name → .created i other ∈ history → other ≤ id
  written : ∀ i id, .created i id ∈ history → ∀ offset,
    (m.kernel.contents id).byteAt (Page.headerLength + offset) = lastWritten history id offset

theorem recorded_of_unbound {m : Machine κ ι} {roster : ι → Member κ}
    (hfree : ∀ name, m.kernel.names.get? name = none) : m.Recorded roster [] where
  known := by simp
  sole := by simp
  bound := by
    intro name id hbound
    rw [hfree] at hbound
    cases hbound
  written := by simp

theorem mem_toList_append {event : Option (Event ι)} {history : List (Event ι)} {e : Event ι} :
    e ∈ event.toList ++ history ↔ event = some e ∨ e ∈ history := by
  rw [List.mem_append, Option.mem_toList]

variable {roster : ι → Member κ} {m next : Machine κ ι} {history : List (Event ι)}
  {event : Option (Event ι)}

namespace Recorded

/-- The history goes on agreeing as long as nothing is created, and written only what it tells. -/
theorem rest (h : m.Recorded roster history)
    (hcreated : ∀ i id, event ≠ some (.created i id))
    (hlength : m.kernel.segments.length ≤ next.kernel.segments.length)
    (hnames : ∀ name id, next.kernel.names.get? name = some id →
      m.kernel.names.get? name = some id)
    (hwritten : ∀ id offset,
      (m.kernel.contents id).byteAt (Page.headerLength + offset) = lastWritten history id offset →
      (next.kernel.contents id).byteAt (Page.headerLength + offset) =
        lastWritten (event.toList ++ history) id offset) :
    next.Recorded roster (event.toList ++ history) := by
  have hbefore : ∀ i id, .created i id ∈ event.toList ++ history → .created i id ∈ history :=
    fun i id hi => (mem_toList_append.mp hi).resolve_left (hcreated i id)
  refine ⟨?_, ?_, ?_, ?_⟩
  · intro i id hi
    exact Nat.lt_of_lt_of_le (h.known i id (hbefore i id hi)) hlength
  · intro i j id hi hj
    exact h.sole i j id (hbefore i id hi) (hbefore j id hj)
  · intro name id hbound
    obtain ⟨⟨i, hrole, hname, hi⟩, hlast⟩ := h.bound name id (hnames name id hbound)
    refine ⟨⟨i, hrole, hname, List.mem_append_right _ hi⟩, ?_⟩
    intro j other hother hj
    exact hlast j other hother (hbefore j other hj)
  · intro i id hi offset
    exact hwritten id offset (h.written i id (hbefore i id hi) offset)

theorem touch (h : m.Recorded roster history) (htouched : m.Touched next)
    (hcreated : ∀ i id, event ≠ some (.created i id))
    (hwritten : ∀ id offset,
      (m.kernel.contents id).byteAt (Page.headerLength + offset) = lastWritten history id offset →
      (next.kernel.contents id).byteAt (Page.headerLength + offset) =
        lastWritten (event.toList ++ history) id offset) :
    next.Recorded roster (event.toList ++ history) := by
  refine h.rest hcreated (Nat.le_of_eq htouched.segments_length_eq.symm) ?_ hwritten
  intro name id hbound
  rw [← htouched.names_eq]
  exact hbound

/-- Whoever creates a segment is the only one to have created it, and it holds zeros. -/
theorem create (h : m.Recorded roster history) {i : ι} {id : SegmentId}
    (hrole : (roster i).config.isLeader = true)
    (hcreated : m.kernel.Created (roster i).config.segment id next.kernel)
    (hcontents : ∀ j, next.kernel.contents j = m.kernel.contents j) :
    next.Recorded roster (.created i id :: history) := by
  have hold : ∀ j other, .created j other ∈ history → other < id := by
    intro j other hj
    rw [hcreated.id_eq]
    exact h.known j other hj
  have hnew : ∀ j, .created j id ∉ history := fun j hj => Nat.lt_irrefl id (hold j id hj)
  refine ⟨?_, ?_, ?_, ?_⟩
  · intro j other hj
    rw [hcreated.length_eq]
    rcases List.mem_cons.mp hj with heq | hj
    · cases heq
      exact Nat.lt_succ_self _
    · exact Nat.lt_succ_of_lt (hold j other hj)
  · intro j l other hj hl
    rcases List.mem_cons.mp hj with heq | hj <;> rcases List.mem_cons.mp hl with heq' | hl
    · cases heq
      cases heq'
      rfl
    · cases heq
      exact absurd hl (hnew l)
    · cases heq'
      exact absurd hj (hnew j)
    · exact h.sole j l other hj hl
  · intro name other hbound
    rw [hcreated.names_eq] at hbound
    split at hbound
    case isTrue heq =>
      cases hbound
      refine ⟨⟨i, hrole, heq.symm, List.mem_cons_self⟩, ?_⟩
      intro j other _ hj
      rcases List.mem_cons.mp hj with heq | hj
      · cases heq
        exact Nat.le_refl _
      · exact Nat.le_of_lt (hold j other hj)
    case isFalse hne =>
      obtain ⟨⟨j, hrole, hname, hj⟩, hlast⟩ := h.bound name other hbound
      refine ⟨⟨j, hrole, hname, List.mem_cons_of_mem _ hj⟩, ?_⟩
      intro l another hname hl
      rcases List.mem_cons.mp hl with heq | hl
      · cases heq
        exact absurd hname.symm hne
      · exact hlast l another hname hl
  · intro j other hj offset
    rw [hcontents]
    rcases List.mem_cons.mp hj with heq | hj
    · cases heq
      rw [Kernel.contents_of_le hcreated.length_le, lastWritten, if_pos rfl]
      rfl
    · have hne : id ≠ other := by
        intro heq
        subst heq
        exact hnew j hj
      rw [lastWritten, if_neg hne]
      exact h.written j other hj offset

variable [DecidableEq κ] [DecidableEq ι]

theorem step (h : m.Recorded roster history) (hintact : m.Intact roster)
    {access : Option (Access ι)} (hstep : Step roster m access next) :
    next.Recorded roster ((next.event? access).toList ++ history) := by
  have hcontents := contents_of_step hintact.unsized hstep
  by_cases hcreates : ∃ i id, next.event? access = some (.created i id)
  · obtain ⟨i, id, hevent⟩ := hcreates
    obtain ⟨hrole, -, hcreated⟩ := created_of_event hintact.sound hstep hevent
    rw [hevent]
    exact h.create hrole hcreated hcontents
  · refine h.rest (fun i id hevent => hcreates ⟨i, id, hevent⟩) (segments_length_le hstep) ?_ ?_
    · intro name id hbound
      refine (bound_before hintact.sound hstep hbound).resolve_right ?_
      rintro ⟨i, hevent, -⟩
      exact hcreates ⟨i, id, hevent⟩
    · intro id offset hwritten
      rw [hcontents, hwritten]
      cases hevent : next.event? access with
      | none => rfl
      | some e =>
        rcases event?_cases hevent with ⟨i, c, j, -, -, rfl⟩ | ⟨i, c, j, -, -, rfl⟩
        · exact absurd ⟨i, j, hevent⟩ hcreates
        · rfl

/-- What is written is what the history tells. -/
theorem use (h : m.Recorded roster history) (hintact : m.Intact roster)
    (huse : Use roster m event next) : next.Recorded roster (event.toList ++ history) := by
  rcases Use.cases hintact huse with ⟨access, hstep, rfl⟩ | ⟨htouched, rfl, hcontents⟩ |
    ⟨i, id, start, bytes, htouched, rfl, hlt, hkernel⟩
  · exact h.step hintact hstep
  · refine h.touch htouched (by simp) fun j offset hwritten => ?_
    rw [hcontents]
    exact hwritten
  · refine h.touch htouched (by simp) fun j offset hwritten => ?_
    rw [hkernel, Kernel.contents_overwrite hlt, Option.toList_some, List.singleton_append,
      lastWritten]
    by_cases hj : id = j
    · rw [if_pos hj, Memory.Contents.byteAt_write, hwritten, Nat.add_sub_add_left]
      simp only [hj, true_and, Nat.add_le_add_iff_left, Nat.add_assoc, Nat.add_lt_add_iff_left]
    · rw [if_neg hj, if_neg (fun hin => hj hin.1)]
      exact hwritten

end Recorded

/-! ### Runs of uses -/

variable [DecidableEq κ] [DecidableEq ι] {m₀ : Machine κ ι} {Allowed : Machine κ ι → Prop}

theorem intact_of_usage (husage : Usage roster Allowed m₀ history m)
    (hidle : ∀ i, m₀.stage i = .idle) : m.Intact roster := by
  induction husage with
  | start => exact intact_of_idle hidle
  | use _ huse _ ih => exact ih.use huse

theorem recorded_of_usage (husage : Usage roster Allowed m₀ history m)
    (hidle : ∀ i, m₀.stage i = .idle) (hfree : ∀ name, m₀.kernel.names.get? name = none) :
    m.Recorded roster history := by
  induction husage with
  | start => exact recorded_of_unbound hfree
  | use husage huse _ ih => exact ih.use (intact_of_usage husage hidle) huse

/-- A member that shares a segment came by it in one use, and has kept it since. -/
theorem attached_of_usage (husage : Usage roster (fun _ => True) m₀ history m)
    (hidle : ∀ i, m₀.stage i = .idle) {i : ι} {id : SegmentId} (hid : m.own? roster i = some id) :
    ∃ before old new, Attached roster m₀ history m i id before old new := by
  have hbusy : ∀ {m : Machine κ ι}, m.own? roster i = some id → m.stage i ≠ .idle := by
    intro m hid hstage
    rw [own?, hstage] at hid
    cases hid
  induction husage with
  | start => exact absurd (hidle i) (hbusy hid)
  | @use history m next event husage huse _ ih =>
    have hintact := intact_of_usage husage hidle
    have hextend : m.own? roster i = some id →
        (∀ other, event ≠ some (attachment roster i other)) →
        ∃ before old new,
          Attached roster m₀ (event.toList ++ history) next i id before old new := by
      intro hown hother
      obtain ⟨before, old, new, hbefore, hattaches, after, hafter, rfl, hlast⟩ := ih hown
      refine ⟨before, old, new, hbefore, hattaches, event.toList ++ after,
        .use hafter huse (hbusy hid), (List.append_assoc ..).symm, ?_⟩
      intro other hmem
      rcases mem_toList_append.mp hmem with h | h
      · exact hother other h
      · exact hlast other h
    have htouch : m.Touched next → m.own? roster i = some id := by
      intro htouched
      rw [← hid]
      exact (own?_stays (congrFun htouched.stage_eq i)
        (htouched.mapping?_eq hintact.sound i)).symm
    rcases Use.cases hintact huse with ⟨access, hstep, rfl⟩ | ⟨htouched, rfl, -⟩ |
      ⟨j, other, start, bytes, htouched, rfl, -, -⟩
    · rcases own_before hintact.sound hstep hid with hown | hevent
      · refine hextend hown fun other hevent => ?_
        rw [own?_of_event hintact.sound hstep hevent] at hown
        cases hown
      · rw [hevent] at huse ⊢
        exact ⟨history, m, next, husage, huse, [], .start (hbusy hid), rfl, by simp⟩
    · exact hextend (htouch htouched) (by simp)
    · refine hextend (htouch htouched) fun other => ?_
      unfold attachment
      split <;> simp

/-- What the leader shares whose segment is bound to the name, or is about to share, is that
segment. -/
theorem own_of_bound (husage : Usage roster (fun _ => True) m₀ history m)
    (hidle : ∀ i, m₀.stage i = .idle) (hfree : ∀ name, m₀.kernel.names.get? name = none) {l : ι}
    {id other : SegmentId} (hrole : (roster l).config.isLeader = true)
    (hbound : m.kernel.names.get? (roster l).config.segment = some id)
    (hl : .created l id ∈ history) (hown : m.own? roster l = some other) : other = id := by
  obtain ⟨before, old, new, hbefore, hattaches, after, -, rfl, hlast⟩ :=
    attached_of_usage husage hidle hown
  have hattachment : ∀ id, attachment roster l id = .created l id := fun _ => if_pos hrole
  simp only [hattachment] at hattaches hlast husage hl
  rcases List.mem_append.mp hl with hl | hl
  · exact absurd hl (hlast id)
  · rcases List.mem_cons.mp hl with heq | hl
    · cases heq
      rfl
    · -- What was created before `other` has a lower number, yet the name is bound to the highest.
      have hlt := (recorded_of_usage hbefore hidle hfree).known l id hl
      have hcreated := created_of_use (intact_of_usage hbefore hidle) hattaches
      have hle := ((recorded_of_usage husage hidle hfree).bound _ id hbound).2 l other rfl
        (List.mem_append_right _ List.mem_cons_self)
      rw [← hcreated.id_eq] at hlt
      exact absurd hlt (Nat.not_lt.mpr hle)

/-! ### One memory -/

/-- What the block of a member shows and whom it shares it with. -/
structure Shares (m : Machine κ ι) (roster : ι → Member κ) (m₀ : Machine κ ι)
    (history : List (Event ι)) (i : ι) (block : Block) (id : SegmentId) : Prop where
  segment?_eq : m.segment? roster i = some id
  /-- The block shows, at every offset, what was last written there through any block of the
  segment; that stands behind the segment's header. -/
  load_eq : ∀ offset length, offset + length ≤ block.bytes.toNat →
    (m.site (roster i).home).load (block.address + offset) length =
      (List.range length).map fun k => lastWritten history id (offset + k)
  byteAt_eq : ∀ offset,
    m.kernel.byteAt id (Page.headerLength + offset) = lastWritten history id offset
  /-- A leader shares the segment that it created in this allocation, and bound to its name. -/
  leads : (roster i).config.isLeader = true →
    ∃ before old new, Attached roster m₀ history m i id before old new ∧
      old.kernel.Created (roster i).config.segment id new.kernel
  /-- A follower shares the segment that was bound to the name when it opened it in this allocation.
  That is the segment of one leader alone, which shared it then, or was about to, and nothing
  else. -/
  follows : (roster i).config.isLeader = false →
    ∃ before old new, Attached roster m₀ history m i id before old new ∧
      old.kernel.names.get? (roster i).config.segment = some id ∧
      ∃ leader, (roster leader).config.isLeader = true ∧
        (roster leader).config.segment = (roster i).config.segment ∧
        .created leader id ∈ before ∧ (∀ j, .created j id ∈ history → j = leader) ∧
        ∀ other, old.own? roster leader = some other → other = id

structure Separates (m : Machine κ ι) (roster : ι → Member κ) (event : Option (Event ι))
    (next : Machine κ ι) : Prop where
  /-- Who goes on holding a block goes on sharing its segment. -/
  segment?_eq : ∀ i block, m.stage i = .holding block → next.stage i = .holding block →
    next.segment? roster i = m.segment? roster i
  /-- What is no write changes no payload. -/
  payload_eq : (∀ i id offset bytes, event ≠ some (.wrote i id offset bytes)) → ∀ id offset,
    next.kernel.byteAt id (Page.headerLength + offset) =
      m.kernel.byteAt id (Page.headerLength + offset)
  /-- A write changes no header. -/
  header_eq : ∀ i id offset bytes, event = some (.wrote i id offset bytes) → ∀ j,
    next.kernel.header j = m.kernel.header j ∧
      ∀ place < Page.headerLength, next.kernel.byteAt j place = m.kernel.byteAt j place
  /-- A write does not show in blocks of other segments. -/
  load_eq : ∀ i id offset bytes, event = some (.wrote i id offset bytes) → ∀ j block,
    m.stage j = .holding block → m.segment? roster j ≠ some id → ∀ start length,
      start + length ≤ block.bytes.toNat →
      (next.site (roster j).home).load (block.address + start) length =
        (m.site (roster j).home).load (block.address + start) length

section

variable {i : ι} {id : SegmentId} {before : List (Event ι)} {old new : Machine κ ι}

/-- A leader came by its segment by creating it. -/
theorem Attached.created (h : Attached roster m₀ history m i id before old new)
    (hidle : ∀ i, m₀.stage i = .idle) (hrole : (roster i).config.isLeader = true) :
    old.kernel.Created (roster i).config.segment id new.kernel ∧ .created i id ∈ history := by
  obtain ⟨hbefore, hattaches, after, -, rfl, -⟩ := h
  rw [attachment, if_pos hrole] at hattaches ⊢
  exact ⟨created_of_use (intact_of_usage hbefore hidle) hattaches,
    List.mem_append_right _ List.mem_cons_self⟩

/-- A follower came by its segment by opening it under its name, which one leader had bound to
it. -/
theorem Attached.bound (h : Attached roster m₀ history m i id before old new)
    (hidle : ∀ i, m₀.stage i = .idle) (hfree : ∀ name, m₀.kernel.names.get? name = none)
    (hrole : (roster i).config.isLeader = false) :
    old.kernel.names.get? (roster i).config.segment = some id ∧
      ∃ leader, (roster leader).config.isLeader = true ∧
        (roster leader).config.segment = (roster i).config.segment ∧
        .created leader id ∈ before ∧ .created leader id ∈ history ∧
        ∀ other, old.own? roster leader = some other → other = id := by
  obtain ⟨hbefore, hattaches, after, -, rfl, -⟩ := h
  rw [attachment, if_neg (by simp [hrole])] at hattaches
  have hbound := bound_of_use (intact_of_usage hbefore hidle) hattaches
  obtain ⟨⟨leader, hleader, hname, hcreated⟩, -⟩ :=
    (recorded_of_usage hbefore hidle hfree).bound _ id hbound
  refine ⟨hbound, leader, hleader, hname, hcreated,
    List.mem_append_right _ (List.mem_cons_of_mem _ hcreated), fun other hown => ?_⟩
  rw [← hname] at hbound
  exact own_of_bound hbefore hidle hfree hleader hbound hcreated hown

end

/-- Who holds a block shares its segment, as the history tells. -/
theorem shares_of_usage (husage : Usage roster (fun _ => True) m₀ history m)
    (hidle : ∀ i, m₀.stage i = .idle) (hfree : ∀ name, m₀.kernel.names.get? name = none) {i : ι}
    {block : Block} (hholding : m.stage i = .holding block) :
    ∃ id, m.Shares roster m₀ history i block id := by
  obtain ⟨mapping, hsegment, hheld⟩ := (intact_of_usage husage hidle).held hholding
  obtain ⟨before, old, new, hattached⟩ :=
    attached_of_usage husage hidle ((own?_of_holding hholding).trans hsegment)
  have hrecorded := recorded_of_usage husage hidle hfree
  -- Whichever way the member came by the segment, somebody has created it.
  have hfounded : ∃ leader, .created leader mapping.segment ∈ history := by
    cases hrole : (roster i).config.isLeader with
    | true => exact ⟨i, (hattached.created hidle hrole).2⟩
    | false =>
      obtain ⟨-, leader, -, -, -, hcreated, -⟩ := hattached.bound hidle hfree hrole
      exact ⟨leader, hcreated⟩
  obtain ⟨leader, hcreated⟩ := hfounded
  have hbytes : ∀ offset, m.kernel.byteAt mapping.segment (Page.headerLength + offset) =
      lastWritten history mapping.segment offset := by
    intro offset
    rw [Kernel.byteAt_of_le (Nat.le_add_right _ _)]
    exact hrecorded.written leader _ hcreated offset
  refine ⟨mapping.segment, hsegment, fun offset length hrange => ?_, hbytes, fun hrole => ?_,
    fun hrole => ?_⟩
  · rw [hheld.load_eq hrange]
    exact List.map_congr_left fun k _ => hbytes (offset + k)
  · exact ⟨before, old, new, hattached, (hattached.created hidle hrole).1⟩
  · obtain ⟨hbound, other, hleader, hname, hbefore, hother, honly⟩ :=
      hattached.bound hidle hfree hrole
    exact ⟨before, old, new, hattached, hbound, other, hleader, hname, hbefore,
      fun j hj => hrecorded.sole j other _ hj hother, honly⟩

theorem separates_of_use (h : m.Intact roster) (huse : Use roster m event next) :
    m.Separates roster event next where
  segment?_eq _ _ hholding hnext := h.segment?_eq huse hholding hnext
  payload_eq := by
    intro hquiet id offset
    rw [Kernel.byteAt_of_le (Nat.le_add_right _ _), Kernel.byteAt_of_le (Nat.le_add_right _ _)]
    rcases Use.cases h huse with ⟨access, hstep, -⟩ | ⟨-, -, hcontents⟩ |
      ⟨i, j, start, bytes, -, hevent, -⟩
    · rw [contents_of_step h.unsized hstep]
    · rw [hcontents]
    · exact absurd hevent (hquiet i j start bytes)
  header_eq := by
    intro i id offset bytes hevent j
    subst hevent
    obtain ⟨-, hlt, hkernel⟩ := overwrites_of_use h huse
    rw [hkernel]
    refine ⟨m.kernel.header_overwrite _ _ _ j, fun place hplace => ?_⟩
    exact Kernel.byteAt_overwrite_of_lt hlt (Nat.lt_add_right _ hplace) _ j
  load_eq := by
    intro i id offset bytes hevent j block hholding hapart start length hrange
    subst hevent
    obtain ⟨htouched, -, hkernel⟩ := overwrites_of_use h huse
    have hnext : next.stage j = .holding block := (congrFun htouched.stage_eq j).trans hholding
    obtain ⟨mapping, hsegment, hheld⟩ := h.held hholding
    obtain ⟨mapping', hsegment', hheld'⟩ := (h.use huse).held hnext
    rw [htouched.segment?_eq h.sound, hsegment] at hsegment'
    rw [hheld.load_eq hrange, hheld'.load_eq hrange, ← Option.some.inj hsegment']
    refine List.map_congr_left fun k _ => ?_
    simp only [site, hkernel]
    refine Kernel.byteAt_overwrite_of_ne (fun heq => hapart ?_) _ _ _
    rw [hsegment, heq]

/-- All participants see one memory. On a machine on which no name is bound at first, let members
allocate and release blocks of any names, let anybody change headers, and let who holds a block
write within it, in any order. Then whoever holds a block shares a segment: it reads there, at every
offset, what was last written at that offset through any block of the segment, or zero if nothing
was since the segment was created. A leader's segment is the one it created; a follower's is the
one bound to the name when the follower opened it, whatever the name is bound to now. And a use of
the memory changes no payload unless it is a write, which changes no header and no other segment. -/
theorem memory_shared (husage : Usage roster (fun _ => True) m₀ history m)
    (hidle : ∀ i, m₀.stage i = .idle) (hfree : ∀ name, m₀.kernel.names.get? name = none) :
    (∀ i block, m.stage i = .holding block → ∃ id, m.Shares roster m₀ history i block id) ∧
      ∀ event next, Use roster m event next → m.Separates roster event next :=
  ⟨fun _ _ hholding => shares_of_usage husage hidle hfree hholding,
    fun _ _ huse => separates_of_use (intact_of_usage husage hidle) huse⟩

/-! ### Schedules -/

inductive Chore (ι : Type v) where
  | order (order : Order ι)
  | header (id : SegmentId) (change : Header → Header)
  | write (i : ι) (offset : Nat) (bytes : Array UInt8)

def heed (m : Machine κ ι) (roster : ι → Member κ) :
    Chore ι → Option (Option (Event ι) × Machine κ ι)
  | .order order => (m.obey roster order).map fun (access, next) => (next.event? access, next)
  | .header id change => some (none, m.modifyHeader id change)
  | .write i offset bytes =>
    match m.stage i with
    | .holding block => (m.segment? roster i).bind fun id =>
      if 0 < bytes.size ∧ offset + bytes.size ≤ block.bytes.toNat then
        some (some (.wrote i id offset bytes),
          m.write (roster i).home (block.address + offset) bytes)
      else none
    | _ => none

theorem use_of_heed {chore : Chore ι} (h : m.heed roster chore = some (event, next)) :
    Use roster m event next := by
  cases chore with
  | order order =>
    obtain ⟨⟨access, next⟩, hobey, heq⟩ := Option.map_eq_some_iff.mp h
    cases heq
    exact .step (step_of_obey hobey)
  | header id change =>
    cases h
    exact .header id change
  | write i offset bytes =>
    simp only [heed] at h
    split at h
    case h_1 block hholding =>
      obtain ⟨id, hid, h⟩ := Option.bind_eq_some_iff.mp h
      obtain ⟨⟨hsize, hrange⟩, h⟩ := Option.ite_none_right_eq_some.mp h
      cases h
      exact .write i block id offset bytes hholding hid hsize hrange
    case h_2 => cases h

def carry (roster : ι → Member κ) :
    List (Chore ι) → List (Event ι) × Machine κ ι → Option (List (Event ι) × Machine κ ι)
  | [], reached => some reached
  | chore :: rest, (history, m) =>
    (m.heed roster chore).bind fun (event, next) =>
      carry roster rest (event.toList ++ history, next)

theorem usage_of_carry (husage : Usage roster (fun _ => True) m₀ history m)
    (chores : List (Chore ι)) {reached : List (Event ι) × Machine κ ι}
    (h : carry roster chores (history, m) = some reached) :
    Usage roster (fun _ => True) m₀ reached.1 reached.2 := by
  induction chores generalizing history m with
  | nil =>
    cases h
    exact husage
  | cons chore rest ih =>
    simp only [carry, Option.bind_eq_some_iff] at h
    obtain ⟨⟨event, next⟩, hheed, h⟩ := h
    exact ih (.use husage (use_of_heed hheed) trivial) h

inductive Party where
  | founder
  | guest
  | heir
  deriving DecidableEq

def Party.pid : Party → UInt32
  | founder => 1
  | guest => 2
  | heir => 3

def successors (party : Party) : Member Party :=
  sample party fun config =>
    { config with
      rank := if party = .guest then 1 else 0
      teardownTimeout := .ofMilliseconds 0 }

def newcomers : Machine Party Party := fresh Party.pid [1, 2, 3]

/-- The first leader and the follower write to one segment, and somebody to its header; the leader
gives it up, and the other leader creates a new one under the name and writes to that. -/
def handover : List (Chore Party) :=
  .order (.allocate .founder 4096) :: List.replicate 10 (.order (.access .founder)) ++
  .order (.allocate .guest 4096) :: List.replicate 11 (.order (.access .guest)) ++
  .write .founder 4000 #[1, 2, 3] :: .header 0 (·.setLive 7) :: .write .guest 4002 #[9, 8] ::
  .order (.release .founder) :: List.replicate 6 (.order (.access .founder)) ++
  .order (.allocate .heir 4096) :: List.replicate 10 (.order (.access .heir)) ++
  [.write .heir 4001 #[7]]

/-- The follower still reads what it and the first leader have written, the second leader what it
has written itself. -/
theorem memory_shared_handover : ∃ (history : List (Event Party)) (m : Machine Party Party)
    (block other : Block),
    Usage successors (fun _ => True) newcomers history m ∧
      m.stage .guest = .holding block ∧ m.stage .heir = .holding other ∧
      m.kernel.names.get? (successors .guest).config.segment = some 1 ∧
      (m.site .guest).load (block.address + 4000) 5 = [1, 2, 9, 8, 0] ∧
      (m.site .heir).load (other.address + 4000) 5 = [0, 7, 0, 0, 0] ∧
      m.Shares successors newcomers history .guest block 0 ∧
      m.Shares successors newcomers history .heir other 1 ∧
      ∀ event next, Use successors m event next → m.Separates successors event next := by
  obtain ⟨⟨history, m⟩, hcarry, hreached⟩ := Option.map_eq_some_iff.mp
    (by decide +kernel :
      (carry successors handover ([], newcomers)).map (fun (_, m) =>
        ((m.stage .guest).block?.map fun block => (m.site .guest).load (block.address + 4000) 5,
          (m.stage .heir).block?.map fun block => (m.site .heir).load (block.address + 4000) 5,
          m.segment? successors .guest, m.segment? successors .heir,
          m.kernel.names.get? (successors .guest).config.segment)) =
      some (some [1, 2, 9, 8, 0], some [0, 7, 0, 0, 0], some 0, some 1, some 1))
  simp only [Prod.mk.injEq, Option.map_eq_some_iff] at hreached
  obtain ⟨⟨block, hblock, hload⟩, ⟨other, hother, hload'⟩, hsegment, hsegment', hname⟩ := hreached
  have hholding := Stage.eq_holding_of_block?_eq_some hblock
  have hholding' := Stage.eq_holding_of_block?_eq_some hother
  have husage := usage_of_carry (.start trivial) _ hcarry
  obtain ⟨hshares, hseparates⟩ := memory_shared husage (fun _ => rfl) (fun _ => rfl)
  obtain ⟨id, hguest⟩ := hshares .guest block hholding
  obtain ⟨id', hheir⟩ := hshares .heir other hholding'
  cases hsegment.symm.trans hguest.segment?_eq
  cases hsegment'.symm.trans hheir.segment?_eq
  exact ⟨history, m, block, other, husage, hholding, hholding', hname, hload, hload', hguest,
    hheir, hseparates⟩

end

end Machine

end StagingMemory
