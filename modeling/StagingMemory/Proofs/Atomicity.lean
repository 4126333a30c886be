import StagingMemory.Proofs.Termination
/-!
An allocation of shared memory that hands out no block leaves nothing behind. The call is followed
phase by phase: before the leader creates its segment the names and segments are as they were, but
for a leftover it may have removed; from then on there is one more segment under its name, which is
taken back by that name. A follower has touched the header of one bound segment, and leaves it as
many times as it joined it. The process's mappings, locks and registrations are as they were, but
for the one mapping the call holds.
-/
namespace StagingMemory

namespace Kernel

/-! ### Names and segments that stay -/

/-- `k'` holds what `k` holds, under the same names; what else it holds has no name. -/
structure Keeps (k k' : Kernel) : Prop where
  names_eq : ∀ name, k'.names.get? name = k.names.get? name
  segment?_eq : ∀ id, id < k.segments.length → k'.segment? id = k.segment? id
  length_le : k.segments.length ≤ k'.segments.length
  alive_eq : k'.alive = k.alive

@[simp] theorem length_segments_modifySegment (k : Kernel) (id : SegmentId)
    (f : Segment → Segment) : (k.modifySegment id f).segments.length = k.segments.length :=
  List.length_modify ..

@[simp] theorem length_segments_modifyHeader (k : Kernel) (id : SegmentId)
    (f : Header → Header) : (k.modifyHeader id f).segments.length = k.segments.length :=
  List.length_modify ..

namespace Keeps

variable {k k' : Kernel}

theorem refl (k : Kernel) : Keeps k k :=
  ⟨fun _ => rfl, fun _ _ => rfl, Nat.le_refl _, rfl⟩

theorem modifyHeader (h : Keeps k k') (id : SegmentId) (f : Header → Header) :
    Keeps (k.modifyHeader id f) (k'.modifyHeader id f) where
  names_eq := h.names_eq
  segment?_eq j hj := by
    rw [length_segments_modifyHeader] at hj
    rw [segment?_modifyHeader, segment?_modifyHeader, h.segment?_eq j hj]
  length_le := by simpa using h.length_le
  alive_eq := h.alive_eq

theorem unbind (h : Keeps k k') (name : SegmentName) : Keeps (k.unbind name) (k'.unbind name) where
  names_eq other := by rw [get?_names_unbind, get?_names_unbind, h.names_eq]
  segment?_eq := h.segment?_eq
  length_le := h.length_le
  alive_eq := h.alive_eq

theorem segment?_of_bound (h : Keeps k k') {name : SegmentName} {id : SegmentId}
    (hbound : k.names.get? name = some id) : k'.segment? id = k.segment? id :=
  h.segment?_eq id (k.names_bound name id hbound)

theorem segmentLength_of_bound (h : Keeps k k') {name : SegmentName} {id : SegmentId}
    (hbound : k.names.get? name = some id) : k'.segmentLength id = k.segmentLength id := by
  simp only [segmentLength, h.segment?_of_bound hbound]

theorem ownerAlive_of_bound (h : Keeps k k') {name : SegmentName} {id : SegmentId}
    (hbound : k.names.get? name = some id) : k'.ownerAlive id = k.ownerAlive id := by
  unfold ownerAlive processAlive header
  rw [h.segment?_of_bound hbound, h.alive_eq]

end Keeps

theorem modifyHeader_modifyHeader (k : Kernel) (id : SegmentId) (f g : Header → Header) :
    (k.modifyHeader id f).modifyHeader id g = k.modifyHeader id fun h => g (f h) := by
  simp only [modifyHeader, modifySegment, List.modify_modify_eq]
  rfl

theorem modifyHeader_self (k : Kernel) (id : SegmentId) : k.modifyHeader id (fun h => h) = k := by
  have hmodify : k.segments.modify id (fun s => s) = k.segments := List.modify_id id k.segments
  simp only [modifyHeader, modifySegment, hmodify]

/-- `k'` holds what `k` holds, and under one name, which was free, one more segment. -/
structure Builds (k : Kernel) (name : SegmentName) (id : SegmentId) (k' : Kernel) : Prop where
  unbound : k.names.get? name = none
  fresh : k.segments.length ≤ id
  names_eq : ∀ other, k'.names.get? other = if other = name then some id else k.names.get? other
  segment?_eq : ∀ j, j < k.segments.length → k'.segment? j = k.segment? j
  length_le : k.segments.length ≤ k'.segments.length
  alive_eq : k'.alive = k.alive

namespace Builds

variable {k k' : Kernel} {name : SegmentName} {id : SegmentId}

theorem of_created {base : Kernel} (h : Keeps base k) (hcreated : k.Created name id k') :
    Builds base name id k' where
  unbound := (h.names_eq name).symm.trans hcreated.unbound
  fresh := by
    rw [hcreated.id_eq]
    exact h.length_le
  names_eq other := by rw [hcreated.names_eq, h.names_eq]
  segment?_eq j hj := by
    obtain ⟨mode, hsegment⟩ := hcreated.segment?_eq
    have hne : j ≠ id := by
      rw [hcreated.id_eq]
      exact Nat.ne_of_lt (Nat.lt_of_lt_of_le hj h.length_le)
    rw [hsegment, if_neg hne, h.segment?_eq j hj]
  length_le := by
    rw [hcreated.length_eq, hcreated.id_eq]
    exact Nat.le_succ_of_le h.length_le
  alive_eq := hcreated.alive_eq.trans h.alive_eq

theorem modifySegment (h : Builds k name id k') (f : Segment → Segment) :
    Builds k name id (k'.modifySegment id f) where
  unbound := h.unbound
  fresh := h.fresh
  names_eq := h.names_eq
  segment?_eq j hj := by
    have hne : id ≠ j := Nat.ne_of_gt (Nat.lt_of_lt_of_le hj h.fresh)
    rw [segment?_modifySegment, if_neg hne, h.segment?_eq j hj]
  length_le := by simpa using h.length_le
  alive_eq := h.alive_eq

/-- Without its name the new segment is out of reach. -/
theorem unbind (h : Builds k name id k') : Keeps k (k'.unbind name) where
  names_eq other := by
    rw [get?_names_unbind, h.names_eq]
    split
    case isTrue heq => rw [heq, h.unbound]
    case isFalse => rfl
  segment?_eq := h.segment?_eq
  length_le := h.length_le
  alive_eq := h.alive_eq

end Builds
end Kernel

/-! ### Memory that stays -/

namespace Process

structure SameMemory (p q : Process) : Prop where
  page?_eq : ∀ page, q.space.page? page = p.space.page? page
  mem_locked_iff : ∀ page, page ∈ q.space.locked ↔ page ∈ p.space.locked
  registered_eq : ∀ index, (q.dummy index).registered = (p.dummy index).registered

namespace SameMemory

variable {p q r : Process}

theorem refl (p : Process) : SameMemory p p :=
  ⟨fun _ => rfl, fun _ => Iff.rfl, fun _ => rfl⟩

theorem trans (h : SameMemory p q) (h' : SameMemory q r) : SameMemory p r :=
  ⟨fun page => (h'.page?_eq page).trans (h.page?_eq page),
    fun page => (h'.mem_locked_iff page).trans (h.mem_locked_iff page),
    fun index => (h'.registered_eq index).trans (h.registered_eq index)⟩

end SameMemory

theorem Unchanged.sameMemory {p q : Process} (h : Unchanged p q) : SameMemory p q :=
  ⟨fun _ => by rw [h.space_eq], fun _ => by rw [h.space_eq], h.registered_eq⟩

theorem Booked.sameMemory {p q : Process} (h : Booked p q) : SameMemory p q :=
  ⟨fun _ => by rw [h.space_eq], fun _ => by rw [h.space_eq],
    fun _ => by simp only [dummy, h.dummies_eq]⟩

structure Rests (p q : Process) : Prop where
  accounts_eq : q.accounts = p.accounts
  memory : SameMemory p q

structure Maps (p : Process) (m : Mapping) (q : Process) : Prop where
  accounts_eq : q.accounts = p.accounts
  mapped : ∃ r : Process, SameMemory p r ∧
    r.space.Mapped m.length (.segment m.segment) m.base q.space ∧
    ∀ index, (q.dummy index).registered = (r.dummy index).registered

theorem Rests.refl (p : Process) : Rests p p := ⟨rfl, .refl p⟩

theorem Rests.unchanged {p q r : Process} (h : Rests p q) (hr : Unchanged q r) : Rests p r :=
  ⟨hr.accounts_eq.trans h.accounts_eq, h.memory.trans hr.sameMemory⟩

theorem Maps.unchanged {p q r : Process} {m : Mapping} (h : Maps p m q) (hr : Unchanged q r) :
    Maps p m r := by
  obtain ⟨before, hbefore, hmapped, hregistered⟩ := h.mapped
  refine ⟨hr.accounts_eq.trans h.accounts_eq, before, hbefore, ?_, ?_⟩
  · rw [hr.space_eq]
    exact hmapped
  · intro index
    exact (hr.registered_eq index).trans (hregistered index)

theorem Rests.maps {p : Process} {s t : Site} {id : SegmentId} {length : Nat} {m : Mapping}
    (h : p.Rests s.process) (hm : s.mapSegment id length = .ok (m, t)) : p.Maps m t.process := by
  obtain ⟨hid, hlength, ht, hmapped⟩ := Site.mapped_of_mapSegment hm
  refine ⟨?_, s.process, h.memory, ?_, ?_⟩
  · rw [ht]
    exact h.accounts_eq
  · rw [hid, hlength]
    exact hmapped
  · intro index
    rw [ht]
    rfl

theorem Maps.rests {p : Process} {s : Site} {m : Mapping} (h : p.Maps m s.process) :
    p.Rests (s.unmap m).process := by
  obtain ⟨before, hbefore, hmapped, hregistered⟩ := h.mapped
  refine ⟨h.accounts_eq, ?_, ?_, ?_⟩
  · intro page
    exact (hmapped.page?_release page).trans (hbefore.page?_eq page)
  · intro page
    exact (hmapped.mem_locked_release page).trans (hbefore.mem_locked_iff page)
  · intro index
    exact (hregistered index).trans (hbefore.registered_eq index)

end Process

/-- Names, segments and memory are as they were. -/
structure Site.Untouched (s t : Site) : Prop where
  kernel : s.kernel.Keeps t.kernel
  process : s.process.Rests t.process

structure Site.Looking (s : Site) (m : Mapping) (t : Site) : Prop where
  kernel : s.kernel.Keeps t.kernel
  process : s.process.Maps m t.process

namespace Attach

/-! ### Where a call stands -/

/-- The call is the leader's, and may remove what a dead leader left. -/
def Reclaims (a : Attach) : Prop := a.config.isLeader = true ∧ a.config.reclaimStale = true

/-- What the leader makes of the names and segments before it creates its own: nothing, or the
leftover under its name is gone. A leftover that holds a header was retired first. -/
inductive Cleared (a : Attach) (k : Kernel) : Kernel → Prop
  | nothing : Cleared a k k
  | short {id : SegmentId} (hrole : a.Reclaims)
      (hbound : k.names.get? a.config.segment = some id)
      (hshort : k.segmentLength id < Page.headerLength) :
      Cleared a k (k.unbind a.config.segment)
  | orphaned {id : SegmentId} (hrole : a.Reclaims)
      (hbound : k.names.get? a.config.segment = some id)
      (hlong : Page.headerLength ≤ k.segmentLength id) (hdead : k.ownerAlive id = false) :
      Cleared a k ((k.modifyHeader id .retire).unbind a.config.segment)

/-- Names and segments are as they were, but for a leftover that was removed. -/
def Spares (a : Attach) (k k' : Kernel) : Prop := ∃ base, a.Cleared k base ∧ base.Keeps k'

def Building (a : Attach) (k : Kernel) (id : SegmentId) (k' : Kernel) : Prop :=
  ∃ base, a.Cleared k base ∧ base.Builds a.config.segment id k'

def Condemned (a : Attach) (k : Kernel) (id : SegmentId) (k' : Kernel) : Prop :=
  k.names.get? a.config.segment = some id ∧
    (k.segmentLength id < Page.headerLength ∧ k.Keeps k' ∨
      (Page.headerLength ≤ k.segmentLength id ∧ k.ownerAlive id = false) ∧
        (k.modifyHeader id .retire).Keeps k')

/-- A follower did this to the header of the segment bound under its name. -/
def Marked (a : Attach) (k : Kernel) (id : SegmentId) (mark : Header → Header) (k' : Kernel) :
    Prop :=
  k.names.get? a.config.segment = some id ∧ (k.modifyHeader id mark).Keeps k'

def RegistrationEnding (ending : Outcome AllocationError) : Prop :=
  (∃ e, ending = .returned (.device DeviceCall.register.name e)) ∨
    ∃ context, ending = .faulted (Process.strictFault .lockFailed context)

def RegistrationFailed (o : Outcome Reply) : Prop :=
  (∃ e, o = .returned (.refused (.device DeviceCall.register.name e))) ∨
    (∃ context, o = .faulted (Process.strictFault .registerFailed context)) ∨
    ∃ context, o = .faulted (Process.strictFault .lockFailed context)

/-- What holds between the site where the call began and the site where it is, phase by phase. -/
def During (a : Attach) (s₀ s : Site) : Phase → Prop
  | .findLeftover => a.Reclaims ∧ s₀.Untouched s
  | .measureLeftover id =>
    a.Reclaims ∧ s₀.Untouched s ∧ s₀.kernel.names.get? a.config.segment = some id
  | .mapLeftover id =>
    a.Reclaims ∧ s₀.Untouched s ∧ s₀.kernel.names.get? a.config.segment = some id ∧
      Page.headerLength ≤ s₀.kernel.segmentLength id
  | .checkLeftover m =>
    a.Reclaims ∧ s₀.Looking m s ∧ s₀.kernel.names.get? a.config.segment = some m.segment ∧
      Page.headerLength ≤ s₀.kernel.segmentLength m.segment
  | .retireLeftover m =>
    a.Reclaims ∧ s₀.Looking m s ∧ s₀.kernel.names.get? a.config.segment = some m.segment ∧
      Page.headerLength ≤ s₀.kernel.segmentLength m.segment ∧
      s₀.kernel.ownerAlive m.segment = false
  | .removeLeftover =>
    a.Reclaims ∧ s₀.process.Rests s.process ∧ ∃ id, a.Condemned s₀.kernel id s.kernel
  | .reportLeftover | .create =>
    a.config.isLeader = true ∧ s₀.process.Rests s.process ∧ a.Spares s₀.kernel s.kernel
  | .resize id | .map id =>
    a.config.isLeader = true ∧ s₀.process.Rests s.process ∧ a.Building s₀.kernel id s.kernel
  | .discard _ =>
    a.config.isLeader = true ∧ s₀.process.Rests s.process ∧ ∃ id, a.Building s₀.kernel id s.kernel
  | .claim m =>
    a.config.isLeader = true ∧ s₀.process.Maps m s.process ∧
      a.Building s₀.kernel m.segment s.kernel
  | .find _ | .missed _ | .pause _ _ => a.config.isLeader = false ∧ s₀.Untouched s
  | .measure _ id | .mapFound _ id _ =>
    a.config.isLeader = false ∧ s₀.Untouched s ∧ s₀.kernel.names.get? a.config.segment = some id
  | .checkReady _ m | .checkOwner _ m | .checkLength _ m | .raiseLive _ m =>
    a.config.isLeader = false ∧ s₀.process.Maps m s.process ∧
      a.Marked s₀.kernel m.segment (fun h => h) s.kernel
  | .recheck _ m | .withdraw _ m | .raiseJoined m =>
    a.config.isLeader = false ∧ s₀.process.Maps m s.process ∧
      a.Marked s₀.kernel m.segment .raiseLive s.kernel
  | .register m => s₀.process.Maps m s.process ∧
      (a.config.isLeader = true ∧ a.Building s₀.kernel m.segment s.kernel ∨
        a.config.isLeader = false ∧
          a.Marked s₀.kernel m.segment (fun h => h.raiseLive.raiseJoined) s.kernel)
  | .undo m ending => RegistrationEnding ending ∧ s₀.process.Maps m s.process ∧
      (a.config.isLeader = true ∧ a.Building s₀.kernel m.segment s.kernel ∨
        a.config.isLeader = false ∧
          a.Marked s₀.kernel m.segment (fun h => h.raiseLive.raiseJoined) s.kernel)
  | .publishBytes _ | .publishJoined _ | .publishLive _ | .publishState _ | .finish _ =>
    s.process.accounts = s₀.process.accounts
  | .fail error => s₀.process.Rests s.process ∧
      (a.Spares s₀.kernel s.kernel ∨ a.config.isLeader = false ∧
        (∃ e, error = .device DeviceCall.register.name e) ∧
        ∃ id, a.Marked s₀.kernel id .raiseJoined s.kernel)

/-- How the call leaves the site when it ends: it hands out a block, or names, segments and memory
are as they were, but for a leftover removed, or the mark of a follower that could not register. -/
def Settled (a : Attach) (s₀ : Site) (o : Outcome Reply) (s : Site) : Prop :=
  (∃ block, o = .returned (.allocated (some block))) ∨
    s₀.process.SameMemory s.process ∧
      (a.Spares s₀.kernel s.kernel ∨ a.config.isLeader = false ∧ RegistrationFailed o ∧
        ∃ id, a.Marked s₀.kernel id .raiseJoined s.kernel)

def Follows (a : Attach) (s₀ : Site) : Progress Phase Result → Site → Prop
  | .running phase, s => a.During s₀ s phase
  | .done o, s => a.Settled s₀ (o.map .ofResult) s

/-! ### What the steps do to names and segments -/

section

variable {a : Attach} {k k' : Kernel} {id : SegmentId}

theorem spares_of_keeps (h : k.Keeps k') : a.Spares k k' := ⟨k, .nothing, h⟩

theorem condemned_unbind (hrole : a.Reclaims) (h : a.Condemned k id k') :
    a.Spares k (k'.unbind a.config.segment) := by
  obtain ⟨hbound, ⟨hshort, hkeeps⟩ | ⟨⟨hlong, hdead⟩, hkeeps⟩⟩ := h
  · exact ⟨_, .short hrole hbound hshort, hkeeps.unbind _⟩
  · exact ⟨_, .orphaned hrole hbound hlong hdead, hkeeps.unbind _⟩

theorem Condemned.bound (h : a.Condemned k id k') : k'.names.get? a.config.segment = some id := by
  obtain ⟨hbound, ⟨_, hkeeps⟩ | ⟨_, hkeeps⟩⟩ := h
  · rw [hkeeps.names_eq, hbound]
  · rw [hkeeps.names_eq, Kernel.names_modifyHeader, hbound]

theorem Spares.building {created : Kernel} (h : a.Spares k k')
    (hcreated : k'.Created a.config.segment id created) : a.Building k id created := by
  obtain ⟨base, hcleared, hkeeps⟩ := h
  exact ⟨base, hcleared, .of_created hkeeps hcreated⟩

theorem Building.modifySegment (h : a.Building k id k') (f : Segment → Segment) :
    a.Building k id (k'.modifySegment id f) := by
  obtain ⟨base, hcleared, hbuilds⟩ := h
  exact ⟨base, hcleared, hbuilds.modifySegment f⟩

theorem Building.unbind (h : a.Building k id k') :
    a.Spares k (k'.unbind a.config.segment) := by
  obtain ⟨base, hcleared, hbuilds⟩ := h
  exact ⟨base, hcleared, hbuilds.unbind⟩

theorem marked_self (hbound : k.names.get? a.config.segment = some id) :
    a.Marked k id (fun h => h) k' ↔ k.Keeps k' := by
  simp only [Marked, Kernel.modifyHeader_self, hbound, true_and]

theorem Marked.modifyHeader {mark : Header → Header} (h : a.Marked k id mark k')
    (f : Header → Header) : a.Marked k id (fun h => f (mark h)) (k'.modifyHeader id f) := by
  refine ⟨h.1, ?_⟩
  rw [← Kernel.modifyHeader_modifyHeader]
  exact h.2.modifyHeader id f

theorem leave_raise (h : Header) : h.raiseLive.raiseJoined.leave = h.raiseJoined := by
  simp [Header.leave, Header.lowerLive, Header.raiseLive, Header.raiseJoined]

end

/-! ### Steps -/

/-- The leader takes its name back, or the follower leaves; and the mapping goes. -/
theorem undone_spec {a : Attach} {s₀ s : Site} {m : Mapping}
    (hmaps : s₀.process.Maps m s.process)
    (h : a.config.isLeader = true ∧ a.Building s₀.kernel m.segment s.kernel ∨
      a.config.isLeader = false ∧
        a.Marked s₀.kernel m.segment (fun h => h.raiseLive.raiseJoined) s.kernel) :
    s₀.process.Rests (a.undone s m).process ∧
      (a.Spares s₀.kernel (a.undone s m).kernel ∨ a.config.isLeader = false ∧
        ∃ id, a.Marked s₀.kernel id .raiseJoined (a.undone s m).kernel) := by
  rcases h with ⟨hrole, hbuilding⟩ | ⟨hrole, hmarked⟩
  · have hundone : a.undone s m = (s.unbind a.config.segment).unmap m := by
      rw [undone, if_pos hrole]
    rw [hundone]
    exact ⟨Process.Maps.rests hmaps, Or.inl hbuilding.unbind⟩
  · have hundone : a.undone s m = (s.modifyHeader m .leave).unmap m := by
      rw [undone, if_neg (by simp [hrole])]
    have hleft := hmarked.modifyHeader .leave
    simp only [leave_raise] at hleft
    rw [hundone]
    exact ⟨Process.Maps.rests hmaps, Or.inr ⟨hrole, m.segment, hleft⟩⟩

/-- What a failed registration leaves to do, and how it will end. -/
theorem undo_of_register {a : Attach} {s₀ s : Site} {m : Mapping} {p : Process}
    {result : Outcome (Except DeviceError Unit)} {ending : Outcome AllocationError}
    (h : a.During s₀ s (.register m))
    (hregister : a.device.register s.process m.payload a.bytes .portable = (result, p))
    (hfailed : result ≠ .returned (.ok ())) (hending : RegistrationEnding ending) :
    a.During s₀ { s with process := p } (.undo m ending) :=
  ⟨hending, h.1.unchanged (Device.unchanged_of_register hregister hfailed), h.2⟩

theorem During.transition {a : Attach} {s₀ s t : Site} {phase : Phase}
    {progress : Progress Phase Result} (ht : Transition a phase s progress t)
    (hgauge : (s₀.process.account a.account).bytes.current.toNat + a.bytes.toNat < UInt64.size)
    (h : a.During s₀ s phase) : a.Follows s₀ progress t := by
  cases ht with
  | leftoverFound hopen =>
    have hbound := Site.names_of_openSegment hopen
    rw [h.2.kernel.names_eq] at hbound
    exact ⟨h.1, h.2, hbound⟩
  | leftoverAbsent => exact ⟨h.1.1, h.2.process, spares_of_keeps h.2.kernel⟩
  | leftoverUnopened => exact ⟨h.2.process, Or.inl (spares_of_keeps h.2.kernel)⟩
  | leftoverShort hshort =>
    obtain ⟨hrole, hsame, hbound⟩ := h
    rw [hsame.kernel.segmentLength_of_bound hbound] at hshort
    exact ⟨hrole, hsame.process, _, hbound, Or.inl ⟨hshort, hsame.kernel⟩⟩
  | leftoverLong hlong =>
    obtain ⟨hrole, hsame, hbound⟩ := h
    rw [hsame.kernel.segmentLength_of_bound hbound] at hlong
    exact ⟨hrole, hsame, hbound, hlong⟩
  | leftoverMapped hmap =>
    obtain ⟨hrole, hsame, hbound, hlong⟩ := h
    obtain ⟨hid, _, ht, _⟩ := Site.mapped_of_mapSegment hmap
    refine ⟨hrole, ⟨?_, hsame.process.maps hmap⟩, ?_, ?_⟩
    · rw [ht]
      exact hsame.kernel
    · rw [hid, hbound]
    · rw [hid]
      exact hlong
  | leftoverUnmapped =>
    exact ⟨h.2.1.process, Or.inl (spares_of_keeps h.2.1.kernel)⟩
  | leftoverOwned =>
    exact ⟨Process.Maps.rests h.2.1.process, Or.inl (spares_of_keeps h.2.1.kernel)⟩
  | leftoverOrphaned hdead =>
    obtain ⟨hrole, hlooking, hbound, hlong⟩ := h
    rw [hlooking.kernel.ownerAlive_of_bound hbound] at hdead
    exact ⟨hrole, hlooking, hbound, hlong, hdead⟩
  | leftoverRetired =>
    obtain ⟨hrole, hlooking, hbound, hlong, hdead⟩ := h
    exact ⟨hrole, Process.Maps.rests hlooking.process, _, hbound,
      Or.inr ⟨⟨hlong, hdead⟩, hlooking.kernel.modifyHeader _ _⟩⟩
  | leftoverRemoved =>
    obtain ⟨hrole, hrests, _, hcondemned⟩ := h
    exact ⟨hrole.1, hrests, condemned_unbind hrole hcondemned⟩
  | leftoverGone hgone =>
    obtain ⟨_, _, _, hcondemned⟩ := h
    rw [hcondemned.bound] at hgone
    cases hgone
  | leftoverReported hemit =>
    exact ⟨h.1, h.2.1.unchanged (Process.wrote_of_emit hemit).unchanged, h.2.2⟩
  | leftoverFatal hemit =>
    have hrests := h.2.1.unchanged (Process.wrote_of_emit hemit).unchanged
    exact Or.inr ⟨hrests.memory, Or.inl h.2.2⟩
  | created hcreate =>
    obtain ⟨hcreated, hprocess⟩ := Site.created_of_createSegment hcreate
    refine ⟨h.1, ?_, h.2.2.building hcreated⟩
    rw [hprocess]
    exact h.2.1
  | nameTaken => exact ⟨h.2.1, Or.inl h.2.2⟩
  | uncreated => exact ⟨h.2.1, Or.inl h.2.2⟩
  | resized hresize =>
    rw [Site.of_resizeSegment hresize]
    exact ⟨h.1, h.2.1, h.2.2.modifySegment _⟩
  | unresized => exact ⟨h.1, h.2.1, _, h.2.2⟩
  | mapped hmap =>
    obtain ⟨hid, _, ht, _⟩ := Site.mapped_of_mapSegment hmap
    refine ⟨h.1, h.2.1.maps hmap, ?_⟩
    rw [hid, ht]
    exact h.2.2
  | unmapped => exact ⟨h.1, h.2.1, _, h.2.2⟩
  | discarded =>
    obtain ⟨_, hrests, _, hbuilding⟩ := h
    exact ⟨hrests, Or.inl hbuilding.unbind⟩
  | claimed => exact ⟨h.2.1, Or.inl ⟨h.1, h.2.2.modifySegment _⟩⟩
  | found hopen =>
    have hbound := Site.names_of_openSegment hopen
    rw [h.2.kernel.names_eq] at hbound
    exact ⟨h.1, h.2, hbound⟩
  | absent => exact h
  | unopened => exact ⟨h.2.process, Or.inl (spares_of_keeps h.2.kernel)⟩
  | short => exact ⟨h.1, h.2.1⟩
  | sized => exact h
  | foundMapped hmap =>
    obtain ⟨hrole, hsame, hbound⟩ := h
    obtain ⟨hid, _, ht, _⟩ := Site.mapped_of_mapSegment hmap
    refine ⟨hrole, hsame.process.maps hmap, ?_⟩
    rw [hid, marked_self hbound, ht]
    exact hsame.kernel
  | foundUnmapped => exact ⟨h.2.1.process, Or.inl (spares_of_keeps h.2.1.kernel)⟩
  | ready => exact h
  | unready =>
    obtain ⟨hrole, hmaps, hmarked⟩ := h
    exact ⟨hrole, (marked_self hmarked.1).mp hmarked, Process.Maps.rests hmaps⟩
  | owned => exact h
  | orphaned =>
    obtain ⟨hrole, hmaps, hmarked⟩ := h
    exact ⟨hrole, (marked_self hmarked.1).mp hmarked, Process.Maps.rests hmaps⟩
  | matched => exact h
  | mismatched =>
    obtain ⟨_, hmaps, hmarked⟩ := h
    exact ⟨Process.Maps.rests hmaps, Or.inl (spares_of_keeps ((marked_self hmarked.1).mp hmarked))⟩
  | expired => exact ⟨h.2.process, Or.inl (spares_of_keeps h.2.kernel)⟩
  | waiting => exact h
  | woken => exact h
  | asleep => exact h
  | raised => exact ⟨h.1, h.2.1, h.2.2.modifyHeader .raiseLive⟩
  | confirmed => exact h
  | refused => exact h
  | withdrawn =>
    obtain ⟨hrole, hmaps, hmarked⟩ := h
    have hback := hmarked.modifyHeader .lowerLive
    simp only [Header.lowerLive_raiseLive] at hback
    exact ⟨hrole, (marked_self hmarked.1).mp hback, Process.Maps.rests hmaps⟩
  | joined => exact ⟨h.2.1, Or.inr ⟨h.1, h.2.2.modifyHeader .raiseJoined⟩⟩
  | registered hregister =>
    have haccounts := (Device.kept_of_register hregister).accounts_eq.trans h.1.accounts_eq
    simp only [Follows]
    split <;> exact haccounts
  | unregistered hregister =>
    exact undo_of_register h hregister (by simp) (Or.inl ⟨_, rfl⟩)
  | registerFatal hregister =>
    obtain ⟨context, rfl⟩ := Device.fault_of_register hregister
    exact undo_of_register h hregister (by simp) (Or.inr ⟨context, rfl⟩)
  | @undoneError _ m error =>
    obtain ⟨hending, hmaps, hrole⟩ := h
    obtain ⟨hrests, hspares | ⟨hfollower, hmarked⟩⟩ := undone_spec hmaps hrole
    · exact ⟨hrests, Or.inl hspares⟩
    · refine ⟨hrests, Or.inr ⟨hfollower, ?_, hmarked⟩⟩
      rcases hending with ⟨e, he⟩ | ⟨context, he⟩
      · exact ⟨e, by cases he; rfl⟩
      · cases he
  | @undoneFault _ m fault =>
    obtain ⟨hending, hmaps, hrole⟩ := h
    obtain ⟨hrests, hspares | ⟨hfollower, hmarked⟩⟩ := undone_spec hmaps hrole
    · exact Or.inr ⟨hrests.memory, Or.inl hspares⟩
    · refine Or.inr ⟨hrests.memory, Or.inr ⟨hfollower, ?_, hmarked⟩⟩
      rcases hending with ⟨e, he⟩ | ⟨context, he⟩
      · cases he
      · exact Or.inr (Or.inr ⟨context, by cases he; rfl⟩)
  | undoneAbort =>
    rcases h.1 with ⟨_, he⟩ | ⟨_, he⟩ <;> cases he
  | bytesPublished => exact h
  | joinedPublished => exact h
  | livePublished => exact h
  | statePublished => exact h
  | @finished _ m _ _ hsucceeded =>
    have haccount : s.process.account a.account = s₀.process.account a.account := by
      simp only [Process.account, show s.process.accounts = s₀.process.accounts from h]
    obtain ⟨_, ho⟩ := succeeded_spec hsucceeded
    rw [haccount, if_pos hgauge] at ho
    exact Or.inl ⟨⟨m.payload, a.bytes⟩, by rw [ho]; rfl⟩
  | failed hfailed =>
    obtain ⟨hbooked, ho⟩ := failed_spec hfailed
    refine Or.inr ⟨h.1.memory.trans hbooked.sameMemory, ?_⟩
    rcases h.2 with hspares | ⟨hfollower, ⟨e, rfl⟩, hmarked⟩
    · exact Or.inl hspares
    · refine Or.inr ⟨hfollower, ?_, hmarked⟩
      rcases ho with rfl | ⟨d, context, hd, rfl⟩
      · exact Or.inl ⟨e, rfl⟩
      · cases hd
        exact Or.inr (Or.inl ⟨context, rfl⟩)

/-- Passing the time while the call pauses touches nothing. -/
theorem During.wakeUp {a : Attach} {s₀ s : Site} {phase : Phase} (h : a.During s₀ s phase) :
    a.During s₀ ((Call.attach a phase).wakeUp s) phase := by
  cases phase with
  | pause w wake =>
    obtain ⟨hrole, hkernel, hprocess⟩ := h
    exact ⟨hrole, ⟨hkernel.names_eq, hkernel.segment?_eq, hkernel.length_le, hkernel.alive_eq⟩,
      hprocess⟩
  | _ => exact h

theorem During.begin {a : Attach} {s t : Site} {progress : Progress Phase Result}
    (h : a.begin s = (progress, t)) : t = s ∧
      ((∃ phase, progress = .running phase ∧ a.During s s phase) ∨
        progress = .done (.faulted .deadlineOverflow)) := by
  have hsame : s.Untouched s := ⟨.refl _, .refl _⟩
  unfold Attach.begin at h
  split at h
  · cases h
    exact ⟨rfl, Or.inl ⟨_, rfl, .refl _, Or.inl (spares_of_keeps (.refl _))⟩⟩
  · split at h
    case isTrue hrole =>
      cases h
      refine ⟨rfl, Or.inl ⟨_, rfl, ?_⟩⟩
      split
      case isTrue hreclaim => exact ⟨⟨hrole, hreclaim⟩, hsame⟩
      case isFalse => exact ⟨hrole, .refl _, spares_of_keeps (.refl _)⟩
    case isFalse hrole =>
      split at h
      · cases h
        exact ⟨rfl, Or.inl ⟨_, rfl, Bool.not_eq_true _ ▸ hrole, hsame⟩⟩
      · cases h
        exact ⟨rfl, Or.inr rfl⟩

end Attach

/-! ### Whole calls -/

theorem Attach.settled_of_during {a : Attach} {s₀ s : Site} {phase : Attach.Phase} {steps : Nat}
    (hgauge : (s₀.process.account a.account).bytes.current.toNat + a.bytes.toNat < UInt64.size)
    (hbudget : Attach.budget s.kernel.clock phase < steps) (h : a.During s₀ s phase) :
    ∃ o t, runAlone steps (.running (.attach a phase), s) = (.done o, t) ∧ a.Settled s₀ o t := by
  refine runAlone_rule (fun c u => ∃ at', c = .attach a at' ∧ a.During s₀ u at')
    (fun o t => a.Settled s₀ o t) ?_ (.attach a phase) s steps hbudget ⟨phase, rfl, h⟩
  intro c u hcall
  obtain ⟨now, rfl, hnow⟩ := hcall
  have hfollows := hnow.wakeUp.transition (a.step_transition now _) hgauge
  rw [Call.advance_eq]
  cases hstep : a.step now ((Call.attach a now).wakeUp u) with
  | mk progress t =>
    rw [hstep] at hfollows
    simp only [Call.step, Call.ofAttach, hstep]
    cases progress with
    | running next => exact ⟨next, rfl, hfollows⟩
    | done o => exact hfollows

namespace Resource

/-- Whatever the site, the settings and the request: an allocation of shared memory ends, and if it
hands out no block, by an error or by a fault, then every name, segment, mapping, lock and
registration is as it was. There are two exceptions. A leader may have removed a leftover under its
name that was too short for a header, or, retiring it, one whose owner was not alive; and a
follower whose registration failed leaves the count of those who joined one higher. -/
theorem allocate_atomic (config : SharingConfig) (device : Device) (account : Nat) (bytes : UInt64)
    (s : Site)
    (hgauge : (s.process.account account).bytes.current.toNat + bytes.toNat < UInt64.size) :
    ∃ o t, (⟨.shared config, device, account⟩ : Resource).allocate bytes s = (.done o, t) ∧
      (⟨config, device, account, bytes⟩ : Attach).Settled s o t := by
  have hnothing : ∀ o, (⟨config, device, account, bytes⟩ : Attach).Settled s o s := fun _ =>
    Or.inr ⟨.refl _, Or.inl (Attach.spares_of_keeps (.refl _))⟩
  by_cases hzero : bytes = 0
  · subst hzero
    exact ⟨_, s, allocate_zero _ s, hnothing _⟩
  · simp only [allocate, beginAllocate, if_neg hzero]
    cases hbegin : (⟨config, device, account, bytes⟩ : Attach).begin s with
    | mk progress t =>
      obtain ⟨rfl, ⟨phase, rfl, hduring⟩ | rfl⟩ := Attach.During.begin hbegin
      · exact Attach.settled_of_during hgauge (Attach.budget_begin hbegin) hduring
      · exact ⟨_, t, runAlone_done _ _ _, hnothing _⟩

def refusing : Site where
  kernel := .initial [1] 0
  process :=
    { Process.fresh 1 with
      dummies := [{ DummyDevice.withMemory ⟨0, 0⟩ with failing := [.register] }]
      accounts := [.zero] }

/-- An allocation that cannot register leaves nothing behind. -/
theorem allocate_atomic_refusing : ∃ t,
    (⟨.shared (.ofSegment ⟨"/group", by decide⟩), .dummy 0, 0⟩ : Resource).allocate 4096 refusing =
      (.done (.returned (.refused (.device "host_register" (.injected .register)))), t) ∧
    (⟨.ofSegment ⟨"/group", by decide⟩, .dummy 0, 0, 4096⟩ : Attach).Settled refusing
      (.returned (.refused (.device "host_register" (.injected .register)))) t := by
  obtain ⟨o, t, hallocate, hsettled⟩ :=
    allocate_atomic (.ofSegment ⟨"/group", by decide⟩) (.dummy 0) 0 4096 refusing (by decide)
  have hrefused : ((⟨.shared (.ofSegment ⟨"/group", by decide⟩), .dummy 0, 0⟩ : Resource).allocate
      4096 refusing).1 =
      .done (.returned (.refused (.device "host_register" (.injected .register)))) := by
    decide +kernel
  rw [hallocate] at hrefused
  cases hrefused
  exact ⟨t, hallocate, hsettled⟩

end Resource
end StagingMemory
