import StagingMemory.Proofs.Machine
/-!
What the accesses of one leader and of followers enter in the books of a segment. A follower's call
is away from the segment, or has found it ready, or stands in its live count; the leader's call goes
from one position to the next. Every step of a call is one of a few moves between these
(`Attach.Transition.follows`, `Attach.Transition.leads`, and the same for releases), and each move
leaves a header that agrees with the books (`Tread.books`, `Stride.books`).
-/
namespace StagingMemory

/-! ### Marks in the books -/

/-- What an access enters in a segment's books. -/
inductive Mark where
  /-- A follower adds itself to the live count. -/
  | raise
  /-- A follower takes itself from the live count again. -/
  | lower
  /-- A follower's join is complete: it adds itself to the joined count. -/
  | join
  /-- The leader takes itself from the live count. -/
  | depart
  deriving DecidableEq

def Call.mark? (id : SegmentId) : Call → Option Mark
  | attach _ (.raiseLive _ m) => if m.segment = id then some .raise else none
  | attach _ (.withdraw _ m) => if m.segment = id then some .lower else none
  | attach _ (.raiseJoined m) => if m.segment = id then some .join else none
  | attach a (.undo m _) => if m.segment = id ∧ a.config.isLeader = false then some .lower else none
  | detach d (.leave m _ _) =>
    if m.segment = id then some (if d.config.isLeader then .depart else .lower) else none
  | _ => none

def Call.publishes (id : SegmentId) : Call → Bool
  | attach _ (.publishBytes m) | attach _ (.publishJoined m) | attach _ (.publishLive m)
  | attach _ (.publishState m) => m.segment = id
  | _ => false

/-- The access that completes a join. -/
theorem Call.eq_raiseJoined {id : SegmentId} {c : Call} (h : c.mark? id = some .join) :
    ∃ f m, c = .attach f (.raiseJoined m) ∧ m.segment = id := by
  cases c with
  | attach a phase =>
    cases phase with
    | raiseJoined m =>
      simp only [mark?] at h
      split at h
      · exact ⟨a, m, rfl, ‹_›⟩
      · cases h
    | raiseLive | withdraw | undo =>
      simp only [mark?] at h
      split at h <;> cases h
    | _ => cases h
  | detach d phase =>
    cases phase with
    | leave =>
      simp only [mark?] at h
      split at h
      · split at h <;> cases h
      · cases h
    | _ => cases h

def entries {ι : Type v} (id : SegmentId) (mark : Mark) (history : List (Access ι)) : Nat :=
  history.countP fun access => access.call.mark? id = some mark

/-! ### Followers -/

inductive Grade where
  | away
  /-- It has found the segment ready. -/
  | passed
  /-- It stands in the live count, and is not joined yet. -/
  | raised
  /-- It stands in the live count, and has found that it came too late. -/
  | refused
  /-- It stands in the live count, and is joined. -/
  | joined
  deriving DecidableEq

namespace Grade

@[simp] def stands : Grade → Bool
  | raised | refused | joined => true
  | away | passed => false

/-- It stands in the live count without being joined. -/
@[simp] def pends : Grade → Bool
  | raised | refused => true
  | away | passed | joined => false

/-- It may still complete its join. -/
@[simp] def joins : Grade → Bool
  | raised => true
  | away | passed | refused | joined => false

end Grade

def Attach.grade : Attach.Phase → Grade
  | .checkOwner _ _ | .checkLength _ _ | .raiseLive _ _ => .passed
  | .recheck _ _ | .raiseJoined _ => .raised
  | .withdraw _ _ => .refused
  | .register _ | .undo _ _ | .finish _ => .joined
  | _ => .away

def Detach.grade : Detach.Phase → Grade
  | .close _ _ _ => .away
  | _ => .joined

def Stage.reached : Stage → Grade
  | calling (.attach _ phase) => Attach.grade phase
  | calling (.detach _ phase) => Detach.grade phase
  | holding _ => .joined
  | _ => .away

def Stage.grade (s : Site) (id : SegmentId) (stage : Stage) : Grade :=
  if stage.segment? s = some id then stage.reached else .away

/-- What a follower's step may do: from which grade to which, by which mark, and how the header
changes. -/
inductive Tread : Grade → Header → Option Mark → Grade → Header → Prop
  | stay {g : Grade} {h : Header} : Tread g h none g h
  | fade {g : Grade} {h : Header} (hg : g = .passed ∨ g = .joined) : Tread g h none .away h
  | pass {h : Header} (hready : h.isReady = true) : Tread .away h none .passed h
  | raise {h : Header} : Tread .passed h (some .raise) .raised h.raiseLive
  | refuse {h : Header} : Tread .raised h none .refused h
  | lower {g : Grade} {h : Header} (hstands : g.stands = true) :
      Tread g h (some .lower) .away h.lowerLive
  | join {h : Header} : Tread .raised h (some .join) .joined h.raiseJoined

/-! ### The leader -/

inductive Lead where
  | away
  /-- It looks whether the segment is a leftover. -/
  | scavenging
  /-- The segment is its own, and the counts are not written yet. -/
  | blank
  | withJoined
  | withLive
  /-- It is about to remove the name of a segment that it could not publish. -/
  | discarding
  /-- The segment is published, and the leader stands in its live count. -/
  | active
  /-- The segment is retired, and the leader still stands in its live count. -/
  | retiring
  | gone
  deriving DecidableEq

namespace Lead

/-- The leader is making a segment that nobody has seen published. -/
def setsUp : Lead → Bool
  | blank | withJoined | withLive | discarding => true
  | _ => false

end Lead

def Attach.lead : Attach.Phase → Lead
  | .measureLeftover _ | .mapLeftover _ | .checkLeftover _ | .retireLeftover _ => .scavenging
  | .resize _ | .map _ | .claim _ | .register _ | .publishBytes _ | .publishJoined _ => .blank
  | .publishLive _ => .withJoined
  | .publishState _ => .withLive
  | .finish _ => .active
  | _ => .away

def Detach.lead : Detach.Phase → Lead
  | .unlink _ _ | .leave _ _ _ => .retiring
  | .close _ _ _ => .gone
  | _ => .active

/-- The call is about to remove the name of the segment that it made. -/
def Attach.takesBack : Attach.Phase → Bool
  | .discard _ | .undo _ _ => true
  | _ => false

def Stage.position : Stage → Lead
  | calling (.attach _ phase) => Attach.lead phase
  | calling (.detach _ phase) => Detach.lead phase
  | holding _ => .active
  | _ => .away

def Stage.lead (s : Site) (id : SegmentId) : Stage → Lead
  | calling (.attach _ (.discard _)) | calling (.attach _ (.undo _ _)) => .discarding
  | stage => if stage.segment? s = some id then stage.position else .away

/-- What the leader's step may do: from which position to which, by which mark, and how the header
changes. -/
inductive Stride (bound fresh : Prop) : Lead → Header → Option Mark → Lead → Header → Prop
  | stay {p : Lead} {h : Header} : Stride bound fresh p h none p h
  | find {h : Header} (hbound : bound) : Stride bound fresh .away h none .scavenging h
  | stop {p : Lead} {h : Header} (hp : p = .scavenging ∨ p = .active ∨ p = .gone) :
      Stride bound fresh p h none .away h
  | retireLeftover {h : Header} : Stride bound fresh .scavenging h none .away h.retire
  | create (hfresh : fresh) : Stride bound fresh .away .blank none .blank .blank
  | prepare {h h' : Header} (hstate : h.state = 0 → h'.state = 0)
      (hjoined : h.joined = 0 → h'.joined = 0) (hlive : h.live = 0 → h'.live = 0) :
      Stride bound fresh .blank h none .blank h'
  | putJoined {h : Header} : Stride bound fresh .blank h none .withJoined (h.setJoined 1)
  | putLive {h : Header} : Stride bound fresh .withJoined h none .withLive (h.setLive 1)
  | putState {h : Header} : Stride bound fresh .withLive h none .active (h.setState Header.readyMark)
  | giveUp {p : Lead} {h : Header} (hp : p = .away ∨ p = .blank) :
      Stride bound fresh p h none .discarding h
  | takeBack {h : Header} : Stride bound fresh .discarding h none .away h
  | retire {h : Header} : Stride bound fresh .active h none .retiring h.retire
  | depart {h : Header} : Stride bound fresh .retiring h (some .depart) .gone h.lowerLive

section

attribute [local simp] Stage.grade Stage.after Stage.segment? Stage.reached Stage.mapping?
  Attach.grade Detach.grade Attach.segment? Attach.mapping? Detach.mapping? Call.mapping?
  Call.mark? Reply.ofResult Stage.position Stage.lead Attach.lead Detach.lead

namespace Attach.Transition

variable {a : Attach} {phase : Phase} {s t : Site} {progress : Progress Phase Result}

theorem follows (h : Transition a phase s progress t) (hrole : a.config.isLeader = false)
    (hsuits : a.Suits phase) (hplaced : ∀ m, mapping? phase = some m → m.Placed s.process.space)
    (hknown : ∀ id, segment? phase = some id → id < s.kernel.segments.length) (id : SegmentId) :
    Tread ((Stage.calling (.attach a phase)).grade s id) (s.kernel.header id)
      ((Call.attach a phase).mark? id)
      ((Stage.after (progress.map (.attach a) .ofResult)).grade t id) (t.kernel.header id) ∧
    t.kernel.names = s.kernel.names := by
  -- A step concerns the segment only if it is the one that the call has mapped.
  cases h with
  | found | absent | unopened | short | sized | foundUnmapped | unready | expired | waiting
  | woken | asleep =>
    refine ⟨?_, rfl⟩
    simp
    exact .stay
  | foundMapped hmap =>
    have ht := (Site.mapped_of_mapSegment hmap).2.2.1
    rw [ht]
    refine ⟨?_, rfl⟩
    simp
    exact .stay
  | @ready _ _ m hready =>
    refine ⟨?_, rfl⟩
    by_cases hid : m.segment = id
    · subst hid
      simpa using .pass hready
    · simpa [hid] using .stay
  | @refused _ _ m =>
    refine ⟨?_, rfl⟩
    by_cases hid : m.segment = id
    · simpa [hid] using .refuse
    · simpa [hid] using .stay
  | @owned _ _ m | @matched _ _ m | @confirmed _ _ m | @unregistered _ m | @registerFatal _ m =>
    refine ⟨?_, rfl⟩
    by_cases hid : m.segment = id <;> simpa [hid] using .stay
  | @orphaned _ _ m | @mismatched _ _ m =>
    refine ⟨?_, rfl⟩
    by_cases hid : m.segment = id
    · simpa [hid] using .fade (Or.inl rfl)
    · simpa [hid] using .stay
  | @raised _ _ m =>
    refine ⟨?_, rfl⟩
    have hlt := hknown m.segment rfl
    by_cases hid : m.segment = id
    · subst hid
      simpa [Site.modifyHeader, Kernel.header_modifyHeader hlt] using .raise
    · simpa [hid, Ne.symm hid, Site.modifyHeader, Kernel.header_modifyHeader hlt] using .stay
  | @withdrawn _ _ m =>
    refine ⟨?_, rfl⟩
    have hlt := hknown m.segment rfl
    by_cases hid : m.segment = id
    · subst hid
      simpa [Site.modifyHeader, Site.unmap, Kernel.header_modifyHeader hlt] using
        .lower (g := .refused) rfl
    · simpa [hid, Ne.symm hid, Site.modifyHeader, Site.unmap, Kernel.header_modifyHeader hlt] using
        .stay
  | @joined _ m =>
    refine ⟨?_, rfl⟩
    have hlt := hknown m.segment rfl
    by_cases hid : m.segment = id
    · subst hid
      simpa [Site.modifyHeader, Kernel.header_modifyHeader hlt] using .join
    · simpa [hid, Ne.symm hid, Site.modifyHeader, Kernel.header_modifyHeader hlt] using .stay
  | @registered _ m =>
    refine ⟨?_, rfl⟩
    by_cases hid : m.segment = id <;> simpa [hid, hrole] using .stay
  | @undoneError _ m | @undoneFault _ m | @undoneAbort _ m =>
    have hundone : a.undone s m = (s.modifyHeader m .leave).unmap m := by
      rw [undone, if_neg (by simp [hrole])]
    rw [hundone]
    refine ⟨?_, rfl⟩
    have hlt := hknown m.segment rfl
    by_cases hid : m.segment = id
    · subst hid
      simpa [hrole, Site.modifyHeader, Site.unmap, Kernel.header_modifyHeader hlt] using
        .lower (g := .joined) rfl
    · simpa [hid, Ne.symm hid, Site.modifyHeader, Site.unmap, Kernel.header_modifyHeader hlt] using
        .stay
  | @finished _ m _ p h =>
    refine ⟨?_, rfl⟩
    obtain ⟨hbooked, ho⟩ := succeeded_spec h
    have hspace := Memory.AddressSpace.Relocked.of_eq hbooked.space_eq
    have hm := ((hplaced m rfl).relocked hspace).mappingOf?_eq (s := ⟨s.kernel, p⟩) hsuits
    split at ho
    · subst ho
      by_cases hid : m.segment = id <;> simpa [hid, hm] using .stay
    · subst ho
      by_cases hid : m.segment = id
      · simpa [hid] using .fade (Or.inr rfl)
      · simpa [hid] using .stay
  | failed h =>
    refine ⟨?_, rfl⟩
    rcases (failed_spec h).2 with rfl | ⟨_, _, _, rfl⟩ <;> simpa using .stay
  | _ => simp [Suits, hrole] at hsuits

theorem leads (h : Transition a phase s progress t) (hrole : a.config.isLeader = true)
    (hsuits : a.Suits phase) (hplaced : ∀ m, mapping? phase = some m → m.Placed s.process.space)
    (hknown : ∀ id, segment? phase = some id → id < s.kernel.segments.length) (id : SegmentId) :
    Stride (∃ name, s.kernel.names.get? name = some id) (s.kernel.segments.length ≤ id)
      ((Stage.calling (.attach a phase)).lead s id) (s.kernel.header id)
      ((Call.attach a phase).mark? id)
      ((Stage.after (progress.map (.attach a) .ofResult)).lead t id) (t.kernel.header id) := by
  cases h with
  | leftoverAbsent | leftoverUnopened | leftoverRemoved | leftoverGone | leftoverReported
  | leftoverFatal | nameTaken | uncreated =>
    simp
    exact .stay
  | @leftoverFound _ j hopen =>
    have hbound := Site.names_of_openSegment hopen
    by_cases hid : j = id
    · subst hid
      simpa using .find ⟨_, hbound⟩
    · simpa [hid] using .stay
  | @leftoverShort _ j | @leftoverUnmapped _ j =>
    by_cases hid : j = id
    · simpa [hid] using .stop (by simp)
    · simpa [hid] using .stay
  | @leftoverLong _ j =>
    by_cases hid : j = id <;> simpa [hid] using .stay
  | @leftoverOrphaned _ m =>
    by_cases hid : m.segment = id <;> simpa [hid] using .stay
  | @leftoverMapped _ _ j m hmap =>
    obtain ⟨hsegment, -, ht, -⟩ := Site.mapped_of_mapSegment hmap
    rw [ht]
    by_cases hid : j = id <;> simpa [hid, hsegment] using .stay
  | @leftoverOwned _ m =>
    by_cases hid : m.segment = id
    · simpa [hid, Site.unmap] using .stop (by simp)
    · simpa [hid, Site.unmap] using .stay
  | @leftoverRetired _ m =>
    have hlt := hknown m.segment rfl
    by_cases hid : m.segment = id
    · subst hid
      simpa [Site.modifyHeader, Site.unmap, Kernel.header_modifyHeader hlt] using .retireLeftover
    · simpa [hid, Ne.symm hid, Site.modifyHeader, Site.unmap, Kernel.header_modifyHeader hlt] using
        .stay
  | @created _ t j hcreate =>
    obtain ⟨hcreated, -⟩ := Site.created_of_createSegment hcreate
    rw [Kernel.header_created hcreated]
    by_cases hid : j = id
    · subst hid
      simpa [Kernel.header_of_le hcreated.length_le] using .create hcreated.length_le
    · simpa [hid] using .stay
  | @resized _ t j hresize =>
    rw [Site.of_resizeSegment hresize]
    by_cases hid : j = id
    · subst hid
      obtain ⟨hstate, hjoined, hlive⟩ := s.kernel.header_resize j a.total
      simpa using .prepare hstate hjoined hlive
    · simpa [hid, Kernel.header_modifySegment_of_ne] using .stay
  | @unresized _ j | @unmapped _ j =>
    by_cases hid : j = id <;> simpa [hid] using .giveUp (by simp)
  | @mapped _ _ j m hmap =>
    obtain ⟨hsegment, -, ht, -⟩ := Site.mapped_of_mapSegment hmap
    rw [ht]
    by_cases hid : j = id <;> simpa [hid, hsegment] using .stay
  | discarded => simpa [Site.unbind] using .takeBack
  | @claimed _ m =>
    have hlt := hknown m.segment rfl
    by_cases hid : m.segment = id
    · subst hid
      simpa [Site.modifyHeader, Kernel.header_modifyHeader hlt] using
        .prepare (fun h => h) (fun h => h) (fun h => h)
    · simpa [hid, Ne.symm hid, Site.modifyHeader, Kernel.header_modifyHeader hlt] using .stay
  | @registered _ m =>
    by_cases hid : m.segment = id <;> simpa [hid, hrole] using .stay
  | @unregistered _ m | @registerFatal _ m =>
    by_cases hid : m.segment = id <;> simpa [hid] using .giveUp (by simp)
  | @undoneError _ m | @undoneFault _ m | @undoneAbort _ m =>
    have hundone : a.undone s m = (s.unbind a.config.segment).unmap m := by
      rw [undone, if_pos hrole]
    rw [hundone]
    simpa [hrole, Site.unbind, Site.unmap] using .takeBack
  | @bytesPublished _ m =>
    have hlt := hknown m.segment rfl
    by_cases hid : m.segment = id
    · subst hid
      simpa [Site.modifyHeader, Kernel.header_modifyHeader hlt] using
        .prepare (fun h => h) (fun h => h) (fun h => h)
    · simpa [hid, Ne.symm hid, Site.modifyHeader, Kernel.header_modifyHeader hlt] using .stay
  | @joinedPublished _ m =>
    have hlt := hknown m.segment rfl
    by_cases hid : m.segment = id
    · subst hid
      simpa [Site.modifyHeader, Kernel.header_modifyHeader hlt] using .putJoined
    · simpa [hid, Ne.symm hid, Site.modifyHeader, Kernel.header_modifyHeader hlt] using .stay
  | @livePublished _ m =>
    have hlt := hknown m.segment rfl
    by_cases hid : m.segment = id
    · subst hid
      simpa [Site.modifyHeader, Kernel.header_modifyHeader hlt] using .putLive
    · simpa [hid, Ne.symm hid, Site.modifyHeader, Kernel.header_modifyHeader hlt] using .stay
  | @statePublished _ m =>
    have hlt := hknown m.segment rfl
    by_cases hid : m.segment = id
    · subst hid
      simpa [Site.modifyHeader, Kernel.header_modifyHeader hlt] using .putState
    · simpa [hid, Ne.symm hid, Site.modifyHeader, Kernel.header_modifyHeader hlt] using .stay
  | @finished _ m _ p h =>
    obtain ⟨hbooked, ho⟩ := succeeded_spec h
    have hspace := Memory.AddressSpace.Relocked.of_eq hbooked.space_eq
    have hm := ((hplaced m rfl).relocked hspace).mappingOf?_eq (s := ⟨s.kernel, p⟩) hsuits
    split at ho
    · subst ho
      by_cases hid : m.segment = id <;> simpa [hid, hm] using .stay
    · subst ho
      by_cases hid : m.segment = id
      · simpa [hid] using .stop (by simp)
      · simpa [hid] using .stay
  | failed h =>
    rcases (failed_spec h).2 with rfl | ⟨_, _, _, rfl⟩ <;> simpa using .stay
  | _ => simp [Suits, hrole] at hsuits

theorem lead_ne_discarding (h : takesBack phase = false) (id : SegmentId) :
    (Stage.calling (.attach a phase)).lead s id ≠ .discarding := by
  cases phase with
  | discard | undo => cases h
  | _ =>
    simp only [Stage.lead]
    split <;> simp

/-- Who is bound after the leader's step was bound before, or the leader has just created it. What
the leader takes back is not bound to its name any more. -/
theorem leads_names (h : Transition a phase s progress t) (hrole : a.config.isLeader = true)
    {id : SegmentId} {name : SegmentName} (hbound : t.kernel.names.get? name = some id) :
    (name = a.config.segment ∧
      (Stage.after (progress.map (.attach a) .ofResult)).lead t id = .blank) ∨
    s.kernel.names.get? name = some id ∧
      ((Stage.calling (.attach a phase)).lead s id = .discarding →
        (Stage.after (progress.map (.attach a) .ofResult)).lead t id = .away →
        name ≠ a.config.segment) := by
  cases h with
  | leftoverMapped h | mapped h | foundMapped h =>
    rw [(Site.mapped_of_mapSegment h).2.2.1] at hbound
    exact Or.inr ⟨hbound, fun hd => absurd hd (lead_ne_discarding rfl id)⟩
  | leftoverRemoved =>
    simp only [Site.unbind, Kernel.get?_names_unbind] at hbound
    split at hbound
    · cases hbound
    · exact Or.inr ⟨hbound, fun hd => absurd hd (lead_ne_discarding rfl id)⟩
  | discarded =>
    simp only [Site.unbind, Kernel.get?_names_unbind] at hbound
    split at hbound
    case isTrue => cases hbound
    case isFalse hne => exact Or.inr ⟨hbound, fun _ _ => hne⟩
  | undoneError | undoneFault | undoneAbort =>
    simp only [undone, if_pos hrole, Site.unmap, Site.unbind, Kernel.get?_names_unbind] at hbound
    split at hbound
    case isTrue => cases hbound
    case isFalse hne => exact Or.inr ⟨hbound, fun _ _ => hne⟩
  | created hcreate =>
    obtain ⟨hcreated, -⟩ := Site.created_of_createSegment hcreate
    rw [hcreated.names_eq] at hbound
    split at hbound
    case isTrue heq =>
      cases hbound
      exact Or.inl ⟨heq, by simp⟩
    case isFalse =>
      exact Or.inr ⟨hbound, fun hd => absurd hd (lead_ne_discarding rfl id)⟩
  | resized hresize =>
    rw [Site.of_resizeSegment hresize] at hbound
    exact Or.inr ⟨hbound, fun hd => absurd hd (lead_ne_discarding rfl id)⟩
  | _ => exact Or.inr ⟨hbound, fun hd => absurd hd (lead_ne_discarding rfl id)⟩

end Attach.Transition

namespace Detach.Transition

variable {d : Detach} {phase : Phase} {s t : Site} {progress : Progress Phase Unit}

theorem follows (h : Transition d phase s progress t) (hrole : d.config.isLeader = false)
    (hsuits : d.Suits phase)
    (hknown : ∀ id, (Stage.calling (.detach d phase)).segment? s = some id →
      id < s.kernel.segments.length) (id : SegmentId) :
    Tread ((Stage.calling (.detach d phase)).grade s id) (s.kernel.header id)
      ((Call.detach d phase).mark? id)
      ((Stage.after (progress.map (.detach d) fun _ => .released)).grade t id)
      (t.kernel.header id) ∧
    t.kernel.names = s.kernel.names := by
  cases h with
  | refused | lost =>
    refine ⟨?_, rfl⟩
    cases hm : s.mappingOf? d.block with
    | none => simpa [hm] using .stay
    | some m =>
      by_cases hid : m.segment = id
      · simpa [hm, hid] using .fade (Or.inr rfl)
      · simpa [hm, hid] using .stay
  | @unregistered _ p m h hm =>
    refine ⟨?_, rfl⟩
    have hkept := (Device.kept_of_unregister h).relocked
    have hbefore : s.mappingOf? d.block = some m :=
      (Site.mappingOf?_relocked (t := ⟨s.kernel, p⟩) hkept d.block).symm.trans hm
    by_cases hid : m.segment = id <;> simpa [hid, hrole, hbefore] using .stay
  | @left _ m =>
    refine ⟨?_, rfl⟩
    have hlt := hknown m.segment rfl
    by_cases hid : m.segment = id
    · subst hid
      simpa [hrole, Site.modifyHeader, Kernel.header_modifyHeader hlt] using
        .lower (g := .joined) rfl
    · simpa [hid, Ne.symm hid, Site.modifyHeader, Kernel.header_modifyHeader hlt] using .stay
  | @closed _ m _ _ o =>
    refine ⟨?_, rfl⟩
    by_cases hid : m.segment = id <;> cases o <;> simpa [hid] using .stay
  | _ => simp [Suits, hrole] at hsuits

theorem leads (h : Transition d phase s progress t) (hrole : d.config.isLeader = true)
    (hknown : ∀ id, (Stage.calling (.detach d phase)).segment? s = some id →
      id < s.kernel.segments.length) (id : SegmentId) (bound fresh : Prop) :
    Stride bound fresh ((Stage.calling (.detach d phase)).lead s id) (s.kernel.header id)
      ((Call.detach d phase).mark? id)
      ((Stage.after (progress.map (.detach d) fun _ => .released)).lead t id)
      (t.kernel.header id) := by
  cases h with
  | refused | lost =>
    cases hm : s.mappingOf? d.block with
    | none => simpa [hm] using .stay
    | some m =>
      by_cases hid : m.segment = id
      · simpa [hm, hid] using .stop (by simp)
      · simpa [hm, hid] using .stay
  | @unregistered _ p m h hm =>
    have hkept := (Device.kept_of_unregister h).relocked
    have hbefore : s.mappingOf? d.block = some m :=
      (Site.mappingOf?_relocked (t := ⟨s.kernel, p⟩) hkept d.block).symm.trans hm
    by_cases hid : m.segment = id <;> simpa [hid, hrole, hbefore] using .stay
  | @hurried _ m | @patient _ m | @joinedRead _ _ m | @gathered _ _ m | @ungathered _ _ m
  | @expired _ _ m | @waiting _ _ m | @woken _ _ m | @asleep _ _ m | @unlinked _ m
  | @unlinkFailed _ m =>
    by_cases hid : m.segment = id <;> simpa [hid] using .stay
  | @overflowed _ m =>
    by_cases hid : m.segment = id
    · simpa [hid, Site.unmap] using .stop (by simp)
    · simpa [hid, Site.unmap] using .stay
  | @retired _ m =>
    have hlt := hknown m.segment rfl
    by_cases hid : m.segment = id
    · subst hid
      simpa [Site.modifyHeader, Kernel.header_modifyHeader hlt] using .retire
    · simpa [hid, Ne.symm hid, Site.modifyHeader, Kernel.header_modifyHeader hlt] using .stay
  | @left _ m =>
    have hlt := hknown m.segment rfl
    by_cases hid : m.segment = id
    · subst hid
      simpa [hrole, Site.modifyHeader, Kernel.header_modifyHeader hlt] using .depart
    · simpa [hid, Ne.symm hid, Site.modifyHeader, Kernel.header_modifyHeader hlt] using .stay
  | @closed _ m _ _ o =>
    by_cases hid : m.segment = id
    · cases o <;> simpa [hid] using .stop (by simp)
    · cases o <;> simpa [hid] using .stay

theorem leads_names (h : Transition d phase s progress t) {id : SegmentId} {name : SegmentName}
    (hbound : t.kernel.names.get? name = some id) : s.kernel.names.get? name = some id := by
  cases h with
  | unlinked =>
    simp only [Site.unbind, Kernel.get?_names_unbind] at hbound
    split at hbound
    · cases hbound
    · exact hbound
  | _ => exact hbound

end Detach.Transition

end

/-! ### The books -/

def enter (count : Mark → Nat) (mark? : Option Mark) (mark : Mark) : Nat :=
  count mark + if mark? = some mark then 1 else 0

structure Books (h : Header) (count : Mark → Nat) : Prop where
  early : h.state = 0 → ∀ mark, count mark = 0
  state_mem : h.state = 0 ∨ h.state = Header.readyMark ∨ h.state = Header.retiredMark
  live_eq : h.state ≠ 0 → h.live.toNat + count .lower + count .depart = 1 + count .raise
  joined_eq : h.state ≠ 0 → h.joined.toNat = 1 + count .join
  depart_le : count .depart ≤ 1

def Lead.Posted (h : Header) : Lead → Prop
  | away | discarding => True
  | scavenging => h.state ≠ 0
  | blank | withJoined | withLive => h.state = 0
  | active => h.state = Header.readyMark
  | retiring | gone => h.state = Header.retiredMark

def Lead.Fits (h : Header) (count : Mark → Nat) : Lead → Prop
  | away | discarding => True
  | scavenging => h.state ≠ 0
  | blank => h.state = 0 ∧ h.live = 0 ∧ h.joined = 0
  | withJoined => h.state = 0 ∧ h.live = 0 ∧ h.joined = 1
  | withLive => h.state = 0 ∧ h.live = 1 ∧ h.joined = 1
  | active => h.state = Header.readyMark ∧ count .depart = 0
  | retiring => h.state = Header.retiredMark ∧ count .depart = 0
  | gone => h.state = Header.retiredMark

theorem entries_cons {ι : Type v} {id : SegmentId} {mark : Mark} {i : ι} {c : Call}
    {history : List (Access ι)} :
    entries id mark (⟨i, c⟩ :: history) = enter (entries id · history) (c.mark? id) mark := by
  simp only [entries, enter, List.countP_cons, decide_eq_true_eq]

theorem entries_le_append {ι : Type v} {id : SegmentId} {mark : Mark}
    (later earlier : List (Access ι)) :
    entries id mark earlier ≤ entries id mark (later ++ earlier) :=
  (List.sublist_append_right later earlier).countP_le

@[simp] theorem enter_none (count : Mark → Nat) : enter count none = count := by
  funext mark
  simp [enter]

theorem Header.toNat_live_raiseLive {h : Header} (hfew : h.live.toNat + 1 < UInt32.size) :
    h.raiseLive.live.toNat = h.live.toNat + 1 := by
  simp only [raiseLive, UInt32.toNat_add, UInt32.reduceToNat]
  exact Nat.mod_eq_of_lt hfew

theorem Header.toNat_joined_raiseJoined {h : Header} (hfew : h.joined.toNat + 1 < UInt32.size) :
    h.raiseJoined.joined.toNat = h.joined.toNat + 1 := by
  simp only [raiseJoined, UInt32.toNat_add, UInt32.reduceToNat]
  exact Nat.mod_eq_of_lt hfew

theorem Header.toNat_live_lowerLive {h : Header} (hsome : 0 < h.live.toNat) :
    h.lowerLive.live.toNat + 1 = h.live.toNat := by
  have hle : (1 : UInt32) ≤ h.live := UInt32.le_iff_toNat_le.mpr hsome
  simp only [lowerLive, UInt32.toNat_sub_of_le _ _ hle, UInt32.reduceToNat]
  omega

theorem Header.readyMark_ne_zero : readyMark ≠ 0 := by decide

theorem Header.retiredMark_ne_zero : retiredMark ≠ 0 := by decide

/-- The mark does not make a count wrap. -/
structure Header.Room (h : Header) (mark? : Option Mark) : Prop where
  live : mark? = some .raise → h.live.toNat + 1 < UInt32.size
  joined : mark? = some .join → h.joined.toNat + 1 < UInt32.size

namespace Tread

variable {g g' : Grade} {h h' : Header} {mark? : Option Mark} {count : Mark → Nat}

/-- No follower writes the state. -/
theorem state_eq (ht : Tread g h mark? g' h') : h'.state = h.state := by
  cases ht <;> rfl

/-- A follower that is not away has seen the segment ready. -/
theorem state_ne_zero (ht : Tread g h mark? g' h') (hpassed : g ≠ .away → h.state ≠ 0)
    (haway : g' ≠ .away) : h'.state ≠ 0 := by
  cases ht with
  | stay => exact hpassed haway
  | fade => exact absurd rfl haway
  | pass hready =>
    have heq : h.state = Header.readyMark := by simpa [Header.isReady] using hready
    rw [heq]
    exact Header.readyMark_ne_zero
  | raise | refuse => exact hpassed (by simp)
  | lower => exact absurd rfl haway
  | join => exact hpassed (by simp)

/-- Nobody lowers a live count of zero: who lowers it stands in it. -/
theorem live_pos (ht : Tread g h mark? g' h') (hbooks : Books h count)
    (hpassed : g ≠ .away → h.state ≠ 0) (hstands : g.stands = true → count .lower < count .raise)
    (hmark : mark? = some .lower) : 0 < h.live.toNat := by
  cases ht with
  | lower hg =>
    have hstate : h.state ≠ 0 := hpassed (by rintro rfl; cases hg)
    have hlive := hbooks.live_eq hstate
    have hlower := hstands hg
    have hdepart := hbooks.depart_le
    omega
  | _ => cases hmark

theorem ne_depart (ht : Tread g h mark? g' h') : mark? ≠ some .depart := by
  cases ht <;> simp

/-- Who enters a mark has seen the segment published. -/
theorem published (ht : Tread g h mark? g' h') (hpassed : g ≠ .away → h.state ≠ 0)
    (hmark : mark? ≠ none) : h.state ≠ 0 := by
  cases ht with
  | stay | fade | pass | refuse => exact absurd rfl hmark
  | raise | join => exact hpassed (by simp)
  | lower hg => exact hpassed (by rintro rfl; cases hg)

theorem books (ht : Tread g h mark? g' h') (hbooks : Books h count)
    (hpassed : g ≠ .away → h.state ≠ 0)
    (hstands : g.stands = true → count .lower < count .raise) (hroom : h.Room mark?) :
    Books h' (enter count mark?) := by
  cases ht with
  | stay | fade | pass | refuse => simpa using hbooks
  | raise =>
    have hstate : h.state ≠ 0 := hpassed (by simp)
    have hlive := hbooks.live_eq hstate
    have hjoined := hbooks.joined_eq hstate
    have hraised := Header.toNat_live_raiseLive (hroom.live rfl)
    refine ⟨fun hz => absurd hz hstate, hbooks.state_mem, ?_, ?_, ?_⟩
    · intro _
      simp [enter]
      omega
    · intro _
      simpa [enter, Header.raiseLive] using hjoined
    · simpa [enter] using hbooks.depart_le
  | lower hg =>
    have hstate : h.state ≠ 0 := hpassed (by rintro rfl; cases hg)
    have hlive := hbooks.live_eq hstate
    have hjoined := hbooks.joined_eq hstate
    have hlowered := Header.toNat_live_lowerLive
      (live_pos (.lower hg) hbooks hpassed hstands rfl)
    refine ⟨fun hz => absurd hz hstate, hbooks.state_mem, ?_, ?_, ?_⟩
    · intro _
      simp [enter]
      omega
    · intro _
      simpa [enter, Header.lowerLive] using hjoined
    · simpa [enter] using hbooks.depart_le
  | join =>
    have hstate : h.state ≠ 0 := hpassed (by simp)
    have hlive := hbooks.live_eq hstate
    have hjoined := hbooks.joined_eq hstate
    have hraised := Header.toNat_joined_raiseJoined (hroom.joined rfl)
    refine ⟨fun hz => absurd hz hstate, hbooks.state_mem, ?_, ?_, ?_⟩
    · intro _
      simpa [enter, Header.raiseJoined] using hlive
    · intro _
      simp [enter]
      omega
    · simpa [enter] using hbooks.depart_le

/-- Where few have raised the live count, no count wraps. -/
theorem room_of_few (ht : Tread g h mark? g' h') (hbooks : Books h count)
    (hpassed : g ≠ .away → h.state ≠ 0) (hjoins : g.joins = true → count .join < count .raise)
    (hfew : enter count mark? .raise + 1 < UInt32.size) : h.Room mark? where
  live hmark := by
    subst hmark
    have hlive := hbooks.live_eq (ht.published hpassed (by simp))
    simp only [enter, if_true] at hfew
    omega
  joined hmark := by
    subst hmark
    have hjoined := hbooks.joined_eq (ht.published hpassed (by simp))
    cases ht with
    | join =>
      have hlt := hjoins rfl
      simp [enter] at hfew
      omega

/-- Who has been refused joins no more until it raises the live count again. -/
theorem late (ht : Tread g h mark? g' h') (hlate : g = .away ∨ g = .passed ∨ g = .refused)
    (hmark : mark? ≠ some .raise) :
    (g' = .away ∨ g' = .passed ∨ g' = .refused) ∧ mark? ≠ some .join := by
  cases ht with
  | stay => exact ⟨hlate, by simp⟩
  | fade | lower => exact ⟨Or.inl rfl, by simp⟩
  | pass => exact ⟨Or.inr (Or.inl rfl), by simp⟩
  | refuse => exact ⟨Or.inr (Or.inr rfl), by simp⟩
  | raise => exact absurd rfl hmark
  | join => rcases hlate with h | h | h <;> cases h

/-- Who has not come yet does not come while the segment is not ready. -/
theorem away_stays (ht : Tread .away h mark? g' h') (hready : h.isReady = false) :
    g' = .away ∧ h' = h := by
  cases ht with
  | stay | fade => exact ⟨rfl, rfl⟩
  | pass hpass =>
    rw [hready] at hpass
    cases hpass
  | lower hstands => cases hstands

/-- Only a join attaches a follower. -/
theorem ne_joined (ht : Tread g h mark? g' h') (hg : g ≠ .joined) (hmark : mark? ≠ some .join) :
    g' ≠ .joined := by
  cases ht with
  | stay => exact hg
  | join => exact absurd rfl hmark
  | _ => simp

theorem joined_le (ht : Tread g h mark? g' h') (hbooks : Books h count)
    (hpassed : g ≠ .away → h.state ≠ 0) (hjoins : g.joins = true → count .join < count .raise)
    (hfew : count .raise + 1 < UInt32.size) : h.joined ≤ h'.joined := by
  cases ht with
  | join =>
    have hjoined := hbooks.joined_eq (hpassed (by simp))
    have hlt := hjoins rfl
    have hraised : h.raiseJoined.joined.toNat = h.joined.toNat + 1 :=
      Header.toNat_joined_raiseJoined (by omega)
    rw [UInt32.le_iff_toNat_le, hraised]
    exact Nat.le_succ _
  | _ => exact UInt32.le_refl _

theorem standing_le {total total' : Nat} (ht : Tread g h mark? g' h')
    (htotal : total' + g.stands.toNat = total + g'.stands.toNat)
    (hle : total + count .lower ≤ count .raise) :
    total' + enter count mark? .lower ≤ enter count mark? .raise := by
  cases ht with
  | lower hg =>
    rw [hg] at htotal
    simp at htotal
    simp [enter]
    omega
  | _ =>
    simp at htotal
    simp [enter]
    omega

theorem joining_le {total total' : Nat} (ht : Tread g h mark? g' h')
    (htotal : total' + g.joins.toNat = total + g'.joins.toNat)
    (hle : total + count .join ≤ count .raise) :
    total' + enter count mark? .join ≤ enter count mark? .raise := by
  cases ht <;> simp [enter] at htotal ⊢ <;> omega

/-- Who stands in the live count without being joined takes itself back, or joins. -/
theorem raise_le (ht : Tread g h mark? g' h')
    (hle : count .raise ≤ count .lower + count .join + g.pends.toNat) :
    enter count mark? .raise ≤
      enter count mark? .lower + enter count mark? .join + g'.pends.toNat := by
  cases ht with
  | @lower g =>
    have hone := g.pends.toNat_le
    simp [enter]
    omega
  | fade hg => rcases hg with rfl | rfl <;> simpa [enter] using hle
  | _ =>
    simp [enter] at hle ⊢
    omega

theorem enter_depart (ht : Tread g h mark? g' h') : enter count mark? .depart = count .depart := by
  cases ht <;> rfl

/-- As long as the segment is not published, no follower touches it. -/
theorem header_eq (ht : Tread g h mark? g' h') (hpassed : g ≠ .away → h.state ≠ 0)
    (hzero : h.state = 0) : h' = h := by
  cases ht with
  | stay | fade | pass | refuse => rfl
  | raise | join => exact absurd hzero (hpassed (by simp))
  | lower hg => exact absurd hzero (hpassed (by rintro rfl; cases hg))

theorem posted {p : Lead} (ht : Tread g h mark? g' h') (hposted : p.Posted h) : p.Posted h' := by
  cases p with
  | away | discarding => trivial
  | _ =>
    simp only [Lead.Posted, ht.state_eq]
    exact hposted

theorem fits {p : Lead} (ht : Tread g h mark? g' h') (hpassed : g ≠ .away → h.state ≠ 0)
    (hfits : p.Fits h count) : p.Fits h' (enter count mark?) := by
  cases p with
  | away | discarding => trivial
  | scavenging =>
    simp only [Lead.Fits, ht.state_eq]
    exact hfits
  | blank | withJoined | withLive => exact (ht.header_eq hpassed hfits.1) ▸ hfits
  | active | retiring =>
    refine ⟨ht.state_eq.trans hfits.1, ?_⟩
    rw [ht.enter_depart]
    exact hfits.2
  | gone => exact ht.state_eq.trans hfits

end Tread

namespace Stride

variable {bound fresh : Prop} {p p' : Lead} {h h' : Header} {mark? : Option Mark} {count : Mark → Nat}

/-- The leader enters nothing but its departure. -/
theorem ne_of_ne_depart (hs : Stride bound fresh p h mark? p' h') {mark : Mark} (hmark : mark ≠ .depart) :
    mark? ≠ some mark := by
  cases hs with
  | depart => simpa using Ne.symm hmark
  | _ => simp

theorem live_pos (hs : Stride bound fresh p h mark? p' h') (hbooks : Books h count)
    (hfits : p.Fits h count) (hlower : count .lower ≤ count .raise)
    (hmark : mark? = some .depart) : 0 < h.live.toNat := by
  cases hs with
  | depart =>
    have hstate : h.state ≠ 0 := by
      rw [hfits.1]
      exact Header.retiredMark_ne_zero
    have hlive := hbooks.live_eq hstate
    have hnone : count .depart = 0 := hfits.2
    omega
  | _ => cases hmark

theorem fits (hs : Stride bound fresh p h mark? p' h')
    (hearly : h.state = 0 → ∀ mark, count mark = 0) (hfits : p.Fits h count)
    (hbound : bound → p = .away → h.state ≠ 0) : p'.Fits h' (enter count mark?) := by
  cases hs with
  | stay => simpa using hfits
  | find hfound => exact hbound hfound rfl
  | stop | retireLeftover | giveUp | takeBack => trivial
  | create => exact ⟨rfl, rfl, rfl⟩
  | prepare hstate hjoined hlive =>
    exact ⟨hstate hfits.1, hlive hfits.2.1, hjoined hfits.2.2⟩
  | putJoined => exact ⟨hfits.1, hfits.2.1, rfl⟩
  | putLive => exact ⟨hfits.1, rfl, hfits.2.2⟩
  | putState => exact ⟨rfl, hearly hfits.1 .depart⟩
  | retire => exact ⟨rfl, hfits.2⟩
  | depart => exact hfits.1

theorem books (hs : Stride bound fresh p h mark? p' h') (hbooks : Books h count)
    (hfits : p.Fits h count) (hlower : count .lower ≤ count .raise) :
    Books h' (enter count mark?) := by
  cases hs with
  | stay | find | stop | create | giveUp | takeBack => simpa using hbooks
  | retireLeftover =>
    have hstate : h.state ≠ 0 := hfits
    rw [enter_none]
    exact ⟨fun hz => absurd hz Header.retiredMark_ne_zero, Or.inr (Or.inr rfl),
      fun _ => hbooks.live_eq hstate, fun _ => hbooks.joined_eq hstate, hbooks.depart_le⟩
  | prepare hstate _ _ =>
    have hzero := hstate hfits.1
    rw [enter_none]
    exact ⟨fun _ => hbooks.early hfits.1, Or.inl hzero, fun hne => absurd hzero hne,
      fun hne => absurd hzero hne, hbooks.depart_le⟩
  | putJoined | putLive =>
    have hzero : h.state = 0 := hfits.1
    rw [enter_none]
    exact ⟨fun _ => hbooks.early hzero, Or.inl hzero, fun hne => absurd hzero hne,
      fun hne => absurd hzero hne, hbooks.depart_le⟩
  | putState =>
    obtain ⟨hzero, hlive, hjoined⟩ := hfits
    have hnone := hbooks.early hzero
    rw [enter_none]
    refine ⟨fun hz => absurd hz Header.readyMark_ne_zero, Or.inr (Or.inl rfl), ?_,
      ?_, hbooks.depart_le⟩
    · intro _
      simp [Header.setState, hlive, hnone]
    · intro _
      simp [Header.setState, hjoined, hnone]
  | retire =>
    have hstate : h.state ≠ 0 := by
      rw [hfits.1]
      exact Header.readyMark_ne_zero
    rw [enter_none]
    exact ⟨fun hz => absurd hz Header.retiredMark_ne_zero, Or.inr (Or.inr rfl),
      fun _ => hbooks.live_eq hstate, fun _ => hbooks.joined_eq hstate, hbooks.depart_le⟩
  | depart =>
    have hstate : h.state ≠ 0 := by
      rw [hfits.1]
      exact Header.retiredMark_ne_zero
    have hlive := hbooks.live_eq hstate
    have hjoined := hbooks.joined_eq hstate
    have hnone : count .depart = 0 := hfits.2
    have hdepart : Stride bound fresh .retiring h (some .depart) .gone h.lowerLive := .depart
    have hlowered := Header.toNat_live_lowerLive (hdepart.live_pos hbooks hfits hlower rfl)
    refine ⟨fun hz => absurd hz hstate, hbooks.state_mem, ?_, ?_, ?_⟩
    · intro _
      simp [enter]
      omega
    · intro _
      simpa [enter, Header.lowerLive] using hjoined
    · simp [enter, hnone]

theorem joined_le (hs : Stride bound fresh p h mark? p' h') (hfits : p.Fits h count) :
    h.joined ≤ h'.joined := by
  cases hs with
  | prepare hstate hjoined _ =>
    rw [hfits.2.2, hjoined hfits.2.2]
    exact UInt32.le_refl _
  | putJoined =>
    rw [hfits.2.2]
    exact (by decide : (0 : UInt32) ≤ 1)
  | _ => exact UInt32.le_refl _

theorem enter_of_ne_depart (hs : Stride bound fresh p h mark? p' h') {mark : Mark}
    (hmark : mark ≠ .depart) : enter count mark? mark = count mark := by
  cases hs with
  | depart => simp [enter, Ne.symm hmark]
  | _ => rfl

theorem posted (hs : Stride bound fresh p h mark? p' h') (hposted : p.Posted h)
    (hbound : bound → p = .away → h.state ≠ 0) : p'.Posted h' := by
  cases hs with
  | find hfound => exact hbound hfound rfl
  | stop | retireLeftover | giveUp | takeBack => trivial
  | prepare hstate _ _ => exact hstate hposted
  | create | putState | retire => exact rfl
  | stay | putJoined | putLive | depart => exact hposted

/-- What was published stays so. -/
theorem state_ne_zero (hs : Stride bound fresh p h mark? p' h') (hposted : p.Posted h)
    (hstate : h.state ≠ 0) : h'.state ≠ 0 := by
  cases hs with
  | retireLeftover | retire => exact Header.retiredMark_ne_zero
  | prepare | putState => exact absurd hposted hstate
  | _ => exact hstate

/-- A segment that is given up stays so: the leader neither makes it again nor finds it. -/
theorem given_up (hs : Stride bound fresh p h mark? p' h') (hp : p = .away ∨ p = .discarding)
    (hfresh : ¬ fresh) (hbound : bound → p = .discarding) :
    (p' = .away ∨ p' = .discarding) ∧ h' = h := by
  cases hs with
  | stay => exact ⟨hp, rfl⟩
  | find hfound => cases hbound hfound
  | stop => exact ⟨Or.inl rfl, rfl⟩
  | create hnew => exact absurd hnew hfresh
  | giveUp => exact ⟨Or.inr rfl, rfl⟩
  | takeBack => exact ⟨Or.inl rfl, rfl⟩
  | _ => rcases hp with hp | hp <;> cases hp

/-- Only the last store publishes the segment. -/
theorem withLive_of_published (hs : Stride bound fresh p h mark? p' h') (hposted : p.Posted h)
    (hzero : h.state = 0) (hstate : h'.state ≠ 0) : p = .withLive := by
  cases hs with
  | putState => rfl
  | retireLeftover => exact absurd hzero hposted
  | retire => exact absurd (hposted.symm.trans hzero) Header.readyMark_ne_zero
  | prepare hkeeps _ _ => exact absurd (hkeeps hzero) hstate
  | create => exact absurd rfl hstate
  | _ => exact absurd hzero hstate

/-- The state goes from unpublished to ready to retired only. -/
theorem state_moves (hs : Stride bound fresh p h mark? p' h') (hbooks : Books h count)
    (hfits : p.Fits h count) : h'.state = h.state ∨
      h.state = 0 ∧ h'.state = Header.readyMark ∨
      h.state = Header.readyMark ∧ h'.state = Header.retiredMark := by
  cases hs with
  | prepare hstate _ _ => exact Or.inl ((hstate hfits.1).trans hfits.1.symm)
  | putState => exact Or.inr (Or.inl ⟨hfits.1, rfl⟩)
  | retire => exact Or.inr (Or.inr ⟨hfits.1, rfl⟩)
  | retireLeftover =>
    rcases hbooks.state_mem with hzero | hready | hretired
    · exact absurd hzero hfits
    · exact Or.inr (Or.inr ⟨hready, rfl⟩)
    · exact Or.inl hretired.symm
  | _ => exact Or.inl rfl

/-- Who sets the segment up does so until it is published or its name is taken back. -/
theorem setsUp (hs : Stride bound fresh p h mark? p' h') (hp : p.setsUp = true) (hzero : h'.state = 0)
    (htaken : p = .discarding → p' = .away → False) : p'.setsUp = true := by
  cases hs with
  | stay => exact hp
  | prepare | putJoined | putLive | giveUp => rfl
  | putState => exact absurd hzero Header.readyMark_ne_zero
  | takeBack => exact (htaken rfl rfl).elim
  | stop h => rcases h with rfl | rfl | rfl <;> cases hp
  | find | retireLeftover | create | retire | depart => cases hp

end Stride

end StagingMemory
