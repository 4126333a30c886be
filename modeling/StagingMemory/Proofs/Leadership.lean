import StagingMemory.Proofs.Machine
/-!
Which leader a bound name belongs to. From creating a segment until it has removed the name, a
leader's call, or the block that it holds, rules the name: the name is bound to the leader's
segment, and what the segment's header and length say is known for every phase. As long as no
leftover is removed under a name that somebody rules, and no ruled segment is retired as a leftover,
every step keeps this, and no two leaders rule one name. Main statement: `Machine.Ruled.step`.
-/
namespace StagingMemory

/-! ### Records -/

structure Record where
  state : UInt64
  bytes : UInt64
  owner : UInt32
  length : Nat

namespace Kernel

def record (k : Kernel) (id : SegmentId) : Record where
  state := (k.header id).state
  bytes := (k.header id).bytes
  owner := (k.header id).owner
  length := k.segmentLength id

/-- The name is bound to the segment, of which this is on record. -/
def Deed (k : Kernel) (name : SegmentName) (id : SegmentId) (r : Record) : Prop :=
  k.names.get? name = some id ∧ k.record id = r

theorem record_of_le {k : Kernel} {id : SegmentId} (h : k.segments.length ≤ id) :
    k.record id = ⟨0, 0, 0, 0⟩ := by
  simp only [record, header_of_le h, segmentLength, segment?_eq_none_of_le h]
  rfl

theorem record_created {k created : Kernel} {name : SegmentName} {id : SegmentId}
    (h : k.Created name id created) (j : SegmentId) : created.record j = k.record j := by
  simp only [record, header_created h, segmentLength_created h]

theorem record_modifyHeader {k : Kernel} {id : SegmentId} (h : id < k.segments.length)
    (f : Header → Header) :
    (k.modifyHeader id f).record id =
      ⟨(f (k.header id)).state, (f (k.header id)).bytes, (f (k.header id)).owner,
        k.segmentLength id⟩ := by
  simp only [record, header_modifyHeader h, if_true, segmentLength_modifyHeader]

theorem record_modifySegment_of_ne (k : Kernel) {id j : SegmentId} (f : Segment → Segment)
    (h : id ≠ j) : (k.modifySegment id f).record j = k.record j := by
  simp only [record, header_modifySegment_of_ne k f h, segmentLength, segment?_modifySegment,
    if_neg h]

/-- The two counts are not on record. -/
theorem record_modifyHeader_of_counts (k : Kernel) (id j : SegmentId) {f : Header → Header}
    (hstate : ∀ h, (f h).state = h.state) (hbytes : ∀ h, (f h).bytes = h.bytes)
    (howner : ∀ h, (f h).owner = h.owner) : (k.modifyHeader id f).record j = k.record j := by
  by_cases hid : id = j
  · subst hid
    by_cases hlt : id < k.segments.length
    · rw [record_modifyHeader hlt, hstate, hbytes, howner]
      rfl
    · have hle := Nat.not_lt.mp hlt
      rw [record_of_le hle, record_of_le]
      rw [modifyHeader, modifySegment, List.length_modify]
      exact hle
  · exact record_modifySegment_of_ne k _ hid

/-- Growing a segment changes its length alone. -/
theorem record_resize {k : Kernel} {id : SegmentId} (h : id < k.segments.length) {length : Nat}
    (hle : k.segmentLength id ≤ length) :
    (k.modifySegment id (·.resize length)).record id = { k.record id with length } := by
  have hs : k.segment? id = some (k.segments.get ⟨id, h⟩) := List.getElem?_eq_getElem h
  simp only [segmentLength, hs, Option.map_some, Option.getD_some] at hle
  simp only [record, header, segmentLength, segment?_modifySegment, if_true, hs, Option.map_some,
    Option.getD_some, Segment.header_resize_of_le hle, Segment.length_resize]

end Kernel

theorem Kernel.Deed.frame {k l : Kernel} {name : SegmentName} {id : SegmentId} {r : Record}
    (h : k.Deed name id r) (hnames : l.names.get? name = k.names.get? name)
    (hrecord : l.record id = k.record id) : l.Deed name id r :=
  ⟨hnames.trans h.1, hrecord.trans h.2⟩

/-! ### What a step does to names and records -/

namespace Attach

def unbinds (a : Attach) : Phase → Bool
  | .removeLeftover | .discard _ => true
  | .undo _ _ => a.config.isLeader
  | _ => false

def written? : Phase → Option SegmentId
  | .resize id => some id
  | .retireLeftover m | .claim m | .publishBytes m | .publishJoined m | .publishLive m
  | .publishState m => some m.segment
  | _ => none

theorem record_undone (a : Attach) (s : Site) (m : Mapping) (id : SegmentId) :
    (a.undone s m).kernel.record id = s.kernel.record id := by
  unfold undone
  split
  · rfl
  · exact s.kernel.record_modifyHeader_of_counts _ _ (fun _ => rfl) (fun _ => rfl) fun _ => rfl

namespace Transition

variable {a : Attach} {phase : Phase} {s t : Site} {progress : Progress Phase Result}

theorem names_cases (h : Transition a phase s progress t) :
    (∀ name, t.kernel.names.get? name = s.kernel.names.get? name) ∨
    (phase = .create ∧ ∃ id, progress = .running (.resize id) ∧
      s.kernel.Created a.config.segment id t.kernel) ∨
    (a.unbinds phase = true ∧ ∀ name, t.kernel.names.get? name =
      if name = a.config.segment then none else s.kernel.names.get? name) := by
  cases h with
  | leftoverMapped h | mapped h | foundMapped h =>
    rw [(Site.mapped_of_mapSegment h).2.2.1]
    exact Or.inl fun _ => rfl
  | resized h =>
    rw [Site.of_resizeSegment h]
    exact Or.inl fun _ => rfl
  | created h => exact Or.inr (Or.inl ⟨rfl, _, rfl, (Site.created_of_createSegment h).1⟩)
  | leftoverRemoved | discarded =>
    exact Or.inr (Or.inr ⟨rfl, fun name => Kernel.get?_names_unbind _ _ name⟩)
  | undoneError | undoneFault | undoneAbort =>
    cases hrole : a.config.isLeader with
    | true =>
      refine Or.inr (Or.inr ⟨hrole, ?_⟩)
      intro name
      rw [undone, if_pos hrole]
      exact Kernel.get?_names_unbind _ _ name
    | false =>
      left
      intro name
      rw [undone, if_neg (by simp [hrole])]
      rfl
  | _ => exact Or.inl fun _ => rfl

theorem record_eq (h : Transition a phase s progress t) {id : SegmentId}
    (hid : written? phase ≠ some id) : t.kernel.record id = s.kernel.record id := by
  cases h with
  | leftoverMapped h | mapped h | foundMapped h =>
    rw [(Site.mapped_of_mapSegment h).2.2.1]
  | created h => exact Kernel.record_created (Site.created_of_createSegment h).1 id
  | resized h =>
    rw [Site.of_resizeSegment h]
    exact s.kernel.record_modifySegment_of_ne _ fun heq => hid (congrArg some heq)
  | leftoverRetired | claimed | bytesPublished | joinedPublished | livePublished
  | statePublished =>
    exact s.kernel.record_modifySegment_of_ne _ fun heq => hid (congrArg some heq)
  | raised | withdrawn | joined =>
    exact s.kernel.record_modifyHeader_of_counts _ _ (fun _ => rfl) (fun _ => rfl) fun _ => rfl
  | undoneError | undoneFault | undoneAbort => exact record_undone a s _ id
  | _ => rfl

end Transition

end Attach

namespace Detach

def unbinds : Phase → Bool
  | .unlink _ _ => true
  | _ => false

def written? : Phase → Option SegmentId
  | .retire m _ => some m.segment
  | _ => none

namespace Transition

variable {d : Detach} {phase : Phase} {s t : Site} {progress : Progress Phase Unit}

theorem names_cases (h : Transition d phase s progress t) :
    (∀ name, t.kernel.names.get? name = s.kernel.names.get? name) ∨
    (unbinds phase = true ∧ ∀ name, t.kernel.names.get? name =
      if name = d.config.segment then none else s.kernel.names.get? name) := by
  cases h with
  | unlinked => exact Or.inr ⟨rfl, fun name => Kernel.get?_names_unbind _ _ name⟩
  | _ => exact Or.inl fun _ => rfl

theorem record_eq (h : Transition d phase s progress t) {id : SegmentId}
    (hid : written? phase ≠ some id) : t.kernel.record id = s.kernel.record id := by
  cases h with
  | retired => exact s.kernel.record_modifySegment_of_ne _ fun heq => hid (congrArg some heq)
  | left =>
    exact s.kernel.record_modifyHeader_of_counts _ _ (fun _ => rfl) (fun _ => rfl) fun _ => rfl
  | _ => rfl

end Transition

end Detach

/-! ### Ruling a name -/

namespace Attach

def rules : Phase → Bool
  | .resize _ | .map _ | .discard _ | .claim _ | .register _ | .undo _ _ | .publishBytes _
  | .publishJoined _ | .publishLive _ | .publishState _ | .finish _ => true
  | _ => false

def Rules (a : Attach) (s : Site) : Phase → Prop
  | .resize id => s.kernel.Deed a.config.segment id ⟨0, 0, 0, 0⟩
  | .map id => s.kernel.Deed a.config.segment id ⟨0, 0, 0, a.total⟩
  | .discard _ => ∃ id length, s.kernel.Deed a.config.segment id ⟨0, 0, 0, length⟩
  | .claim m => s.kernel.Deed a.config.segment m.segment ⟨0, 0, 0, a.total⟩
  | .register m | .undo m _ | .publishBytes m =>
    s.kernel.Deed a.config.segment m.segment ⟨0, 0, s.process.pid, a.total⟩
  | .publishJoined m | .publishLive m | .publishState m =>
    s.kernel.Deed a.config.segment m.segment ⟨0, a.bytes, s.process.pid, a.total⟩
  | .finish m =>
    s.kernel.Deed a.config.segment m.segment ⟨Header.readyMark, a.bytes, s.process.pid, a.total⟩
  | _ => True

end Attach

namespace Detach

def rules : Phase → Bool
  | .leave _ _ _ | .close _ _ _ => false
  | _ => true

end Detach

def Block.Published (block : Block) (name : SegmentName) (s : Site) (m : Mapping) : Prop :=
  s.kernel.Deed name m.segment
    ⟨Header.readyMark, block.bytes, s.process.pid, Page.headerLength + block.bytes.toNat⟩

namespace Detach

def Rules (d : Detach) (s : Site) : Phase → Prop
  | .unregister => ∀ m, s.mappingOf? d.block = some m → d.block.Published d.config.segment s m
  | .gather m | .readJoined _ m | .readLive _ m _ | .missed _ m _ _ | .pause _ m _ | .retire m _ =>
    d.block.Published d.config.segment s m
  | .unlink m _ => s.kernel.Deed d.config.segment m.segment
      ⟨Header.retiredMark, d.block.bytes, s.process.pid, Page.headerLength + d.block.bytes.toNat⟩
  | .leave _ _ _ | .close _ _ _ => True

end Detach

namespace Stage

def rules : Stage → Bool
  | calling (.attach _ phase) => Attach.rules phase
  | calling (.detach _ phase) => Detach.rules phase
  | holding _ => true
  | _ => false

def Rules (name : SegmentName) (s : Site) : Stage → Prop
  | calling (.attach a phase) => a.Rules s phase
  | calling (.detach d phase) => d.Rules s phase
  | holding block => ∀ m, s.mappingOf? block = some m → block.Published name s m
  | _ => True

end Stage

/-! ### What the acting leader relies on -/

namespace Kernel

theorem Deed.lt {k : Kernel} {name : SegmentName} {id : SegmentId} {r : Record}
    (h : k.Deed name id r) : id < k.segments.length := k.names_bound name id h.1

/-- A write to the header keeps the name bound. -/
theorem Deed.modifyHeader {k : Kernel} {name : SegmentName} {id : SegmentId} {r : Record}
    (h : k.Deed name id r) (f : Header → Header) :
    (k.modifyHeader id f).Deed name id
      ⟨(f (k.header id)).state, (f (k.header id)).bytes, (f (k.header id)).owner, r.length⟩ := by
  refine ⟨h.1, ?_⟩
  rw [record_modifyHeader h.lt, ← h.2]
  rfl

theorem Deed.state_eq {k : Kernel} {name : SegmentName} {id : SegmentId} {r : Record}
    (h : k.Deed name id r) : (k.header id).state = r.state := congrArg Record.state h.2

theorem Deed.bytes_eq {k : Kernel} {name : SegmentName} {id : SegmentId} {r : Record}
    (h : k.Deed name id r) : (k.header id).bytes = r.bytes := congrArg Record.bytes h.2

theorem Deed.owner_eq {k : Kernel} {name : SegmentName} {id : SegmentId} {r : Record}
    (h : k.Deed name id r) : (k.header id).owner = r.owner := congrArg Record.owner h.2

theorem Deed.length_eq {k : Kernel} {name : SegmentName} {id : SegmentId} {r : Record}
    (h : k.Deed name id r) : k.segmentLength id = r.length := congrArg Record.length h.2

theorem deed_created {k created : Kernel} {name : SegmentName} {id : SegmentId}
    (h : k.Created name id created) : created.Deed name id ⟨0, 0, 0, 0⟩ := by
  refine ⟨by rw [h.names_eq, if_pos rfl], ?_⟩
  rw [record_created h, record_of_le h.length_le]

end Kernel

namespace Attach.Transition

variable {a : Attach} {phase : Phase} {s t : Site} {progress : Progress Phase Result}

theorem rules (h : Transition a phase s progress t) (hrole : a.config.isLeader = true)
    (hsuits : a.Suits phase) (hplaced : ∀ m, mapping? phase = some m → m.Placed s.process.space)
    (hrules : a.Rules s phase) :
    (Stage.after (progress.map (.attach a) .ofResult)).Rules a.config.segment t := by
  cases h with
  | created h => exact Kernel.deed_created (Site.created_of_createSegment h).1
  | resized h =>
    rw [Site.of_resizeSegment h]
    refine ⟨hrules.1, ?_⟩
    rw [Kernel.record_resize hrules.lt (by rw [hrules.length_eq]; exact Nat.zero_le _), hrules.2]
  | unresized => exact ⟨_, _, hrules⟩
  | unmapped => exact ⟨_, _, hrules⟩
  | mapped h =>
    obtain ⟨hid, -, ht, -⟩ := Site.mapped_of_mapSegment h
    rw [ht]
    simp only [Progress.map, Stage.after, Stage.Rules, Rules, hid]
    exact hrules
  | @claimed _ m =>
    have hdeed := Kernel.Deed.modifyHeader hrules (·.claim s.process.pid)
    simp only [Header.claim, hrules.state_eq, hrules.bytes_eq] at hdeed
    exact hdeed
  | registered h =>
    have hpid := (Device.kept_of_register h).pid_eq
    rw [if_pos hrole]
    simp only [Progress.map, Stage.after, Stage.Rules, Rules, hpid]
    exact hrules
  | unregistered h | registerFatal h =>
    have hpid := (Device.kept_of_register h).pid_eq
    simp only [Progress.map, Stage.after, Stage.Rules, Rules, hpid]
    exact hrules
  | @bytesPublished _ m =>
    have hdeed := Kernel.Deed.modifyHeader hrules (·.setBytes a.bytes)
    simp only [Header.setBytes, hrules.state_eq, hrules.owner_eq] at hdeed
    exact hdeed
  | @joinedPublished _ m =>
    have hdeed := Kernel.Deed.modifyHeader hrules (·.setJoined 1)
    simp only [Header.setJoined, hrules.state_eq, hrules.bytes_eq, hrules.owner_eq] at hdeed
    exact hdeed
  | @livePublished _ m =>
    have hdeed := Kernel.Deed.modifyHeader hrules (·.setLive 1)
    simp only [Header.setLive, hrules.state_eq, hrules.bytes_eq, hrules.owner_eq] at hdeed
    exact hdeed
  | @statePublished _ m =>
    have hdeed := Kernel.Deed.modifyHeader hrules (·.setState Header.readyMark)
    simp only [Header.setState, hrules.bytes_eq, hrules.owner_eq] at hdeed
    exact hdeed
  | @finished _ m _ p h =>
    obtain ⟨hbooked, ho⟩ := succeeded_spec h
    have hspace := Memory.AddressSpace.Relocked.of_eq hbooked.space_eq
    have hm := ((hplaced m rfl).relocked hspace).mappingOf?_eq (s := ⟨s.kernel, p⟩) hsuits
    split at ho
    · subst ho
      intro its hits
      obtain rfl := Option.some.inj (hm.symm.trans hits)
      simp only [Block.Published, hbooked.pid_eq]
      exact hrules
    · subst ho
      trivial
  | failed h => rcases (failed_spec h).2 with rfl | ⟨_, _, _, rfl⟩ <;> trivial
  | joined => simp [Suits, hrole] at hsuits
  | _ => trivial

/-- A leader comes to rule its name by creating the segment. -/
theorem rules_before (h : Transition a phase s progress t) (hrole : a.config.isLeader = true)
    (hsuits : a.Suits phase)
    (hrules : (Stage.after (progress.map (.attach a) .ofResult)).rules = true) :
    Attach.rules phase = true ∨
      phase = .create ∧ ∃ id, s.kernel.Created a.config.segment id t.kernel := by
  cases h with
  | created h => exact Or.inr ⟨rfl, _, (Site.created_of_createSegment h).1⟩
  | joined => simp [Suits, hrole] at hsuits
  | failed h => rcases (failed_spec h).2 with rfl | ⟨_, _, _, rfl⟩ <;> cases hrules
  | _ => first | exact Or.inl rfl | cases hrules

end Attach.Transition

namespace Detach.Transition

variable {d : Detach} {phase : Phase} {s t : Site} {progress : Progress Phase Unit}

theorem rules_before (h : Transition d phase s progress t)
    (hrules : (Stage.after (progress.map (.detach d) fun _ => .released)).rules = true) :
    Detach.rules phase = true := by
  cases h with
  | left => cases hrules
  | @closed _ _ _ _ o => cases o <;> cases hrules
  | _ => rfl

theorem rules (h : Transition d phase s progress t) (hrules : d.Rules s phase) :
    (Stage.after (progress.map (.detach d) fun _ => .released)).Rules d.config.segment t := by
  cases h with
  | @unregistered _ p m h hm =>
    have hkept := Device.kept_of_unregister h
    have hbefore : s.mappingOf? d.block = some m :=
      (Site.mappingOf?_relocked (t := ⟨s.kernel, p⟩) hkept.relocked d.block).symm.trans hm
    split
    · simp only [Progress.map, Stage.after, Stage.Rules, Rules, Block.Published, hkept.pid_eq]
      exact hrules m hbefore
    · trivial
  | @retired _ m =>
    have hdeed := Kernel.Deed.modifyHeader hrules .retire
    simp only [Header.retire, Header.setState, hrules.bytes_eq, hrules.owner_eq] at hdeed
    exact hdeed
  | @closed _ _ _ _ o => cases o <;> trivial
  | refused | lost | overflowed | unlinked | unlinkFailed | left => trivial
  | _ => exact hrules

end Detach.Transition

/-! ### Every leader of a machine -/

/-- A leader that rules relies on a bound name only, and on the record of what is bound there. -/
theorem Stage.Rules.frame {stage : Stage} {config : SharingConfig} {s t : Site}
    (h : stage.Rules config.segment s) (hsuits : stage.Suits config s)
    (hmapping : stage.mapping? t = stage.mapping? s) (hpid : t.process.pid = s.process.pid)
    (hdeed : stage.rules = true → ∀ id r, s.kernel.Deed config.segment id r →
      t.kernel.Deed config.segment id r) : stage.Rules config.segment t := by
  cases stage with
  | idle | halted => trivial
  | holding block =>
    intro m hm
    simp only [Block.Published, hpid]
    exact hdeed rfl _ _ (h m (hmapping.symm.trans hm))
  | calling c =>
    cases c with
    | attach a phase =>
      obtain ⟨rfl, -⟩ := hsuits
      cases phase with
      | resize | map | claim => exact hdeed rfl _ _ h
      | register | undo | publishBytes | publishJoined | publishLive | publishState | finish =>
        simp only [Stage.Rules, Attach.Rules, hpid]
        exact hdeed rfl _ _ h
      | discard =>
        obtain ⟨id, length, h⟩ := h
        exact ⟨id, length, hdeed rfl _ _ h⟩
      | _ => trivial
    | detach d phase =>
      obtain ⟨rfl, -⟩ := hsuits
      cases phase with
      | unregister =>
        intro m hm
        simp only [Block.Published, hpid]
        exact hdeed rfl _ _ (h m (hmapping.symm.trans hm))
      | leave | close => trivial
      | _ =>
        simp only [Stage.Rules, Detach.Rules, Block.Published, hpid]
        exact hdeed rfl _ _ h

/-- Who rules has its name bound. -/
theorem Stage.Rules.bound {stage : Stage} {config : SharingConfig} {s : Site}
    (h : stage.Rules config.segment s) (hsuits : stage.Suits config s)
    (hrules : stage.rules = true) : ∃ id, s.kernel.names.get? config.segment = some id := by
  cases stage with
  | idle | halted => cases hrules
  | holding block =>
    obtain ⟨m, hm⟩ := hsuits
    exact ⟨_, (h m hm).1⟩
  | calling c =>
    cases c with
    | attach a phase =>
      obtain ⟨rfl, -⟩ := hsuits
      cases phase with
      | discard =>
        obtain ⟨id, length, h⟩ := h
        exact ⟨_, h.1⟩
      | resize | map | claim | register | undo | publishBytes | publishJoined | publishLive
      | publishState | finish => exact ⟨_, h.1⟩
      | _ => cases hrules
    | detach d phase =>
      obtain ⟨rfl, -, hblock⟩ := hsuits
      cases phase with
      | unregister =>
        obtain ⟨m, hm⟩ := hblock rfl
        exact ⟨_, (h m hm).1⟩
      | leave | close => cases hrules
      | _ => exact ⟨_, h.1⟩

namespace Call

def config : Call → SharingConfig
  | attach a _ => a.config
  | detach d _ => d.config

def unbinds : Call → Bool
  | attach a phase => a.unbinds phase
  | detach _ phase => Detach.unbinds phase

def written? : Call → Option SegmentId
  | attach _ phase => Attach.written? phase
  | detach _ phase => Detach.written? phase

variable {c : Call} {config : SharingConfig} {s : Site}

theorem config_eq (hsuits : (Stage.calling c).Suits config s) : c.config = config := by
  cases c <;> exact hsuits.1

theorem record_step (c : Call) (s : Site) {id : SegmentId} (hid : c.written? ≠ some id) :
    (c.step s).2.kernel.record id = s.kernel.record id := by
  cases c with
  | attach a phase => exact (a.step_transition phase s).record_eq hid
  | detach d phase => exact (d.step_transition phase s).record_eq hid

theorem pid_step (c : Call) (s : Site) : (c.step s).2.process.pid = s.process.pid := by
  cases c with
  | attach a phase => exact (a.step_transition phase s).pid_eq
  | detach d phase => exact (d.step_transition phase s).pid_eq

/-- What the step does to the names: nothing, or it binds a fresh segment, or removes the name. -/
inductive Names (c : Call) (s : Site) : Prop
  | keeps (h : ∀ name, (c.step s).2.kernel.names.get? name = s.kernel.names.get? name) : Names c s
  | binds {a : Attach} {id : SegmentId} (hc : c = .attach a .create)
      (hnext : (c.step s).1 = .running (.attach a (.resize id)))
      (h : s.kernel.Created a.config.segment id (c.step s).2.kernel) : Names c s
  | unbinds (hc : c.unbinds = true) (h : ∀ name, (c.step s).2.kernel.names.get? name =
      if name = c.config.segment then none else s.kernel.names.get? name) : Names c s

theorem names_step (c : Call) (s : Site) : c.Names s := by
  cases c with
  | attach a phase =>
    rcases (a.step_transition phase s).names_cases with h | ⟨rfl, id, hnext, h⟩ | ⟨hc, h⟩
    · exact .keeps h
    · have hstep : ((attach a .create).step s).1 = .running (.attach a (.resize id)) := by
        simp only [step, ofAttach, hnext]
        rfl
      exact .binds rfl hstep h
    · exact .unbinds hc h
  | detach d phase =>
    rcases (d.step_transition phase s).names_cases with h | ⟨hc, h⟩
    · exact .keeps h
    · exact .unbinds hc h

/-- Who removes a name rules it, or takes what it found for a leftover. -/
theorem unbinds_cases (hsuits : (Stage.calling c).Suits config s) (hc : c.unbinds = true) :
    (∃ a, c = .attach a .removeLeftover) ∨
      config.isLeader = true ∧ (Stage.calling c).rules = true := by
  cases c with
  | attach a phase =>
    obtain ⟨rfl, hsuits⟩ := hsuits
    cases phase with
    | removeLeftover => exact Or.inl ⟨a, rfl⟩
    | discard => exact Or.inr ⟨hsuits, rfl⟩
    | undo => exact Or.inr ⟨hc, rfl⟩
    | _ => cases hc
  | detach d phase =>
    obtain ⟨rfl, hsuits, -⟩ := hsuits
    cases phase with
    | unlink => exact Or.inr ⟨hsuits, rfl⟩
    | _ => cases hc

/-- Who changes the record of a segment rules its name, or takes the segment for a leftover. -/
theorem written_cases (hsuits : (Stage.calling c).Suits config s) {id : SegmentId}
    (hc : c.written? = some id) :
    (∃ a m, c = .attach a (.retireLeftover m) ∧ m.segment = id) ∨
      config.isLeader = true ∧ (Stage.calling c).rules = true ∧
        ((Stage.calling c).Rules config.segment s →
          s.kernel.names.get? config.segment = some id) := by
  cases c with
  | attach a phase =>
    obtain ⟨rfl, hsuits⟩ := hsuits
    cases phase with
    | retireLeftover m => exact Or.inl ⟨a, m, rfl, Option.some.inj hc⟩
    | resize =>
      cases hc
      exact Or.inr ⟨hsuits, rfl, And.left⟩
    | claim | publishBytes | publishJoined | publishLive | publishState =>
      cases hc
      exact Or.inr ⟨hsuits.1, rfl, And.left⟩
    | _ => cases hc
  | detach d phase =>
    obtain ⟨rfl, hsuits, -⟩ := hsuits
    cases phase with
    | retire =>
      cases hc
      exact Or.inr ⟨hsuits, rfl, And.left⟩
    | _ => cases hc

/-- A leader comes to rule its name by creating the segment. -/
theorem rules_before (hsuits : (Stage.calling c).Suits config s) (hrole : config.isLeader = true)
    (h : (Stage.after (c.step s).1).rules = true) :
    (Stage.calling c).rules = true ∨ ∃ a id, c = .attach a .create ∧
      s.kernel.Created a.config.segment id (c.step s).2.kernel := by
  cases c with
  | attach a phase =>
    obtain ⟨rfl, hsuits⟩ := hsuits
    rcases (a.step_transition phase s).rules_before hrole hsuits h with h | ⟨rfl, id, h⟩
    · exact Or.inl h
    · exact Or.inr ⟨a, id, rfl, h⟩
  | detach d phase => exact Or.inl ((d.step_transition phase s).rules_before h)

end Call

namespace Machine

variable {κ : Type u} {ι : Type v}

def RulesName (m : Machine κ ι) (roster : ι → Member κ) (i : ι) : Prop :=
  (roster i).config.isLeader = true ∧ (m.stage i).rules = true

/-- Who rules its name can rely on it, alone. -/
structure Ruled (m : Machine κ ι) (roster : ι → Member κ) : Prop where
  rules : ∀ i, (roster i).config.isLeader = true →
    (m.stage i).Rules (roster i).config.segment (m.site (roster i).home)
  alone : ∀ i j, m.RulesName roster i → m.RulesName roster j →
    (roster i).config.segment = (roster j).config.segment → i = j
  /-- Nothing that is ruled has a second name. -/
  sole : ∀ i id name, m.RulesName roster i →
    m.kernel.names.get? (roster i).config.segment = some id →
    m.kernel.names.get? name = some id → name = (roster i).config.segment

/-- The access hurts no ruled segment: it does not retire one as a leftover, and removes no ruled
name as a leftover's. -/
def Spares (m : Machine κ ι) (roster : ι → Member κ) (access : Option (Access ι)) : Prop :=
  ∀ i, m.RulesName roster i → ∀ j a,
    (∀ mapping, access = some ⟨j, .attach a (.retireLeftover mapping)⟩ →
      m.kernel.names.get? (roster i).config.segment ≠ some mapping.segment) ∧
    (access = some ⟨j, .attach a .removeLeftover⟩ → a.config.segment ≠ (roster i).config.segment)

section

variable {m next : Machine κ ι} {roster : ι → Member κ}

theorem spares_none : m.Spares roster none := by
  refine fun _ _ _ _ => ⟨fun _ h => ?_, fun h => ?_⟩ <;> cases h

theorem ruled_of_idle (hidle : ∀ i, m.stage i = .idle) : m.Ruled roster := by
  have hnone : ∀ i, ¬ m.RulesName roster i := by
    intro i hi
    have hrules := hi.2
    rw [hidle i] at hrules
    cases hrules
  refine ⟨?_, fun i _ hi => absurd hi (hnone i), fun i _ _ hi => absurd hi (hnone i)⟩
  intro i _
  rw [hidle i]
  trivial

theorem Ruled.rest (h : m.Ruled roster) (hnames : next.kernel.names = m.kernel.names)
    (hstage : ∀ i, (next.stage i).rules = true → (m.stage i).rules = true)
    (hrules : ∀ i, (roster i).config.isLeader = true →
      (next.stage i).Rules (roster i).config.segment (next.site (roster i).home)) :
    next.Ruled roster := by
  refine ⟨hrules, ?_, ?_⟩
  · intro i j hi hj
    exact h.alone i j ⟨hi.1, hstage i hi.2⟩ ⟨hj.1, hstage j hj.2⟩
  · intro i id name hi
    rw [hnames]
    exact h.sole i id name ⟨hi.1, hstage i hi.2⟩

theorem Ruled.bound (h : m.Ruled roster) (hsound : m.Sound roster) {i : ι}
    (hi : m.RulesName roster i) :
    ∃ id, m.kernel.names.get? (roster i).config.segment = some id :=
  (h.rules i hi.1).bound (hsound.suits i) hi.2

/-- What one leader rules, another member's access leaves as it is. -/
theorem Ruled.deed_stays (h : m.Ruled roster) (hsound : m.Sound roster) {i j : ι} {c : Call}
    (hcalling : m.stage i = .calling c) (hspares : m.Spares roster (some ⟨i, c⟩)) (hne : j ≠ i)
    (hj : m.RulesName roster j) {id : SegmentId} {r : Record}
    (hdeed : m.kernel.Deed (roster j).config.segment id r) :
    (c.step (m.site (roster i).home)).2.kernel.Deed (roster j).config.segment id r := by
  have hsuits := hsound.suits i
  rw [hcalling] at hsuits
  have hconfig := Call.config_eq hsuits
  have hrulesName : (roster i).config.isLeader = true ∧ (Stage.calling c).rules = true →
      m.RulesName roster i := fun hi => ⟨hi.1, by rw [hcalling]; exact hi.2⟩
  refine hdeed.frame ?_ ?_
  · cases c.names_step (m.site (roster i).home) with
    | keeps hnames => exact hnames _
    | @binds a id hc _ hcreated =>
      subst hc
      rw [hcreated.names_eq, if_neg]
      · rfl
      · intro heq
        have hbound := hcreated.unbound
        rw [← heq] at hbound
        cases hbound.symm.trans hdeed.1
    | unbinds hc hnames =>
      rw [hnames, if_neg]
      · rfl
      · intro heq
        rcases Call.unbinds_cases hsuits hc with ⟨a, rfl⟩ | hi
        · exact (hspares j hj i a).2 rfl heq.symm
        · rw [hconfig] at heq
          exact hne (h.alone j i hj (hrulesName hi) heq)
  · by_cases hwritten : c.written? = some id
    · rcases Call.written_cases hsuits hwritten with ⟨a, mapping, rfl, hid⟩ | ⟨hrole, hi, hbound⟩
      · exact absurd (hid ▸ hdeed.1) ((hspares j hj i a).1 mapping rfl)
      · have hi := hrulesName ⟨hrole, hi⟩
        have hrules := h.rules i hrole
        rw [hcalling] at hrules
        have heq := h.sole j id _ hj hdeed.1 (hbound hrules)
        exact absurd (h.alone j i hj hi heq.symm) hne
    · exact c.record_step _ hwritten

/-- Where nobody acts, everybody rules what he ruled. -/
theorem Ruled.stays (h : m.Ruled roster) (hsound : m.Sound roster)
    (hsegments : next.kernel.segments = m.kernel.segments)
    (hnames : next.kernel.names = m.kernel.names) (hstage : next.stage = m.stage)
    (hpid : ∀ home, (next.process home).pid = (m.process home).pid)
    (hplaced : ∀ j mapping, m.mapping? roster j = some mapping →
      mapping.Placed (next.process (roster j).home).space) : next.Ruled roster := by
  apply h.rest hnames (fun i hi => hstage ▸ hi)
  intro i hrole
  have hmapping := mapping?_stays hsound (congrFun hstage i) (hplaced i)
  simp only [mapping?, hstage] at hmapping
  rw [hstage]
  apply (h.rules i hrole).frame (hsound.suits i) hmapping (hpid _)
  intro _ id r hdeed
  apply hdeed.frame (by simp only [site, hnames])
  simp only [site, Kernel.record, Kernel.header, Kernel.segmentLength, Kernel.segment?, hsegments]

variable [DecidableEq κ] [DecidableEq ι]

theorem pid_settle {i : ι} {result : Progress Call Reply × Site}
    (hpid : result.2.process.pid = (m.process (roster i).home).pid) (home : κ) :
    ((m.settle roster i result).process home).pid = (m.process home).pid := by
  by_cases hhome : home = (roster i).home
  · subst hhome
    simpa only [settle, Function.update_self] using hpid
  · rw [process_settle_of_ne hhome]

theorem Ruled.rules_settle (h : m.Ruled roster) (hsound : m.Sound roster) {i : ι} {c : Call}
    (hcalling : m.stage i = .calling c) (hspares : m.Spares roster (some ⟨i, c⟩)) {j : ι}
    (hrole : (roster j).config.isLeader = true) :
    ((m.settle roster i (c.step (m.site (roster i).home))).stage j).Rules
      (roster j).config.segment
      ((m.settle roster i (c.step (m.site (roster i).home))).site (roster j).home) := by
  by_cases hji : j = i
  · subst hji
    have hsuits := hsound.suits j
    have hplaced := hsound.placed j
    have hrules := h.rules j hrole
    simp only [mapping?, hcalling] at hsuits hplaced hrules
    simp only [stage_settle_self, site_settle_self]
    cases c with
    | attach a phase =>
      obtain ⟨hconfig, hsuits⟩ := hsuits
      rw [← hconfig] at hrole ⊢
      exact (a.step_transition phase _).rules hrole hsuits hplaced hrules
    | detach d phase =>
      rw [← hsuits.1]
      exact (d.step_transition phase _).rules hrules
  · have hmapping := hsound.mapping?_settle (handled_access hsound hcalling) hji
    have hstage : (m.settle roster i (c.step (m.site (roster i).home))).stage j = m.stage j :=
      stage_settle_of_ne hji _
    have hrules := (h.rules j hrole).frame (hsound.suits j)
      (t := (m.settle roster i (c.step (m.site (roster i).home))).site (roster j).home)
    simp only [mapping?, hstage] at hmapping
    rw [hstage]
    apply hrules hmapping (pid_settle (c.pid_step _) _)
    intro hj id r hdeed
    exact h.deed_stays hsound hcalling hspares hji ⟨hrole, hj⟩ hdeed

theorem pid_step {access : Option (Access ι)} (hstep : Step roster m access next) (home : κ) :
    (next.process home).pid = (m.process home).pid := by
  cases hstep with
  | allocate i bytes =>
    refine pid_settle ?_ home
    rw [Member.beginAllocate_site]
    rfl
  | release i block => exact pid_settle rfl home
  | access i c => exact pid_settle (c.pid_step _) home
  | elapse | populate => rfl
  | move other p hmoves =>
    by_cases hhome : home = other
    · subst hhome
      simpa only [Function.update_self] using hmoves.pid_eq
    · simp only [Function.update_of_ne hhome]

/-- Who rules after an access ruled before, or has created its segment. -/
theorem rulesName_settle (hsound : m.Sound roster) {i : ι} {c : Call}
    (hcalling : m.stage i = .calling c) {j : ι}
    (hj : (m.settle roster i (c.step (m.site (roster i).home))).RulesName roster j) :
    m.RulesName roster j ∨ j = i ∧ ∃ a id, c = .attach a .create ∧
      m.kernel.Created (roster i).config.segment id
        (c.step (m.site (roster i).home)).2.kernel := by
  obtain ⟨hrole, hrules⟩ := hj
  by_cases hji : j = i
  · subst hji
    have hsuits := hsound.suits j
    rw [hcalling] at hsuits
    rw [stage_settle_self] at hrules
    rcases Call.rules_before hsuits hrole hrules with hbefore | ⟨a, id, rfl, hcreated⟩
    · exact Or.inl ⟨hrole, by rw [hcalling]; exact hbefore⟩
    · have hconfig : a.config = (roster j).config := hsuits.1
      exact Or.inr ⟨rfl, a, id, rfl, hconfig ▸ hcreated⟩
  · rw [stage_settle_of_ne hji] at hrules
    exact Or.inl ⟨hrole, hrules⟩

theorem Ruled.access (h : m.Ruled roster) (hsound : m.Sound roster) {i : ι} {c : Call}
    (hcalling : m.stage i = .calling c) (hspares : m.Spares roster (some ⟨i, c⟩)) :
    (m.settle roster i (c.step (m.site (roster i).home))).Ruled roster := by
  have hsuits := hsound.suits i
  rw [hcalling] at hsuits
  have hconfig := Call.config_eq hsuits
  -- Who comes to rule a name creates the segment, so nobody ruled that name before.
  have hunbound : ∀ j id k, m.RulesName roster j →
      m.kernel.Created (roster i).config.segment id k →
      (roster j).config.segment ≠ (roster i).config.segment := by
    intro j id k hj hcreated heq
    obtain ⟨id, hbound⟩ := h.bound hsound hj
    rw [heq, hcreated.unbound] at hbound
    cases hbound
  refine ⟨fun j hrole => h.rules_settle hsound hcalling hspares hrole, ?_, ?_⟩
  · intro j l hj hl heq
    rcases rulesName_settle hsound hcalling hj with hj' | ⟨hji, _, _, _, hcreated⟩ <;>
      rcases rulesName_settle hsound hcalling hl with hl' | ⟨hli, _, _, _, hcreated'⟩
    · exact h.alone j l hj' hl' heq
    · rw [hli] at heq
      exact absurd heq (hunbound j _ _ hj' hcreated')
    · rw [hji] at heq
      exact absurd heq.symm (hunbound l _ _ hl' hcreated)
    · exact hji.trans hli.symm
  · intro j id name hj hbound hname
    simp only [settle] at hbound hname
    cases c.names_step (m.site (roster i).home) with
    | keeps hnames =>
      rw [hnames] at hbound hname
      rcases rulesName_settle hsound hcalling hj with hj' | ⟨hji, _, _, _, hcreated⟩
      · exact h.sole j id name hj' hbound hname
      · rw [hji] at hbound
        cases hcreated.unbound.symm.trans hbound
    | @binds a new hc _ hcreated =>
      subst hc
      have hnew := hcreated.get?_names_ne
      rw [hcreated.names_eq] at hbound hname
      have hsegment : a.config.segment = (roster i).config.segment := congrArg _ hconfig
      rw [hsegment] at hbound hname hcreated
      rcases rulesName_settle hsound hcalling hj with hj' | ⟨hji, -⟩
      · rw [if_neg (hunbound j _ _ hj' hcreated)] at hbound
        split at hname
        · cases hname
          exact absurd hbound (hnew _)
        · exact h.sole j id name hj' hbound hname
      · rw [if_pos (by rw [hji])] at hbound
        cases hbound
        split at hname
        case isTrue heq => exact heq.trans (by rw [hji])
        case isFalse => exact absurd hname (hnew _)
    | unbinds hc hnames =>
      rw [hnames] at hbound hname
      split at hbound
      case isTrue => cases hbound
      case isFalse hne =>
        split at hname
        · cases hname
        · rcases rulesName_settle hsound hcalling hj with hj' | ⟨hji, -⟩
          · exact h.sole j id name hj' hbound hname
          · exact absurd (by rw [hji, hconfig]) hne

/-- Beginning a call changes who rules as little as it touches. -/
theorem Ruled.begin (h : m.Ruled roster) (hsound : m.Sound roster) {i : ι}
    {result : Progress Call Reply × Site} (hhandled : m.Handled roster i result)
    (hsite : result.2 = m.site (roster i).home)
    (hbefore : (Stage.after result.1).rules = true → (m.stage i).rules = true)
    (hrules : (roster i).config.isLeader = true →
      (Stage.after result.1).Rules (roster i).config.segment result.2) :
    (m.settle roster i result).Ruled roster := by
  refine h.rest (by rw [settle, hsite]; rfl) (fun j hj => ?_) fun j hrole => ?_ <;>
    by_cases hji : j = i
  · subst hji
    rw [stage_settle_self] at hj
    exact hbefore hj
  · rw [stage_settle_of_ne hji] at hj
    exact hj
  · subst hji
    rw [stage_settle_self, site_settle_self]
    exact hrules hrole
  · have hmapping := hsound.mapping?_settle hhandled hji
    have hstage : (m.settle roster i result).stage j = m.stage j := stage_settle_of_ne hji result
    simp only [mapping?, hstage] at hmapping
    rw [hstage]
    refine (h.rules j hrole).frame (hsound.suits j) hmapping ?_ ?_
    · exact pid_settle (by rw [hsite]; rfl) _
    · intro _ _ _ hdeed
      simp only [site, settle, hsite]
      exact hdeed

/-- Every step that hurts nothing that is ruled keeps who rules. -/
theorem Ruled.step (h : m.Ruled roster) (hsound : m.Sound roster)
    {access : Option (Access ι)} (hspares : m.Spares roster access)
    (hstep : Step roster m access next) : next.Ruled roster := by
  cases hstep with
  | allocate i bytes hidle =>
    have hhandled : m.Handled roster i
        ((roster i).resource.beginAllocate bytes (m.site (roster i).home)) :=
      handled_allocate hidle bytes
    rcases (roster i).beginAllocate_spec bytes (m.site (roster i).home) with
      ⟨phase, hfirst, heq⟩ | ⟨o, heq, hafter⟩
    · rw [heq] at hhandled ⊢
      refine h.begin hsound hhandled rfl ?_ ?_
      · intro hi
        cases hfirst <;> cases hi
      · intro _
        cases hfirst <;> trivial
    · rw [heq] at hhandled ⊢
      refine h.begin hsound hhandled rfl ?_ ?_
      · intro hi
        rw [hafter] at hi
        cases hi
      · intro _
        rw [hafter]
        trivial
  | release i block hholding =>
    refine h.begin hsound (handled_release hholding) rfl ?_ ?_
    · intro _
      rw [hholding]
      rfl
    · intro hrole
      have hrules := h.rules i hrole
      rw [hholding] at hrules
      exact hrules
  | access i c hcalling => exact h.access hsound hcalling hspares
  | elapse clock => exact h.stays hsound rfl rfl rfl (fun _ => rfl) hsound.placed
  | populate alive => exact h.stays hsound rfl rfl rfl (fun _ => rfl) hsound.placed
  | move home p hmoves =>
    have hstep : Step roster m none { m with process := Function.update m.process home p } :=
      .move home p hmoves
    exact h.stays hsound rfl rfl rfl (pid_step hstep) fun _ _ => hsound.placed_move hmoves

/-- What is bound after a step was bound before, or has been created. -/
theorem names_before (hstep : Step roster m access next) {name : SegmentName} {id : SegmentId}
    (hbound : next.kernel.names.get? name = some id) :
    m.kernel.names.get? name = some id ∨ ∃ i a, access = some ⟨i, .attach a .create⟩ ∧
      a.config.segment = name ∧ m.kernel.Created name id next.kernel := by
  cases hstep with
  | allocate j bytes hidle =>
    rw [settle, Member.beginAllocate_site] at hbound
    exact Or.inl hbound
  | access j c hcalling =>
    simp only [settle] at hbound ⊢
    cases c.names_step (m.site (roster j).home) with
    | keeps hnames =>
      rw [hnames] at hbound
      exact Or.inl hbound
    | @binds a new hc _ hcreated =>
      subst hc
      have hnames := hcreated.names_eq name
      rw [hbound] at hnames
      split at hnames
      case isTrue heq =>
        cases hnames
        exact Or.inr ⟨j, a, rfl, heq.symm, heq ▸ hcreated⟩
      case isFalse => exact Or.inl hnames.symm
    | unbinds hc hnames =>
      rw [hnames] at hbound
      split at hbound
      · cases hbound
      · exact Or.inl hbound
  | release | elapse | populate | move => exact Or.inl hbound

/-- Only a write to a segment's record changes it. -/
theorem record_of_step {access : Option (Access ι)} (hstep : Step roster m access next)
    {id : SegmentId} (hquiet : ∀ x, access = some x → x.call.written? ≠ some id) :
    next.kernel.record id = m.kernel.record id := by
  cases hstep with
  | allocate i bytes hidle =>
    rw [settle, Member.beginAllocate_site]
    rfl
  | access i c hcalling => exact c.record_step _ (hquiet _ rfl)
  | release | elapse | populate | move => rfl

end

end Machine
end StagingMemory
