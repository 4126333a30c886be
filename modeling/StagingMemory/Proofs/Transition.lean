import StagingMemory.Proofs.Effects
import StagingMemory.Sharing.Attach
import StagingMemory.Sharing.Detach
/-!
What one step of an allocation or a release of shared memory can do: for every phase, under which
condition the call goes on to which phase, and what it changes on the way. Later proofs take a step
apart by these cases and do not open its definition (`Attach.step_transition`,
`Detach.step_transition`).
-/
namespace StagingMemory

namespace Attach

/-- Removes what the call had on the segment when registering failed: the leader its name, a
follower its attendance, and both their mapping. -/
def undone (a : Attach) (s : Site) (m : Mapping) : Site :=
  (if a.config.isLeader then s.unbind a.config.segment else s.modifyHeader m .leave).unmap m

inductive Transition (a : Attach) : Phase → Site → Progress Phase Result → Site → Prop
  | leftoverFound {s : Site} {id : SegmentId} (h : s.openSegment a.config.segment = .ok id) :
      Transition a .findLeftover s (.running (.measureLeftover id)) s
  | leftoverAbsent {s : Site} (h : s.openSegment a.config.segment = .error .notFound) :
      Transition a .findLeftover s (.running .create) s
  | leftoverUnopened {s : Site} {e : SystemError}
      (h : s.openSegment a.config.segment = .error e) :
      Transition a .findLeftover s (.running (.fail (.openFailed a.config.segment e))) s
  | leftoverShort {s : Site} {id : SegmentId}
      (h : s.kernel.segmentLength id < Page.headerLength) :
      Transition a (.measureLeftover id) s (.running .removeLeftover) s
  | leftoverLong {s : Site} {id : SegmentId}
      (h : Page.headerLength ≤ s.kernel.segmentLength id) :
      Transition a (.measureLeftover id) s (.running (.mapLeftover id)) s
  | leftoverMapped {s t : Site} {id : SegmentId} {m : Mapping}
      (h : s.mapSegment id Page.headerLength = .ok (m, t)) :
      Transition a (.mapLeftover id) s (.running (.checkLeftover m)) t
  | leftoverUnmapped {s : Site} {id : SegmentId} {e : SystemError}
      (h : s.mapSegment id Page.headerLength = .error e) :
      Transition a (.mapLeftover id) s
        (.running (.fail (.mapFailed a.config.segment Page.headerLength e))) s
  | leftoverOwned {s : Site} {m : Mapping} (h : s.kernel.ownerAlive m.segment = true) :
      Transition a (.checkLeftover m) s (.running (.fail (.nameTaken a.config.segment)))
        (s.unmap m)
  | leftoverOrphaned {s : Site} {m : Mapping} (h : s.kernel.ownerAlive m.segment = false) :
      Transition a (.checkLeftover m) s (.running (.retireLeftover m)) s
  | leftoverRetired {s : Site} {m : Mapping} :
      Transition a (.retireLeftover m) s (.running .removeLeftover)
        ((s.modifyHeader m .retire).unmap m)
  | leftoverRemoved {s : Site} {id : SegmentId}
      (h : s.kernel.names.get? a.config.segment = some id) :
      Transition a .removeLeftover s (.running .reportLeftover) (s.unbind a.config.segment)
  | leftoverGone {s : Site} (h : s.kernel.names.get? a.config.segment = none) :
      Transition a .removeLeftover s (.running .create) s
  | leftoverReported {s : Site} {p : Process}
      (h : s.process.emit .staleRemoved ("segment " ++ a.config.segment.text) =
        (.returned (), p)) :
      Transition a .reportLeftover s (.running .create) { s with process := p }
  | leftoverFatal {s : Site} {p : Process} {fault : Fault}
      (h : s.process.emit .staleRemoved ("segment " ++ a.config.segment.text) =
        (.faulted fault, p)) :
      Transition a .reportLeftover s (.done (.faulted fault)) { s with process := p }
  | created {s t : Site} {id : SegmentId}
      (h : s.createSegment a.config.segment a.config.mode = .ok (id, t)) :
      Transition a .create s (.running (.resize id)) t
  | nameTaken {s : Site}
      (h : s.createSegment a.config.segment a.config.mode = .error .alreadyExists) :
      Transition a .create s (.running (.fail (.nameTaken a.config.segment))) s
  | uncreated {s : Site} {e : SystemError}
      (h : s.createSegment a.config.segment a.config.mode = .error e) :
      Transition a .create s (.running (.fail (.createFailed a.config.segment e))) s
  | resized {s t : Site} {id : SegmentId} (h : s.resizeSegment id a.total = .ok t) :
      Transition a (.resize id) s (.running (.map id)) t
  | unresized {s : Site} {id : SegmentId} {e : SystemError}
      (h : s.resizeSegment id a.total = .error e) :
      Transition a (.resize id) s
        (.running (.discard (.resizeFailed a.config.segment a.total e))) s
  | mapped {s t : Site} {id : SegmentId} {m : Mapping}
      (h : s.mapSegment id a.total = .ok (m, t)) :
      Transition a (.map id) s (.running (.claim m)) t
  | unmapped {s : Site} {id : SegmentId} {e : SystemError}
      (h : s.mapSegment id a.total = .error e) :
      Transition a (.map id) s
        (.running (.discard (.mapFailed a.config.segment a.total e))) s
  | discarded {s : Site} {error : AllocationError} :
      Transition a (.discard error) s (.running (.fail error)) (s.unbind a.config.segment)
  | claimed {s : Site} {m : Mapping} :
      Transition a (.claim m) s (.running (.register m))
        (s.modifyHeader m (·.claim s.process.pid))
  | found {s : Site} {w : Wait} {id : SegmentId}
      (h : s.openSegment a.config.segment = .ok id) :
      Transition a (.find w) s (.running (.measure w id)) s
  | absent {s : Site} {w : Wait} (h : s.openSegment a.config.segment = .error .notFound) :
      Transition a (.find w) s (.running (.missed w)) s
  | unopened {s : Site} {w : Wait} {e : SystemError}
      (h : s.openSegment a.config.segment = .error e) :
      Transition a (.find w) s (.running (.fail (.openFailed a.config.segment e))) s
  | short {s : Site} {w : Wait} {id : SegmentId}
      (h : s.kernel.segmentLength id < Page.headerLength) :
      Transition a (.measure w id) s (.running (.missed w)) s
  | sized {s : Site} {w : Wait} {id : SegmentId}
      (h : Page.headerLength ≤ s.kernel.segmentLength id) :
      Transition a (.measure w id) s (.running (.mapFound w id (s.kernel.segmentLength id))) s
  | foundMapped {s t : Site} {w : Wait} {id : SegmentId} {length : Nat} {m : Mapping}
      (h : s.mapSegment id length = .ok (m, t)) :
      Transition a (.mapFound w id length) s (.running (.checkReady w m)) t
  | foundUnmapped {s : Site} {w : Wait} {id : SegmentId} {length : Nat} {e : SystemError}
      (h : s.mapSegment id length = .error e) :
      Transition a (.mapFound w id length) s
        (.running (.fail (.mapFailed a.config.segment length e))) s
  | ready {s : Site} {w : Wait} {m : Mapping} (h : (s.header m).isReady = true) :
      Transition a (.checkReady w m) s (.running (.checkOwner w m)) s
  | unready {s : Site} {w : Wait} {m : Mapping} (h : (s.header m).isReady = false) :
      Transition a (.checkReady w m) s (.running (.missed w)) (s.unmap m)
  | owned {s : Site} {w : Wait} {m : Mapping} (h : s.kernel.ownerAlive m.segment = true) :
      Transition a (.checkOwner w m) s (.running (.checkLength w m)) s
  | orphaned {s : Site} {w : Wait} {m : Mapping} (h : s.kernel.ownerAlive m.segment = false) :
      Transition a (.checkOwner w m) s (.running (.missed w)) (s.unmap m)
  | matched {s : Site} {w : Wait} {m : Mapping} (hbytes : (s.header m).bytes = a.bytes)
      (hlength : m.length = a.total) :
      Transition a (.checkLength w m) s (.running (.raiseLive w m)) s
  | mismatched {s : Site} {w : Wait} {m : Mapping}
      (h : (s.header m).bytes ≠ a.bytes ∨ m.length ≠ a.total) :
      Transition a (.checkLength w m) s
        (.running (.fail (.lengthMismatch a.config.segment a.bytes (s.header m).bytes)))
        (s.unmap m)
  | expired {s : Site} {w : Wait} {waited : Duration}
      (h : w.judge s.kernel.clock = .expired waited) :
      Transition a (.missed w) s
        (.running (.fail (.bootstrapTimedOut a.config.segment waited))) s
  | waiting {s : Site} {w : Wait} {length : Nat} (h : w.judge s.kernel.clock = .pause length) :
      Transition a (.missed w) s (.running (.pause w (s.kernel.pauseEnd length))) s
  | woken {s : Site} {w : Wait} {wake : Nat} (h : wake ≤ s.kernel.clock) :
      Transition a (.pause w wake) s (.running (.find w)) s
  | asleep {s : Site} {w : Wait} {wake : Nat} (h : s.kernel.clock < wake) :
      Transition a (.pause w wake) s (.running (.pause w wake)) s
  | raised {s : Site} {w : Wait} {m : Mapping} :
      Transition a (.raiseLive w m) s (.running (.recheck w m)) (s.modifyHeader m .raiseLive)
  | confirmed {s : Site} {w : Wait} {m : Mapping} (h : (s.header m).isReady = true) :
      Transition a (.recheck w m) s (.running (.raiseJoined m)) s
  | refused {s : Site} {w : Wait} {m : Mapping} (h : (s.header m).isReady = false) :
      Transition a (.recheck w m) s (.running (.withdraw w m)) s
  | withdrawn {s : Site} {w : Wait} {m : Mapping} :
      Transition a (.withdraw w m) s (.running (.missed w))
        ((s.modifyHeader m .lowerLive).unmap m)
  | joined {s : Site} {m : Mapping} :
      Transition a (.raiseJoined m) s (.running (.register m)) (s.modifyHeader m .raiseJoined)
  | registered {s : Site} {m : Mapping} {p : Process}
      (h : a.device.register s.process m.payload a.bytes .portable = (.returned (.ok ()), p)) :
      Transition a (.register m) s
        (.running (if a.config.isLeader then .publishBytes m else .finish m))
        { s with process := p }
  | unregistered {s : Site} {m : Mapping} {p : Process} {e : DeviceError}
      (h : a.device.register s.process m.payload a.bytes .portable =
        (.returned (.error e), p)) :
      Transition a (.register m) s
        (.running (.undo m (.returned (.device DeviceCall.register.name e))))
        { s with process := p }
  | registerFatal {s : Site} {m : Mapping} {p : Process} {fault : Fault}
      (h : a.device.register s.process m.payload a.bytes .portable = (.faulted fault, p)) :
      Transition a (.register m) s (.running (.undo m (.faulted fault))) { s with process := p }
  | undoneError {s : Site} {m : Mapping} {error : AllocationError} :
      Transition a (.undo m (.returned error)) s (.running (.fail error)) (a.undone s m)
  | undoneFault {s : Site} {m : Mapping} {fault : Fault} :
      Transition a (.undo m (.faulted fault)) s (.done (.faulted fault)) (a.undone s m)
  | undoneAbort {s : Site} {m : Mapping} :
      Transition a (.undo m .aborted) s (.done .aborted) (a.undone s m)
  | bytesPublished {s : Site} {m : Mapping} :
      Transition a (.publishBytes m) s (.running (.publishJoined m))
        (s.modifyHeader m (·.setBytes a.bytes))
  | joinedPublished {s : Site} {m : Mapping} :
      Transition a (.publishJoined m) s (.running (.publishLive m))
        (s.modifyHeader m (·.setJoined 1))
  | livePublished {s : Site} {m : Mapping} :
      Transition a (.publishLive m) s (.running (.publishState m))
        (s.modifyHeader m (·.setLive 1))
  | statePublished {s : Site} {m : Mapping} :
      Transition a (.publishState m) s (.running (.finish m))
        (s.modifyHeader m (·.setState Header.readyMark))
  | finished {s : Site} {m : Mapping} {o : Outcome Result} {p : Process}
      (h : a.succeeded m s = (.done o, { s with process := p })) :
      Transition a (.finish m) s (.done o) { s with process := p }
  | failed {s : Site} {error : AllocationError} {o : Outcome Result} {p : Process}
      (h : a.failed error s = (.done o, { s with process := p })) :
      Transition a (.fail error) s (.done o) { s with process := p }

/-! ### Each step is one of these -/

attribute [local simp] step stepLeftover stepCreate stepFind stepJoin stepRegister

theorem transition_findLeftover (a : Attach) (s : Site) :
    Transition a .findLeftover s (a.step .findLeftover s).1 (a.step .findLeftover s).2 := by
  simp only [step, stepLeftover]
  split
  case h_1 h => exact .leftoverFound h
  case h_2 e h =>
    split
    case isTrue he => exact .leftoverAbsent (he ▸ h)
    case isFalse => exact .leftoverUnopened h

theorem transition_measureLeftover (a : Attach) (s : Site) (id : SegmentId) :
    Transition a (.measureLeftover id) s (a.step (.measureLeftover id) s).1
      (a.step (.measureLeftover id) s).2 := by
  simp only [step, stepLeftover]
  split
  case isTrue h => exact .leftoverShort h
  case isFalse h => exact .leftoverLong (Nat.not_lt.mp h)

theorem transition_mapLeftover (a : Attach) (s : Site) (id : SegmentId) :
    Transition a (.mapLeftover id) s (a.step (.mapLeftover id) s).1
      (a.step (.mapLeftover id) s).2 := by
  simp only [step, stepLeftover]
  split
  case h_1 h => exact .leftoverMapped h
  case h_2 h => exact .leftoverUnmapped h

theorem transition_checkLeftover (a : Attach) (s : Site) (m : Mapping) :
    Transition a (.checkLeftover m) s (a.step (.checkLeftover m) s).1
      (a.step (.checkLeftover m) s).2 := by
  simp only [step, stepLeftover]
  split
  case isTrue h => exact .leftoverOwned h
  case isFalse h => exact .leftoverOrphaned (Bool.not_eq_true _ ▸ h)

theorem transition_removeLeftover (a : Attach) (s : Site) :
    Transition a .removeLeftover s (a.step .removeLeftover s).1 (a.step .removeLeftover s).2 := by
  simp only [step, stepLeftover]
  cases h : s.kernel.names.get? a.config.segment with
  | none =>
    obtain ⟨e, he⟩ := Site.unlink_of_unbound h
    rw [he]
    exact .leftoverGone h
  | some id =>
    rw [Site.unlink_of_bound h]
    exact .leftoverRemoved h

theorem transition_reportLeftover (a : Attach) (s : Site) :
    Transition a .reportLeftover s (a.step .reportLeftover s).1 (a.step .reportLeftover s).2 := by
  simp only [step, stepLeftover]
  rcases s.process.emit_cases .staleRemoved ("segment " ++ a.config.segment.text) with
    ⟨q, hq⟩ | ⟨q, hq⟩
  · rw [hq]
    exact .leftoverReported hq
  · rw [hq]
    exact .leftoverFatal hq

theorem transition_create (a : Attach) (s : Site) :
    Transition a .create s (a.step .create s).1 (a.step .create s).2 := by
  simp only [step, stepCreate]
  split
  case h_1 h => exact .created h
  case h_2 e h =>
    split
    case isTrue he => exact .nameTaken (he ▸ h)
    case isFalse => exact .uncreated h

theorem transition_resize (a : Attach) (s : Site) (id : SegmentId) :
    Transition a (.resize id) s (a.step (.resize id) s).1 (a.step (.resize id) s).2 := by
  simp only [step, stepCreate]
  split
  case h_1 h => exact .resized h
  case h_2 h => exact .unresized h

theorem transition_map (a : Attach) (s : Site) (id : SegmentId) :
    Transition a (.map id) s (a.step (.map id) s).1 (a.step (.map id) s).2 := by
  simp only [step, stepCreate]
  split
  case h_1 h => exact .mapped h
  case h_2 h => exact .unmapped h

theorem transition_discard (a : Attach) (s : Site) (error : AllocationError) :
    Transition a (.discard error) s (a.step (.discard error) s).1
      (a.step (.discard error) s).2 := by
  simp only [step, stepCreate, Site.unlink_snd]
  exact .discarded

theorem transition_find (a : Attach) (s : Site) (w : Wait) :
    Transition a (.find w) s (a.step (.find w) s).1 (a.step (.find w) s).2 := by
  simp only [step, stepFind]
  split
  case h_1 h => exact .found h
  case h_2 e h =>
    split
    case isTrue he => exact .absent (he ▸ h)
    case isFalse => exact .unopened h

theorem transition_measure (a : Attach) (s : Site) (w : Wait) (id : SegmentId) :
    Transition a (.measure w id) s (a.step (.measure w id) s).1 (a.step (.measure w id) s).2 := by
  simp only [step, stepFind]
  split
  case isTrue h => exact .short h
  case isFalse h => exact .sized (Nat.not_lt.mp h)

theorem transition_mapFound (a : Attach) (s : Site) (w : Wait) (id : SegmentId) (length : Nat) :
    Transition a (.mapFound w id length) s (a.step (.mapFound w id length) s).1
      (a.step (.mapFound w id length) s).2 := by
  simp only [step, stepFind]
  split
  case h_1 h => exact .foundMapped h
  case h_2 h => exact .foundUnmapped h

theorem transition_checkReady (a : Attach) (s : Site) (w : Wait) (m : Mapping) :
    Transition a (.checkReady w m) s (a.step (.checkReady w m) s).1
      (a.step (.checkReady w m) s).2 := by
  simp only [step, stepFind]
  split
  case isTrue h => exact .ready h
  case isFalse h => exact .unready (Bool.not_eq_true _ ▸ h)

theorem transition_checkOwner (a : Attach) (s : Site) (w : Wait) (m : Mapping) :
    Transition a (.checkOwner w m) s (a.step (.checkOwner w m) s).1
      (a.step (.checkOwner w m) s).2 := by
  simp only [step, stepFind]
  split
  case isTrue h => exact .owned h
  case isFalse h => exact .orphaned (Bool.not_eq_true _ ▸ h)

theorem transition_checkLength (a : Attach) (s : Site) (w : Wait) (m : Mapping) :
    Transition a (.checkLength w m) s (a.step (.checkLength w m) s).1
      (a.step (.checkLength w m) s).2 := by
  simp only [step, stepFind]
  split
  case isTrue h => exact .mismatched h
  case isFalse h =>
    have hboth := not_or.mp h
    exact .matched (Decidable.not_not.mp hboth.1) (Decidable.not_not.mp hboth.2)

theorem transition_missed (a : Attach) (s : Site) (w : Wait) :
    Transition a (.missed w) s (a.step (.missed w) s).1 (a.step (.missed w) s).2 := by
  simp only [step, stepFind]
  split
  case h_1 h => exact .expired h
  case h_2 h => exact .waiting h

theorem transition_pause (a : Attach) (s : Site) (w : Wait) (wake : Nat) :
    Transition a (.pause w wake) s (a.step (.pause w wake) s).1 (a.step (.pause w wake) s).2 := by
  simp only [step, stepFind]
  split
  case isTrue h => exact .woken h
  case isFalse h => exact .asleep (Nat.not_le.mp h)

theorem transition_recheck (a : Attach) (s : Site) (w : Wait) (m : Mapping) :
    Transition a (.recheck w m) s (a.step (.recheck w m) s).1 (a.step (.recheck w m) s).2 := by
  simp only [step, stepJoin]
  split
  case isTrue h => exact .confirmed h
  case isFalse h => exact .refused (Bool.not_eq_true _ ▸ h)

theorem transition_register (a : Attach) (s : Site) (m : Mapping) :
    Transition a (.register m) s (a.step (.register m) s).1 (a.step (.register m) s).2 := by
  simp only [step, stepRegister]
  cases h : a.device.register s.process m.payload a.bytes .portable with
  | mk result p =>
    cases result with
    | returned r =>
      cases r with
      | ok _ => exact .registered h
      | error e => exact .unregistered h
    | faulted fault => exact .registerFatal h
    | aborted => exact absurd h Device.register_ne_aborted

theorem transition_finish (a : Attach) (s : Site) (m : Mapping) :
    Transition a (.finish m) s (a.step (.finish m) s).1 (a.step (.finish m) s).2 :=
  .finished rfl

theorem transition_fail (a : Attach) (s : Site) (error : AllocationError) :
    Transition a (.fail error) s (a.step (.fail error) s).1 (a.step (.fail error) s).2 := by
  obtain ⟨o, p, h⟩ : ∃ o p, a.failed error s = (.done o, { s with process := p }) := by
    unfold failed
    cases error.diagnostic? <;> exact ⟨_, _, rfl⟩
  simp only [step, stepRegister, h]
  exact .failed h

theorem transition_undo (a : Attach) (s : Site) (m : Mapping) (ending : Outcome AllocationError) :
    Transition a (.undo m ending) s (a.step (.undo m ending) s).1
      (a.step (.undo m ending) s).2 := by
  have hundone : (if a.config.isLeader then (s.unlink a.config.segment).2
      else s.modifyHeader m .leave).unmap m = a.undone s m := by
    rw [Site.unlink_snd]
    rfl
  simp only [step, stepRegister, hundone]
  cases ending with
  | returned error => exact .undoneError
  | faulted fault => exact .undoneFault
  | aborted => exact .undoneAbort

theorem step_transition (a : Attach) (phase : Phase) (s : Site) :
    Transition a phase s (a.step phase s).1 (a.step phase s).2 := by
  cases phase with
  | findLeftover => exact transition_findLeftover a s
  | measureLeftover id => exact transition_measureLeftover a s id
  | mapLeftover id => exact transition_mapLeftover a s id
  | checkLeftover m => exact transition_checkLeftover a s m
  | retireLeftover m => exact .leftoverRetired
  | removeLeftover => exact transition_removeLeftover a s
  | reportLeftover => exact transition_reportLeftover a s
  | create => exact transition_create a s
  | resize id => exact transition_resize a s id
  | map id => exact transition_map a s id
  | discard error => exact transition_discard a s error
  | claim m => exact .claimed
  | find w => exact transition_find a s w
  | measure w id => exact transition_measure a s w id
  | mapFound w id length => exact transition_mapFound a s w id length
  | checkReady w m => exact transition_checkReady a s w m
  | checkOwner w m => exact transition_checkOwner a s w m
  | checkLength w m => exact transition_checkLength a s w m
  | raiseLive w m => exact .raised
  | recheck w m => exact transition_recheck a s w m
  | withdraw w m => exact .withdrawn
  | raiseJoined m => exact .joined
  | missed w => exact transition_missed a s w
  | pause w wake => exact transition_pause a s w wake
  | register m => exact transition_register a s m
  | undo m ending => exact transition_undo a s m ending
  | publishBytes m => exact .bytesPublished
  | publishJoined m => exact .joinedPublished
  | publishLive m => exact .livePublished
  | publishState m => exact .statePublished
  | finish m => exact transition_finish a s m
  | fail error => exact transition_fail a s error

/-! ### How the call ends -/

theorem failed_spec {a : Attach} {error : AllocationError} {s : Site} {o : Outcome Result}
    {p : Process} (h : a.failed error s = (.done o, { s with process := p })) :
    s.process.Booked p ∧ (o = .returned (.error error) ∨
      ∃ d context, error.diagnostic? = some d ∧ o = .faulted (Process.strictFault d context)) := by
  have hcounted := s.process.booked_modifyAccount a.account .recordFailure
  unfold failed at h
  cases hd : error.diagnostic? with
  | none =>
    simp only [hd] at h
    cases h
    exact ⟨hcounted, Or.inl rfl⟩
  | some d =>
    simp only [hd] at h
    generalize "rank " ++ toString a.config.rank ++ ": " ++ error.message = context at h
    rcases (s.process.recordFailure a.account).emit_cases d context with ⟨q, hq⟩ | ⟨q, hq⟩
    · have hwrote := (Process.wrote_of_emit hq).booked
      rw [hq] at h
      cases h
      exact ⟨hcounted.trans hwrote, Or.inl rfl⟩
    · have hwrote := (Process.wrote_of_emit hq).booked
      rw [hq] at h
      cases h
      exact ⟨hcounted.trans hwrote, Or.inr ⟨d, context, rfl, rfl⟩⟩

def Fits (a : Attach) (p : Process) : Prop :=
  (p.account a.account).bytes.current.toNat + a.bytes.toNat < UInt64.size

instance (a : Attach) (p : Process) : Decidable (a.Fits p) :=
  inferInstanceAs (Decidable ((p.account a.account).bytes.current.toNat + a.bytes.toNat <
    UInt64.size))

/-- The last step hands out the block, unless the gauge of the account overflows. -/
theorem succeeded_spec {a : Attach} {m : Mapping} {s : Site} {o : Outcome Result} {p : Process}
    (h : a.succeeded m s = (.done o, { s with process := p })) :
    s.process.Booked p ∧
      if (s.process.account a.account).bytes.current.toNat + a.bytes.toNat < UInt64.size
      then o = .returned (.ok ⟨m.payload, a.bytes⟩) else o = .faulted .addOverflow := by
  unfold succeeded Process.recordAllocation at h
  dsimp only at h
  generalize htext : "rank " ++ toString a.config.rank ++ " attached " ++ Size.render a.bytes ++
    " (" ++ Size.render (.ofNat m.length) ++ " mapped) of segment " ++ a.config.segment.text =
    text at h
  have hbooked := (s.process.wrote_trace text).booked.trans
    ((s.process.trace text).booked_modifyAccount a.account
      fun account => (account.recordAllocation a.bytes).2)
  have hrecorded : (((s.process.trace text).account a.account).recordAllocation a.bytes).1 =
      if (s.process.account a.account).bytes.current.toNat + a.bytes.toNat < UInt64.size
      then .returned () else .faulted .addOverflow := by
    have haccount : (s.process.trace text).account a.account = s.process.account a.account := rfl
    rw [haccount]
    by_cases hlt : (s.process.account a.account).bytes.current.toNat + a.bytes.toNat < UInt64.size
    · have hno := Nat.not_le.mpr hlt
      simp [Statistics.recordAllocation, Gauge.add, Gauge.overflows, hlt, hno]
    · simp [Statistics.recordAllocation, Gauge.add, Gauge.overflows, hlt, Nat.not_lt.mp hlt]
  rw [hrecorded] at h
  cases h
  refine ⟨hbooked, ?_⟩
  split <;> rfl

/-! ### What no step changes -/

theorem clock_undone (a : Attach) (s : Site) (m : Mapping) :
    (a.undone s m).kernel.clock = s.kernel.clock := by
  unfold undone
  split <;> rfl

theorem pid_undone (a : Attach) (s : Site) (m : Mapping) :
    (a.undone s m).process.pid = s.process.pid := by
  unfold undone
  split <;> rfl

theorem alive_undone (a : Attach) (s : Site) (m : Mapping) :
    (a.undone s m).kernel.alive = s.kernel.alive := by
  unfold undone
  split <;> rfl

namespace Transition

variable {a : Attach} {phase : Phase} {s t : Site} {progress : Progress Phase Result}

theorem clock_eq (h : Transition a phase s progress t) : t.kernel.clock = s.kernel.clock := by
  cases h with
  | leftoverMapped h | mapped h | foundMapped h =>
    rw [(Site.mapped_of_mapSegment h).2.2.1]
  | created h => exact (Site.created_of_createSegment h).1.clock_eq
  | resized h =>
    rw [Site.of_resizeSegment h]
    rfl
  | undoneError | undoneFault | undoneAbort => exact clock_undone a s _
  | _ => rfl

theorem alive_eq (h : Transition a phase s progress t) : t.kernel.alive = s.kernel.alive := by
  cases h with
  | leftoverMapped h | mapped h | foundMapped h =>
    rw [(Site.mapped_of_mapSegment h).2.2.1]
  | created h => exact (Site.created_of_createSegment h).1.alive_eq
  | resized h =>
    rw [Site.of_resizeSegment h]
    rfl
  | undoneError | undoneFault | undoneAbort => exact alive_undone a s _
  | _ => rfl

theorem pid_eq (h : Transition a phase s progress t) : t.process.pid = s.process.pid := by
  cases h with
  | leftoverMapped h | mapped h | foundMapped h =>
    rw [(Site.mapped_of_mapSegment h).2.2.1]
  | leftoverReported h | leftoverFatal h => exact (Process.wrote_of_emit h).pid_eq
  | created h => rw [(Site.created_of_createSegment h).2]
  | resized h => rw [Site.of_resizeSegment h]
  | registered h | unregistered h | registerFatal h => exact (Device.kept_of_register h).pid_eq
  | undoneError | undoneFault | undoneAbort => exact pid_undone a s _
  | finished h => exact (succeeded_spec h).1.pid_eq
  | failed h => exact (failed_spec h).1.pid_eq
  | _ => rfl

end Transition

end Attach

namespace Detach

inductive Transition (d : Detach) : Phase → Site → Progress Phase Unit → Site → Prop
  | refused {s : Site} {p q : Process} {e : DeviceError}
      (h : d.device.unregister s.process d.block.address d.block.bytes = (.error e, p))
      (hq : d.giveUp e { s with process := p } = (.done .aborted, { s with process := q })) :
      Transition d .unregister s (.done .aborted) { s with process := q }
  | lost {s : Site} {p : Process}
      (h : d.device.unregister s.process d.block.address d.block.bytes = (.ok (), p))
      (hm : ({ s with process := p } : Site).mappingOf? d.block = none) :
      Transition d .unregister s (.done .aborted) { s with process := p }
  | unregistered {s : Site} {p : Process} {m : Mapping}
      (h : d.device.unregister s.process d.block.address d.block.bytes = (.ok (), p))
      (hm : ({ s with process := p } : Site).mappingOf? d.block = some m) :
      Transition d .unregister s
        (.running (if d.config.isLeader then .gather m else .leave m none none))
        { s with process := p }
  | hurried {s : Site} {m : Mapping} (h : d.config.teardownTimeout.isZero = true) :
      Transition d (.gather m) s (.running (.retire m none)) s
  | patient {s : Site} {m : Mapping} {w : Wait}
      (h : Wait.start? s.kernel.clock d.config.teardownTimeout d.config.pollInterval = some w) :
      Transition d (.gather m) s (.running (.readJoined w m)) s
  | overflowed {s : Site} {m : Mapping} (hz : d.config.teardownTimeout.isZero = false)
      (h : Wait.start? s.kernel.clock d.config.teardownTimeout d.config.pollInterval = none) :
      Transition d (.gather m) s (.done (.faulted .deadlineOverflow)) (s.unmap m)
  | joinedRead {s : Site} {w : Wait} {m : Mapping} :
      Transition d (.readJoined w m) s (.running (.readLive w m (s.header m).joined)) s
  | gathered {s : Site} {w : Wait} {m : Mapping} {joined : UInt32}
      (hlive : (s.header m).live ≤ 1) (hjoined : d.expected ≤ joined) :
      Transition d (.readLive w m joined) s (.running (.retire m none)) s
  | ungathered {s : Site} {w : Wait} {m : Mapping} {joined : UInt32} :
      Transition d (.readLive w m joined) s
        (.running (.missed w m joined (s.header m).live)) s
  | expired {s : Site} {w : Wait} {m : Mapping} {joined live : UInt32} {waited : Duration}
      (h : w.judge s.kernel.clock = .expired waited) :
      Transition d (.missed w m joined live) s
        (.running (.retire m (some (d.stragglers joined live waited)))) s
  | waiting {s : Site} {w : Wait} {m : Mapping} {joined live : UInt32} {length : Nat}
      (h : w.judge s.kernel.clock = .pause length) :
      Transition d (.missed w m joined live) s
        (.running (.pause w m (s.kernel.pauseEnd length))) s
  | woken {s : Site} {w : Wait} {m : Mapping} {wake : Nat} (h : wake ≤ s.kernel.clock) :
      Transition d (.pause w m wake) s (.running (.readJoined w m)) s
  | asleep {s : Site} {w : Wait} {m : Mapping} {wake : Nat} (h : s.kernel.clock < wake) :
      Transition d (.pause w m wake) s (.running (.pause w m wake)) s
  | retired {s : Site} {m : Mapping} {late : Option String} :
      Transition d (.retire m late) s (.running (.unlink m late)) (s.modifyHeader m .retire)
  | unlinked {s : Site} {m : Mapping} {late : Option String} {id : SegmentId}
      (h : s.kernel.names.get? d.config.segment = some id) :
      Transition d (.unlink m late) s (.running (.leave m late none))
        (s.unbind d.config.segment)
  | unlinkFailed {s : Site} {m : Mapping} {late : Option String} {e : SystemError}
      (h : s.kernel.names.get? d.config.segment = none) :
      Transition d (.unlink m late) s (.running (.leave m late (some e))) s
  | left {s : Site} {m : Mapping} {late : Option String} {refused : Option SystemError} :
      Transition d (.leave m late refused) s (.running (.close m late refused))
        (s.modifyHeader m .leave)
  | closed {s : Site} {m : Mapping} {late : Option String} {refused : Option SystemError}
      {o : Outcome Unit} {p : Process}
      (h : d.closed late refused (s.unmap m) = (.done o, { s with process := p })) :
      Transition d (.close m late refused) s (.done o) { s with process := p }

/-! ### Each step is one of these -/

attribute [local simp] step

theorem transition_unregister (d : Detach) (s : Site) :
    Transition d .unregister s (d.step .unregister s).1 (d.step .unregister s).2 := by
  simp only [step]
  cases h : d.device.unregister s.process d.block.address d.block.bytes with
  | mk result p =>
    cases result with
    | error e => exact .refused h rfl
    | ok _ =>
      cases hm : ({ s with process := p } : Site).mappingOf? d.block with
      | none => simpa only [hm] using .lost h hm
      | some m => simpa only [hm] using .unregistered h hm

theorem transition_gather (d : Detach) (s : Site) (m : Mapping) :
    Transition d (.gather m) s (d.step (.gather m) s).1 (d.step (.gather m) s).2 := by
  simp only [step]
  split
  case isTrue h => exact .hurried h
  case isFalse hz =>
    split
    case h_1 h => exact .patient h
    case h_2 h => exact .overflowed (Bool.not_eq_true _ ▸ hz) h

theorem transition_readLive (d : Detach) (s : Site) (w : Wait) (m : Mapping) (joined : UInt32) :
    Transition d (.readLive w m joined) s (d.step (.readLive w m joined) s).1
      (d.step (.readLive w m joined) s).2 := by
  simp only [step]
  split
  case isTrue h => exact .gathered h.1 h.2
  case isFalse => exact .ungathered

theorem transition_missed (d : Detach) (s : Site) (w : Wait) (m : Mapping)
    (joined live : UInt32) :
    Transition d (.missed w m joined live) s (d.step (.missed w m joined live) s).1
      (d.step (.missed w m joined live) s).2 := by
  simp only [step]
  split
  case h_1 h => exact .expired h
  case h_2 h => exact .waiting h

theorem transition_pause (d : Detach) (s : Site) (w : Wait) (m : Mapping) (wake : Nat) :
    Transition d (.pause w m wake) s (d.step (.pause w m wake) s).1
      (d.step (.pause w m wake) s).2 := by
  simp only [step]
  split
  case isTrue h => exact .woken h
  case isFalse h => exact .asleep (Nat.not_le.mp h)

theorem transition_unlink (d : Detach) (s : Site) (m : Mapping) (late : Option String) :
    Transition d (.unlink m late) s (d.step (.unlink m late) s).1
      (d.step (.unlink m late) s).2 := by
  simp only [step]
  cases h : s.kernel.names.get? d.config.segment with
  | none =>
    obtain ⟨e, he⟩ := Site.unlink_of_unbound h
    rw [he]
    exact .unlinkFailed h
  | some id =>
    rw [Site.unlink_of_bound h]
    exact .unlinked h

theorem transition_close (d : Detach) (s : Site) (m : Mapping) (late : Option String)
    (refused : Option SystemError) :
    Transition d (.close m late refused) s (d.step (.close m late refused) s).1
      (d.step (.close m late refused) s).2 := by
  obtain ⟨o, p, h⟩ : ∃ o p, d.closed late refused (s.unmap m) =
      (.done o, { s with process := p }) := by
    unfold closed
    dsimp only
    split
    · split <;> exact ⟨_, _, rfl⟩
    · exact ⟨_, _, rfl⟩
  simp only [step, h]
  exact .closed h

theorem step_transition (d : Detach) (phase : Phase) (s : Site) :
    Transition d phase s (d.step phase s).1 (d.step phase s).2 := by
  cases phase with
  | unregister => exact transition_unregister d s
  | gather m => exact transition_gather d s m
  | readJoined w m => exact .joinedRead
  | readLive w m joined => exact transition_readLive d s w m joined
  | missed w m joined live => exact transition_missed d s w m joined live
  | pause w m wake => exact transition_pause d s w m wake
  | retire m late => exact .retired
  | unlink m late => exact transition_unlink d s m late
  | leave m late refused => exact .left
  | close m late refused => exact transition_close d s m late refused

/-! ### How the call ends -/

/-- What is reported when everything is undone: that the wait ran out, then that the name was not
there, then the trace. A fatal report is the last. -/
def reports (d : Detach) (late : Option String) (refused : Option SystemError) (p : Process) :
    Outcome Unit × Process :=
  match p.emitAny .teardownTimedOut late with
  | (.returned _, p) =>
    match p.emitAny .unlinkFailed
      (refused.map fun e => "segment " ++ d.config.segment.text ++ ": " ++ e.message) with
    | (.returned _, p) =>
      (.returned (), p.trace ("rank " ++ toString d.config.rank ++ " released " ++
        Size.render d.block.bytes ++ " of segment " ++ d.config.segment.text))
    | ended => ended
  | ended => ended

/-- The release is counted before anything is reported. -/
theorem closed_eq (d : Detach) (late : Option String) (refused : Option SystemError) (s : Site) :
    d.closed late refused s =
      (.done (d.reports late refused (s.process.recordRelease d.account d.block.bytes)).1,
        { s with
          process :=
            (d.reports late refused (s.process.recordRelease d.account d.block.bytes)).2 }) := by
  unfold closed reports
  dsimp only
  generalize (s.process.recordRelease d.account d.block.bytes).emitAny .teardownTimedOut late =
    first
  obtain ⟨outcome, p⟩ := first
  cases outcome with
  | returned _ =>
    dsimp only
    generalize p.emitAny .unlinkFailed _ = second
    obtain ⟨outcome, q⟩ := second
    cases outcome <;> rfl
  | faulted _ => rfl
  | aborted => rfl

/-- What is reported last may be fatal, but aborts nothing. -/
theorem reports_spec (d : Detach) (late : Option String) (refused : Option SystemError)
    (p : Process) : p.Wrote (d.reports late refused p).2 ∧
      ((d.reports late refused p).1 = .returned () ∨
        ∃ context, (d.reports late refused p).1 =
            .faulted (Process.strictFault .teardownTimedOut context) ∨
          (d.reports late refused p).1 =
            .faulted (Process.strictFault .unlinkFailed context)) := by
  unfold reports
  obtain ⟨q, hq, hfirst | ⟨text, hfirst⟩⟩ := p.emitAny_cases .teardownTimedOut late
  · rw [hfirst]
    dsimp only
    obtain ⟨r, hr, hsecond | ⟨text, hsecond⟩⟩ := q.emitAny_cases .unlinkFailed
      (refused.map fun e => "segment " ++ d.config.segment.text ++ ": " ++ e.message)
    · rw [hsecond]
      exact ⟨(hq.trans hr).trans (r.wrote_trace _), Or.inl rfl⟩
    · rw [hsecond]
      exact ⟨hq.trans hr, Or.inr ⟨text, Or.inr rfl⟩⟩
  · rw [hfirst]
    exact ⟨hq, Or.inr ⟨text, Or.inl rfl⟩⟩

theorem closed_spec {d : Detach} {late : Option String} {refused : Option SystemError} {s t : Site}
    {o : Outcome Unit} (h : d.closed late refused s = (.done o, t)) :
    t.kernel = s.kernel ∧ s.process.Booked t.process ∧ o ≠ .aborted := by
  rw [closed_eq] at h
  cases h
  obtain ⟨hwrote, hending⟩ :=
    d.reports_spec late refused (s.process.recordRelease d.account d.block.bytes)
  refine ⟨rfl, (s.process.booked_modifyAccount _ _).trans hwrote.booked, ?_⟩
  rcases hending with h | ⟨context, h | h⟩ <;> simp [h]

/-! ### What no step changes -/

namespace Transition

variable {d : Detach} {phase : Phase} {s t : Site} {progress : Progress Phase Unit}

theorem clock_eq (h : Transition d phase s progress t) : t.kernel.clock = s.kernel.clock := by
  cases h <;> rfl

theorem alive_eq (h : Transition d phase s progress t) : t.kernel.alive = s.kernel.alive := by
  cases h <;> rfl

theorem pid_eq (h : Transition d phase s progress t) : t.process.pid = s.process.pid := by
  cases h with
  | refused h hq =>
    cases hq
    exact (Process.wrote_emitLast _ _ _).pid_eq.trans (Device.kept_of_unregister h).pid_eq
  | lost h | unregistered h => exact (Device.kept_of_unregister h).pid_eq
  | closed h => exact (closed_spec h).2.1.pid_eq
  | _ => rfl

end Transition

end Detach
end StagingMemory
