import StagingMemory.Resource.Error
import StagingMemory.Sharing.Config
import StagingMemory.Sharing.Progress
import StagingMemory.Sharing.Wait
import StagingMemory.Site
/-!
Allocating shared memory. The leader creates a segment, gives it its length, maps and claims it,
registers the payload with the device and then publishes it, word by word. A follower looks for a
published segment of a leader that is alive, joins it and registers its own mapping. A step that
fails is undone before it is reported, so a fatal report leaves nothing behind either.
-/
namespace StagingMemory

structure Attach where
  config : SharingConfig
  device : Device
  account : Nat
  bytes : UInt64
  deriving DecidableEq

namespace Attach

/-- The length of the segment: the header and the payload. -/
def total (a : Attach) : Nat := Page.headerLength + a.bytes.toNat

inductive Phase where
  -- The leader removes what a dead leader left.
  | findLeftover
  | measureLeftover (id : SegmentId)
  | mapLeftover (id : SegmentId)
  | checkLeftover (m : Mapping)
  | retireLeftover (m : Mapping)
  | removeLeftover
  | reportLeftover
  -- The leader creates its segment.
  | create
  | resize (id : SegmentId)
  | map (id : SegmentId)
  /-- The segment could not be sized or mapped: its name is removed again. -/
  | discard (error : AllocationError)
  | claim (m : Mapping)
  -- A follower looks for a segment to join.
  | find (w : Wait)
  | measure (w : Wait) (id : SegmentId)
  | mapFound (w : Wait) (id : SegmentId) (length : Nat)
  | checkReady (w : Wait) (m : Mapping)
  | checkOwner (w : Wait) (m : Mapping)
  | checkLength (w : Wait) (m : Mapping)
  /-- Joining: the live count is raised, the state read, and then either the live count lowered
  again or the joined count raised. -/
  | raiseLive (w : Wait) (m : Mapping)
  | recheck (w : Wait) (m : Mapping)
  | withdraw (w : Wait) (m : Mapping)
  | raiseJoined (m : Mapping)
  /-- There was nothing to join: the clock is read. -/
  | missed (w : Wait)
  | pause (w : Wait) (wake : Nat)
  -- Both register their payload.
  | register (m : Mapping)
  /-- Registering failed: the leader removes its name, a follower leaves; then the call ends. -/
  | undo (m : Mapping) (ending : Outcome AllocationError)
  -- The leader publishes.
  | publishBytes (m : Mapping)
  | publishJoined (m : Mapping)
  | publishLive (m : Mapping)
  | publishState (m : Mapping)
  | finish (m : Mapping)
  | fail (error : AllocationError)
  deriving DecidableEq

abbrev Result := Except AllocationError Block

/-- The call fails with an error: the failure is counted and then reported. -/
def failed (a : Attach) (error : AllocationError) (s : Site) : Progress Phase Result × Site :=
  let counted := s.process.recordFailure a.account
  match error.diagnostic? with
  | none => (.done (.returned (.error error)), { s with process := counted })
  | some d =>
    let (reported, process) :=
      counted.emit d ("rank " ++ toString a.config.rank ++ ": " ++ error.message)
    (.done (reported.map fun _ => .error error), { s with process })

def succeeded (a : Attach) (m : Mapping) (s : Site) : Progress Phase Result × Site :=
  let traced := s.process.trace
    ("rank " ++ toString a.config.rank ++ " attached " ++ Size.render a.bytes ++ " (" ++
      Size.render (.ofNat m.length) ++ " mapped) of segment " ++ a.config.segment.text)
  let (recorded, process) := traced.recordAllocation a.account a.bytes
  (.done (recorded.map fun _ => .ok ⟨m.payload, a.bytes⟩), { s with process })

/-- The first phase, or the end of a call that cannot begin. -/
def begin (a : Attach) (s : Site) : Progress Phase Result × Site :=
  if Size.wordValues ≤ a.total then (.running (.fail (.sizeOverflow a.bytes)), s)
  else if a.config.isLeader then
    (.running (if a.config.reclaimStale then .findLeftover else .create), s)
  else
    match Wait.start? s.kernel.clock a.config.bootstrapTimeout a.config.pollInterval with
    | some w => (.running (.find w), s)
    | none => (.done (.faulted .deadlineOverflow), s)

/-- One step of the leader before its segment exists. -/
def stepLeftover (a : Attach) (s : Site) : Phase → Progress Phase Result × Site
  | .findLeftover =>
    match s.openSegment a.config.segment with
    | .ok id => (.running (.measureLeftover id), s)
    | .error e =>
      if e = .notFound then (.running .create, s)
      else (.running (.fail (.openFailed a.config.segment e)), s)
  | .measureLeftover id =>
    -- What is shorter than a header was left by a leader that died before claiming it.
    if s.kernel.segmentLength id < Page.headerLength then (.running .removeLeftover, s)
    else (.running (.mapLeftover id), s)
  | .mapLeftover id =>
    match s.mapSegment id Page.headerLength with
    | .ok (m, s) => (.running (.checkLeftover m), s)
    | .error e => (.running (.fail (.mapFailed a.config.segment Page.headerLength e)), s)
  | .checkLeftover m =>
    if s.kernel.ownerAlive m.segment then
      (.running (.fail (.nameTaken a.config.segment)), s.unmap m)
    else (.running (.retireLeftover m), s)
  | .retireLeftover m =>
    -- Followers that mapped the leftover but have not joined it yet will now refuse it.
    (.running .removeLeftover, (s.modifyHeader m .retire).unmap m)
  | .removeLeftover =>
    match s.unlink a.config.segment with
    | (.ok _, s) => (.running .reportLeftover, s)
    | (.error _, s) => (.running .create, s)
  | _ =>
    let (reported, process) :=
      s.process.emit .staleRemoved ("segment " ++ a.config.segment.text)
    match reported with
    | .returned _ => (.running .create, { s with process })
    | .faulted fault => (.done (.faulted fault), { s with process })
    | .aborted => (.done .aborted, { s with process })

def stepCreate (a : Attach) (s : Site) : Phase → Progress Phase Result × Site
  | .create =>
    match s.createSegment a.config.segment a.config.mode with
    | .ok (id, s) => (.running (.resize id), s)
    | .error e =>
      if e = .alreadyExists then (.running (.fail (.nameTaken a.config.segment)), s)
      else (.running (.fail (.createFailed a.config.segment e)), s)
  | .resize id =>
    match s.resizeSegment id a.total with
    | .ok s => (.running (.map id), s)
    | .error e => (.running (.discard (.resizeFailed a.config.segment a.total e)), s)
  | .map id =>
    match s.mapSegment id a.total with
    | .ok (m, s) => (.running (.claim m), s)
    | .error e => (.running (.discard (.mapFailed a.config.segment a.total e)), s)
  | .discard error => (.running (.fail error), (s.unlink a.config.segment).2)
  | .claim m => (.running (.register m), s.modifyHeader m (·.claim s.process.pid))
  | phase => (.running phase, s)

def stepFind (a : Attach) (s : Site) : Phase → Progress Phase Result × Site
  | .find w =>
    match s.openSegment a.config.segment with
    | .ok id => (.running (.measure w id), s)
    | .error e =>
      if e = .notFound then (.running (.missed w), s)
      else (.running (.fail (.openFailed a.config.segment e)), s)
  | .measure w id =>
    -- The leader gives the segment its length before it publishes it.
    let length := s.kernel.segmentLength id
    if length < Page.headerLength then (.running (.missed w), s)
    else (.running (.mapFound w id length), s)
  | .mapFound w id length =>
    match s.mapSegment id length with
    | .ok (m, s) => (.running (.checkReady w m), s)
    | .error e => (.running (.fail (.mapFailed a.config.segment length e)), s)
  | .checkReady w m =>
    if (s.header m).isReady then (.running (.checkOwner w m), s)
    else (.running (.missed w), s.unmap m)
  | .checkOwner w m =>
    -- A leader that crashed left it behind; another one may replace it.
    if s.kernel.ownerAlive m.segment then (.running (.checkLength w m), s)
    else (.running (.missed w), s.unmap m)
  | .checkLength w m =>
    let found := (s.header m).bytes
    if found ≠ a.bytes ∨ m.length ≠ a.total then
      (.running (.fail (.lengthMismatch a.config.segment a.bytes found)), s.unmap m)
    else (.running (.raiseLive w m), s)
  | .missed w =>
    match w.judge s.kernel.clock with
    | .expired waited => (.running (.fail (.bootstrapTimedOut a.config.segment waited)), s)
    | .pause length => (.running (.pause w (s.kernel.pauseEnd length)), s)
  | .pause w wake => (.running (if wake ≤ s.kernel.clock then .find w else .pause w wake), s)
  | phase => (.running phase, s)

def stepJoin (s : Site) : Phase → Progress Phase Result × Site
  | .raiseLive w m => (.running (.recheck w m), s.modifyHeader m .raiseLive)
  | .recheck w m =>
    if (s.header m).isReady then (.running (.raiseJoined m), s)
    else (.running (.withdraw w m), s)
  | .withdraw w m => (.running (.missed w), (s.modifyHeader m .lowerLive).unmap m)
  | .raiseJoined m => (.running (.register m), s.modifyHeader m .raiseJoined)
  | phase => (.running phase, s)

def stepRegister (a : Attach) (s : Site) : Phase → Progress Phase Result × Site
  | .register m =>
    let (result, process) := a.device.register s.process m.payload a.bytes .portable
    let s := { s with process }
    match result with
    | .returned (.ok _) =>
      (.running (if a.config.isLeader then .publishBytes m else .finish m), s)
    | .returned (.error e) =>
      (.running (.undo m (.returned (.device DeviceCall.register.name e))), s)
    | .faulted fault => (.running (.undo m (.faulted fault)), s)
    | .aborted => (.done .aborted, s)
  | .undo m ending =>
    let undone := if a.config.isLeader then (s.unlink a.config.segment).2
      else s.modifyHeader m .leave
    let left := undone.unmap m
    match ending with
    | .returned error => (.running (.fail error), left)
    | .faulted fault => (.done (.faulted fault), left)
    | .aborted => (.done .aborted, left)
  | .publishBytes m => (.running (.publishJoined m), s.modifyHeader m (·.setBytes a.bytes))
  | .publishJoined m => (.running (.publishLive m), s.modifyHeader m (·.setJoined 1))
  | .publishLive m => (.running (.publishState m), s.modifyHeader m (·.setLive 1))
  | .publishState m => (.running (.finish m), s.modifyHeader m (·.setState Header.readyMark))
  | .finish m => a.succeeded m s
  | .fail error => a.failed error s
  | phase => (.running phase, s)

def step (a : Attach) (phase : Phase) (s : Site) : Progress Phase Result × Site :=
  match phase with
  | .findLeftover | .measureLeftover _ | .mapLeftover _ | .checkLeftover _ | .retireLeftover _
  | .removeLeftover | .reportLeftover => a.stepLeftover s phase
  | .create | .resize _ | .map _ | .discard _ | .claim _ => a.stepCreate s phase
  | .find _ | .measure _ _ | .mapFound _ _ _ | .checkReady _ _ | .checkOwner _ _
  | .checkLength _ _ | .missed _ | .pause _ _ => a.stepFind s phase
  | .raiseLive _ _ | .recheck _ _ | .withdraw _ _ | .raiseJoined _ => stepJoin s phase
  | _ => a.stepRegister s phase

def wake? : Phase → Option Nat
  | .pause _ wake => some wake
  | _ => none

end Attach
end StagingMemory
