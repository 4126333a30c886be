import StagingMemory.Sharing.Config
import StagingMemory.Sharing.Progress
import StagingMemory.Sharing.Wait
import StagingMemory.Site
/-!
Releasing shared memory. A member unregisters its payload, leaves the segment and unmaps it. The
leader first waits, for a bounded time, until the expected participants have joined and all
followers have left, and then retires the segment and removes its name. What went wrong on the way
is reported only after all of this.
-/
namespace StagingMemory

structure Detach where
  config : SharingConfig
  device : Device
  account : Nat
  block : Block
  deriving DecidableEq

namespace Detach

inductive Phase where
  | unregister
  /-- The leader, about to wait. -/
  | gather (m : Mapping)
  /-- The leader reads how many have joined, then how many are attached. -/
  | readJoined (w : Wait) (m : Mapping)
  | readLive (w : Wait) (m : Mapping) (joined : UInt32)
  /-- Somebody is missing: the clock is read. -/
  | missed (w : Wait) (m : Mapping) (joined live : UInt32)
  | pause (w : Wait) (m : Mapping) (wake : Nat)
  | retire (m : Mapping) (late : Option String)
  | unlink (m : Mapping) (late : Option String)
  | leave (m : Mapping) (late : Option String) (refused : Option SystemError)
  | close (m : Mapping) (late : Option String) (refused : Option SystemError)
  deriving DecidableEq

/-- The number of participants the leader waits for; it counts itself. -/
def expected (d : Detach) : UInt32 := d.config.participants.getD 1

/-- Who is missing when the leader stops waiting. -/
def stragglers (d : Detach) (joined live : UInt32) (waited : Duration) : String :=
  "segment " ++ d.config.segment.text ++ ": " ++ toString joined ++ " of " ++
    toString d.expected ++ " joined, " ++ toString (live.toNat - 1) ++
    " follower(s) attached after " ++ waited.render

def begin (_ : Detach) (s : Site) : Progress Phase Unit × Site := (.running .unregister, s)

/-- The device no longer knows the memory: the process cannot go on. -/
def giveUp (d : Detach) (error : DeviceError) (s : Site) : Progress Phase Unit × Site :=
  let process := s.process.emitLast .unregisterFailed
    ("segment " ++ d.config.segment.text ++ " rank " ++ toString d.config.rank ++ " at " ++
      renderAddress d.block.address ++ " (" ++ Size.render d.block.bytes ++ "): " ++ error.message)
  (.done .aborted, { s with process })

/-- Everything is undone: the release is counted, and what went wrong is reported. -/
def closed (d : Detach) (late : Option String) (refused : Option SystemError) (s : Site) :
    Progress Phase Unit × Site :=
  let counted := s.process.recordRelease d.account d.block.bytes
  let (first, process) := counted.emitAny .teardownTimedOut late
  match first with
  | .returned _ =>
    let (second, process) := process.emitAny .unlinkFailed
      (refused.map fun e => "segment " ++ d.config.segment.text ++ ": " ++ e.message)
    match second with
    | .returned _ =>
      (.done (.returned ()), { s with
        process := process.trace ("rank " ++ toString d.config.rank ++ " released " ++
          Size.render d.block.bytes ++ " of segment " ++ d.config.segment.text) })
    | ended => (.done ended, { s with process })
  | ended => (.done ended, { s with process })

def step (d : Detach) (phase : Phase) (s : Site) : Progress Phase Unit × Site :=
  match phase with
  | .unregister =>
    let (result, process) := d.device.unregister s.process d.block.address d.block.bytes
    let s := { s with process }
    match result with
    | .error e => d.giveUp e s
    | .ok _ =>
      match s.mappingOf? d.block with
      | none => (.done .aborted, s)
      | some m =>
        (.running (if d.config.isLeader then .gather m else .leave m none none), s)
  | .gather m =>
    if d.config.teardownTimeout.isZero then (.running (.retire m none), s)
    else match Wait.start? s.kernel.clock d.config.teardownTimeout d.config.pollInterval with
      | some w => (.running (.readJoined w m), s)
      | none => (.done (.faulted .deadlineOverflow), s.unmap m)
  | .readJoined w m => (.running (.readLive w m (s.header m).joined), s)
  | .readLive w m joined =>
    let live := (s.header m).live
    if live ≤ 1 ∧ d.expected ≤ joined then (.running (.retire m none), s)
    else (.running (.missed w m joined live), s)
  | .missed w m joined live =>
    match w.judge s.kernel.clock with
    | .expired waited => (.running (.retire m (some (d.stragglers joined live waited))), s)
    | .pause length => (.running (.pause w m (s.kernel.pauseEnd length)), s)
  | .pause w m wake =>
    (.running (if wake ≤ s.kernel.clock then .readJoined w m else .pause w m wake), s)
  | .retire m late => (.running (.unlink m late), s.modifyHeader m .retire)
  | .unlink m late =>
    match s.unlink d.config.segment with
    | (.ok _, s) => (.running (.leave m late none), s)
    | (.error e, s) => (.running (.leave m late (some e)), s)
  | .leave m late refused => (.running (.close m late refused), s.modifyHeader m .leave)
  | .close m late refused => d.closed late refused (s.unmap m)

def wake? : Phase → Option Nat
  | .pause _ _ wake => some wake
  | _ => none

end Detach
end StagingMemory
