import StagingMemory.Session.Clock
/-!
Commands on resources: making and copying them, allocating and releasing blocks, and asking for
their figures.
-/
namespace StagingMemory.Session

inductive ResourceCommand where
  /-- Without a device, one on the host that locks its pages. -/
  | makePinned (id : String) (device : Option String)
  | makeShared (id device name : String) (settings : List SharingConfig.Setting)
  | clone (id source : String)
  | allocate (id slot : String) (bytes : UInt64)
  | release (id slot : String)
  | memoryInfo (id : String)
  | statistics (id : String)
  | compare (left right : String)
  | describe (id : String)
  deriving DecidableEq

inductive Subject where
  | nothing
  | resource (id : String)
  | device (id : String)
  deriving DecidableEq

/-- An answered query for memory figures, exact ones only for a dummy. -/
def Answer.ofMemory (device : Device) (info : MemoryInfo) : Answer :=
  match device with
  | .dummy _ => .memory info
  | .host _ => .machineMemory info

namespace World

def addResource (w : World) (id : String) (strategy : Strategy) (device : Device) :
    Outcome Answer × World :=
  let (account, process) := w.frame.process.openAccount
  let w := w.withProcess process
  (w.modifyFrame fun f =>
    { f with resources := f.resources.insert id ⟨strategy, device, account⟩ }).answer .ok

def settleAllocation (slot : String) : Outcome Reply × World → Outcome Answer × World
  | (.returned (.allocated (some block)), w) => (w.putBlock slot block).answer (.block block)
  | (outcome, w) => (outcome.map Answer.ofReply, w)

def settleRelease : Outcome Reply × World → Outcome Answer × World
  | (outcome, w) => (outcome.map Answer.ofReply, w)

end World

namespace ResourceCommand

def subject : ResourceCommand → Subject
  | makePinned _ (some device) => .device device
  | makePinned _ none | compare _ _ => .nothing
  | makeShared _ device _ _ => .device device
  | clone id _ | allocate id _ _ | release id _ | memoryInfo id | statistics id | describe id =>
    .resource id

/-- Carries out a command. A slot is emptied before its block is released, and keeps what it held if
an allocation hands out nothing. -/
def perform : ResourceCommand → Effect
  | makePinned id (some device), w =>
    w.withDevice device fun d w => w.addResource id .pinned d
  | makePinned id none, w => w.addResource id .pinned (.host .required)
  | makeShared id device name settings, w =>
    w.withDevice device fun d w =>
      w.withName name fun segment w =>
        w.addResource id (.shared (settings.foldl .set (.ofSegment segment))) d
  | clone id source, w =>
    w.withResource source fun r w =>
      let (copy, process) := r.clone w.frame.process
      ((w.withProcess process).modifyFrame fun f =>
        { f with resources := f.resources.insert id copy }).answer .ok
  | allocate id slot bytes, w =>
    w.withResource id fun r w => World.settleAllocation slot (w.call (r.beginAllocate bytes))
  | release id slot, w =>
    w.withResource id fun r w =>
      w.withBlock slot fun block w =>
        World.settleRelease ((w.takeBlock slot).call (r.beginRelease block))
  | memoryInfo id, w =>
    w.withResource id fun r w =>
      let (result, process) := r.memoryInfo w.frame.process
      let w := w.withProcess process
      match result with
      | .ok info => w.answer (.ofMemory r.device info)
      | .error e => w.fail (.query e)
  | statistics id, w =>
    w.withResource id fun r w => w.answer (.statistics (w.frame.process.account r.account))
  | compare left right, w =>
    w.withResource left fun a w =>
      w.withResource right fun b w => w.answer (.comparison (a.interchangeable b))
  | describe id, w => w.withResource id fun r w => w.answer (.description r)

end ResourceCommand
end StagingMemory.Session
