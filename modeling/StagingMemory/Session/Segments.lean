import StagingMemory.Session.World
/-!
Commands on segments by hand: names, open segments, mappings and headers.
-/
namespace StagingMemory.Session

inductive HeaderCall where
  | view
  /-- Claims the segment for a process, by default the one that calls. -/
  | claim (pid : Option UInt32)
  | publish (bytes : UInt64)
  | join
  | leave
  | retire
  | isReady
  | ownerAlive
  deriving DecidableEq

inductive SegmentCommand where
  | taken (name : String)
  | peek (name : String)
  | create (name slot : String) (mode : UInt32)
  | openExisting (name slot : String)
  | close (slot : String)
  | unlink (name : String)
  | resize (slot : String) (length : UInt64)
  | length (slot : String)
  | mode (slot : String)
  | map (slot : String) (length : UInt64)
  | unmap (slot : String)
  /-- The payload of a mapping, and the mapping that is found again from it. -/
  | payload (slot : String)
  | header (slot : String) (call : HeaderCall)
  deriving DecidableEq

namespace World

def withDescriptor (w : World) (slot : String) (next : SegmentId → Effect) :
    Outcome Answer × World :=
  w.withThing (w.frame.descriptors.get? slot) "fd" next

def withMapping (w : World) (slot : String) (next : Mapping → Effect) : Outcome Answer × World :=
  w.withThing (w.frame.mappings.get? slot) "mapping" next

def putDescriptor (w : World) (slot : String) (id : SegmentId) : World :=
  w.modifyFrame fun f => { f with descriptors := f.descriptors.insert slot id }

end World

namespace HeaderCall

def value (call : HeaderCall) (s : Site) (m : Mapping) : Option Bool :=
  match call with
  | join => some (s.header m).join.1
  | isReady => some (s.header m).isReady
  | ownerAlive => some (s.kernel.ownerAlive m.segment)
  | _ => none

def apply (call : HeaderCall) (pid : UInt32) (h : Header) : Header :=
  match call with
  | claim other => h.claim (other.getD pid)
  | publish bytes => h.publish bytes
  | join => h.join.2
  | leave => h.leave
  | retire => h.retire
  | view | isReady | ownerAlive => h

end HeaderCall

namespace SegmentCommand

/-- Carries out a command. Closing or unmapping an empty slot does nothing, and no command cuts a
segment. -/
def perform : SegmentCommand → Effect
  | taken name, w => w.withName name fun name w => w.answer (.truth (w.site.exists? name))
  | peek name, w => w.withName name fun name w => w.answer (.peek (w.site.peek name))
  | create name slot bits, w =>
    w.withName name fun name w =>
      match w.site.createSegment name bits with
      | .ok (id, s) => ((w.withSite s).putDescriptor slot id).answer .ok
      | .error e => w.fail (.system e)
  | openExisting name slot, w =>
    w.withName name fun name w =>
      match w.site.openSegment name with
      | .ok id => (w.putDescriptor slot id).answer .ok
      | .error e => w.fail (.system e)
  | close slot, w =>
    (w.modifyFrame fun f => { f with descriptors := f.descriptors.erase slot }).answer .ok
  | unlink name, w =>
    w.withName name fun name w =>
      match w.site.unlink name with
      | (.ok _, s) => (w.withSite s).answer .ok
      | (.error e, s) => (w.withSite s).fail (.system e)
  | resize slot bytes, w =>
    w.withDescriptor slot fun id w =>
      if bytes.toNat < w.kernel.segmentLength id then w.fail .shrinking
      else match w.site.resizeSegment id bytes.toNat with
      | .ok s => (w.withSite s).answer .ok
      | .error e => w.fail (.system e)
  | length slot, w =>
    w.withDescriptor slot fun id w => w.answer (.number (w.kernel.segmentLength id))
  | mode slot, w =>
    w.withDescriptor slot fun id w => w.answer (.number (w.kernel.segmentMode id).toNat)
  | map slot bytes, w =>
    w.withDescriptor slot fun id w =>
      match w.site.mapSegment id bytes.toNat with
      | .ok (m, s) =>
        -- A mapping that was in the slot is undone.
        let freed := match w.frame.mappings.get? slot with
          | some replaced => s.unmap replaced
          | none => s
        ((w.withSite freed).modifyFrame fun f =>
          { f with mappings := f.mappings.insert slot m }).answer (.mapping m.length)
      | .error e => w.fail (.system e)
  | unmap slot, w =>
    match w.frame.mappings.get? slot with
    | none => w.answer .ok
    | some m =>
      ((w.withSite (w.site.unmap m)).modifyFrame fun f =>
        { f with mappings := f.mappings.erase slot }).answer .ok
  | payload slot, w =>
    w.withMapping slot fun m w =>
      let block : Block := ⟨m.payload, .ofNat (m.length - Page.headerLength)⟩
      w.answer (.payload m.length (w.site.mappingOf? block == some m))
  | header slot call, w =>
    w.withMapping slot fun m w =>
      let s := w.site.modifyHeader m (call.apply w.frame.process.pid)
      (w.withSite s).answer (.header (call.value w.site m) (s.viewHeader (s.header m)))

end SegmentCommand
end StagingMemory.Session
