import StagingMemory.Duration
import StagingMemory.SegmentName
import StagingMemory.Text.Blank
/-!
How one process takes part in a group that shares a segment: by explicit settings, or read from
variables. Rank 0 leads: it creates and removes the segment.
-/
namespace StagingMemory

structure SharingConfig where
  segment : SegmentName
  rank : UInt32
  /-- The expected size of the group with its leader; `none` when it is not known. -/
  participants : Option UInt32
  /-- The pause between two looks while waiting. -/
  pollInterval : Duration
  /-- How long a follower waits for the leader to publish. -/
  bootstrapTimeout : Duration
  /-- How long the leader waits for the followers before it removes the name; zero is not at all. -/
  teardownTimeout : Duration
  /-- Permission bits of the created segment. -/
  mode : UInt32
  /-- Remove a segment left under the name by a dead leader. -/
  reclaimStale : Bool
  deriving DecidableEq

namespace SharingConfig

def ofSegment (segment : SegmentName) : SharingConfig where
  segment
  rank := 0
  participants := none
  pollInterval := .ofMilliseconds 100
  bootstrapTimeout := .ofSeconds 30
  teardownTimeout := .ofSeconds 10
  mode := 0o666
  reclaimStale := false

def isLeader (config : SharingConfig) : Bool := config.rank == 0

inductive Setting where
  | rank (n : UInt32)
  | participants (n : UInt32)
  | pollInterval (d : Duration)
  | bootstrapTimeout (d : Duration)
  | teardownTimeout (d : Duration)
  | mode (bits : UInt32)
  | reclaimStale (on : Bool)
  deriving DecidableEq, Repr

def set (config : SharingConfig) : Setting → SharingConfig
  | .rank n => { config with rank := n }
  | .participants n => { config with participants := some n }
  | .pollInterval d => { config with pollInterval := d }
  | .bootstrapTimeout d => { config with bootstrapTimeout := d }
  | .teardownTimeout d => { config with teardownTimeout := d }
  | .mode bits => { config with mode := bits }
  | .reclaimStale on => { config with reclaimStale := on }

def digitsValue (digits : List Char) : Nat :=
  digits.foldl (fun n c => 10 * n + (c.toNat - '0'.toNat)) 0

/-- One or more ASCII digits, after an optional plus sign, of a value that fits the word. -/
def parseCountChars? (chars : List Char) : Option UInt32 :=
  let digits := match chars with
    | '+' :: rest => rest
    | _ => chars
  if digits ≠ [] ∧ digits.all Char.isDigit ∧ digitsValue digits < UInt32.size then
    some (UInt32.ofNat (digitsValue digits))
  else none

/-- A count as it may stand in a variable, blanks around it allowed. -/
def parseCount? (value : String) : Option UInt32 :=
  parseCountChars? (Text.trimChars value.toList)

def segmentVariable : String := "STAGEALLOC_SEGMENT"
def sessionVariable : String := "STAGEALLOC_SESSION"
def rankVariable : String := "LOCAL_RANK"
def participantsVariable : String := "LOCAL_WORLD_SIZE"

def readCount (lookup : String → Option String) (name : String) :
    Except ConfigError (Option UInt32) :=
  match lookup name with
  | none => .ok none
  | some value =>
    match parseCount? value with
    | some n => .ok (some n)
    | none => .error (.invalidVariable name value)

/-- The segment that the variables name: directly, or else by a session. -/
def readSegment (lookup : String → Option String) : Except ConfigError SegmentName :=
  match lookup segmentVariable, lookup sessionVariable with
  | some name, _ => SegmentName.ofText name
  | none, some session => SegmentName.ofSession session
  | none, none => .error (.missingVariable segmentVariable)

/-- The settings that the variables describe. Of several errors the segment's is reported, then the
rank's, then the group size's. -/
def ofVariables (lookup : String → Option String) : Except ConfigError SharingConfig := do
  let segment ← readSegment lookup
  let rank ← readCount lookup rankVariable
  let participants ← readCount lookup participantsVariable
  return { ofSegment segment with rank := rank.getD 0, participants }

end SharingConfig
end StagingMemory
