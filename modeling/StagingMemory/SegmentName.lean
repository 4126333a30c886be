import StagingMemory.Text.Quoted
/-!
Names of shared segments. A name is the place where a group of processes meets: every process of
one group uses the same name, and different groups use different ones.
-/
namespace StagingMemory

/-- The rules for a name, in the order in which they are checked. -/
inductive NameRule where
  | startsWithSlash
  | notEmpty
  | notTooLong
  | noSecondSlash
  | noZero
  deriving DecidableEq, Repr

def NameRule.reason : NameRule → String
  | startsWithSlash => "must start with '/'"
  | notEmpty => "must not be empty after '/'"
  | notTooLong => "longer than 255 bytes"
  | noSecondSlash => "must not contain '/' after the first character"
  | noZero => "must not contain NUL"

def brokenNameRule? (text : String) : Option NameRule :=
  if text.toList.head? ≠ some '/' then some .startsWithSlash
  else if text.utf8ByteSize < 2 then some .notEmpty
  else if 255 < text.utf8ByteSize then some .notTooLong
  else if '/' ∈ text.toList.tail then some .noSecondSlash
  else if '\x00' ∈ text.toList then some .noZero
  else none

inductive ConfigError where
  | invalidName (name : String) (rule : NameRule)
  | missingVariable (name : String)
  | invalidVariable (name value : String)
  deriving DecidableEq, Repr

def ConfigError.message : ConfigError → String
  | invalidName name rule =>
    "invalid shared segment name " ++ Text.quote name ++ ": " ++ rule.reason
  | missingVariable name => "environment variable " ++ name ++ " is not set"
  | invalidVariable name value =>
    "environment variable " ++ name ++ " has invalid value " ++ Text.quote value

structure SegmentName where
  text : String
  valid : brokenNameRule? text = none
  deriving DecidableEq

namespace SegmentName

def ofText (text : String) : Except ConfigError SegmentName :=
  match h : brokenNameRule? text with
  | none => .ok ⟨text, h⟩
  | some rule => .error (.invalidName text rule)

def sessionStart : String := "/stagealloc."

def ofSession (session : String) : Except ConfigError SegmentName :=
  ofText (sessionStart ++ session)

/-- The bytes by which the kernel knows the segment. The kernel reads a name up to its first zero
byte, so a text that held one would be handed over empty. -/
def objectName (name : SegmentName) : List UInt8 :=
  let bytes := name.text.toUTF8.data.toList
  if 0 ∈ bytes then [] else bytes

theorem ofText_eq_ok_iff {text : String} {name : SegmentName} :
    ofText text = .ok name ↔ brokenNameRule? text = none ∧ name.text = text := by
  unfold ofText
  split
  case h_1 h =>
    constructor
    · intro heq
      cases heq
      exact ⟨h, rfl⟩
    · rintro ⟨_, rfl⟩
      rfl
  case h_2 rule h => simp [h]

theorem ofText_eq_error_iff {text : String} {e : ConfigError} :
    ofText text = .error e ↔ ∃ rule, brokenNameRule? text = some rule ∧ e = .invalidName text rule := by
  unfold ofText
  split
  case h_1 h => simp [h]
  case h_2 rule h => simp [h, eq_comm]

end SegmentName
end StagingMemory
