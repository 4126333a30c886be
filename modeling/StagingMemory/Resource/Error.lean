import StagingMemory.Device.Basic
import StagingMemory.Diagnostic.Catalogue
import StagingMemory.Duration
import StagingMemory.SegmentName
/-!
Why an allocation or a query failed. Asking for nothing is never an error.
-/
namespace StagingMemory

inductive AllocationError where
  /-- The device refused a call. -/
  | device (call : String) (error : DeviceError)
  | createFailed (name : SegmentName) (error : SystemError)
  | nameTaken (name : SegmentName)
  /-- An existing segment could not be opened for another reason than absence. -/
  | openFailed (name : SegmentName) (error : SystemError)
  | resizeFailed (name : SegmentName) (bytes : Nat) (error : SystemError)
  | mapFailed (name : SegmentName) (bytes : Nat) (error : SystemError)
  /-- The request with its header does not fit the address space. -/
  | sizeOverflow (bytes : UInt64)
  /-- A follower gave up waiting for the leader to publish. -/
  | bootstrapTimedOut (name : SegmentName) (waited : Duration)
  /-- A follower asked for another length than the leader published. -/
  | lengthMismatch (name : SegmentName) (expected found : UInt64)
  deriving DecidableEq

namespace AllocationError

def message : AllocationError → String
  | device call error => "device runtime " ++ call ++ " failed: " ++ error.message
  | createFailed name error =>
    "failed to create shared segment " ++ name.text ++ ": " ++ error.message
  | nameTaken name => "shared segment " ++ name.text ++ " already exists"
  | openFailed name error =>
    "failed to open shared segment " ++ name.text ++ ": " ++ error.message
  | resizeFailed name bytes error =>
    "failed to size shared segment " ++ name.text ++ " to " ++ toString bytes ++ " bytes: " ++
      error.message
  | mapFailed name bytes error =>
    "failed to map " ++ toString bytes ++ " bytes of shared segment " ++ name.text ++ ": " ++
      error.message
  | sizeOverflow bytes =>
    "allocation of " ++ toString bytes ++ " bytes overflows the address space"
  | bootstrapTimedOut name waited =>
    "timed out after " ++ waited.render ++ " waiting for rank 0 to publish shared segment " ++
      name.text
  | lengthMismatch name expected found =>
    "shared segment " ++ name.text ++ " holds " ++ toString found ++ " bytes but " ++
      toString expected ++ " were requested"

def causes : AllocationError → List String
  | device _ error => error.message :: error.causes
  | createFailed _ error | openFailed _ error => [error.message]
  | resizeFailed _ _ error | mapFailed _ _ error => [error.message]
  | _ => []

/-- The diagnostic that reports the error; a request that is too large is not reported. -/
def diagnostic? : AllocationError → Option Diagnostic
  | createFailed .. => some .createFailed
  | resizeFailed .. => some .resizeFailed
  | mapFailed .. => some .mapFailed
  | device .. => some .registerFailed
  | bootstrapTimedOut .. => some .bootstrapTimedOut
  | lengthMismatch .. => some .lengthMismatch
  | nameTaken .. => some .nameTaken
  | openFailed .. => some .openFailed
  | sizeOverflow .. => none

end AllocationError

structure QueryError where
  error : DeviceError
  deriving DecidableEq, Repr

namespace QueryError

def message (e : QueryError) : String := "memory info query failed: " ++ e.error.message

def causes (e : QueryError) : List String := e.error.message :: e.error.causes

end QueryError
end StagingMemory
