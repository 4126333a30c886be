import StagingMemory.Diagnostic.Basic
/-!
The diagnostics that allocations and releases report. Codes from 101 concern the life of a shared
segment, from 201 its teardown, from 301 page locking, and from 901 failures that abort the process.
-/
namespace StagingMemory.Diagnostic

def createFailed : Diagnostic where
  severity := .error
  code := "SA101"
  message := "failed to create shared memory segment"
  note := some "shm_open with O_CREAT | O_EXCL was rejected by the OS"
  help := some "check permissions on /dev/shm and that the segment name is valid"

def resizeFailed : Diagnostic where
  severity := .error
  code := "SA102"
  message := "failed to size shared memory segment"
  note := some "ftruncate on the new segment failed"
  help := some "check available space in /dev/shm"

def mapFailed : Diagnostic where
  severity := .error
  code := "SA103"
  message := "failed to map shared memory segment"
  note := none
  help := some "check the process address space limits (ulimit -v)"

def registerFailed : Diagnostic where
  severity := .error
  code := "SA104"
  message := "failed to register shared memory with the device runtime"
  note := some "the mapping was released and the allocation reported as failed"
  help := none

/-- A follower gave up waiting for the leader. -/
def bootstrapTimedOut : Diagnostic where
  severity := .error
  code := "SA105"
  message := "timed out waiting for rank 0 to publish the shared segment"
  note := some "rank 0 may have crashed, be slow to start, or use a different segment name"
  help := some "raise bootstrap_timeout in SharedConfig, or check the leader process"

def lengthMismatch : Diagnostic where
  severity := .error
  code := "SA106"
  message := "shared segment length does not match the requested length"
  note := none
  help := some "every rank must request the same number of bytes"

def staleRemoved : Diagnostic where
  severity := .warning
  code := "SA107"
  message := "removed a stale shared memory segment with the same name"
  note := some "a previous run did not unlink its segment"
  help := none

def nameTaken : Diagnostic where
  severity := .error
  code := "SA108"
  message := "shared memory segment already exists"
  note := some "another group is using this name, or a previous run left it behind"
  help := some ("use a unique session name, or enable reclaim_stale in SharedConfig (only " ++
    "segments whose creator exited are reclaimed)")

def openFailed : Diagnostic where
  severity := .error
  code := "SA109"
  message := "failed to open shared memory segment"
  note := some "the segment exists but shm_open without O_CREAT was rejected"
  help := some "check the mode passed to SharedConfig::with_mode and the user of each rank"

/-- The leader gave up waiting for its followers. -/
def teardownTimedOut : Diagnostic where
  severity := .warning
  code := "SA201"
  message := "teardown barrier timed out, unlinking shared segment anyway"
  note := some "not every participant joined or released the segment in time"
  help := some "raise teardown_timeout, or make sure every rank deallocates"

def unlinkFailed : Diagnostic where
  severity := .warning
  code := "SA202"
  message := "failed to unlink shared memory segment"
  note := some "the segment name may remain in /dev/shm until removed by hand"
  help := none

/-- Memory was left unlocked under the best-effort policy. -/
def lockFailed : Diagnostic where
  severity := .warning
  code := "SA301"
  message := "could not page-lock host memory, continuing unlocked"
  note := some "RLIMIT_MEMLOCK is probably lower than the requested size"
  help := some "raise the limit with `ulimit -l` or use LockPolicy::Required to fail instead"

def unregisterFailed : Diagnostic where
  severity := .error
  code := "SA901"
  message := "device runtime failed to unregister host memory"
  note := some "deallocation cannot report errors; the process will abort"
  help := none

def freeFailed : Diagnostic where
  severity := .error
  code := "SA902"
  message := "device runtime failed to free pinned host memory"
  note := some "deallocation cannot report errors; the process will abort"
  help := none

def catalogue : List Diagnostic :=
  [createFailed, resizeFailed, mapFailed, registerFailed,
   bootstrapTimedOut, lengthMismatch, staleRemoved, nameTaken,
   openFailed, teardownTimedOut, unlinkFailed, lockFailed,
   unregisterFailed, freeFailed]

def ofCode? (code : String) : Option Diagnostic := catalogue.find? (·.code == code)

end StagingMemory.Diagnostic
