/-!
Errors of the operating system: their numbers and their texts.
-/
namespace StagingMemory

/-- An error reported by the system by its number, or one described in words. -/
inductive SystemError where
  | numbered (number : Int)
  | described (text : String)
  deriving DecidableEq, Repr

namespace SystemError

def notPermitted : SystemError := .numbered 1
def notFound : SystemError := .numbered 2
def outOfMemory : SystemError := .numbered 12
def permissionDenied : SystemError := .numbered 13
def alreadyExists : SystemError := .numbered 17
def isDirectory : SystemError := .numbered 21
def invalidArgument : SystemError := .numbered 22
def tooManyOpenFiles : SystemError := .numbered 24
def fileTooLarge : SystemError := .numbered 27

def numberText (number : Int) : String :=
  match number with
  | 0 => "Success"
  | 1 => "Operation not permitted"
  | 2 => "No such file or directory"
  | 4 => "Interrupted system call"
  | 5 => "Input/output error"
  | 9 => "Bad file descriptor"
  | 11 => "Resource temporarily unavailable"
  | 12 => "Cannot allocate memory"
  | 13 => "Permission denied"
  | 16 => "Device or resource busy"
  | 17 => "File exists"
  | 21 => "Is a directory"
  | 22 => "Invalid argument"
  | 24 => "Too many open files"
  | 27 => "File too large"
  | 28 => "No space left on device"
  | 36 => "File name too long"
  | 75 => "Value too large for defined data type"
  | 110 => "Connection timed out"
  | n => "Unknown error " ++ toString n

def message : SystemError → String
  | numbered number => numberText number ++ " (os error " ++ toString number ++ ")"
  | described text => text

end SystemError
end StagingMemory
