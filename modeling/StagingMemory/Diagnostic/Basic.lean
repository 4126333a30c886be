/-!
Diagnostics: coded messages about what failed or went on in a degraded way, and the forms in which
they are written to standard error and to a log.
-/
namespace StagingMemory

inductive Severity where
  /-- A step of an allocation or a release failed. -/
  | error
  /-- The operation went on in a degraded way. -/
  | warning
  | note
  | help
  deriving DecidableEq, Repr

def Severity.word : Severity → String
  | error => "error"
  | warning => "warning"
  | note => "note"
  | help => "help"

structure Diagnostic where
  severity : Severity
  code : String
  message : String
  /-- What else is known about the failure. -/
  note : Option String
  /-- What might mend it. -/
  help : Option String
  deriving DecidableEq, Repr

inductive LogLevel where
  | error | warn | info | debug
  deriving DecidableEq, Repr

def LogLevel.word : LogLevel → String
  | error => "ERROR"
  | warn => "WARN"
  | info => "INFO"
  | debug => "DEBUG"

structure LogLine where
  level : LogLevel
  text : String
  deriving DecidableEq, Repr

def LogLine.render (line : LogLine) : String := line.level.word ++ " " ++ line.text

structure Report where
  diagnostic : Diagnostic
  context : Option String
  deriving DecidableEq, Repr

namespace Report

def line (label : String) (text : Option String) : String :=
  match text with
  | some t => "  " ++ label ++ ": " ++ t ++ "\n"
  | none => ""

/-- The report on standard error: one line each for the message and for what goes with it. -/
def render (r : Report) : String :=
  "[stagealloc][" ++ r.diagnostic.code ++ "] " ++ r.diagnostic.severity.word ++ ": " ++
    r.diagnostic.message ++ "\n" ++
    line "context" r.context ++ line "note" r.diagnostic.note ++ line "help" r.diagnostic.help

def logLevel (r : Report) : LogLevel :=
  match r.diagnostic.severity with
  | .error => .error
  | .warning => .warn
  | .note | .help => .info

/-- The report in the log: its message, and its help on a line of its own. -/
def logLines (r : Report) : List LogLine :=
  ⟨r.logLevel, "[" ++ r.diagnostic.code ++ "] " ++ r.diagnostic.message ++ " " ++
      r.context.getD ""⟩ ::
    match r.diagnostic.help with
    | some help => [⟨.debug, "  help: " ++ help⟩]
    | none => []

def anyWithCode (reports : List Report) (code : String) : Bool :=
  reports.any fun r => r.diagnostic.code == code

def anyErrors (reports : List Report) : Bool :=
  reports.any fun r => r.diagnostic.severity == .error

end Report
end StagingMemory
