import StagingMemory.Sharing.Progress
import StagingMemory.Text.Blank
/-!
The strict mode: which diagnostics are fatal. A process keeps its mode in a cell that several
threads read and write; until it is set, the first reader fills it from a variable. The cell's
values are codes, and one code marks a cell that was never set.
-/
namespace StagingMemory

inductive StrictMode where
  /-- No diagnostic is fatal. -/
  | warn
  /-- Errors are fatal. -/
  | fatalErrors
  /-- Errors and warnings are fatal. -/
  | fatalWarnings
  deriving DecidableEq, Repr

namespace StrictMode

def code : StrictMode → UInt8
  | warn => 0
  | fatalErrors => 1
  | fatalWarnings => 2

/-- The mode with a code; codes without a mode stand for the mildest one. -/
def ofCode (n : UInt8) : StrictMode :=
  if n = 1 then fatalErrors else if n = 2 then fatalWarnings else warn

@[simp] theorem ofCode_code (m : StrictMode) : ofCode m.code = m := by
  cases m <;> rfl

def ofWord? (word : String) : Option StrictMode :=
  if word = "0" ∨ word = "warn" ∨ word = "false" then some warn
  else if word = "1" ∨ word = "error" ∨ word = "true" then some fatalErrors
  else if word = "2" ∨ word = "warning" ∨ word = "all" then some fatalWarnings
  else none

/-- Reads a mode in any case, blanks around it allowed. Lowering ASCII letters is enough: no other
character lowers to a single letter of one of the words. -/
def parse? (value : String) : Option StrictMode :=
  ofWord? (String.ofList ((Text.trimChars value.toList).map Char.toLower))

def modeVariable : String := "STAGEALLOC_STRICT"

def ofVariable (value : Option String) : StrictMode :=
  (value.bind parse?).getD warn

def errorsFatal (m : StrictMode) : Bool := m != warn

def warningsFatal (m : StrictMode) : Bool := m == fatalWarnings

end StrictMode

structure StrictCell where
  stored : UInt8
  deriving DecidableEq, Repr

namespace StrictCell

/-- The code of a cell that was never set. -/
def unset : UInt8 := 255

def fresh : StrictCell := ⟨unset⟩

instance : Inhabited StrictCell := ⟨fresh⟩

/-! ### Single accesses -/

def isSet (cell : StrictCell) : Bool := cell.stored != unset

def set (_ : StrictCell) (mode : StrictMode) : StrictCell := ⟨mode.code⟩

/-- Stores the mode in a cell that was never set, and changes no other. -/
def fill (cell : StrictCell) (mode : StrictMode) : StrictCell :=
  if cell.isSet then cell else cell.set mode

def mode (cell : StrictCell) : StrictMode := .ofCode cell.stored

/-! ### Reading -/

/-- Reads the mode; the first read fills the cell from the variable. -/
def read (cell : StrictCell) (value : Option String) : StrictMode × StrictCell :=
  if cell.isSet then (cell.mode, cell)
  else
    let filled := cell.fill (.ofVariable value)
    (filled.mode, filled)

theorem code_ne_unset (m : StrictMode) : m.code ≠ unset := by
  cases m <;> decide

@[simp] theorem isSet_set (cell : StrictCell) (m : StrictMode) : (cell.set m).isSet = true := by
  simp [isSet, set, code_ne_unset]

@[simp] theorem mode_set (cell : StrictCell) (m : StrictMode) : (cell.set m).mode = m := by
  simp [mode, set]

theorem isSet_fill (cell : StrictCell) (m : StrictMode) : (cell.fill m).isSet = true := by
  unfold fill
  split
  · assumption
  · exact isSet_set cell m

/-! ### Reading and setting, access by access -/

inductive Request where
  | read
  | set (mode : StrictMode)
  deriving DecidableEq

inductive Phase where
  | look
  /-- Reads the variable. -/
  | consult
  | fill (mode : StrictMode)
  | lookAgain
  | set (mode : StrictMode)
  deriving DecidableEq

inductive Answer where
  | mode (m : StrictMode)
  | stored
  deriving DecidableEq

def Request.first : Request → Phase
  | read => .look
  | set mode => .set mode

def Phase.step (value : Option String) : Phase → StrictCell → Progress Phase Answer × StrictCell
  | look, cell =>
    (if cell.isSet then .done (.returned (.mode cell.mode)) else .running .consult, cell)
  | consult, cell => (.running (.fill (.ofVariable value)), cell)
  | fill mode, cell => (.running .lookAgain, cell.fill mode)
  | lookAgain, cell => (.done (.returned (.mode cell.mode)), cell)
  | set mode, cell => (.done (.returned .stored), cell.set mode)

def protocol (value : Option String) : Protocol Request StrictCell Phase Answer :=
  ⟨Request.first, Phase.step value⟩

/-- Accesses that nobody comes between make a reading. -/
theorem alone_read (value : Option String) (cell : StrictCell) :
    (protocol value).alone 4 (.running ((protocol value).first .read), cell) =
      (.done (.returned (.mode (cell.read value).1)), (cell.read value).2) := by
  show (protocol value).alone 3
    (if cell.isSet then .done (.returned (.mode cell.mode)) else .running .consult, cell) = _
  unfold read
  cases cell.isSet <;> rfl

theorem alone_set (value : Option String) (cell : StrictCell) (mode : StrictMode) :
    (protocol value).alone 1 (.running ((protocol value).first (.set mode)), cell) =
      (.done (.returned .stored), cell.set mode) := rfl

end StrictCell
end StagingMemory
