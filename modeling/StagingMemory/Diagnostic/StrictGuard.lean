import StagingMemory.Diagnostic.StrictMode
/-!
Guards of the strict mode: a guard sets the mode and remembers the one it found, which comes back
when the guard ends.
-/
namespace StagingMemory

structure StrictGuard where
  /-- The mode that the guard found. -/
  previous : StrictMode
  deriving DecidableEq, Repr

namespace StrictGuard

/-- Sets the mode. A cell that was never set is read first, from the variable. -/
def enter (cell : StrictCell) (value : Option String) (mode : StrictMode) :
    StrictGuard × StrictCell :=
  let (previous, read) := cell.read value
  (⟨previous⟩, read.set mode)

/-- Brings back the mode that the guard found. -/
def leave (g : StrictGuard) (cell : StrictCell) : StrictCell := cell.set g.previous

end StrictGuard
end StagingMemory
