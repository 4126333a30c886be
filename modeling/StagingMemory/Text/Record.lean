/-!
Records as text: a name, then the fields between braces.
-/
namespace StagingMemory.Text

def record (name : String) (fields : List (String × String)) : String :=
  name ++ " \x7b " ++ String.intercalate ", " (fields.map fun f => f.1 ++ ": " ++ f.2) ++ " \x7d"

end StagingMemory.Text
