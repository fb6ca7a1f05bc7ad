import Bindery.Arena.Basic
import Bindery.Text.Quoted

/-!
# The description of an arena handle
-/

namespace Bindery.Arena

def Mode.text : Mode → String
  | .readOnly => "ReadOnly"
  | .readWrite => "ReadWrite"

/-- Path, mode, size and capacity of a handle. -/
def describe (a : Arena) : String :=
  let mode :=
    match a.mode with
    | none => "None"
    | some m => "Some(" ++ m.text ++ ")"
  "ArenaStore \x7b path: " ++ Text.quoted a.path.bytes ++ ", mode: " ++ mode ++
    s!", size: {a.size}, capacity: {a.capacity} \x7d"

end Bindery.Arena
