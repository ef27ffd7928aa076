import Shapes.Text.Blank

/-!
# Log settings

How the values of the log variables are understood.  A bare level applies to
the program's own parts and leaves everything else at warnings; a value that
already names targets is used as it is.
-/

namespace Shapes
namespace CommandLine

inductive LogLayout where
  | text
  | tree
  | json
  deriving DecidableEq, Repr

namespace LogLayout

/--
The format with a name in any case.  Only the ASCII letters have a capital that
can occur in such a name, so lowering those decides it.
-/
def ofName (name : String) : LogLayout :=
  let lower := name.map Char.toLower
  if lower = "tree" then tree
  else if lower = "json" then json
  else text

end LogLayout

def logTargets : List String :=
  ["shapeck_solver", "shapeck_cli", "shapeck_common"]

def logDirectives (value : String) : String :=
  let value := Text.trimBlanks value
  if value.isEmpty || value.contains '=' || value.contains ',' then value
  else ",".intercalate ("warn" :: logTargets.map fun target => target ++ "=" ++ value)

end CommandLine
end Shapes
