import Shapes.Definition
import Shapes.Failure
import Shapes.Shape.Keys

/-!
# The registry

A registry is an arena of definitions, a table of the identifiers of their names,
and the policy for keys of unions.  Operations on it run in `RegistryM`: they may
fail, and what they did to the registry before failing stays done.
-/

namespace Shapes

structure Registry where
  names : Table ShapeId
  arena : Arena
  policy : KeyPolicy

/-- Computations on a registry that may fail without undoing its changes. -/
abbrev RegistryM := ExceptT Failure (StateM Registry)

namespace Registry

def empty (policy : KeyPolicy) : Registry := ⟨.empty, .empty, policy⟩

/-!
# Reading

A name is looked up in the table, and a definition in the arena.
-/

def lookup? (r : Registry) (name : String) : Option ShapeId :=
  r.names.get? name

def displayName (r : Registry) (id : ShapeId) : String :=
  (r.arena.name? id).getD ("#" ++ String.ofList (Nat.toDigits 10 id.index))

def size (r : Registry) : Nat :=
  r.arena.size

/-!
# Writing

A registration writes to both; every other write is to a definition that is
there.
-/

def register (r : Registry) (d : Definition) : ShapeId × Registry :=
  let (id, arena) := r.arena.register d
  (id, { r with arena, names := r.names.insert d.name id })

def setDefinition (r : Registry) (id : ShapeId) (d : Definition) : Registry :=
  { r with arena := r.arena.set id d }

/--
The identifier of a name, which is registered as pending when it is new.  A
type can thus refer to a shape that is declared later.
-/
def reserve (name : String) : StateM Registry ShapeId := fun r =>
  match r.lookup? name with
  | some id => (id, r)
  | none => r.register (.pending name)

end Registry
end Shapes
