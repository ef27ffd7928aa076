import Shapes.Shape.Basic

/-!
# Definitions and their arena

A `Definition` gathers what has been declared under one name.  Definitions live
in an `Arena`, which hands out identifiers in the order of registration; edges
between definitions are names and identifiers, so cycles need no special care.
-/

namespace Shapes

inductive NameKind where
  /-- Later declarations add fields. -/
  | mergeable
  /-- There is one declaration. -/
  | single
  deriving DecidableEq, Repr

inductive Stage where
  /-- Referenced, not declared. -/
  | pending
  | unresolved
  /-- Its resolution is under way. -/
  | resolving
  | resolved
  /-- Its keys or values have been looked at. -/
  | frozen
  deriving DecidableEq, Repr

namespace Stage

def isOpen : Stage -> Bool
  | pending | unresolved => true
  | _ => false

end Stage

structure Definition where
  name : String
  kind : Option NameKind
  stage : Stage
  /-- Own fields in the order they were introduced. -/
  fields : Table FieldType
  /-- Names of parents in the order they were introduced. -/
  parents : List String
  /-- The body of a single declaration that is not a list of fields. -/
  body : Option FieldType
  resolved : Option Shape
  declarations : Nat

namespace Definition

def pending (name : String) : Definition :=
  { name, kind := none, stage := .pending, fields := .empty, parents := [],
    body := none, resolved := none, declarations := 0 }

def declared (name : String) (kind : NameKind) (fields : Table FieldType)
    (parents : List String) (body : Option FieldType) : Definition :=
  { name, kind := some kind, stage := .unresolved, fields, parents, body,
    resolved := none, declarations := 1 }

def isPending (d : Definition) : Bool :=
  d.kind.isNone

end Definition

/-- Definitions by identifier, and the identifier that the next one gets. -/
structure Arena where
  entries : List (ShapeId × Definition)
  next : ShapeId

namespace Arena

def empty : Arena := ⟨[], ⟨1⟩⟩

def size (a : Arena) : Nat :=
  a.entries.length

def isEmpty (a : Arena) : Bool :=
  a.entries.isEmpty

def get? (a : Arena) (id : ShapeId) : Option Definition :=
  a.entries.lookup id

def register (a : Arena) (d : Definition) : ShapeId × Arena :=
  (a.next, ⟨(a.next, d) :: a.entries, ⟨a.next.index + 1⟩⟩)

def replaceEntry (id : ShapeId) (d : Definition) :
    List (ShapeId × Definition) -> List (ShapeId × Definition)
  | [] => []
  | e :: rest => if e.1 = id then (e.1, d) :: rest else e :: replaceEntry id d rest

def set (a : Arena) (id : ShapeId) (d : Definition) : Arena :=
  { a with entries := replaceEntry id d a.entries }

def toList (a : Arena) : List (ShapeId × Definition) :=
  (List.range a.size).filterMap fun i => (a.get? ⟨i + 1⟩).map fun d => (⟨i + 1⟩, d)

def name? (a : Arena) (id : ShapeId) : Option String :=
  (a.get? id).map (·.name)

def kind? (a : Arena) (id : ShapeId) : Option NameKind :=
  (a.get? id).bind (·.kind)

def stage? (a : Arena) (id : ShapeId) : Option Stage :=
  (a.get? id).map (·.stage)

def cached? (a : Arena) (id : ShapeId) : Option Shape :=
  (a.get? id).bind (·.resolved)

end Arena
end Shapes
