import Shapes.Registry.Basic
import Shapes.Shape.Combine
import Shapes.Trail

/-!
# Resolution

To resolve a name is to flatten its declarations, its ancestors and its body
into one shape.  The walk follows parents and the references at the top of
bodies; fields are not followed.  A flattened shape is kept in its definition,
so no shape is flattened twice.

A walk that fails keeps the shapes it has flattened so far and puts every
definition under way back to unresolved.
-/

namespace Shapes
namespace Registry

structure Walk where
  registry : Registry
  trail : Trail ShapeId

abbrev WalkM := ExceptT Failure (StateM Walk)

inductive Route where
  | root
  | parent
  | reference
  deriving DecidableEq, Repr

namespace WalkM

/-- The outcome of a walk as a value, so that its end can be attended to. -/
def outcome {α : Type} (walk : WalkM α) : WalkM (Except Failure α) :=
  ExceptT.mk do
    let result <- walk.run
    return .ok result

/-!
# Steps of a walk

A definition is marked while it is being flattened.  In the end it keeps its
shape or is put back to what it was.
-/

def refusal (r : Registry) (route : Route) (id : ShapeId) (entry : Entry) : Failure :=
  let name := r.displayName id
  if entry.isExceeded then .resolutionTooDeep name
  else
    match route with
    | .reference => .cyclicReference name
    | .root | .parent => .cyclicExtension name

def inside (route : Route) (id : ShapeId) (walk : WalkM Shape) : WalkM Shape := do
  let w <- get
  let (entry, trail) := w.trail.enter id
  set { w with trail }
  match entry with
  | .entered =>
      let result <- outcome walk
      modify fun w => { w with trail := w.trail.leave id }
      result
  | refused => throw (refusal w.registry route id refused)

/-- The definition of a declared shape, which is marked as being resolved. -/
def begin (id : ShapeId) : WalkM (NameKind × Definition) := do
  let w <- get
  match w.registry.arena.get? id with
  | none => throw (.unknownShape (w.registry.displayName id))
  | some d =>
      match d.kind with
      | none => throw (.unknownShape d.name)
      | some kind =>
          if d.stage = .unresolved then
            set { w with registry := w.registry.setDefinition id { d with stage := .resolving } }
          return (kind, d)

/-- Keep the flattened shape, or take back the mark of a failed attempt. -/
def finish (id : ShapeId) (result : Except Failure Shape) : WalkM Shape := do
  let w <- get
  match w.registry.arena.get? id with
  | none => result
  | some d =>
      match result with
      | .ok shape =>
          let d := { d with resolved := some shape, stage := .resolved }
          set { w with registry := w.registry.setDefinition id d }
          return shape
      | .error failure =>
          if d.stage = .resolving then
            set { w with registry := w.registry.setDefinition id { d with stage := .unresolved } }
          throw failure

/-!
# Flattening

A definition is flattened with `visit` for the shapes that it needs, so each
step can be read by itself.
-/

section Flattening

variable (visit : Route -> ShapeId -> WalkM Shape)

mutual

def shapeOf : FieldType -> WalkM Shape
  | .keyword word => return .keyword word
  | .literal value => return .literal value
  | .reference id => visit .reference id
  | .union members => do
      let shapes <- shapesOf members
      Shape.unite shapes
  | .intersection members => do
      let shapes <- shapesOf members
      Shape.intersect shapes

def shapesOf : List FieldType -> WalkM (List Shape)
  | [] => return []
  | t :: rest => do
      let shape <- shapeOf t
      let shapes <- shapesOf rest
      return shape :: shapes

end

def parentFields (parent : String) : WalkM (Table FieldType) := do
  let r := (<- get).registry
  match r.lookup? parent with
  | none => throw (.unknownParent parent)
  | some id =>
      if (r.arena.kind? id).isNone then throw (.unknownParent parent)
      match <- visit .parent id with
      | .object _ fields => return fields
      | _ => throw (.nonObjectParent parent)

def flatten (kind : NameKind) (d : Definition) : WalkM Shape :=
  match kind with
  | .mergeable => do
      let parents <- d.parents.mapM (parentFields visit)
      return .object (some d.name) (Table.inherit parents d.fields)
  | .single =>
      match d.body with
      | some body => do
          let shape <- shapeOf visit body
          return shape.rename d.name
      | none => return .object (some d.name) d.fields

def settle (id : ShapeId) : WalkM Shape := do
  let (kind, d) <- begin id
  let result <- outcome (flatten visit kind d)
  finish id result

end Flattening

/-!
# The walk

The recursion is on the levels of nesting that are left.  A shape is visited by
way of the trail, unless it is kept already.
-/

/-- The kept shape, or the one that `settle` finds with the shape on the trail. -/
def visitBy (settle : ShapeId -> WalkM Shape) (route : Route) (id : ShapeId) :
    WalkM Shape := do
  match (<- get).registry.arena.cached? id with
  | some shape => return shape
  | none => inside route id (settle id)

/-- The answer when no nesting is left; the trail refuses entry before that. -/
def exhausted (id : ShapeId) : WalkM Shape := do
  throw (.resolutionTooDeep ((<- get).registry.displayName id))

/-- Resolve a shape with so many levels of nesting left. -/
def visit : Nat -> Route -> ShapeId -> WalkM Shape
  | 0 => visitBy exhausted
  | levels + 1 => visitBy (settle (visit levels))

def start {α : Type} (walk : WalkM α) : RegistryM α :=
  ExceptT.mk fun r =>
    let (result, w) := walk.run ⟨r, Trail.start Limits.resolution⟩
    (result, w.registry)

end WalkM

/-!
# Resolving names and types

A walk starts with an empty trail.  One that went too deep is reported under the
name it started from.
-/

def blameRoot (name : String) : Failure -> Failure
  | .resolutionTooDeep _ => .resolutionTooDeep name
  | failure => failure

/-- The flattened shape of a name, which accepts no declarations from then on. -/
def resolve (id : ShapeId) : RegistryM Shape := do
  let name := (<- get).displayName id
  ExceptT.mk do
    let result <- (WalkM.start (WalkM.visit Limits.resolution.maxDepth .root id)).run
    return result.mapError (blameRoot name)

def resolveType (t : FieldType) : RegistryM Shape :=
  WalkM.start (WalkM.shapeOf (WalkM.visit Limits.resolution.maxDepth) t)

/-- Resolve a name for good. -/
def freeze (id : ShapeId) : RegistryM Shape := do
  let shape <- resolve id
  modify fun r =>
    match r.arena.get? id with
    | some d => r.setDefinition id { d with stage := .frozen }
    | none => r
  return shape

/-!
# Looking at keys

Each request about keys freezes the shape first.
-/

def keys (id : ShapeId) : RegistryM (List String) := do
  let shape <- freeze id
  return shape.keys (<- get).policy

def checkKey (id : ShapeId) (key : String) : RegistryM FieldType := do
  let shape <- freeze id
  shape.checkKey (<- get).policy key

def access {α : Type} (id : ShapeId) (members : List (String × α)) (key : String) :
    RegistryM α := do
  let shape <- freeze id
  shape.access (<- get).policy members key

end Registry
end Shapes
