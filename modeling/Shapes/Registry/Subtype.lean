import Shapes.Registry.Resolve

/-!
# Subtypes

A type is below another when every value of the first is meant to be a value of
the second.  The comparison follows the structure of both sides:

* `any` and `unknown` are above everything, `any` and `never` below;
* a union is below a type when all its members are, and above one when some
  member is;
* an intersection is above a type when all its members are;
* an object is below another when it has every field of it with a type below,
  except that a field which may be undefined may be missing;
* a literal is below its keyword.

References are compared by the shapes they stand for.  A pair of references
that is being compared already is taken to hold, which is what lets recursive
shapes be compared.  Whatever cannot be decided within the limits is not below.
-/

namespace Shapes
namespace Registry

structure Comparison where
  registry : Registry
  trail : Trail (ShapeId × ShapeId)
  /-- How many expansions of types into shapes are under way. -/
  expansions : Nat

abbrev CompareM := StateM Comparison

namespace CompareM

def start (registry : Registry) : Comparison :=
  { registry, trail := Trail.start Limits.comparison, expansions := 0 }

/-- Run a registry operation; a failure leaves nothing to compare. -/
def onRegistry {α : Type} (action : RegistryM α) : CompareM (Option α) := fun c =>
  let (result, registry) := action.run c.registry
  (result.toOption, { c with registry })

section Rules

variable (below : Shape -> Shape -> CompareM Bool)

/-!
# Comparisons that leave the terms at hand

References and expansions lead to shapes that are no part of the terms at hand,
so they are limited in number.
-/

/-- Compare two references by their shapes, assuming pairs under comparison. -/
def referencesBelow (source target : ShapeId) : CompareM Bool := do
  if source = target then return true
  let c <- get
  let (entry, trail) := c.trail.enter (source, target)
  set { c with trail }
  match entry with
  | .entered =>
      let s <- onRegistry (resolve source)
      let t <- onRegistry (resolve target)
      let answer <-
        match s, t with
        | some s, some t => below s t
        | _, _ => pure false
      modify fun c => { c with trail := c.trail.leave (source, target) }
      return answer
  | .cycle => return true
  | .tooDeep | .tooManySteps => return false

def expandedBelow (source target : FieldType) : CompareM Bool := do
  if Limits.comparison.maxDepth ≤ (<- get).expansions then return false
  let s <- onRegistry (resolveType source)
  let t <- onRegistry (resolveType target)
  match s, t with
  | some s, some t =>
      modify fun c => { c with expansions := c.expansions + 1 }
      let answer <- below s t
      modify fun c => { c with expansions := c.expansions - 1 }
      return answer
  | _, _ => return false

/-!
# Types

The source is taken apart first when it is a union, then the target.  `below`
compares the shapes that references stand for.
-/

/-- The cases that need no look inside either type. -/
def plainlyBelow (source target : FieldType) : Bool :=
  source.same target ||
    (match target with
      | .keyword word => word.isTop
      | _ => false) ||
    (match source with
      | .keyword .any | .keyword .never => true
      | _ => false)

def simpleBelow (source target : FieldType) : CompareM Bool :=
  match source, target with
  | .literal value, .keyword word => return value.widened = word
  | .reference s, .reference t => referencesBelow below s t
  | .reference _, _ | .intersection _, _ | _, .reference _ =>
      expandedBelow below source target
  | _, _ => return false

mutual

def memberBelow (source : FieldType) : FieldType -> CompareM Bool
  | .intersection members =>
      if plainlyBelow source (.intersection members) then return true
      else memberBelowAll source members
  | .union members => do
      if plainlyBelow source (.union members) then return true
      if <- memberBelowSome source members then return true
      expandedBelow below source (.union members)
  | target =>
      if plainlyBelow source target then return true
      else simpleBelow below source target

def memberBelowAll (source : FieldType) : List FieldType -> CompareM Bool
  | [] => return true
  | t :: rest => do
      if <- memberBelow source t then memberBelowAll source rest else return false

def memberBelowSome (source : FieldType) : List FieldType -> CompareM Bool
  | [] => return false
  | t :: rest => do
      if <- memberBelow source t then return true else memberBelowSome source rest

end

mutual

def typeBelow (target : FieldType) : FieldType -> CompareM Bool
  | .union members =>
      if plainlyBelow (.union members) target then return true
      else typesBelow target members
  | source => memberBelow below source target

def typesBelow (target : FieldType) : List FieldType -> CompareM Bool
  | [] => return true
  | t :: rest => do
      if <- typeBelow target t then typesBelow target rest else return false

end

/-!
# Shapes

Unions of shapes are taken apart in the same order as unions of types, and
objects field by field.
-/

def fieldsBelow (source : Table FieldType) :
    List (String × FieldType) -> CompareM Bool
  | [] => return true
  | (key, target) :: rest => do
      let here <-
        match source.get? key with
        | some t => typeBelow below target t
        | none => pure target.admitsUndefined
      if here then fieldsBelow source rest else return false

def leafBelow : Shape -> Shape -> CompareM Bool
  | .object _ source, .object _ target => fieldsBelow below source target.entries
  | .literal value, .keyword word => return value.widened = word
  | .literal a, .literal b => return a.same b
  | .keyword a, .keyword b => return a = b
  | _, _ => return false

def plainlyBelowShape (source target : Shape) : Bool :=
  (match target with
    | .keyword word => word.isTop
    | _ => false) ||
  (match source with
    | .keyword .any | .keyword .never => true
    | _ => false)

mutual

def branchBelow (source : Shape) : Shape -> CompareM Bool
  | .union name members =>
      if plainlyBelowShape source (.union name members) then return true
      else branchBelowSome source members
  | target =>
      if plainlyBelowShape source target then return true
      else leafBelow below source target

def branchBelowSome (source : Shape) : List Shape -> CompareM Bool
  | [] => return false
  | t :: rest => do
      if <- branchBelow source t then return true else branchBelowSome source rest

end

mutual

def shapeBelow (target : Shape) : Shape -> CompareM Bool
  | .union name members =>
      if plainlyBelowShape (.union name members) target then return true
      else shapesBelow target members
  | source => branchBelow below source target

def shapesBelow (target : Shape) : List Shape -> CompareM Bool
  | [] => return true
  | s :: rest => do
      if <- shapeBelow target s then shapesBelow target rest else return false

end

end Rules

/-!
# Closing the recursion

What `below` stands for is the comparison of shapes with one frame less.
-/

/-- References and expansions that may be under way at the same time. -/
def maxFrames : Nat := 2 * Limits.comparison.maxDepth

def compareShapes : Nat -> Shape -> Shape -> CompareM Bool
  | 0, _, _ => return false
  | frames + 1, source, target => shapeBelow (compareShapes frames) target source

def isShapeBelow (source target : Shape) : CompareM Bool :=
  compareShapes (maxFrames + 1) source target

def isBelow (source target : FieldType) : CompareM Bool :=
  typeBelow (compareShapes maxFrames) target source

def areEquivalent (a b : FieldType) : CompareM Bool := do
  if <- isBelow a b then isBelow b a else return false

def fresh {α : Type} (comparison : CompareM α) : StateM Registry α := fun r =>
  let (answer, c) := comparison (start r)
  (answer, c.registry)

end CompareM

def isNameBelow (source target : ShapeId) : StateM Registry Bool :=
  CompareM.fresh (CompareM.isBelow (.reference source) (.reference target))

end Registry
end Shapes
