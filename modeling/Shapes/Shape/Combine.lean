import Shapes.Failure
import Shapes.FieldType.Meet
import Shapes.Shape.Basic

/-!
# Unions and intersections of shapes

`Shape.unite` opens unions among its members and collapses identical ones.
`Shape.intersect` merges objects field by field and distributes over unions; a
union member that cannot be intersected fails the whole intersection.  The
results are anonymous.
-/

namespace Shapes
namespace Shape

/-!
# Unions

A union of no operands is refused.  Where all parts of the operands are
identical, the first one of them is the union.
-/

def unionParts : Shape -> List Shape
  | union _ members => members
  | shape => [shape]

def unite (shapes : List Shape) : Except Failure Shape :=
  if shapes.isEmpty then throw .emptyAlgebra
  else
    match distinctBy same (shapes.flatMap unionParts) with
    | [only] => return only
    | members => return union none members

/-!
# Intersections

Shapes are intersected pair by pair.  A union on the left is distributed first;
the members of a union on the right become the left operands of their branches.
-/

/-- Add a field to an object, meeting the type that is already there. -/
def meetField (fields : Table FieldType) (entry : String × FieldType) :
    Except Failure (Table FieldType) :=
  match fields.get? entry.1 with
  | none => return fields.insert entry.1 entry.2
  | some present =>
      match present.meet? entry.2 with
      | some t => return fields.insert entry.1 t
      | none => throw (.incompatible (some entry.1))

def mergeFields (a b : Table FieldType) : Except Failure Shape := do
  let fields <- b.entries.foldlM meetField a
  return object none fields

def meetLeaves (a b : Shape) : Except Failure Shape :=
  match a.leaf?, b.leaf? with
  | some s, some t =>
      match (s.meet? t).bind ofLeaf? with
      | some shape => return shape
      | none => throw (.incompatible none)
  | _, _ => throw (.incompatible none)

/--
The intersection of two shapes that are not unions.  `any` keeps the fields of
an object; every other leaf rules an object out.
-/
def intersectSimple : Shape -> Shape -> Except Failure Shape
  | keyword .unknown, right => return right
  | left, keyword .unknown => return left
  | object name fields, keyword .any => return object name fields
  | keyword .any, object name fields => return object name fields
  | object _ a, object _ b => mergeFields a b
  | left, right => meetLeaves left right

mutual

def intersectLeft (right : Shape) : Shape -> Except Failure Shape
  | union name members =>
      match right with
      | keyword .unknown => return union name members
      | _ => do
          let branches <- intersectLefts right members
          unite branches
  | left => intersectSimple left right

def intersectLefts (right : Shape) : List Shape -> Except Failure (List Shape)
  | [] => return []
  | shape :: rest => do
      let first <- intersectLeft right shape
      let others <- intersectLefts right rest
      return first :: others

end

mutual

def intersectPair : Shape -> Shape -> Except Failure Shape
  | union name members, right =>
      match right with
      | keyword .unknown => return union name members
      | _ => do
          let branches <- intersectPairs members right
          unite branches
  | left, union name members =>
      match left with
      | keyword .unknown => return union name members
      | _ => do
          let branches <- intersectLefts left members
          unite branches
  | left, right => intersectSimple left right

def intersectPairs : List Shape -> Shape -> Except Failure (List Shape)
  | [], _ => return []
  | shape :: rest, right => do
      let first <- intersectPair shape right
      let others <- intersectPairs rest right
      return first :: others

end

def intersect : List Shape -> Except Failure Shape
  | [] => throw .emptyAlgebra
  | first :: rest => rest.foldlM intersectPair first

end Shape
end Shapes
