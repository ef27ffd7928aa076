import Shapes.FieldType.Basic

/-!
# Meets of field types

`FieldType.meet?` is the type of the values that belong to two types at once,
or `none` when their leaves rule each other out.  Unions distribute over the
other operand and drop the branches that fail.  References cannot be opened
here, so a meet that involves one is kept as an intersection.
-/

namespace Shapes
namespace FieldType

/-- The cases that need no look inside either type. -/
def plainMeet? (a b : FieldType) : Option FieldType :=
  if a.same b then some a
  else
    match a, b with
    | keyword .unknown, other => some other
    | other, keyword .unknown => some other
    | keyword .never, _ => some (keyword .never)
    | _, keyword .never => some (keyword .never)
    | keyword .any, _ => some (keyword .any)
    | _, keyword .any => some (keyword .any)
    | _, _ => none

def leafMeet? (a b : FieldType) : Option FieldType :=
  match plainMeet? a b with
  | some t => some t
  | none =>
      match a, b with
      | keyword word, literal value | literal value, keyword word =>
          if value.widened = word then some (literal value) else none
      | _, _ => none

/-!
# Intersections that stay

A meet that cannot be decided keeps both sides: nested intersections are opened,
leaves meet each other and come last, and identical members collapse.
-/

mutual

def intersectionParts : FieldType -> List FieldType
  | intersection members => allIntersectionParts members
  | t => [t]

def allIntersectionParts : List FieldType -> List FieldType
  | [] => []
  | t :: rest => intersectionParts t ++ allIntersectionParts rest

end

/-- The meet of the leaves in a list; `some none` when there are none. -/
def leavesMeet? : List FieldType -> Option (Option FieldType)
  | [] => some none
  | leaf :: rest => (rest.foldlM leafMeet? leaf).map some

def allOf : List FieldType -> FieldType
  | [] => keyword .unknown
  | [t] => t
  | members => intersection members

def keptMeet? (a b : FieldType) : Option FieldType :=
  let parts := intersectionParts a ++ intersectionParts b
  let kept := distinctBy same (parts.filter fun t => !t.isLeaf)
  (leavesMeet? (parts.filter isLeaf)).map fun leaf => allOf (kept ++ leaf.toList)

/-!
# The general case

A union on the left is distributed first.  The members of a union on the right
become the left operands of their branches, so both recursions are on a smaller
type.
-/

def simpleMeet? (a b : FieldType) : Option FieldType :=
  if a.isLeaf && b.isLeaf then leafMeet? a b
  else
    match plainMeet? a b with
    | some t => some t
    | none => keptMeet? a b

/-- The union of the branches that succeeded, when there is one. -/
def branches? (found : List FieldType) : Option FieldType :=
  if found.isEmpty then none else some (oneOf found)

mutual

/-- The meet with a type on the right that is not a union. -/
def meetSimple? (right : FieldType) : FieldType -> Option FieldType
  | union members =>
      match plainMeet? (union members) right with
      | some t => some t
      | none => branches? (meetsSimple right members)
  | left => simpleMeet? left right

def meetsSimple (right : FieldType) : List FieldType -> List FieldType
  | [] => []
  | t :: rest => (meetSimple? right t).toList ++ meetsSimple right rest

end

mutual

def meet? : FieldType -> FieldType -> Option FieldType
  | union members, right =>
      match plainMeet? (union members) right with
      | some t => some t
      | none => branches? (meets members right)
  | left, union members =>
      match plainMeet? left (union members) with
      | some t => some t
      | none => branches? (meetsSimple left members)
  | left, right => simpleMeet? left right

def meets : List FieldType -> FieldType -> List FieldType
  | [], _ => []
  | t :: rest, right => (meet? t right).toList ++ meets rest right

end

end FieldType
end Shapes
