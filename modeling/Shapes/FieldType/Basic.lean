import Shapes.Distinct
import Shapes.Literal

/-!
# Field types

The type of a single field.  A reference names a declared shape by its
identifier and is never expanded here, so recursive shapes are finite terms.

Two types are identical, `FieldType.same`, when they agree up to the order and
the repetition of union and intersection members at every depth.  The finer
`FieldType.equal` also compares order.  `FieldType.oneOf` builds a union in
normal form.
-/

namespace Shapes

/-- The identifier of a declared shape; identifiers start at one. -/
structure ShapeId where
  index : Nat
  deriving DecidableEq, Repr

namespace ShapeId

def isValid (id : ShapeId) : Bool :=
  1 ≤ id.index

end ShapeId

inductive FieldType where
  | keyword (word : Keyword)
  | reference (id : ShapeId)
  | union (members : List FieldType)
  | intersection (members : List FieldType)
  | literal (value : Literal)

instance : Inhabited FieldType := ⟨.keyword .never⟩

namespace FieldType

/-!
# Identity

Both comparisons descend through two types at once.  Identity looks for each
member of one list somewhere in the other, in both directions.
-/

mutual

def same : FieldType -> FieldType -> Bool
  | keyword a, keyword b => a = b
  | reference a, reference b => a = b
  | literal a, literal b => a.same b
  | union as, union bs => eachIn as bs && bs.all fun b => someSame as b
  | intersection as, intersection bs => eachIn as bs && bs.all fun b => someSame as b
  | _, _ => false

def eachIn : List FieldType -> List FieldType -> Bool
  | [], _ => true
  | a :: as, bs => (bs.any fun b => same a b) && eachIn as bs

def someSame : List FieldType -> FieldType -> Bool
  | [], _ => false
  | a :: as, b => same a b || someSame as b

end

mutual

def equal : FieldType -> FieldType -> Bool
  | keyword a, keyword b => a = b
  | reference a, reference b => a = b
  | literal a, literal b => a.same b
  | union as, union bs => equalLists as bs
  | intersection as, intersection bs => equalLists as bs
  | _, _ => false

def equalLists : List FieldType -> List FieldType -> Bool
  | [], [] => true
  | a :: as, b :: bs => equal a b && equalLists as bs
  | _, _ => false

end

/-!
# Classification

A field whose type admits `undefined` may be missing from a value.
-/

/-- Keyword and literal types are leaves: they meet by rules of their own. -/
def isLeaf : FieldType -> Bool
  | keyword _ | literal _ => true
  | _ => false

mutual

def admitsUndefined : FieldType -> Bool
  | keyword word => word.isTop || word = .undefined
  | union members => someAdmitUndefined members
  | intersection members => allAdmitUndefined members
  | reference _ | literal _ => false

def someAdmitUndefined : List FieldType -> Bool
  | [] => false
  | t :: rest => admitsUndefined t || someAdmitUndefined rest

def allAdmitUndefined : List FieldType -> Bool
  | [] => true
  | t :: rest => admitsUndefined t && allAdmitUndefined rest

end

/-!
# Unions in normal form

A union in normal form has at least two members, none of them a union or
`never`, and no two of them identical.
-/

def unionParts : FieldType -> List FieldType
  | union members => members
  | keyword .never => []
  | t => [t]

/--
The union of a list of types: unions among them are opened, `never` is
dropped, identical members collapse, and no members make `never`.
-/
def oneOf (types : List FieldType) : FieldType :=
  match distinctBy same (types.flatMap unionParts) with
  | [] => keyword .never
  | [t] => t
  | members => union members

end FieldType
end Shapes
