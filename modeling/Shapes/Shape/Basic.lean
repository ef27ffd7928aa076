import Shapes.FieldType.Basic
import Shapes.Table

/-!
# Shapes

What a name stands for once its declarations are flattened: a table of typed
fields, a union of shapes, a keyword or a literal.  Objects and unions carry
the name they were declared under for messages only; identity of shapes,
`Shape.same`, ignores names and order.
-/

namespace Shapes

inductive Shape where
  | object (name : Option String) (fields : Table FieldType)
  | union (name : Option String) (members : List Shape)
  | keyword (word : Keyword)
  | literal (value : Literal)

instance : Inhabited Shape := ⟨.keyword .never⟩

namespace Shape

/-!
# Names and leaves

Keywords and literals are leaves; as types they are the same thing.
-/

def name? : Shape -> Option String
  | object name _ | union name _ => name
  | keyword _ | literal _ => none

/-- An object or a union under another name; leaves have no name. -/
def rename (shape : Shape) (name : String) : Shape :=
  match shape with
  | object _ fields => object (some name) fields
  | union _ members => union (some name) members
  | leaf => leaf

def fields? : Shape -> Option (Table FieldType)
  | object _ fields => some fields
  | _ => none

def leaf? : Shape -> Option FieldType
  | keyword word => some (.keyword word)
  | literal value => some (.literal value)
  | _ => none

def ofLeaf? : FieldType -> Option Shape
  | .keyword word => some (keyword word)
  | .literal value => some (literal value)
  | _ => none

/-!
# Identity

The recursion is that of types, with fields compared by name.
-/

def sameFields (a b : Table FieldType) : Bool :=
  a.size = b.size &&
    a.entries.all fun (key, t) => (b.get? key).any fun u => t.same u

mutual

def same : Shape -> Shape -> Bool
  | object _ a, object _ b => sameFields a b
  | union _ as, union _ bs => eachIn as bs && bs.all fun b => someSame as b
  | keyword a, keyword b => a = b
  | literal a, literal b => a.same b
  | _, _ => false

def eachIn : List Shape -> List Shape -> Bool
  | [], _ => true
  | a :: as, bs => (bs.any fun b => same a b) && eachIn as bs

def someSame : List Shape -> Shape -> Bool
  | [], _ => false
  | a :: as, b => same a b || someSame as b

end

end Shape
end Shapes
