import Shapes.Json.Basic
import Shapes.Registry.Resolve

/-!
# Matching values

Whether a JSON value belongs to a type or a shape.  Objects may have more
members than their shape has fields, and a missing member is fine where its
type admits `undefined`.  The walk goes down a limited number of levels, and
what lies deeper does not match.
-/

namespace Shapes

/-- Whether a value belongs to a keyword type; no value is `undefined`. -/
def Keyword.matches (word : Keyword) (value : Json) : Bool :=
  match word with
  | .string => value.str?.isSome
  | .number => value.num?.isSome
  | .boolean => value.bool?.isSome
  | .null => value.isNull
  | .undefined | .never => false
  | .any | .unknown => true

/-- Whether a value is the one of a literal type; numbers compare as doubles. -/
def Literal.matches (literal : Literal) (value : Json) : Bool :=
  match literal, value with
  | .string s, .str t => s = t
  | .number x, .num n => n.toBinary64.numEq x
  | .boolean a, .bool b => a = b
  | _, _ => false

namespace Registry

mutual

def typeMatches : Nat -> FieldType -> Json -> StateM Registry Bool
  | 0, _, _ => return false
  | levels + 1, t, value =>
      match t with
      | .keyword word => return word.matches value
      | .literal literal => return literal.matches value
      | .reference id => do
          match <- (resolve id).run with
          | .ok shape => shapeMatches levels shape value
          | .error _ => return false
      | .union members => members.anyM fun m => typeMatches levels m value
      | .intersection members => members.allM fun m => typeMatches levels m value

def shapeMatches : Nat -> Shape -> Json -> StateM Registry Bool
  | 0, _, _ => return false
  | levels + 1, shape, value =>
      match shape with
      | .object _ fields =>
          match value with
          | .obj members =>
              fields.entries.allM fun (key, t) =>
                match members.lookup key with
                | some v => typeMatches levels t v
                | none => return t.admitsUndefined
          | _ => return false
      | .union _ members => members.anyM fun m => shapeMatches levels m value
      | .keyword word => return word.matches value
      | .literal literal => return literal.matches value

end

def matchesType (t : FieldType) (value : Json) : StateM Registry Bool :=
  typeMatches (maxValueDepth + 1) t value

def matchesShape (shape : Shape) (value : Json) : StateM Registry Bool :=
  shapeMatches (maxValueDepth + 1) shape value

end Registry
end Shapes
