import Shapes.Failure
import Shapes.Shape.Basic

/-!
# Keys of shapes

The keys of an object are its field names.  The keys of a union depend on the
policy: those of every member, or those of some member.  Keywords and literals
have none.  A key can be read from a value exactly when it is a key of the
value's shape.
-/

namespace Shapes

/-- Which keys of a union count: those in every member or those in some. -/
inductive KeyPolicy where
  | common
  | any
  deriving DecidableEq, Repr

namespace Shape

/-!
# Membership

The policy is consulted at every union, however deep it is nested.
-/

mutual

def hasKey (policy : KeyPolicy) (key : String) : Shape -> Bool
  | object _ fields => fields.contains key
  | union _ members =>
      match policy with
      | .common => !members.isEmpty && allHaveKey policy key members
      | .any => someHasKey policy key members
  | keyword _ | literal _ => false

def allHaveKey (policy : KeyPolicy) (key : String) : List Shape -> Bool
  | [] => true
  | shape :: rest => hasKey policy key shape && allHaveKey policy key rest

def someHasKey (policy : KeyPolicy) (key : String) : List Shape -> Bool
  | [] => false
  | shape :: rest => hasKey policy key shape || someHasKey policy key rest

end

/-!
# The list of keys

An object lists its keys in the order of its fields.  A union lists them in the
order of its first member or in the order of first appearance, as the policy
has it.
-/

mutual

def keys (policy : KeyPolicy) : Shape -> List String
  | object _ fields => fields.keys
  | union _ members =>
      match policy with
      | .common => commonKeys members
      | .any => distinctBy (· == ·) (allKeys policy members)
  | keyword _ | literal _ => []

def commonKeys : List Shape -> List String
  | [] => []
  | first :: rest => (keys .common first).filter fun key => allHaveKey .common key rest

def allKeys (policy : KeyPolicy) : List Shape -> List String
  | [] => []
  | shape :: rest => keys policy shape ++ allKeys policy rest

end

/-!
# Types of keys

On a union the type of a key is the union of its types on the members.
-/

mutual

def fieldType? (policy : KeyPolicy) (key : String) : Shape -> Option FieldType
  | object _ fields => fields.get? key
  | union name members =>
      if hasKey policy key (union name members) then
        some (.oneOf (fieldTypes policy key members))
      else none
  | keyword _ | literal _ => none

def fieldTypes (policy : KeyPolicy) (key : String) : List Shape -> List FieldType
  | [] => []
  | shape :: rest => (fieldType? policy key shape).toList ++ fieldTypes policy key rest

end

/-!
# Checked access

A key is checked before it is read.
-/

def displayName (shape : Shape) : String :=
  match shape.name?, shape with
  | some name, _ => name
  | none, keyword word => word.name
  | none, _ => "<anonymous>"

def checkKey (policy : KeyPolicy) (shape : Shape) (key : String) :
    Except Failure FieldType :=
  match shape.fieldType? policy key with
  | some t => return t
  | none => throw (.invalidKey shape.displayName key)

/-- The value of a key that the shape has, read from the members of an object. -/
def access {α : Type} (policy : KeyPolicy) (shape : Shape)
    (members : List (String × α)) (key : String) : Except Failure α := do
  let _ <- shape.checkKey policy key
  match members.lookup key with
  | some value => return value
  | none => throw (.missingValue key)

end Shape
end Shapes
