/-!
# Failures

Every way in which a declaration, a resolution or an access can be refused.
A failure carries the names a message needs, so it can be shown on its own.
-/

namespace Shapes

inductive Failure where
  /-- A field is declared again with a type that is not identical. -/
  | conflictingMerge (name field : String)
  /-- A single declaration has company. -/
  | duplicateAlias (name : String)
  | unknownParent (parent : String)
  | cyclicExtension (name : String)
  /-- A shape's body leads back to itself. -/
  | cyclicReference (name : String)
  /-- A resolution needs more nesting or more steps than it may take. -/
  | resolutionTooDeep (name : String)
  /-- A declaration comes after the shape has been resolved. -/
  | shapeFrozen (name : String)
  | emptyAlgebra
  /-- Types that have to meet rule each other out, at a field or at the root. -/
  | incompatible (key : Option String)
  | invalidKey (shape key : String)
  /-- A key is fine for the shape but missing from the value. -/
  | missingValue (key : String)
  | unknownShape (name : String)
  | nonObjectParent (name : String)
  deriving DecidableEq, Repr

namespace Failure

def code : Failure -> String
  | conflictingMerge .. => "ConflictingMerge"
  | duplicateAlias _ => "DuplicateAlias"
  | unknownParent _ => "UnknownParent"
  | cyclicExtension _ => "CyclicExtension"
  | cyclicReference _ => "CyclicReference"
  | resolutionTooDeep _ => "ResolutionDepthExceeded"
  | shapeFrozen _ => "ShapeFrozen"
  | emptyAlgebra => "EmptyAlgebra"
  | incompatible _ => "IncompatibleIntersection"
  | invalidKey .. => "InvalidKey"
  | missingValue _ => "MissingValue"
  | unknownShape _ => "UnknownShape"
  | nonObjectParent _ => "NonObjectParent"

def message : Failure -> String
  | conflictingMerge name field =>
      "subsequent declarations of `" ++ name ++
        "` disagree on the type of field `" ++ field ++ "`"
  | duplicateAlias name => "duplicate declaration of type alias `" ++ name ++ "`"
  | unknownParent parent =>
      "cannot extend `" ++ parent ++ "`: no such shape is declared"
  | cyclicExtension name => "`" ++ name ++ "` recursively extends itself"
  | cyclicReference name =>
      "type alias `" ++ name ++ "` circularly references itself"
  | resolutionTooDeep name =>
      "resolving `" ++ name ++ "` exceeds the maximum nesting depth"
  | shapeFrozen name =>
      "`" ++ name ++ "` has already been resolved and cannot accept new declarations"
  | emptyAlgebra => "union and intersection require at least one member"
  | incompatible key =>
      "intersection of incompatible types at `" ++ key.getD "<root>" ++ "`"
  | invalidKey shape key =>
      "property `" ++ key ++ "` does not exist on `" ++ shape ++ "`"
  | missingValue key => "value is missing property `" ++ key ++ "`"
  | unknownShape name => "`" ++ name ++ "` is referenced but never declared"
  | nonObjectParent name =>
      "`" ++ name ++ "` is not an object shape and cannot be extended"

end Failure
end Shapes
