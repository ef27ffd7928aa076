import Shapes.Registry.Basic

/-!
# Texts of types and shapes

Types and shapes are shown the way they are declared: alternatives with a bar,
intersections with an ampersand, objects with their fields between braces.  A
reference shows the name of its shape and is never opened, and so does a shape
that has a name.
-/

namespace Shapes

namespace FieldType

section Text

variable (nameOf : ShapeId -> String)

def joinTexts (separator : String) (texts : List String) : String :=
  if texts.isEmpty then "never" else separator.intercalate texts

mutual

/-- The text of a type, with references named by `nameOf`. -/
def text : FieldType -> String
  | keyword word => word.name
  | literal value => value.text
  | reference id => nameOf id
  | union members => joinTexts " | " (texts members)
  | intersection members => joinTexts " & " (groupedTexts members)

def texts : List FieldType -> List String
  | [] => []
  | t :: rest => text t :: texts rest

def groupedTexts : List FieldType -> List String
  | [] => []
  | union members :: rest =>
      ("(" ++ joinTexts " | " (texts members) ++ ")") :: groupedTexts rest
  | t :: rest => text t :: groupedTexts rest

end

end Text

end FieldType

namespace Shape

section Text

variable (nameOf : ShapeId -> String)

def fieldsText (fields : Table FieldType) : String :=
  if fields.isEmpty then "\x7b\x7d"
  else
    "\x7b " ++
      "; ".intercalate
        (fields.entries.map fun (key, t) => key ++ ": " ++ t.text nameOf) ++
      " \x7d"

mutual

/-- The text of a shape: its name, or else its structure. -/
def text : Shape -> String
  | object (some name) _ => name
  | object none fields => fieldsText nameOf fields
  | union (some name) _ => name
  | union none members => " | ".intercalate (texts members)
  | keyword word => word.name
  | literal value => value.text

def texts : List Shape -> List String
  | [] => []
  | shape :: rest => text shape :: texts rest

end

/-- The text of a shape's structure, also when it has a name. -/
def structureText : Shape -> String
  | object _ fields => fieldsText nameOf fields
  | union _ members => " | ".intercalate (texts nameOf members)
  | keyword word => word.name
  | literal value => value.text

end Text

end Shape

namespace Registry

def typeText (r : Registry) (t : FieldType) : String :=
  t.text r.displayName

def shapeText (r : Registry) (shape : Shape) : String :=
  shape.text r.displayName

def structureText (r : Registry) (shape : Shape) : String :=
  shape.structureText r.displayName

end Registry
end Shapes
