/-!
# Keyword types

The eight types that have a name of their own in every document.
-/

namespace Shapes

inductive Keyword where
  | string
  | number
  | boolean
  | null
  | undefined
  | any
  | unknown
  | never
  deriving DecidableEq, Repr

namespace Keyword

def name : Keyword -> String
  | string => "string"
  | number => "number"
  | boolean => "boolean"
  | null => "null"
  | undefined => "undefined"
  | any => "any"
  | unknown => "unknown"
  | never => "never"

def ofName? : String -> Option Keyword
  | "string" => some string
  | "number" => some number
  | "boolean" => some boolean
  | "null" => some null
  | "undefined" => some undefined
  | "any" => some any
  | "unknown" => some unknown
  | "never" => some never
  | _ => none

/-- Whether every value belongs to the type. -/
def isTop : Keyword -> Bool
  | any | unknown => true
  | _ => false

end Keyword
end Shapes
