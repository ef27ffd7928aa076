import Shapes.Keyword
import Shapes.Number.Layout
import Shapes.Text.Quoted

/-!
# Literal types

A literal type has a single value.  Number literals are identified up to the
sign of zero and the payload of words that are not a number.
-/

namespace Shapes

inductive Literal where
  | string (value : String)
  | number (value : Binary64)
  | boolean (value : Bool)
  deriving DecidableEq, Repr

namespace Literal

def same : Literal -> Literal -> Bool
  | string a, string b => a = b
  | number a, number b => a.same b
  | boolean a, boolean b => a = b
  | _, _ => false

def widened : Literal -> Keyword
  | string _ => .string
  | number _ => .number
  | boolean _ => .boolean

def text : Literal -> String
  | string s => Text.quote s
  | number x => x.literalText
  | boolean true => "true"
  | boolean false => "false"

end Literal
end Shapes
