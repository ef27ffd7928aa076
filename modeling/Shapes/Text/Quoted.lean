import Shapes.Text.Extending
import Shapes.Text.Ignorable
import Shapes.Text.Unprintable

/-!
# Quoted text

String literals in types are shown between double quotes.  The quote, the
backslash and a few control characters have short escapes; whatever else could
not be seen on its own is written by its code point.
-/

namespace Shapes
namespace Text

def hexDigits (c : Char) : List Char :=
  Nat.toDigits 16 c.toNat

/-- Whether a character would not be seen on its own. -/
def isHidden (c : Char) : Bool :=
  isUnprintable c || isExtending c || isIgnorable c

def escapeChar (c : Char) : List Char :=
  if c = '"' then ['\\', '"']
  else if c = '\\' then ['\\', '\\']
  else if c = '\n' then ['\\', 'n']
  else if c = '\r' then ['\\', 'r']
  else if c = '\t' then ['\\', 't']
  else if c = '\x00' then ['\\', '0']
  else if isHidden c then
    ['\\', 'u', '\x7b'] ++ hexDigits c ++ ['\x7d']
  else [c]

def quote (s : String) : String :=
  String.ofList ('"' :: s.toList.flatMap escapeChar ++ ['"'])

end Text
end Shapes
