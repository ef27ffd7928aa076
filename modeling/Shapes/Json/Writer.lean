import Shapes.Json.Basic
import Shapes.Number.Layout

/-!
# JSON texts of values

The compact text has no blanks at all.  The indented text puts every item and
member on a line of its own, two blanks deeper than its container; an empty
container stays on one line.
-/

namespace Shapes

namespace Json

/-!
# Leaves

A string escapes what the grammar forbids, and a number shows its kind.
-/

def hexDigit (n : Nat) : Char :=
  Nat.digitChar (n % 16)

def escapeChar (c : Char) : List Char :=
  if c = '"' then ['\\', '"']
  else if c = '\\' then ['\\', '\\']
  else if c = '\x08' then ['\\', 'b']
  else if c = '\x0c' then ['\\', 'f']
  else if c = '\n' then ['\\', 'n']
  else if c = '\r' then ['\\', 'r']
  else if c = '\t' then ['\\', 't']
  else if c < ' ' then
    ['\\', 'u', '0', '0', hexDigit (c.toNat / 16), hexDigit c.toNat]
  else [c]

def quote (s : String) : String :=
  String.ofList ('"' :: s.toList.flatMap escapeChar ++ ['"'])

end Json

def JsonNumber.text : JsonNumber -> String
  | integer (.ofNat n) => String.ofList (Nat.toDigits 10 n)
  | integer (.negSucc n) => "-" ++ String.ofList (Nat.toDigits 10 (n + 1))
  | double x => x.jsonText

namespace Json

/-!
# Compact text

Parts are separated by a comma and nothing else.
-/

mutual

def compact : Json -> String
  | null => "null"
  | bool true => "true"
  | bool false => "false"
  | num n => n.text
  | str s => quote s
  | arr items => "[" ++ ",".intercalate (compactItems items) ++ "]"
  | obj members => "\x7b" ++ ",".intercalate (compactMembers members) ++ "\x7d"

def compactItems : List Json -> List String
  | [] => []
  | v :: rest => compact v :: compactItems rest

def compactMembers : List (String × Json) -> List String
  | [] => []
  | (key, v) :: rest => (quote key ++ ":" ++ compact v) :: compactMembers rest

end

/-!
# Indented text

Every part of a container starts a line, indented by the depth of the container.
-/

def newline (depth : Nat) : String :=
  String.ofList ('\n' :: List.replicate (2 * depth) ' ')

def block (depth : Nat) (opening closing : String) (parts : List String) : String :=
  if parts.isEmpty then opening ++ closing
  else
    opening ++ newline (depth + 1) ++
      ("," ++ newline (depth + 1)).intercalate parts ++
      newline depth ++ closing

mutual

def indented (depth : Nat) : Json -> String
  | null => "null"
  | bool true => "true"
  | bool false => "false"
  | num n => n.text
  | str s => quote s
  | arr items => block depth "[" "]" (indentedItems (depth + 1) items)
  | obj members => block depth "\x7b" "\x7d" (indentedMembers (depth + 1) members)

def indentedItems (depth : Nat) : List Json -> List String
  | [] => []
  | v :: rest => indented depth v :: indentedItems depth rest

def indentedMembers (depth : Nat) : List (String × Json) -> List String
  | [] => []
  | (key, v) :: rest =>
      (quote key ++ ": " ++ indented depth v) :: indentedMembers depth rest

end

def pretty (v : Json) : String :=
  indented 0 v

end Json
end Shapes
