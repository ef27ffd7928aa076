import Shapes.Number.Binary64

/-!
# JSON values

Values as a document holds them.  An object is the list of its members in the
order they were written.  A text may name a member more than once;
`Json.merged` is the value such a text stands for, where the last member of a
name counts and stands at the place of the first.
-/

namespace Shapes

/--
A number keeps its kind: integers from `-2 ^ 63` to `2 ^ 64 - 1` are exact, and
every other number is a double.
-/
inductive JsonNumber where
  | integer (value : Int)
  | double (value : Binary64)
  deriving DecidableEq, Repr

namespace JsonNumber

def toBinary64 : JsonNumber -> Binary64
  | integer i => Binary64.ofInt i
  | double x => x

end JsonNumber

inductive Json where
  | null
  | bool (value : Bool)
  | num (value : JsonNumber)
  | str (value : String)
  | arr (items : List Json)
  | obj (members : List (String × Json))

instance : Inhabited Json := ⟨.null⟩

namespace Json

/-!
# Views of a value

Each view is the content of a value of one kind, and nothing for the other
kinds.
-/

def isNull : Json -> Bool
  | null => true
  | _ => false

def bool? : Json -> Option Bool
  | bool b => some b
  | _ => none

def num? : Json -> Option JsonNumber
  | num n => some n
  | _ => none

def str? : Json -> Option String
  | str s => some s
  | _ => none

def arr? : Json -> Option (List Json)
  | arr items => some items
  | _ => none

def obj? : Json -> Option (List (String × Json))
  | obj members => some members
  | _ => none

def get? (v : Json) (key : String) : Option Json :=
  match v with
  | obj members => members.lookup key
  | _ => none

/-!
# Repeated members

A reader that wants one value for a name takes the last one that is written.
-/

/-- The members without repeated names: first position, last value. -/
def mergeMembers {α : Type} (members : List (String × α)) : List (String × α) :=
  members.foldl
    (fun kept (key, value) =>
      if kept.any (·.1 == key) then
        kept.map fun m => if m.1 == key then (key, value) else m
      else kept ++ [(key, value)])
    []

mutual

/-- The value with no repeated member names at any depth. -/
def merged : Json -> Json
  | null => null
  | bool b => bool b
  | num n => num n
  | str s => str s
  | arr items => arr (mergedItems items)
  | obj members => obj (mergeMembers (mergedMembers members))

def mergedItems : List Json -> List Json
  | [] => []
  | v :: rest => merged v :: mergedItems rest

def mergedMembers : List (String × Json) -> List (String × Json)
  | [] => []
  | (key, v) :: rest => (key, merged v) :: mergedMembers rest

end

end Json
end Shapes
