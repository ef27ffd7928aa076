import Shapes.Json.Token

/-!
# Documents as written

A `JsonDraft` is the tree of a JSON text before anyone has asked for its
values: strings and numbers may turn out to have none, members may repeat, and
nesting is not limited.  `JsonDraft.ofText?` accepts exactly the strict JSON
grammar.  `JsonDraft.value?` then asks for the value of a part of the tree.
-/

namespace Shapes

inductive JsonDraft where
  | null
  | bool (value : Bool)
  | num (value : Option JsonNumber)
  | str (value : Option String)
  | arr (items : List JsonDraft)
  | obj (members : List (Option String × JsonDraft))

instance : Inhabited JsonDraft := ⟨.null⟩

namespace JsonDraft

/-!
# Reading the grammar

The reader keeps the containers that are open as a stack and moves from token to
token, so a text of any nesting is read by one loop over its tokens.
-/

/-- A container that is still open, with its parts so far in reverse. -/
inductive Frame where
  | array (items : List JsonDraft)
  | object (members : List (Option String × JsonDraft)) (key : Option String)

/-- What may come next, inside the open containers. -/
inductive Phase where
  | value (stack : List Frame)
  /-- The first item of an array, or its end. -/
  | firstItem (stack : List Frame)
  /-- The name of a member, or the end of an object that has none. -/
  | memberName (members : List (Option String × JsonDraft)) (stack : List Frame)
      (mayEnd : Bool)
  /-- The colon between a name and its value. -/
  | memberColon (members : List (Option String × JsonDraft)) (key : Option String)
      (stack : List Frame)
  /-- A value has ended: a comma, the end of its container, or the end of all. -/
  | ended (value : JsonDraft) (stack : List Frame)

def begin? (stack : List Frame) : JsonToken -> Option Phase
  | .null => some (.ended .null stack)
  | .bool b => some (.ended (.bool b) stack)
  | .num n => some (.ended (.num n) stack)
  | .str s => some (.ended (.str s) stack)
  | .openBracket => some (.firstItem stack)
  | .openBrace => some (.memberName [] stack true)
  | _ => none

def step? : Phase -> JsonToken -> Option Phase
  | .value stack, token => begin? stack token
  | .firstItem stack, .closeBracket => some (.ended (.arr []) stack)
  | .firstItem stack, token => begin? (.array [] :: stack) token
  | .memberName members stack _, .str key => some (.memberColon members key stack)
  | .memberName _ stack true, .closeBrace => some (.ended (.obj []) stack)
  | .memberColon members key stack, .colon => some (.value (.object members key :: stack))
  | .ended v (.array items :: stack), .comma => some (.value (.array (v :: items) :: stack))
  | .ended v (.array items :: stack), .closeBracket =>
      some (.ended (.arr (v :: items).reverse) stack)
  | .ended v (.object members key :: stack), .comma =>
      some (.memberName ((key, v) :: members) stack false)
  | .ended v (.object members key :: stack), .closeBrace =>
      some (.ended (.obj ((key, v) :: members).reverse) stack)
  | _, _ => none

def ofTokens? (tokens : List JsonToken) : Option JsonDraft :=
  match tokens.foldlM step? (.value []) with
  | some (.ended v []) => some v
  | _ => none

def ofText? (text : String) : Option JsonDraft :=
  (JsonToken.scan? text).bind ofTokens?

/-!
# Asking for values

A draft has a value when its strings and numbers have one and few enough
containers are open at once.  Members stay as written, repeated names included.
-/

/-- Arrays and objects that a kept part of a document may have open at once. -/
def maxNesting : Nat := 127

mutual

/--
The value of a draft in which at most `levels` containers may be open at once.
Members stay as written, repeated names included.
-/
def value? (levels : Nat) : JsonDraft -> Option Json
  | null => some .null
  | bool b => some (.bool b)
  | num n => n.map .num
  | str s => s.map .str
  | arr items =>
      match levels with
      | 0 => none
      | levels + 1 => (items? levels items).map .arr
  | obj members =>
      match levels with
      | 0 => none
      | levels + 1 => (members? levels members).map .obj

def items? (levels : Nat) : List JsonDraft -> Option (List Json)
  | [] => some []
  | draft :: rest => do
      let v <- value? levels draft
      let vs <- items? levels rest
      return v :: vs

def members? (levels : Nat) :
    List (Option String × JsonDraft) -> Option (List (String × Json))
  | [] => some []
  | (key, draft) :: rest => do
      let k <- key
      let v <- value? levels draft
      let ms <- members? levels rest
      return (k, v) :: ms

end

end JsonDraft

def Json.ofText? (text : String) : Option Json := do
  let draft <- JsonDraft.ofText? text
  let v <- draft.value? JsonDraft.maxNesting
  return v.merged

end Shapes
