import Shapes.Document.Basic
import Shapes.Json.Draft

/-!
# Documents from JSON

A document is an object, or an array of its parts in order.  Options,
declarations and queries may be absent.  What a document does not know is
skipped without a look at its strings, numbers or nesting; what it keeps has to
have a value.

Declarations and types are read by trying their forms in order.  A form that
names a member twice does not apply.
-/

namespace Shapes

/-!
# Members of objects

What a document knows is read by name; whether a name was there once, twice or
not at all is for the reader of the member to judge.
-/

/-- A member that may be absent: absent, present, or present too often. -/
def memberOnce? {α : Type} (members : List (String × α)) (key : String) :
    Option (Option α) :=
  match members.filter fun m => m.1 = key with
  | [] => some none
  | [m] => some (some m.2)
  | _ => none

def memberExactly? {α : Type} (members : List (String × α)) (key : String) : Option α :=
  (memberOnce? members key).join

/-!
# Types

A term is a name, a literal, a union or an intersection, tried in this order.
-/

namespace TypeTerm

mutual

def ofJson? : Json -> Option TypeTerm
  | .str s => some (name s)
  | .obj members =>
      match memberExactly? members "literal" with
      | some value => some (literal value.merged)
      | none =>
          match listsAt "union" members with
          | [some terms] => some (union terms)
          | _ =>
              match listsAt "intersection" members with
              | [some terms] => some (intersection terms)
              | _ => none
  | _ => none

def listsAt (key : String) : List (String × Json) -> List (Option (List TypeTerm))
  | [] => []
  | (k, value) :: rest =>
      if k = key then listOf? value :: listsAt key rest else listsAt key rest

def listOf? : Json -> Option (List TypeTerm)
  | .arr items => allOf? items
  | _ => none

def allOf? : List Json -> Option (List TypeTerm)
  | [] => some []
  | v :: rest => do
      let t <- ofJson? v
      let ts <- allOf? rest
      return t :: ts

end

/-- Fields by name: a repeated name keeps its place and takes the last type. -/
def fieldsOf? : Json -> Option (List (String × TypeTerm))
  | .obj members => do
      let fields <- members.mapM fun (key, value) =>
        (ofJson? value).map fun t => (key, t)
      return Json.mergeMembers fields
  | _ => none

end TypeTerm

/-!
# Declarations

An interface and an alias are told apart by the members they have to have.
-/

namespace Declaration

def interface? (members : List (String × Json)) : Option Declaration := do
  let name <- (<- memberExactly? members "interface").str?
  let parents <-
    match <- memberOnce? members "extends" with
    | none => some []
    | some value => value.arr?.bind fun items => items.mapM Json.str?
  let fields <-
    match <- memberOnce? members "fields" with
    | none => some []
    | some value => TypeTerm.fieldsOf? value
  return interface name parents fields

/-- A part that may be absent or `null`. -/
def optional? {α : Type} (read : Json -> Option α) : Option Json -> Option (Option α)
  | none | some .null => some none
  | some value => (read value).map some

def typeAlias? (members : List (String × Json)) : Option Declaration := do
  let name <- (<- memberExactly? members "type").str?
  let fields <- optional? TypeTerm.fieldsOf? (<- memberOnce? members "fields")
  let body <- optional? TypeTerm.ofJson? (<- memberOnce? members "body")
  return typeAlias name fields body

def ofJson? : Json -> Option Declaration
  | .obj members => (interface? members).or (typeAlias? members)
  | _ => none

end Declaration

/-!
# Records

Options and queries are records: objects with known members, or arrays of their
parts in order.
-/

namespace JsonDraft

def str? : JsonDraft -> Option String
  | str s => s
  | _ => none

def arr? : JsonDraft -> Option (List JsonDraft)
  | arr items => some items
  | _ => none

/-- The members of an object with their names, all of which have to be texts. -/
def named? (members : List (Option String × JsonDraft)) :
    Option (List (String × JsonDraft)) :=
  members.mapM fun (key, draft) => key.map fun k => (k, draft)

/--
The parts of a record in the order of their names.  An object gives them by
name, and an array by position with nothing beyond the last one.
-/
def record? (names : List String) : JsonDraft -> Option (List (Option JsonDraft))
  | obj members => do
      let members <- named? members
      names.mapM (memberOnce? members)
  | arr items =>
      if items.length ≤ names.length then
        some (items.map some ++ List.replicate (names.length - items.length) none)
      else none
  | _ => none

end JsonDraft

/-!
# Options

The only option is the policy for the keys of unions.
-/

namespace KeyPolicy

def ofName? : String -> Option KeyPolicy
  | "common" => some common
  | "any" => some any
  | _ => none

/-- A policy by its name, alone or as the only member of an object. -/
def ofDraft? : JsonDraft -> Option (Option KeyPolicy)
  | .null => some none
  | .str (some name) => (ofName? name).map some
  | .obj [(some name, .null)] => (ofName? name).map some
  | _ => none

def ofOptions? (options : JsonDraft) : Option (Option KeyPolicy) := do
  match <- options.record? ["unionKeys"] with
  | [some draft] => ofDraft? draft
  | _ => return none

end KeyPolicy

/-!
# Queries

A query is named by the single member of its object, and its parts are read as a
record.
-/

namespace Query

/-- Containers that may be open inside the parts of a query. -/
def partLevels : Nat := JsonDraft.maxNesting - 4

def parts? (names : List String) (body : JsonDraft) : Option (List JsonDraft) := do
  let parts <- body.record? names
  parts.mapM id

/-- The value of a part, with repeated members merged. -/
def value? (draft : JsonDraft) : Option Json :=
  (draft.value? partLevels).map Json.merged

def ofParts? (name : String) (body : JsonDraft) : Option Query :=
  match name with
  | "keysOf" => body.str?.map keysOf
  | "validateKey" => do
      let [shape, key] <- parts? ["shape", "key"] body | none
      return validateKey (<- shape.str?) (<- key.str?)
  | "accessValue" => do
      let [shape, key, value] <- parts? ["shape", "key", "value"] body | none
      return accessValue (<- shape.str?) (<- key.str?) (<- (<- value? value).obj?)
  | "matches" => do
      let [shape, value] <- parts? ["shape", "value"] body | none
      return matchesValue (<- shape.str?) (<- value? value)
  | "isSubtype" => do
      let [source, target] <- parts? ["source", "target"] body | none
      return isSubtype (<- source.str?) (<- target.str?)
  | _ => none

/-- A query is an object with one member, named for what is asked. -/
def ofDraft? : JsonDraft -> Option Query
  | .obj [(some name, body)] => ofParts? name body
  | _ => none

end Query

/-!
# Whole documents

A document is read from the tree of its text.  What it does not know about is
never asked for a value.
-/

namespace Document

/-- Containers that may be open inside a declaration. -/
def declarationLevels : Nat := JsonDraft.maxNesting - 2

def declaration? (draft : JsonDraft) : Option Declaration :=
  (draft.value? declarationLevels).bind Declaration.ofJson?

def list? {α : Type} (read : JsonDraft -> Option α) : Option JsonDraft -> Option (List α)
  | none => some []
  | some draft => draft.arr?.bind fun items => items.mapM read

def ofDraft? (draft : JsonDraft) : Option Document := do
  let [options, declarations, queries] <-
    draft.record? ["options", "declarations", "queries"] | none
  let policy <-
    match options with
    | none => some none
    | some options => KeyPolicy.ofOptions? options
  let declarations <- list? declaration? declarations
  let queries <- list? Query.ofDraft? queries
  return { policy, declarations, queries }

def ofText? (text : String) : Option Document :=
  (JsonDraft.ofText? text).bind ofDraft?

/-!
# Loading

A file that cannot be read, is no text or holds no document is refused with a
message for each case.
-/

inductive LoadFailure where
  | unreadable (path : String)
  | unparsable (path : String)
  deriving DecidableEq, Repr

namespace LoadFailure

def message : LoadFailure -> String
  | unreadable path => "failed to read declaration file: " ++ path
  | unparsable path => "failed to parse declaration file: " ++ path

end LoadFailure

def load (path : String) (bytes : Option ByteArray) : Except LoadFailure Document :=
  match bytes.bind String.fromUTF8? with
  | none => throw (.unreadable path)
  | some text =>
      match ofText? text with
      | none => throw (.unparsable path)
      | some document => return document

end Document
end Shapes
