import Shapes.Document.Basic
import Shapes.Json.Writer
import Shapes.Registry.Declare

/-!
# Declarations of a document

Turning the declarations of a document into those of a registry.  A name that
is no keyword becomes a reference, and is reserved when it is not declared yet.
A declaration that makes no sense is malformed, which is not the registry's
verdict on one that does.
-/

namespace Shapes

inductive Malformed where
  | unsupportedLiteral (value : Json)
  | fieldsAndBody (name : String)
  | neitherFieldsNorBody (name : String)

namespace Malformed

def message : Malformed -> String
  | unsupportedLiteral value => "unsupported literal: " ++ value.compact
  | fieldsAndBody name => "type `" ++ name ++ "` has both `fields` and `body`"
  | neitherFieldsNorBody name =>
      "type `" ++ name ++ "` needs either `fields` or `body`"

end Malformed

/-- Elaboration reserves names as it goes, also when it fails later. -/
abbrev ElaborateM := ExceptT Malformed (StateM Registry)

namespace Literal

def ofJson? : Json -> Option Literal
  | .str s => some (string s)
  | .num n => some (number n.toBinary64)
  | .bool b => some (boolean b)
  | _ => none

end Literal

namespace TypeTerm

mutual

def elaborate : TypeTerm -> ElaborateM FieldType
  | name n =>
      match Keyword.ofName? n with
      | some word => return .keyword word
      | none => do
          let id <- (Registry.reserve n : StateM Registry ShapeId)
          return .reference id
  | literal value =>
      match Literal.ofJson? value with
      | some l => return .literal l
      | none => throw (.unsupportedLiteral value)
  | union members => do
      let types <- elaborateAll members
      return .union types
  | intersection members => do
      let types <- elaborateAll members
      return .intersection types

def elaborateAll : List TypeTerm -> ElaborateM (List FieldType)
  | [] => return []
  | term :: rest => do
      let t <- elaborate term
      let ts <- elaborateAll rest
      return t :: ts

end

def elaborateFields (fields : List (String × TypeTerm)) :
    ElaborateM (List (String × FieldType)) :=
  fields.mapM fun (key, term) => do
    let t <- elaborate term
    return (key, t)

end TypeTerm

namespace Declaration

def verdict (action : RegistryM ShapeId) : ElaborateM (Except Failure ShapeId) :=
  (action.run : StateM Registry (Except Failure ShapeId))

def declare : Declaration -> ElaborateM (Except Failure ShapeId)
  | interface name parents fields => do
      let fields <- TypeTerm.elaborateFields fields
      if parents.isEmpty then verdict (Registry.declare name .mergeable fields)
      else verdict (Registry.extend name parents fields)
  | typeAlias name fields body =>
      match fields, body with
      | some fields, none => do
          let fields <- TypeTerm.elaborateFields fields
          verdict (Registry.declare name .single fields)
      | none, some body => do
          let t <- TypeTerm.elaborate body
          verdict (Registry.declareBody name t)
      | some _, some _ => throw (.fieldsAndBody name)
      | none, none => throw (.neitherFieldsNorBody name)

end Declaration
end Shapes
