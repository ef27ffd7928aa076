import Shapes.Json.Basic
import Shapes.Shape.Keys

/-!
# Documents

A document holds options, declarations and queries.  Types are written as
terms: a bare name is a keyword or the name of a shape.
-/

namespace Shapes

inductive TypeTerm where
  | name (name : String)
  | literal (value : Json)
  | union (members : List TypeTerm)
  | intersection (members : List TypeTerm)

instance : Inhabited TypeTerm := ⟨.name ""⟩

inductive Declaration where
  /-- A mergeable shape with parents and fields. -/
  | interface (name : String) (parents : List String)
      (fields : List (String × TypeTerm))
  /-- A single shape by its fields or by a body. -/
  | typeAlias (name : String) (fields : Option (List (String × TypeTerm)))
      (body : Option TypeTerm)

namespace Declaration

def name : Declaration -> String
  | interface name .. => name
  | typeAlias name .. => name

end Declaration

inductive Query where
  | keysOf (shape : String)
  | validateKey (shape key : String)
  | accessValue (shape key : String) (members : List (String × Json))
  | matchesValue (shape : String) (value : Json)
  | isSubtype (source target : String)

namespace Query

def label : Query -> String
  | keysOf shape => "keysOf(" ++ shape ++ ")"
  | validateKey shape key => "validateKey(" ++ shape ++ ", " ++ key ++ ")"
  | accessValue shape key _ => "accessValue(" ++ shape ++ ", " ++ key ++ ")"
  | matchesValue shape _ => "matches(" ++ shape ++ ")"
  | isSubtype source target => "isSubtype(" ++ source ++ ", " ++ target ++ ")"

end Query

structure Document where
  policy : Option KeyPolicy
  declarations : List Declaration
  queries : List Query

namespace Document

/-- The policy in force: the caller's choice, the document's, or `common`. -/
def effectivePolicy (document : Document) (override : Option KeyPolicy) : KeyPolicy :=
  (override.or document.policy).getD .common

end Document
end Shapes
