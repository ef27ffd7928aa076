import Shapes.Document.Elaborate
import Shapes.Registry.Matching
import Shapes.Registry.Render
import Shapes.Registry.Subtype

/-!
# Reports

A report is what becomes of a document: an outcome for every declaration, and
after them an outcome for every query.  A malformed declaration stops the run.
-/

namespace Shapes

inductive Answer where
  | declared
  | keys (names : List String)
  | fieldType (text : String)
  | value (value : Json)
  | verdict (holds : Bool)

structure Outcome where
  /-- The name declared or the label of the query. -/
  subject : String
  result : Except Failure Answer

namespace Outcome

def isFailure (outcome : Outcome) : Bool :=
  match outcome.result with
  | .ok _ => false
  | .error _ => true

end Outcome

structure Report where
  declarations : List Outcome
  queries : List Outcome

namespace Report

def failureCount (report : Report) : Nat :=
  (report.declarations ++ report.queries).countP Outcome.isFailure

def hasFailures (report : Report) : Bool :=
  (report.declarations ++ report.queries).any Outcome.isFailure

end Report

namespace Query

/-!
# Answering queries

A query names a declared shape and asks one thing about it.
-/

def lookup (name : String) : RegistryM ShapeId := do
  match (<- get).lookup? name with
  | some id => return id
  | none => throw (.unknownShape name)

def always {α : Type} (action : StateM Registry α) : RegistryM α :=
  action

def answer : Query -> RegistryM Answer
  | keysOf shape => do
      let id <- lookup shape
      return .keys (<- Registry.keys id)
  | validateKey shape key => do
      let id <- lookup shape
      let t <- Registry.checkKey id key
      return .fieldType ((<- get).typeText t)
  | accessValue shape key members => do
      let id <- lookup shape
      return .value (<- Registry.access id members key)
  | matchesValue shape value => do
      let id <- lookup shape
      let resolved <- Registry.resolve id
      return .verdict (<- always (Registry.matchesShape resolved value))
  | isSubtype source target => do
      let source <- lookup source
      let target <- lookup target
      let _ <- Registry.resolve source
      let _ <- Registry.resolve target
      return .verdict (<- always (Registry.isNameBelow source target))

def outcome (query : Query) : StateM Registry Outcome := do
  let result <- query.answer.run
  return { subject := query.label, result }

end Query

/-- A malformed declaration with the name it is for. -/
structure InvalidDeclaration where
  name : String
  cause : Malformed

namespace InvalidDeclaration

def message (invalid : InvalidDeclaration) : String :=
  "invalid declaration of `" ++ invalid.name ++ "`: " ++ invalid.cause.message

end InvalidDeclaration

namespace Declaration

def outcome (declaration : Declaration) :
    ExceptT InvalidDeclaration (StateM Registry) Outcome :=
  ExceptT.mk do
    match <- declaration.declare.run with
    | .error cause => return .error ⟨declaration.name, cause⟩
    | .ok result =>
        return .ok { subject := declaration.name, result := result.map fun _ => .declared }

end Declaration

namespace Document

/-!
# Running documents

All declarations come first, then all queries, and then the keys of further
names.
-/

def outcomes (document : Document) (names : List String) :
    ExceptT InvalidDeclaration (StateM Registry) Report := do
  let declarations <- document.declarations.mapM Declaration.outcome
  let queries := document.queries ++ names.map .keysOf
  let answers <- (queries.mapM Query.outcome : StateM Registry (List Outcome))
  return { declarations, queries := answers }

def run (document : Document) (policy : KeyPolicy) (names : List String) :
    Except InvalidDeclaration Report :=
  ((document.outcomes names).run (Registry.empty policy)).1

end Document
end Shapes
