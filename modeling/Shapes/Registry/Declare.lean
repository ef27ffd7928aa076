import Shapes.Registry.Basic

/-!
# Declarations

A declaration arrives as a `Contribution`.  The first contribution of a name defines
it; later contributions of a mergeable name add fields and parents.  A refused
contribution changes nothing.
-/

namespace Shapes

structure Contribution where
  kind : NameKind
  fields : Table FieldType
  /-- The first field that repeats with a type that is not identical. -/
  conflict : Option String
  parents : List String
  body : Option FieldType

namespace Contribution

/-!
# Building contributions

What is declared is gathered before anybody looks at the registry.  The first
type of a field is kept, and the first field with a second type is noted.
-/

/-- Add a field to those gathered so far, noting the first conflict. -/
def gatherField (found : Table FieldType × Option String)
    (entry : String × FieldType) : Table FieldType × Option String :=
  match found.1.get? entry.1 with
  | none => (found.1.insert entry.1 entry.2, found.2)
  | some present =>
      if present.same entry.2 then found else (found.1, found.2.or (some entry.1))

def gatherFields (entries : List (String × FieldType)) :
    Table FieldType × Option String :=
  entries.foldl gatherField (.empty, none)

def ofFields (kind : NameKind) (parents : List String)
    (entries : List (String × FieldType)) : Contribution :=
  let (fields, conflict) := gatherFields entries
  { kind, fields, conflict, parents := distinctBy (· == ·) parents, body := none }

def ofBody (body : FieldType) : Contribution :=
  { kind := .single, fields := .empty, conflict := none, parents := [],
    body := some body }

end Contribution

namespace Definition

/-!
# Gathering contributions into definitions

A further contribution is checked against the definition in a fixed order: a
single declaration tolerates no other, a resolved shape accepts none, and then
fields have to agree.
-/

def ofContribution (name : String) (contribution : Contribution) : Except Failure Definition :=
  match contribution.conflict with
  | some field => throw (.conflictingMerge name field)
  | none =>
      return .declared name contribution.kind contribution.fields contribution.parents
        contribution.body

/-- The first field of a contribution that is declared with another type already. -/
def clash? (d : Definition) (contribution : Contribution) : Option String :=
  (contribution.fields.entries.find? fun (field, t) =>
    (d.fields.get? field).any fun present => !present.same t).map Prod.fst

/-- Add the new fields and the new parents of a contribution. -/
def absorb (d : Definition) (contribution : Contribution) : Definition :=
  { d with
    fields := contribution.fields.entries.foldl (fun t e => t.insertIfNew e.1 e.2) d.fields
    parents := d.parents ++ contribution.parents.filter fun p => !d.parents.contains p
    declarations := d.declarations + 1 }

def merge (d : Definition) (contribution : Contribution) : Except Failure Definition :=
  if d.isPending then ofContribution d.name contribution
  else if d.kind = some .single ∨ contribution.kind = .single then
    throw (.duplicateAlias d.name)
  else if !d.stage.isOpen then throw (.shapeFrozen d.name)
  else
    match contribution.conflict.or (d.clash? contribution) with
    | some field => throw (.conflictingMerge d.name field)
    | none => return d.absorb contribution

end Definition

namespace Registry

/-!
# Declaring names

A name is declared by fields, by fields on top of parents, or by a body.
-/

def contribute (name : String) (contribution : Contribution) : RegistryM ShapeId := do
  let r <- get
  match r.lookup? name with
  | none =>
      let d <- Definition.ofContribution name contribution
      let (id, r) := r.register d
      set r
      return id
  | some id =>
      match r.arena.get? id with
      | none => throw (.unknownShape name)
      | some d =>
          let d <- d.merge contribution
          set (r.setDefinition id d)
          return id

def declare (name : String) (kind : NameKind)
    (fields : List (String × FieldType)) : RegistryM ShapeId :=
  contribute name (.ofFields kind [] fields)

/-- Declare a mergeable name by parents, which are looked up later, and fields. -/
def extend (name : String) (parents : List String)
    (fields : List (String × FieldType)) : RegistryM ShapeId :=
  contribute name (.ofFields .mergeable parents fields)

def declareBody (name : String) (body : FieldType) : RegistryM ShapeId :=
  contribute name (.ofBody body)

end Registry
end Shapes
