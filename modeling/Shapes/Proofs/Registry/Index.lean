import Shapes.Proofs.Registry.Arena
import Shapes.Proofs.Table

/-!
# The index of a registry

A registry keeps the names of its definitions in a table beside the arena.  A definition
that is set leaves the table alone; a new one is entered under its name.  The index is
what a registry says of names and identifiers without a look at any definition, and two
registries with one index find the same identifiers.
-/

namespace Shapes
namespace Registry

/-!
# Looking up names after a write

Only a registration changes what is found for a name, and for one name alone.
-/

theorem lookup?_setDefinition (r : Registry) (id : ShapeId) (d : Definition) :
    (r.setDefinition id d).lookup? = r.lookup? := rfl

theorem lookup?_register (r : Registry) (d : Definition) (name : String) :
    (r.register d).2.lookup? name =
      if name = d.name then some (r.register d).1 else r.lookup? name :=
  Table.get?_insert

theorem lookup?_register_new (r : Registry) (d : Definition) :
    (r.register d).2.lookup? d.name = some (r.register d).1 := by
  rw [lookup?_register, if_pos rfl]

theorem lookup?_register_of_some {r : Registry} {d : Definition} {name : String} {id : ShapeId}
    (hnew : r.lookup? d.name = none) (h : r.lookup? name = some id) :
    (r.register d).2.lookup? name = some id := by
  have hne : name ≠ d.name := by
    rintro rfl
    rw [hnew] at h
    cases h
  rw [lookup?_register, if_neg hne, h]

/-!
# Registries with one index

They have the same size, and they are numbered alike.
-/

/-- Which names and identifiers a registry has, whatever is defined under them. -/
structure Index where
  names : Table ShapeId
  ids : List ShapeId
  next : ShapeId

def index (r : Registry) : Index :=
  ⟨r.names, r.arena.ids, r.arena.next⟩

theorem index_setDefinition (r : Registry) (id : ShapeId) (d : Definition) :
    (r.setDefinition id d).index = r.index := by
  rw [index, setDefinition, Arena.ids_set]
  rfl

section Index

variable {r r' : Registry} (h : r'.index = r.index)

include h

theorem lookup?_of_index : r'.lookup? = r.lookup? := by
  have hnames : r'.names = r.names := congrArg Index.names h
  funext name
  rw [lookup?, hnames, lookup?]

theorem size_of_index : r'.size = r.size := by
  have hids : r'.arena.ids = r.arena.ids := congrArg Index.ids h
  simpa [Arena.ids, size, Arena.size] using congrArg List.length hids

theorem numbered_of_index (hr : r.arena.Numbered) : r'.arena.Numbered := by
  have hids : r'.arena.ids = r.arena.ids := congrArg Index.ids h
  have hnext : r'.arena.next = r.arena.next := congrArg Index.next h
  have hsize : r'.arena.size = r.arena.size := size_of_index h
  exact ⟨by rw [hids, hsize, hr.ids], by rw [hnext, hsize, hr.next]⟩

end Index

end Registry
end Shapes
