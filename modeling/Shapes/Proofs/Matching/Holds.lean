import Shapes.Proofs.FieldType.Sense
import Shapes.Proofs.Matching.Fits

/-!
# Matching without a limit

A value belongs to a type when some number of levels is enough to see it.  Said
this way the levels are gone: a union has the values of its members, an
intersection those that all its members have, and an object those whose members
belong to its fields.  For one value, and for one missing member, this makes a
sense of all types.
-/

namespace Shapes

/-- A value belongs to a type. -/
def TypeHolds (find : Lookup) (t : FieldType) (value : Json) : Prop :=
  exists levels, TypeFits find levels t value

/-- A value belongs to a shape. -/
def ShapeHolds (find : Lookup) (s : Shape) (value : Json) : Prop :=
  exists levels, ShapeFits find levels s value

/-- A member of an object belongs to the type of its field, or may be missing. -/
def MemberHolds (find : Lookup) (t : FieldType) : Option Json -> Prop :=
  MemberFits (TypeHolds find t) t

section Laws

variable {find : Lookup} {value : Json}

/-!
# Types

Each constructor of types has its own equation, with levels no longer in sight.
-/

theorem typeHolds_iff {t : FieldType} :
    TypeHolds find t value <-> exists levels, TypeFits find (levels + 1) t value := by
  constructor
  · intro hfound
    rcases hfound with ⟨levels, h⟩
    exact ⟨levels, h.mono (Nat.le_succ levels) fun _ _ hs => hs⟩
  · intro hfound
    rcases hfound with ⟨levels, h⟩
    exact ⟨levels + 1, h⟩

theorem typeHolds_keyword {word : Keyword} :
    TypeHolds find (.keyword word) value <-> word.matches value = true := by
  simp only [typeHolds_iff, TypeFits, exists_const]

theorem typeHolds_literal {literal : Literal} :
    TypeHolds find (.literal literal) value <-> literal.matches value = true := by
  simp only [typeHolds_iff, TypeFits, exists_const]

theorem typeHolds_reference {id : ShapeId} :
    TypeHolds find (.reference id) value <->
      exists s, find id s ∧ ShapeHolds find s value := by
  simp only [typeHolds_iff, TypeFits]
  constructor
  · intro hfound
    rcases hfound with ⟨levels, s, hs, h⟩
    exact ⟨s, hs, levels, h⟩
  · intro hfound
    rcases hfound with ⟨s, hs, levels, h⟩
    exact ⟨levels, s, hs, h⟩

theorem typeHolds_union {members : List FieldType} :
    TypeHolds find (.union members) value <->
      exists m, m ∈ members ∧ TypeHolds find m value := by
  simp only [typeHolds_iff, typeFits_union]
  constructor
  · intro hfound
    rcases hfound with ⟨levels, m, hm, h⟩
    exact ⟨m, hm, typeHolds_iff.mp ⟨levels, h⟩⟩
  · intro hfound
    rcases hfound with ⟨m, hm, levels, h⟩
    exact ⟨levels + 1, m, hm, h⟩

theorem typeHolds_intersection {members : List FieldType} :
    TypeHolds find (.intersection members) value <->
      forall m, m ∈ members -> TypeHolds find m value := by
  simp only [typeHolds_iff, typeFits_intersection]
  constructor
  · intro hfound m hm
    rcases hfound with ⟨levels, h⟩
    exact typeHolds_iff.mp ⟨levels, h m hm⟩
  · intro h
    refine @exists_common_level _ members (fun n m => TypeFits find n m value) ?_ ?_
    · intro m n t hle ht
      exact ht.mono hle fun _ _ hs => hs
    · intro m hm
      exact typeHolds_iff.mpr (h m hm)

theorem typeHolds_iff_of_same {t u : FieldType} (h : t.same u = true) :
    TypeHolds find t value <-> TypeHolds find u value := by
  simp only [TypeHolds, typeFits_iff_of_same h]

/-!
# Shapes

The equations of shapes are those of types, with objects in place of references.
-/

theorem shapeHolds_iff {s : Shape} :
    ShapeHolds find s value <-> exists levels, ShapeFits find (levels + 1) s value := by
  constructor
  · intro hfound
    rcases hfound with ⟨levels, h⟩
    exact ⟨levels, h.mono (Nat.le_succ levels) fun _ _ hs => hs⟩
  · intro hfound
    rcases hfound with ⟨levels, h⟩
    exact ⟨levels + 1, h⟩

theorem shapeHolds_keyword {word : Keyword} :
    ShapeHolds find (.keyword word) value <-> word.matches value = true := by
  simp only [shapeHolds_iff, ShapeFits, exists_const]

theorem shapeHolds_literal {literal : Literal} :
    ShapeHolds find (.literal literal) value <-> literal.matches value = true := by
  simp only [shapeHolds_iff, ShapeFits, exists_const]

theorem shapeHolds_union {name : Option String} {members : List Shape} :
    ShapeHolds find (.union name members) value <->
      exists m, m ∈ members ∧ ShapeHolds find m value := by
  simp only [shapeHolds_iff, ShapeFits]
  constructor
  · intro hfound
    rcases hfound with ⟨levels, m, hm, h⟩
    exact ⟨m, hm, shapeHolds_iff.mp ⟨levels, h⟩⟩
  · intro hfound
    rcases hfound with ⟨m, hm, levels, h⟩
    exact ⟨levels + 1, m, hm, h⟩

theorem shapeHolds_object {name : Option String} {fields : Table FieldType} :
    ShapeHolds find (.object name fields) value <->
      exists members, value = .obj members ∧
        forall key t, (key, t) ∈ fields.entries -> MemberHolds find t (members.lookup key) := by
  simp only [shapeHolds_iff, ShapeFits]
  constructor
  · intro hfound
    rcases hfound with ⟨levels, members, rfl, h⟩
    refine ⟨members, rfl, ?_⟩
    intro key t ht
    exact (h key t ht).imp fun _ hvalue => ⟨levels, hvalue⟩
  · intro hfound
    rcases hfound with ⟨members, rfl, h⟩
    have hlevels : exists levels, forall e, e ∈ fields.entries ->
        MemberFits (TypeFits find levels e.2) e.2 (members.lookup e.1) := by
      apply exists_common_level
      · intro m n e hle he
        exact he.imp fun _ hvalue => hvalue.mono hle fun _ _ hs => hs
      · intro e ht
        rcases e with ⟨key, t⟩
        have hmember := h key t ht
        dsimp only
        cases hlookup : members.lookup key with
        | none =>
            rw [hlookup] at hmember
            exact ⟨0, hmember⟩
        | some w =>
            rw [hlookup] at hmember
            exact hmember
    rcases hlevels with ⟨levels, hlevels⟩
    exact ⟨levels, members, rfl, fun key t ht => hlevels (key, t) ht⟩

end Laws

/-!
# Senses

A value that belongs to types, a member that is missing, and both of them
together each make a sense in which meets are intersections.
-/

namespace FieldType

theorem sense_of_matches {holds : FieldType -> Prop} {value : Json}
    (hkeyword : forall word, holds (.keyword word) <-> word.matches value = true)
    (hliteral : forall literal, holds (.literal literal) <-> literal.matches value = true)
    (hunion : forall members, holds (.union members) <-> exists m, m ∈ members ∧ holds m)
    (hintersection : forall members,
      holds (.intersection members) <-> forall m, m ∈ members -> holds m) :
    Sense holds := by
  refine ⟨hunion, hintersection, ?_, ?_, ?_, ?_, ?_, ?_⟩
  · rw [hkeyword]
    intro h
    cases h
  · rw [hkeyword]
    rfl
  · apply iff_of_same hunion hintersection
    intro a b hsame
    rw [hliteral, hliteral, Literal.matches_eq_of_same hsame value]
  · intro a b ha hb hholdsa hholdsb
    rw [hkeyword, Keyword.matches_iff ha] at hholdsa
    rw [hkeyword, Keyword.matches_iff hb, hholdsa] at hholdsb
    exact Option.some.inj hholdsb
  · intro a b ha hb
    exact Literal.same_of_matches ((hliteral a).mp ha) ((hliteral b).mp hb)
  · intro a ha
    exact (hkeyword _).mpr (Keyword.matches_widened ((hliteral a).mp ha))

theorem sense_typeHolds (find : Lookup) (value : Json) :
    Sense fun t => TypeHolds find t value :=
  sense_of_matches (fun _ => typeHolds_keyword) (fun _ => typeHolds_literal)
    (fun _ => typeHolds_union) (fun _ => typeHolds_intersection)

theorem sense_admitsUndefined : Sense fun t => t.admitsUndefined = true := by
  refine ⟨fun _ => admitsUndefined_union, fun _ => admitsUndefined_intersection, ?_, rfl,
    admitsUndefined_iff_of_same, ?_, ?_, ?_⟩
  · intro h
    cases h
  · intro a b ha hb hholdsa hholdsb
    simp only [admitsUndefined, ha, hb, Bool.false_or, decide_eq_true_eq] at hholdsa hholdsb
    rw [hholdsa, hholdsb]
  · intro a b ha
    cases ha
  · intro a ha
    cases ha

theorem sense_memberHolds (find : Lookup) (member : Option Json) :
    Sense fun t => MemberHolds find t member := by
  cases member with
  | none => exact sense_admitsUndefined
  | some value => exact sense_typeHolds find value

end FieldType
end Shapes
