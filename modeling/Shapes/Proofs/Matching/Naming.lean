import Shapes.Proofs.Matching.Depth
import Shapes.Proofs.Matching.Resolved

/-!
# Names of types

A field may have a type that is written out, or the name of a type that is declared
elsewhere.  The members that belong to the field are the same.  There is one difference:
a field with a name for its type has to be there, whatever the name stands for, while a
type that is written out may admit that it is missing.

This is said of what holds without a limit, and of the check that is run, as long as its
answer is not due to one of its limits.
-/

namespace Shapes

namespace Registry

variable {r : Registry}

/-!
# Checks that no limit has cut off

More levels can only add values.  A check is conclusive when they would not add
this one, which is so once the levels last for the heights at each depth.
-/

/-- A check of a value gives the answer that it gives with any more levels. -/
def Conclusive (r : Registry) (s : Shape) (value : Json) : Prop :=
  forall more, ((shapeMatches (maxValueDepth + 1 + more) s value).run r).1 =
    ((matchesShape s value).run r).1

theorem Conclusive.matchesShape_iff {s : Shape} {value : Json} (h : r.Conclusive s value)
    (hr : r.Faithful) (hresolves : forall id, r.Resolves (.reference id)) :
    ((matchesShape s value).run r).1 = true <-> ShapeHolds r.Flattens s value := by
  constructor
  · intro hmatches
    exact ⟨_, (shapeMatches_decides _ s value).accepted hr hmatches⟩
  · intro hholds
    rcases hholds with ⟨levels, hfits⟩
    rw [← h levels, shapeMatches_iff hr hresolves]
    exact hfits.mono (Nat.le_add_left levels _) fun _ _ hs => hs

theorem conclusive_of_low (hr : r.Faithful) (hresolves : forall id, r.Resolves (.reference id))
    {a b : Nat} (hlow : Low r.Flattens a b) {s : Shape} (hs : s.fieldHeight ≤ b) {value : Json}
    (hlevels : s.height + value.depth * (a + b) ≤ maxValueDepth + 1) :
    r.Conclusive s value := by
  intro more
  rw [Bool.eq_iff_iff, matchesShape, shapeMatches_iff hr hresolves, shapeMatches_iff hr hresolves]
  constructor
  · intro hfits
    exact seen hlow value.depth s value _ (Nat.le_refl _) hs hlevels ⟨_, hfits⟩
  · intro hfits
    exact hfits.mono (Nat.le_add_right _ more) fun _ _ hu => hu

/-!
# Fields with a named type

The name has the values of its body, so the two objects have the same values
unless the member is missing.
-/

section Field

variable {find : Lookup} {name : Option String} {fields : Table FieldType} {key : String}

theorem shapeHolds_obj {members : List (String × Json)} :
    ShapeHolds find (.object name fields) (.obj members) <->
      Shape.FieldsHold find fields members := by
  rw [shapeHolds_object]
  constructor
  · intro hfound
    rcases hfound with ⟨given, hsame, hmembers⟩
    cases hsame
    exact hmembers
  · intro hmembers
    exact ⟨members, rfl, hmembers⟩

theorem shapeHolds_insert_iff {t u : FieldType} (hfield : fields.get? key = some t)
    {value : Json} (h : forall members, value = .obj members ->
      (MemberHolds find t (members.lookup key) <-> MemberHolds find u (members.lookup key))) :
    ShapeHolds find (.object name fields) value <->
      ShapeHolds find (.object name (fields.insert key u)) value := by
  cases value with
  | obj members =>
      rw [shapeHolds_obj, shapeHolds_obj, Shape.fieldsHold_iff_both hfield,
        Shape.fieldsHold_insert, h members rfl]
  | null | bool | num | str | arr => simp [shapeHolds_object]

end Field

section Alias

variable {id : ShapeId} {d : Definition} {body : FieldType} {s : Shape}

theorem typeHolds_reference_iff (hfree : r.Every fun t => t ≠ .keyword .any)
    (hd : r.arena.get? id = some d) (hkind : d.kind = some .single) (hbody : d.body = some body)
    (hs : r.Flattens id s) {value : Json} :
    TypeHolds r.Flattens (.reference id) value <-> TypeHolds r.Flattens body value := by
  rw [typeHolds_reference, typeHolds_body_iff hfree hd hkind hbody hs]
  constructor
  · intro hfound
    rcases hfound with ⟨u, hu, hholds⟩
    rw [flattens_unique hs hu]
    exact hholds
  · intro hholds
    exact ⟨s, hs, hholds⟩

/--
A field whose type is a name and a field whose type is the body of the name have the same
values, if the member is there or the body does not admit that it is missing; and a check
that no limit has cut off gives them the same answer.  If the member is missing, the name
never admits that.
-/
theorem named_field_is_read_like_its_body (hr : r.Reachable)
    (hfree : r.Every fun t => t ≠ .keyword .any) (hd : r.arena.get? id = some d)
    (hkind : d.kind = some .single) (hbody : d.body = some body)
    {r' : Registry} (hresolve : (resolve id).run r = (.ok s, r'))
    {fields : Table FieldType} {key : String} (hfield : fields.get? key = some (.reference id))
    (name : Option String) (value : Json) :
    ((forall members, value = .obj members -> members.lookup key = none ->
          body.admitsUndefined = false) ->
        (ShapeHolds r.Flattens (.object name fields) value <->
          ShapeHolds r.Flattens (.object name (fields.insert key body)) value) ∧
        ((forall id, r.Resolves (.reference id)) ->
          r.Conclusive (.object name fields) value ->
          r.Conclusive (.object name (fields.insert key body)) value ->
          ((matchesShape (.object name fields) value).run r).1 =
            ((matchesShape (.object name (fields.insert key body)) value).run r).1)) ∧
      forall members, value = .obj members -> members.lookup key = none ->
        ((matchesShape (.object name fields) value).run r).1 = false ∧
          (ShapeHolds r.Flattens (.object name (fields.insert key body)) value <->
            body.admitsUndefined = true ∧ Shape.OthersHold r.Flattens fields key members) := by
  have hfaithful := hr.faithful
  have hs : r.Flattens id s := by
    rcases resolve_walked hresolve with ⟨hwalk, hkept⟩
    exact hwalk.sameDeclarations.flattens_iff.mp ((hwalk.faithful hfaithful).flattens hkept)
  constructor
  · intro hmissing
    have hsame : ShapeHolds r.Flattens (.object name fields) value <->
        ShapeHolds r.Flattens (.object name (fields.insert key body)) value := by
      apply shapeHolds_insert_iff hfield
      intro members hvalue
      cases hlookup : members.lookup key with
      | some w => exact typeHolds_reference_iff hfree hd hkind hbody hs
      | none =>
          have hnot := hmissing members hvalue hlookup
          simp [MemberHolds, MemberFits, hnot, FieldType.admitsUndefined]
    refine ⟨hsame, ?_⟩
    intro hresolves hnamed hwritten
    rw [Bool.eq_iff_iff, hnamed.matchesShape_iff hfaithful hresolves,
      hwritten.matchesShape_iff hfaithful hresolves]
    exact hsame
  · intro members hvalue hlookup
    subst hvalue
    constructor
    · rw [Bool.eq_false_iff]
      intro hmatches
      have hfits := (shapeMatches_decides _ _ _).accepted hfaithful hmatches
      have hholds := shapeHolds_obj.mp ⟨_, hfits⟩
      have hmember := ((Shape.fieldsHold_iff_both hfield).mp hholds).1
      rw [hlookup] at hmember
      cases hmember
    · rw [shapeHolds_obj, Shape.fieldsHold_insert, hlookup]
      rfl

end Alias

/-!
# Titles

The body of a title admits that the title is missing, and its name does not.
-/

/-- A title is a text, or `null`, or missing. -/
def titleBody : FieldType :=
  .union [.reference ⟨1⟩, .keyword .null, .keyword .undefined]

def titles : Registry :=
  let r := ((declare "Text" .mergeable [("words", .keyword .string)]).run (empty .common)).2
  ((declareBody "Title" titleBody).run r).2

theorem titles_reachable : titles.Reachable := by
  have htext : Relation.ReflTransGen Step (empty .common) _ :=
    .single (.declare "Text" .mergeable [("words", .keyword .string)])
  exact ⟨.common, htext.tail (.declareBody "Title" titleBody)⟩

theorem titles_anyFree : titles.Every fun t => t ≠ .keyword .any := by
  decide +kernel

theorem titles_title : titles.arena.get? ⟨2⟩ =
    some (.declared "Title" .single .empty [] (some titleBody)) := by
  with_unfolding_all rfl

def bookFields : Table FieldType := ⟨[("title", .reference ⟨2⟩)], by simp⟩

theorem bookFields_title : bookFields.get? "title" = some (.reference ⟨2⟩) :=
  rfl

def sums : Json :=
  .obj [("title", .obj [("words", .str "Sums")])]

theorem titles_low : Low titles.Flattens 2 2 :=
  low_of_flattenWithin titles_reachable.coherent.numbered 2 (by decide +kernel)

theorem named_field_is_read_like_its_body_titled :
    exists s r', (resolve ⟨2⟩).run titles = (.ok s, r') ∧
      ((matchesShape (.object none bookFields) sums).run titles).1 = true ∧
      ((matchesShape (.object none (bookFields.insert "title" titleBody)) sums).run
        titles).1 = true := by
  have hfaithful := titles_reachable.faithful
  have hresolves : forall id, titles.Resolves (.reference id) := fun id =>
    resolves_of_small hfaithful (by decide +kernel) (.reference id)
  have hok : ((resolve ⟨2⟩).run titles).1.isOk = true := by
    decide +kernel
  rcases hrun : (resolve ⟨2⟩).run titles with ⟨answer, r'⟩
  rw [hrun] at hok
  cases answer with
  | error failure => cases hok
  | ok s =>
      have hnamed : ((matchesShape (.object none bookFields) sums).run titles).1 = true := by
        decide +kernel
      have hsame := (named_field_is_read_like_its_body titles_reachable titles_anyFree
        titles_title rfl rfl hrun bookFields_title none sums).1 (by
          intro members hvalue hmissing
          cases hvalue
          cases hmissing)
      have hanswers := hsame.2 hresolves
        (conclusive_of_low hfaithful hresolves titles_low (by decide) (by decide))
        (conclusive_of_low hfaithful hresolves titles_low (by decide) (by decide))
      exact ⟨s, r', rfl, hnamed, hanswers ▸ hnamed⟩

/-- A book without a title is one if the type of the title is written out, and only then. -/
theorem missing_members_tell_names_apart :
    titles.Reachable ∧ titles.Every (fun t => t ≠ .keyword .any) ∧
      titles.arena.get? ⟨2⟩ = some (.declared "Title" .single .empty [] (some titleBody)) ∧
      ((resolve ⟨2⟩).run titles).1.isOk = true ∧
      bookFields.get? "title" = some (.reference ⟨2⟩) ∧
      ((matchesShape (.object none bookFields) (.obj [])).run titles).1 = false ∧
      ((matchesShape (.object none (bookFields.insert "title" titleBody)) (.obj [])).run
        titles).1 = true := by
  refine ⟨titles_reachable, titles_anyFree, titles_title, ?_, bookFields_title, ?_⟩
  · decide +kernel
  · decide +kernel

end Registry
end Shapes
