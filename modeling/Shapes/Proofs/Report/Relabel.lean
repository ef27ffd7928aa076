import Shapes.Proofs.Subtype.Relabel
import Shapes.Report.Basic

/-!
# Answers with other identifiers

No answer to a query shows an identifier: names are looked up, and references are
shown by name.  So registries that answer in step, such as those that differ in
identifiers only, answer every query alike, and go on doing so after that.
-/

namespace Shapes
namespace Registry

variable {f : ShapeId -> ShapeId} {related : Registry -> Registry -> Prop}
  (hstep : InStep f related)

include hstep

/-!
# Matching

The check of a value resolves references and compares leaves, and both are in
step.
-/

theorem typeMatches_mirrors_succ {levels : Nat}
    (htype : forall t value, Mirrors related id (typeMatches levels t value)
      (typeMatches levels (t.relabel f) value))
    (hshape : forall s value, Mirrors related id (shapeMatches levels s value)
      (shapeMatches levels (s.relabel f) value))
    (t : FieldType) (value : Json) :
    Mirrors related id (typeMatches (levels + 1) t value)
      (typeMatches (levels + 1) (t.relabel f) value) := by
  cases t with
  | keyword word => exact Mirrors.pure (word.matches value)
  | literal literal => exact Mirrors.pure (literal.matches value)
  | reference id =>
      apply (hstep.resolve id).run.bind
      intro result
      cases result with
      | ok s => exact hshape s value
      | error failure => exact Mirrors.pure false
  | union members =>
      rw [FieldType.relabel_union, typeMatches, typeMatches]
      exact Mirrors.anyM fun m _ => htype m value
  | intersection members =>
      rw [FieldType.relabel_intersection, typeMatches, typeMatches]
      exact Mirrors.allM fun m _ => htype m value

omit hstep in
theorem shapeMatches_mirrors_succ {levels : Nat}
    (htype : forall t value, Mirrors related id (typeMatches levels t value)
      (typeMatches levels (t.relabel f) value))
    (hshape : forall s value, Mirrors related id (shapeMatches levels s value)
      (shapeMatches levels (s.relabel f) value))
    (s : Shape) (value : Json) :
    Mirrors related id (shapeMatches (levels + 1) s value)
      (shapeMatches (levels + 1) (s.relabel f) value) := by
  cases s with
  | keyword word => exact Mirrors.pure (word.matches value)
  | literal literal => exact Mirrors.pure (literal.matches value)
  | union name members =>
      rw [Shape.relabel_union, shapeMatches, shapeMatches]
      exact Mirrors.anyM fun m _ => hshape m value
  | object name fields =>
      cases value with
      | obj members =>
          rw [Shape.relabel_object, shapeMatches, shapeMatches, Table.entries_map]
          apply Mirrors.allM
          intro e _
          simp only [FieldType.admitsUndefined_relabel]
          cases members.lookup e.1 with
          | some v => exact htype e.2 v
          | none => exact Mirrors.pure e.2.admitsUndefined
      | _ => exact Mirrors.pure false

theorem matches_mirrors (levels : Nat) :
    (forall t value, Mirrors related id (typeMatches levels t value)
      (typeMatches levels (t.relabel f) value)) ∧
      forall s value, Mirrors related id (shapeMatches levels s value)
        (shapeMatches levels (s.relabel f) value) := by
  induction levels with
  | zero => exact ⟨fun _ _ => Mirrors.pure false, fun _ _ => Mirrors.pure false⟩
  | succ levels ih =>
      exact ⟨typeMatches_mirrors_succ hstep ih.1 ih.2, shapeMatches_mirrors_succ ih.1 ih.2⟩

theorem typeText_relabel {r r' : Registry} (h : related r r') (t : FieldType) :
    r'.typeText (t.relabel f) = r.typeText t := by
  have hnames : r'.displayName ∘ f = r.displayName := funext (hstep.displayName h)
  rw [typeText, typeText, FieldType.text_relabel, hnames]

end Registry

namespace Query

open Registry

variable {f : ShapeId -> ShapeId} {related : Registry -> Registry -> Prop}
  (hstep : InStep f related)

/-!
# Queries

A query looks a name up and asks one question about it.
-/

theorem run_lookup (name : String) (r : Registry) :
    (lookup name).run r =
      match r.lookup? name with
      | some id => (.ok id, r)
      | none => (.error (.unknownShape name), r) := by
  unfold lookup
  rw [run_getBind]
  cases r.lookup? name <;> rfl

theorem always_mirrors {α β : Type} {change : α -> β} {action : StateM Registry α}
    {action' : StateM Registry β} (h : Mirrors related change action action') :
    MirrorsT related change (always action) (always action') := by
  intro r r' hr
  rcases h r r' hr with ⟨hresult, hstate⟩
  exact ⟨congrArg Except.ok hresult, hstate⟩

include hstep

theorem lookup_mirrors (name : String) :
    MirrorsT related f (lookup name) (lookup name) := by
  intro r r' h
  rw [run_lookup, run_lookup, hstep.lookup? h name]
  cases r.lookup? name <;> exact ⟨rfl, h⟩

theorem answer_mirrors (query : Query) :
    MirrorsT related id query.answer query.answer := by
  cases query with
  | keysOf shape =>
      apply (lookup_mirrors hstep shape).bind
      intro name
      apply (keys_mirrors hstep name).bind
      intro names
      exact MirrorsT.pure (Answer.keys names)
  | validateKey shape key =>
      apply (lookup_mirrors hstep shape).bind
      intro name
      apply (checkKey_mirrors hstep name key).bind
      intro t r r' h
      refine ⟨?_, h⟩
      show Except.ok (Answer.fieldType (r'.typeText (t.relabel f))) = _
      rw [typeText_relabel hstep h]
      rfl
  | accessValue shape key members =>
      apply (lookup_mirrors hstep shape).bind
      intro name
      apply (access_mirrors hstep name members key).bind
      intro value
      exact MirrorsT.pure (Answer.value value)
  | matchesValue shape value =>
      apply (lookup_mirrors hstep shape).bind
      intro name
      apply (hstep.resolve name).bind
      intro s
      apply (always_mirrors ((matches_mirrors hstep _).2 s value)).bind
      intro holds
      exact MirrorsT.pure (Answer.verdict holds)
  | isSubtype source target =>
      apply (lookup_mirrors hstep source).bind
      intro source
      apply (lookup_mirrors hstep target).bind
      intro target
      apply (hstep.resolve source).bind
      intro _
      apply (hstep.resolve target).bind
      intro _
      apply (always_mirrors (isNameBelow_mirrors hstep source target)).bind
      intro holds
      exact MirrorsT.pure (Answer.verdict holds)

theorem outcome_mirrors (query : Query) :
    Mirrors related id query.outcome query.outcome := by
  apply (answer_mirrors hstep query).run.bind
  intro result
  have hresult : Except.map id result = result := by
    cases result <;> rfl
  rw [hresult]
  exact Mirrors.pure _

end Query
end Shapes
