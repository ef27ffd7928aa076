import Shapes.Proofs.Registry.Walk

/-!
# What a walk keeps on its way

A walk goes through types, parents and definitions, and all it does to its state
it does when it visits a shape: it puts the shape on the trail and writes its
definition.  `WalkM.Passes` says that a walk leads from good states to good ones, or
to spoilt ones when it fails.  What the visits of all needed shapes pass, a
definition that is flattened and kept passes as well.
-/

namespace Shapes

theorem Definition.sameDeclaration_unmarked (d : Definition) : d.SameDeclaration d.unmarked := by
  unfold unmarked
  split <;> exact ⟨rfl, rfl, rfl, rfl, rfl⟩

namespace Registry
namespace WalkM

/-- From a good state a walk leads to a good one, or it fails and leads to a spoilt one. -/
def Passes {α : Type} (good spoilt : Walk -> Prop) (walk : WalkM α) : Prop :=
  forall ⦃w result w'⦄, good w -> walk.run w = (result, w') ->
    Ends (fun _ => good w') (fun _ => spoilt w') result

section Passing

variable {good spoilt : Walk -> Prop} {visit : Route -> ShapeId -> WalkM Shape}

/-!
# Parts of a walk

Good states pass through each construct of a walk: what is computed without the
state fails in the state it is in, and a sequence passes if its parts do.
-/

theorem passes_pure {α : Type} (a : α) : Passes good spoilt (pure a : WalkM α) := by
  intro w result w' hw h
  cases h
  exact hw

theorem Passes.bind {α β : Type} {first : WalkM α} {next : α -> WalkM β}
    (hfirst : Passes good spoilt first) (hnext : forall a, Passes good spoilt (next a)) :
    Passes good spoilt (first >>= next) := by
  intro w result w' hw h
  rcases run_bind_cases h with ⟨a, w1, hrun, hrest⟩ | ⟨failure, hrun, rfl⟩
  · exact hnext a (hfirst hw hrun) hrest
  · exact hfirst hw hrun

theorem passes_lift {α : Type} (hspoilt : forall w, good w -> spoilt w)
    (result : Except Failure α) : Passes good spoilt (liftM result : WalkM α) := by
  intro w answer w' hw h
  rw [run_liftExcept] at h
  cases h
  cases result with
  | ok a => exact hw
  | error failure => exact hspoilt w hw

theorem passes_mapM {α β : Type} {f : α -> WalkM β} {list : List α}
    (hf : forall a, a ∈ list -> Passes good spoilt (f a)) :
    Passes good spoilt (list.mapM f) := by
  induction list with
  | nil => exact passes_pure []
  | cons a rest ih =>
      rw [List.forall_mem_cons] at hf
      rw [List.mapM_cons]
      apply hf.1.bind
      intro first
      apply (ih hf.2).bind
      intro others
      exact passes_pure (first :: others)

/-!
# Types and parents

References at the top of a type and parents are visited one by one.
-/

mutual

theorem shapeOf_passes (hspoilt : forall w, good w -> spoilt w) :
    forall {t : FieldType},
      (forall b, b ∈ t.references -> Passes good spoilt (visit .reference b)) ->
        Passes good spoilt (shapeOf visit t)
  | .keyword word, _ => passes_pure (Shape.keyword word)
  | .literal value, _ => passes_pure (Shape.literal value)
  | .reference id, hvisit => hvisit id List.mem_cons_self
  | .union _, hvisit =>
      (shapesOf_passes hspoilt hvisit).bind fun shapes => passes_lift hspoilt (Shape.unite shapes)
  | .intersection _, hvisit =>
      (shapesOf_passes hspoilt hvisit).bind fun shapes =>
        passes_lift hspoilt (Shape.intersect shapes)

theorem shapesOf_passes (hspoilt : forall w, good w -> spoilt w) :
    forall {types : List FieldType},
      (forall b, b ∈ FieldType.allReferences types -> Passes good spoilt (visit .reference b)) ->
        Passes good spoilt (shapesOf visit types)
  | [], _ => passes_pure []
  | t :: rest, hvisit => by
      have hfirst : Passes good spoilt (shapeOf visit t) :=
        shapeOf_passes hspoilt fun b hb => hvisit b (List.mem_append.mpr (Or.inl hb))
      have hothers : Passes good spoilt (shapesOf visit rest) :=
        shapesOf_passes hspoilt fun b hb => hvisit b (List.mem_append.mpr (Or.inr hb))
      exact hfirst.bind fun shape => hothers.bind fun shapes => passes_pure (shape :: shapes)

end

theorem parentFields_passes (hspoilt : forall w, good w -> spoilt w) {parent : String}
    (hvisit : forall w b, good w -> w.registry.lookup? parent = some b ->
      Passes good spoilt (visit .parent b)) :
    Passes good spoilt (parentFields visit parent) := by
  intro w result w' hw h
  rcases parentFields_cases h with ⟨rfl, rfl, _⟩ | ⟨id, answer, hlookup, hrun, hanswer⟩
  · exact hspoilt _ hw
  · have hpassed := hvisit w id hw hlookup hw hrun
    rcases hanswer with ⟨failure, rfl, rfl⟩ | ⟨shape, rfl, _, rfl⟩ | ⟨shape, fields, rfl, _, rfl⟩
    · exact hpassed
    · exact hspoilt w' hpassed
    · exact hpassed

/-!
# Definitions

The flattening of a definition is made of visits, so it passes what they pass.
To keep its shape passes what does not see how far a definition has come.
-/

theorem flatten_passes (hspoilt : forall w, good w -> spoilt w) {kind : NameKind}
    {d : Definition} (hkind : d.kind = some kind)
    (hvisit : forall w route b, good w -> b ∈ d.needs w.registry.lookup? ->
      Passes good spoilt (visit route b)) :
    Passes good spoilt (flatten visit kind d) := by
  unfold flatten
  unfold Definition.needs at hvisit
  rw [hkind] at hvisit
  cases kind with
  | mergeable =>
      apply Passes.bind
      · apply passes_mapM
        intro parent hparent
        apply parentFields_passes hspoilt
        intro w b hw hb
        exact hvisit w .parent b hw (List.mem_filterMap.mpr ⟨parent, hparent, hb⟩)
      · intro tables
        exact passes_pure (Shape.object (some d.name) (Table.inherit tables d.fields))
  | single =>
      cases hbody : d.body with
      | none => exact passes_pure (Shape.object (some d.name) d.fields)
      | some body =>
          simp only [hbody] at hvisit ⊢
          intro w result w' hw h
          have hshape : Passes good spoilt (shapeOf visit body) :=
            shapeOf_passes hspoilt fun b hb => hvisit w .reference b hw hb
          exact hshape.bind (fun shape => passes_pure (shape.rename d.name)) hw h

/-- A predicate that does not see how far one of the definitions has come. -/
def Overlooks (id : ShapeId) (good : Walk -> Prop) : Prop :=
  forall ⦃w d d'⦄, good w -> w.registry.arena.get? id = some d -> d.SameDeclaration d' ->
    good { w with registry := w.registry.setDefinition id d' }

theorem settle_passes (hspoilt : forall w, good w -> spoilt w) {id : ShapeId}
    (hgood : Overlooks id good) (hbad : Overlooks id spoilt)
    (hvisit : forall w d w1 route b, good w -> w.registry.arena.get? id = some d -> good w1 ->
      b ∈ d.needs w1.registry.lookup? -> Passes good spoilt (visit route b)) :
    Passes good spoilt (settle visit id) := by
  intro w result w' hw h
  rw [run_settle, run_begin] at h
  cases hd : w.registry.arena.get? id with
  | none =>
      rw [hd] at h
      cases h
      exact hspoilt _ hw
  | some d =>
      cases hkind : d.kind with
      | none =>
          simp only [hd, hkind] at h
          cases h
          exact hspoilt _ hw
      | some kind =>
          simp only [hd, hkind] at h
          rcases hrun : (flatten visit kind d).run
            { w with registry := w.registry.setDefinition id d.marked } with ⟨answer, w2⟩
          have hmarked := hgood hw hd d.sameDeclaration_marked
          have hflatten : Passes good spoilt (flatten visit kind d) :=
            flatten_passes hspoilt hkind fun w1 route b => hvisit w d w1 route b hw hd
          have hpassed := hflatten hmarked hrun
          rw [hrun, run_finish] at h
          cases hd2 : w2.registry.arena.get? id with
          | none =>
              simp only [hd2] at h
              cases h
              exact hpassed
          | some e =>
              simp only [hd2] at h
              cases answer with
              | ok s =>
                  cases h
                  exact hgood hpassed hd2 ⟨rfl, rfl, rfl, rfl, rfl⟩
              | error failure =>
                  cases h
                  exact hbad hpassed hd2 e.sameDeclaration_unmarked

end Passing

end WalkM
end Registry
end Shapes
