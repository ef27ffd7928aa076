import Shapes.Proofs.Matching.Standing
import Shapes.Proofs.Matching.Tower
import Shapes.Proofs.Shape.Keys

/-!
# Reading a key is safe

A key that every member of a union has can be read from each value of the union,
and what is read belongs to the type of the key.  The type of a key of a union
is a union in normal form, which is looked at no deeper than the members that it
was made from, so the limited check accepts it as well.

A check keeps the shapes that it resolves.  What the check of the whole value has accepted
for a key is accepted for the type of the key by all checks that come after it, but not
always by one in its place, as the upper rung of a high tower shows.
-/

namespace Shapes
namespace Shape

/-!
# Values of keys

What a value has under a key fits the type of the key no deeper than the value
fits its shape.  The places are a linked structure to read from, and the tower
of shapes is one that is read from too early.
-/

theorem memberFits_of_fieldType? {find : Lookup} {levels : Nat} {s : Shape} {key : String}
    {t : FieldType} {value : Json} (hkey : s.fieldType? .common key = some t)
    (h : ShapeFits find levels s value) :
    MemberFits (TypeFits find levels t) t (value.get? key) := by
  induction levels generalizing s t with
  | zero => simp only [ShapeFits] at h
  | succ levels ih =>
      unfold ShapeFits at h
      cases s with
      | object name fields =>
          rcases h with ⟨members, rfl, hmembers⟩
          rw [fieldType?] at hkey
          have hfits := hmembers key t (Table.get?_eq_some_iff_mem.mp hkey)
          exact hfits.imp fun _ hvalue => hvalue.mono (Nat.le_succ levels) fun _ _ hs => hs
      | union name members =>
          rcases h with ⟨m, hm, hfits⟩
          rcases fieldType?_union hkey with ⟨rfl, hall⟩
          rcases hall m hm with ⟨u, hu⟩
          have hu' := mem_fieldTypes hm hu
          have hmember := ih hu hfits
          cases hget : value.get? key with
          | some w =>
              rw [hget] at hmember
              exact typeFits_oneOf hu' hmember
          | none =>
              rw [hget] at hmember
              exact FieldType.admitsUndefined_oneOf.mpr ⟨u, hu', hmember⟩
      | keyword | literal => cases hkey

end Shape

namespace Registry

/--
A key that may be read from a shape has a type to which the value of the key
belongs, wherever the value that is read from belongs to the shape.  The value of the key
is accepted at any later time, when no kept shape has been lost.  At the time of the first
match it is accepted as well, if all shapes that are kept after it resolve by themselves.
-/
theorem checked_access_is_safe (r : Registry) (s : Shape) (value : Json) (key : String)
    (t : FieldType) :
    (s.checkKey .common key = .ok t <-> s.fieldType? .common key = some t) ∧
      (s.fieldType? .common key = some t ->
        forall r', (matchesShape s value).run r = (true, r') ->
          (value.get? key = none -> t.admitsUndefined = true) ∧
          forall w, value.get? key = some w ->
            (forall later, r'.Keeps later -> ((matchesType t w).run later).1 = true) ∧
            (r.Reachable -> r.Affords r' -> ((matchesType t w).run r).1 = true) ∧
            (r.Reachable -> (forall id, r.Resolves (.reference id)) ->
              ((matchesType t w).run r).1 = true)) := by
  refine ⟨Shape.checkKey_eq_ok_iff, ?_⟩
  intro hkey r' hrun
  have hshape := shapeMatches_decides (maxValueDepth + 1) s value
  have hmember := Shape.memberFits_of_fieldType? hkey (hshape.sound hrun)
  constructor
  · intro hnone
    rw [hnone] at hmember
    exact hmember
  · intro w hw
    rw [hw] at hmember
    have htype := typeMatches_decides (maxValueDepth + 1) t w
    have hagain : r.Reachable -> r.Affords r' -> ((matchesType t w).run r).1 = true :=
      fun hr => (typeMatches_stands hr.faithful hmember).again
    refine ⟨?_, hagain, ?_⟩
    · intro later hkeeps
      exact htype.complete (htype.mono hkeeps hmember) rfl
    · intro hr hresolves
      exact hagain hr (affords_of_resolves hr.faithful hresolves (hshape.walked hrun))

def places : Registry :=
  ((declare "Place" .mergeable
    [("next", .union [.reference ⟨1⟩, .keyword .undefined])]).run (empty .common)).2

theorem places_reachable : places.Reachable :=
  ⟨.common, .single (.declare "Place" .mergeable
    [("next", .union [.reference ⟨1⟩, .keyword .undefined])])⟩

def placed : Shape :=
  .union none
    [.object (some "Placed") (.ofList [("at", .reference ⟨1⟩)]),
      .union none [.object none (.ofList [("at", .keyword .null)])]]

def placing : Json :=
  .obj [("at", .obj [("next", .obj [])])]

theorem checked_access_is_safe_placed :
    ((matchesShape placed placing).run places).1 = true ∧
      placed.checkKey .common "at" = .ok (.union [.reference ⟨1⟩, .keyword .null]) ∧
      ((matchesType (.union [.reference ⟨1⟩, .keyword .null]) (.obj [("next", .obj [])])).run
        ((matchesShape placed placing).run places).2).1 = true ∧
      ((matchesType (.union [.reference ⟨1⟩, .keyword .null]) (.obj [("next", .obj [])])).run
        places).1 = true := by
  have hmatch : ((matchesShape placed placing).run places).1 = true := by
    decide +kernel
  have hkey : placed.fieldType? .common "at" =
      some (.union [.reference ⟨1⟩, .keyword .null]) := by
    rfl
  have hresolves : forall id, places.Resolves (.reference id) := by
    intro id
    exact resolves_of_small places_reachable.faithful (by decide +kernel) (.reference id)
  rcases checked_access_is_safe places placed placing "at"
    (.union [.reference ⟨1⟩, .keyword .null]) with ⟨hchecked, hsafe⟩
  rcases (hsafe hkey _ (Prod.ext hmatch rfl)).2 (.obj [("next", .obj [])]) rfl with
    ⟨hlater, _, hnow⟩
  exact ⟨hmatch, hchecked.mpr hkey, hlater _ fun _ _ hs => hs, hnow places_reachable hresolves⟩

/--
What is read may be checked too early.  The child of a high tower has the last rung but one
resolved before it comes to the last one, which is too high to be resolved by itself.
-/
theorem members_may_be_checked_too_early :
    (tower 256).Reachable ∧
      ((resolve ⟨260⟩).run (tower 256)).1 = .ok (Tower.childShape 256) ∧
      ((matchesShape (Tower.childShape 256) Tower.ones).run (tower 256)).1 = true ∧
      (Tower.childShape 256).checkKey .common "high" = .ok (.reference ⟨257⟩) ∧
      Tower.ones.get? "high" = some Tower.one ∧
      ((matchesType (.reference ⟨257⟩) Tower.one).run (tower 256)).1 = false := by
  have hkey : (Tower.childShape 256).checkKey .common "high" = .ok (.reference ⟨257⟩) :=
    Shape.checkKey_eq_ok_iff.mpr rfl
  exact ⟨Tower.reachable 256, Tower.resolve_child 256 (by decide),
    Tower.child_accepts (by decide), hkey, rfl,
    Tower.last_rejects 256 (Nat.le_refl _) maxValueDepth⟩

end Registry
end Shapes
