import Shapes.Proofs.Shape.Every

/-!
# Failures of the algebra

To unite or intersect shapes can fail, but never with a failure that speaks of
a walk: those are the trail's alone.
-/

namespace Shapes

/-- Whether a failure is the trail's and not one of the declarations. -/
def Failure.isRefusal : Failure -> Bool
  | cyclicExtension _ | cyclicReference _ | resolutionTooDeep _ => true
  | _ => false

/-- A computation that fails, if it does, because of the declarations. -/
def NeverRefused {α : Type} : Except Failure α -> Prop :=
  Ends (fun _ => True) fun failure => failure.isRefusal = false

namespace Shape

theorem neverRefused_unite (shapes : List Shape) : NeverRefused (unite shapes) := by
  unfold unite
  split
  · rfl
  · split <;> trivial

theorem neverRefused_mergeFields (a b : Table FieldType) : NeverRefused (mergeFields a b) := by
  have hfields : NeverRefused (b.entries.foldlM meetField a) := by
    apply ends_foldlM _ trivial
    intro entry _ fields _
    unfold meetField
    split
    · trivial
    · split
      · trivial
      · rfl
  exact hfields.bind fun _ _ => trivial

theorem neverRefused_intersectSimple (a b : Shape) : NeverRefused (intersectSimple a b) := by
  unfold intersectSimple
  split
  · trivial
  · trivial
  · trivial
  · trivial
  · exact neverRefused_mergeFields _ _
  · unfold meetLeaves
    split
    · split
      · trivial
      · rfl
    · rfl

theorem neverRefused_branches {members : List Shape} {meet : Shape -> Except Failure Shape}
    (hmembers : forall m, m ∈ members -> NeverRefused (meet m)) :
    NeverRefused (members.mapM meet >>= unite) :=
  (ends_mapM hmembers).bind fun branches _ => neverRefused_unite branches

theorem neverRefused_intersectPair (a b : Shape) : NeverRefused (intersectPair a b) := by
  refine intersectPair_induction (motive := fun _ _ result => NeverRefused result)
    ?_ ?_ ?_ ?_ ?_ a b
  · intro a b _ _
    exact neverRefused_intersectSimple a b
  · intro a
    trivial
  · intro name members b meet hmembers
    exact neverRefused_branches hmembers
  · intro b
    trivial
  · intro a name members meet hmembers
    exact neverRefused_branches hmembers

theorem neverRefused_intersect (shapes : List Shape) : NeverRefused (intersect shapes) := by
  cases shapes with
  | nil => rfl
  | cons first rest =>
      apply ends_foldlM _ trivial
      intro next _ shape _
      exact neverRefused_intersectPair shape next

end Shape
end Shapes
