import Shapes.Proofs.Subtype.Rules
import Shapes.Proofs.Subtype.Soundness

/-!
# Positive answers are justified

A comparison that answers yes has found a judgement of the greatest consistent
set.  A pair of references that is met again is assumed only below itself, where
it is one of the judgements that are being shown; it never serves another answer.
Limits that run out answer no, so they add nothing either.
-/

namespace Shapes
namespace Registry

/--
If a comparison in use, whatever is left of its limits, finds a type below another
one, then the judgement is justified by the rules without limits and assumptions.
-/
theorem positive_answers_are_justified {c : Comparison} (hc : c.InUse)
    {source target : FieldType}
    (h : ((CompareM.isBelow source target).run c).1 = true) :
    c.registry.Justified (.types source target) := by
  have hrests := hc.rests
  rcases hrun : (CompareM.isBelow source target).run c with ⟨answer, c'⟩
  rw [hrun] at h
  cases h
  have hsound := sound_justifiedFrom c.registry
  have hshown := (CompareM.shows_isBelow_of_sound hsound source target).sound hrests.over hrun
  rw [hrests.visiting] at hshown
  exact hshown.justified

def usedOnLinks : Comparison :=
  ((CompareM.isBelow (.reference ⟨2⟩) (.reference ⟨1⟩)).run (CompareM.start links)).2

theorem positive_answers_are_justified_links :
    ((CompareM.isBelow (.reference ⟨2⟩) (.reference ⟨1⟩)).run (CompareM.start links)).1 = false ∧
      ((CompareM.isBelow (.reference ⟨1⟩) (.reference ⟨2⟩)).run usedOnLinks).1 = true ∧
      usedOnLinks.registry.Justified (.references ⟨1⟩ ⟨2⟩) := by
  have hbelow :
      ((CompareM.isBelow (.reference ⟨1⟩) (.reference ⟨2⟩)).run usedOnLinks).1 = true := by
    decide +kernel
  refine ⟨by decide +kernel, hbelow, ?_⟩
  refine positive_answers_are_justified (c := usedOnLinks) ?_ hbelow
  exact .isBelow _ _ (.idle links_reachable rfl)

end Registry
end Shapes
