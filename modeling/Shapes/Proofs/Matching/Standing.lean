import Shapes.Proofs.Matching.Depth
import Shapes.Proofs.Matching.Resolved
import Shapes.Proofs.Registry.Again
import Shapes.Proofs.Registry.Ladder

/-!
# Answers that stand

A check resolves the references that it meets and the registry keeps their shapes, so
that a reference can be followed which is too far away for a resolution of its own.  What
a check accepts may therefore depend on what it happens to look at first.

A value that is accepted is accepted again wherever the shapes are kept that were kept
in the end.  It is accepted again where the check started, if each of these shapes also
resolves there by itself.
-/

namespace Shapes
namespace Registry

/-- A registry resolves, each by itself, all shapes that another one keeps. -/
def Affords (r r' : Registry) : Prop :=
  forall id s, r'.kept id s -> r.resolves id s

/-- A check says yes wherever certain shapes are kept, and on a registry that affords them. -/
structure Stands (r r' : Registry) (check : StateM Registry Bool) : Prop where
  later : forall after, r'.Keeps after -> (check.run after).1 = true
  again : r.Affords r' -> (check.run r).1 = true

section Standing

variable {r r' : Registry}

theorem lasting_resolves (hr : r.Faithful) : r.Lasting r.resolves :=
  fun _ _ _ hs hwalk => resolve_again hr hwalk hs

theorem Stands.of_fits {check : StateM Registry Bool} {fits : Lookup -> Prop}
    (hdecides : Decides check fits) (haccepts : Accepts r check (fits r.resolves))
    (h : fits r'.kept) : Stands r r' check := by
  constructor
  · intro after hkeeps
    exact hdecides.complete (hdecides.mono hkeeps h) rfl
  · intro hafford
    exact (haccepts (.refl [] r) rfl).2 (hdecides.mono hafford h)

variable {levels : Nat} {value : Json}

theorem typeMatches_stands (hr : r.Faithful) {t : FieldType} (h : TypeFits r'.kept levels t value) :
    Stands r r' (typeMatches levels t value) :=
  .of_fits (typeMatches_decides levels t value)
    (((lasting_resolves hr).matches_accept levels).1 t value) h

theorem shapeMatches_stands (hr : r.Faithful) {s : Shape}
    (h : ShapeFits r'.kept levels s value) : Stands r r' (shapeMatches levels s value) :=
  .of_fits (shapeMatches_decides levels s value)
    (((lasting_resolves hr).matches_accept levels).2 s value) h

theorem affords_of_resolves (hr : r.Faithful) (hresolves : forall id, r.Resolves (.reference id))
    (hwalk : Walked [] r r') : r.Affords r' := by
  intro id s hs
  have hflat := hwalk.sameDeclarations.flattens_iff.mp ((hwalk.faithful hr).flattens hs)
  rcases (hresolves id).reference hflat (.refl [] r) with ⟨r2, hrun⟩
  exact congrArg Prod.fst hrun

end Standing

/-!
# The last rung of a ladder

The last rung of a high ladder fails by itself, while the one below resolves and
keeps what the last one needs.
-/

namespace Ladder

/-- A ladder with a rung that is too high to be resolved by itself. -/
def high : Registry :=
  ladder 257

def one : Json :=
  .num (.integer 1)

theorem last_fails (s : Shape) : ((resolve ⟨257⟩).run high).1 ≠ .ok s :=
  resolve_rung_ne_ok (hasLadder_ladder 257) (Nat.le_refl 256) s

theorem last_after_next :
    exists r1 r2, (resolve ⟨256⟩).run high = (.ok (.keyword .number), r1) ∧
      (resolve ⟨257⟩).run r1 = (.ok (.keyword .number), r2) := by
  have hfaithful : high.Faithful := (ladder_reachable 257).faithful
  have hsmall : high.size < Limits.resolution.maxSteps := by
    rw [high, size_ladder]
    decide
  have hladder : high.HasLadder 257 := hasLadder_ladder 257
  exact hladder.resolve_then_next hfaithful hsmall (show 255 + 1 < 257 by decide) (by decide)

end Ladder

end Registry
end Shapes
