/-!
# Limits

Declarations come from outside and may be nested without end.  These limits
bound every walk over them, so that a hostile document is answered with a
failure.
-/

namespace Shapes

/-- How deep a walk may nest and how many steps it may take in all. -/
structure Limits where
  maxDepth : Nat
  maxSteps : Nat
  deriving DecidableEq, Repr

namespace Limits

def resolution : Limits := ⟨256, 100000⟩

def comparison : Limits := ⟨100, 100000⟩

end Limits

/-- How deep a value is followed when it is matched with a type. -/
def maxValueDepth : Nat := 128

end Shapes
