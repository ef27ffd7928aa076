import Shapes.Limits

/-!
# Trails

A `Trail` follows a recursive walk over keys.  It holds the keys that are being
visited, refuses to visit one of them again, and refuses every step beyond the
limits.  A walk leaves the keys that it has entered; `Trail.scope` pairs the two.
-/

namespace Shapes

inductive Entry where
  | entered
  | cycle
  /-- The trail is as long as it may be. -/
  | tooDeep
  /-- The walk has taken as many steps as it may. -/
  | tooManySteps
  deriving DecidableEq, Repr

namespace Entry

def isEntered (e : Entry) : Bool :=
  e = entered

def isCycle (e : Entry) : Bool :=
  e = cycle

def isExceeded (e : Entry) : Bool :=
  e = tooDeep || e = tooManySteps

end Entry

structure Trail (κ : Type) where
  limits : Limits
  visiting : List κ
  depth : Nat
  steps : Nat

namespace Trail

variable {κ : Type} [DecidableEq κ]

def stepCeiling : Nat := 4294967295

def start (limits : Limits) : Trail κ :=
  { limits, visiting := [], depth := 0, steps := 0 }

def isVisiting (t : Trail κ) (key : κ) : Bool :=
  t.visiting.contains key

/-- Try to visit a key.  Every attempt counts as a step. -/
def enter (t : Trail κ) (key : κ) : Entry × Trail κ :=
  let t := { t with steps := min (t.steps + 1) stepCeiling }
  if t.limits.maxSteps < t.steps then (.tooManySteps, t)
  else if t.isVisiting key then (.cycle, t)
  else if t.limits.maxDepth ≤ t.depth then (.tooDeep, t)
  else (.entered, { t with visiting := key :: t.visiting, depth := t.depth + 1 })

/-- End the visit of a key; `none` when the key is not being visited. -/
def leave? (t : Trail κ) (key : κ) : Option (Trail κ) :=
  if t.isVisiting key then
    some { t with visiting := t.visiting.erase key, depth := t.depth - 1 }
  else none

/-- End the visit of a key, if there is one. -/
def leave (t : Trail κ) (key : κ) : Trail κ :=
  (t.leave? key).getD t

/-- Run a body while a key is being visited, unless entry is refused. -/
def scope {α : Type} (t : Trail κ) (key : κ) (body : Trail κ -> α × Trail κ) :
    Except Entry α × Trail κ :=
  match t.enter key with
  | (.entered, inside) =>
      let (result, after) := body inside
      (.ok result, after.leave key)
  | (refused, after) => (.error refused, after)

end Trail
end Shapes
