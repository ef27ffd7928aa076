import Shapes.Proofs.Matching.Standing

/-!
# Derivations

Why a value belongs to a type can be written down as a tree.  Every step of it goes from
a reference to its shape, from a union or an intersection to a member, or from an object
to one of its fields, and nothing is said about how many steps there are.

The check of a value sees a limited number of steps.  A tree whose branches are short
enough is found, and a value that is accepted has a tree.  What a check cannot see it
takes for a mismatch, so with a later start it accepts fewer values, as long as that does
not change which references it can follow.
-/

namespace Shapes

/-!
# Trees

A tree has one constructor for each rule of matching, and a bound on its
branches says with how many levels it is seen.
-/

mutual

/-- Why a value belongs to a type. -/
inductive TypeDerivation (find : Lookup) : FieldType -> Json -> Type where
  | keyword {word : Keyword} {value : Json} :
      word.matches value = true -> TypeDerivation find (.keyword word) value
  | literal {literal : Literal} {value : Json} :
      literal.matches value = true -> TypeDerivation find (.literal literal) value
  | reference {id : ShapeId} {s : Shape} {value : Json} :
      find id s -> ShapeDerivation find s value -> TypeDerivation find (.reference id) value
  | union {members : List FieldType} {m : FieldType} {value : Json} :
      m ∈ members -> TypeDerivation find m value -> TypeDerivation find (.union members) value
  | intersection {members : List FieldType} {value : Json} :
      (forall m, m ∈ members -> TypeDerivation find m value) ->
      TypeDerivation find (.intersection members) value

/-- Why a value belongs to a shape. -/
inductive ShapeDerivation (find : Lookup) : Shape -> Json -> Type where
  | keyword {word : Keyword} {value : Json} :
      word.matches value = true -> ShapeDerivation find (.keyword word) value
  | literal {literal : Literal} {value : Json} :
      literal.matches value = true -> ShapeDerivation find (.literal literal) value
  | union {name : Option String} {members : List Shape} {m : Shape} {value : Json} :
      m ∈ members -> ShapeDerivation find m value ->
      ShapeDerivation find (.union name members) value
  | object {name : Option String} {fields : Table FieldType} {members : List (String × Json)} :
      (forall key t, (key, t) ∈ fields.entries -> members.lookup key = none ->
        t.admitsUndefined = true) ->
      (forall key t value, (key, t) ∈ fields.entries -> members.lookup key = some value ->
        TypeDerivation find t value) ->
      ShapeDerivation find (.object name fields) (.obj members)

end

mutual

/-- Every branch takes at most so many steps. -/
def TypeDerivation.Within {find : Lookup} {t : FieldType} {value : Json} :
    TypeDerivation find t value -> Nat -> Prop
  | .keyword _, _ => True
  | .literal _, _ => True
  | .reference _ rest, n => exists k, n = k + 1 ∧ rest.Within k
  | .union _ rest, n => exists k, n = k + 1 ∧ rest.Within k
  | .intersection rest, n => forall m hm, exists k, n = k + 1 ∧ (rest m hm).Within k

def ShapeDerivation.Within {find : Lookup} {s : Shape} {value : Json} :
    ShapeDerivation find s value -> Nat -> Prop
  | .keyword _, _ => True
  | .literal _, _ => True
  | .union _ rest, n => exists k, n = k + 1 ∧ rest.Within k
  | .object _ rest, n => forall key t value ht hvalue,
      exists k, n = k + 1 ∧ (rest key t value ht hvalue).Within k

end

section Trees

variable {find : Lookup}

mutual

theorem TypeDerivation.fits {t : FieldType} {value : Json} {n : Nat} :
    forall d : TypeDerivation find t value, d.Within n -> TypeFits find (n + 1) t value
  | .keyword hmatches, _ => by
      rw [TypeFits]
      exact hmatches
  | .literal hmatches, _ => by
      rw [TypeFits]
      exact hmatches
  | .reference hfind rest, h => by
      rw [TypeDerivation.Within] at h
      rcases h with ⟨k, rfl, h⟩
      rw [TypeFits]
      exact ⟨_, hfind, rest.fits h⟩
  | .union hm rest, h => by
      rw [TypeDerivation.Within] at h
      rcases h with ⟨k, rfl, h⟩
      exact typeFits_union.mpr ⟨_, hm, rest.fits h⟩
  | .intersection rest, h => by
      rw [TypeDerivation.Within] at h
      rw [typeFits_intersection]
      intro m hm
      rcases h m hm with ⟨k, rfl, hmember⟩
      exact (rest m hm).fits hmember

theorem ShapeDerivation.fits {s : Shape} {value : Json} {n : Nat} :
    forall d : ShapeDerivation find s value, d.Within n -> ShapeFits find (n + 1) s value
  | .keyword hmatches, _ => by
      rw [ShapeFits.eq_def]
      exact hmatches
  | .literal hmatches, _ => by
      rw [ShapeFits.eq_def]
      exact hmatches
  | .union hm rest, h => by
      rw [ShapeDerivation.Within] at h
      rcases h with ⟨k, rfl, h⟩
      rw [ShapeFits.eq_def]
      exact ⟨_, hm, rest.fits h⟩
  | @ShapeDerivation.object _ _ _ members hmissing rest, h => by
      rw [ShapeDerivation.Within] at h
      rw [ShapeFits.eq_def]
      refine ⟨_, rfl, ?_⟩
      intro key t ht
      cases hvalue : members.lookup key with
      | none => exact hmissing key t ht hvalue
      | some value =>
          rcases h key t value ht hvalue with ⟨k, rfl, hmember⟩
          exact (rest key t value ht hvalue).fits hmember

end

theorem exists_derivation (levels : Nat) :
    (forall t value, TypeFits find levels t value ->
        exists d : TypeDerivation find t value, exists n, levels = n + 1 ∧ d.Within n) ∧
      forall s value, ShapeFits find levels s value ->
        exists d : ShapeDerivation find s value, exists n, levels = n + 1 ∧ d.Within n := by
  induction levels with
  | zero =>
      constructor
      · intro t value h
        simp only [TypeFits] at h
      · intro s value h
        simp only [ShapeFits] at h
  | succ levels ih =>
      rcases ih with ⟨htype, hshape⟩
      constructor
      · intro t value h
        cases t with
        | keyword word =>
            rw [TypeFits] at h
            exact ⟨.keyword h, levels, rfl, trivial⟩
        | literal literal =>
            rw [TypeFits] at h
            exact ⟨.literal h, levels, rfl, trivial⟩
        | reference id =>
            rw [TypeFits] at h
            rcases h with ⟨s, hs, h⟩
            rcases hshape s value h with ⟨d, hd⟩
            exact ⟨.reference hs d, levels, rfl, hd⟩
        | union members =>
            rcases typeFits_union.mp h with ⟨m, hm, h⟩
            rcases htype m value h with ⟨d, hd⟩
            exact ⟨.union hm d, levels, rfl, hd⟩
        | intersection members =>
            rw [typeFits_intersection] at h
            choose d hd using fun m hm => htype m value (h m hm)
            exact ⟨.intersection d, levels, rfl, hd⟩
      · intro s value h
        rw [ShapeFits.eq_def] at h
        cases s with
        | keyword word => exact ⟨.keyword h, levels, rfl, trivial⟩
        | literal literal => exact ⟨.literal h, levels, rfl, trivial⟩
        | union name members =>
            rcases h with ⟨m, hm, h⟩
            rcases hshape m value h with ⟨d, hd⟩
            exact ⟨.union hm d, levels, rfl, hd⟩
        | object name fields =>
            rcases h with ⟨members, rfl, h⟩
            have hmissing : forall key t, (key, t) ∈ fields.entries ->
                members.lookup key = none -> t.admitsUndefined = true := by
              intro key t ht hnone
              have hmember := h key t ht
              rw [hnone] at hmember
              exact hmember
            have hpresent : forall key t value, (key, t) ∈ fields.entries ->
                members.lookup key = some value -> TypeFits find levels t value := by
              intro key t value ht hsome
              have hmember := h key t ht
              rw [hsome] at hmember
              exact hmember
            choose d hd using fun key t value ht hsome =>
              htype t value (hpresent key t value ht hsome)
            exact ⟨.object hmissing d, levels, rfl, hd⟩

theorem nonempty_typeDerivation {levels : Nat} {t : FieldType} {value : Json}
    (h : TypeFits find levels t value) : Nonempty (TypeDerivation find t value) := by
  rcases (exists_derivation levels).1 t value h with ⟨d, _⟩
  exact ⟨d⟩

theorem nonempty_shapeDerivation {levels : Nat} {s : Shape} {value : Json}
    (h : ShapeFits find levels s value) : Nonempty (ShapeDerivation find s value) := by
  rcases (exists_derivation levels).2 s value h with ⟨d, _⟩
  exact ⟨d⟩

end Trees

namespace Registry

/-!
# Where a check starts

A check that starts further down has fewer levels left, so it accepts fewer
values.
-/

/-- How many levels are left for a check that starts at a depth. -/
def levelsFrom (depth : Nat) : Nat :=
  maxValueDepth + 1 - depth

theorem levelsFrom_le {depth deeper : Nat} (h : depth ≤ deeper) :
    levelsFrom deeper ≤ levelsFrom depth :=
  Nat.sub_le_sub_left h _

/--
The limit of a check errs to one side.  What is accepted from some depth on stands from any
lesser depth on.  What is accepted has a derivation, by the declarations and by what the
registry resolves in the end.  And what has a derivation by references that resolve is
accepted if no branch takes more steps than a value is followed.
-/
theorem cut_off_only_rejects {r : Registry} (hr : r.Reachable) (value : Json) :
    (forall depth deeper t r', depth ≤ deeper ->
        (typeMatches (levelsFrom deeper) t value).run r = (true, r') ->
          Stands r r' (typeMatches (levelsFrom depth) t value)) ∧
      (forall depth deeper s r', depth ≤ deeper ->
        (shapeMatches (levelsFrom deeper) s value).run r = (true, r') ->
          Stands r r' (shapeMatches (levelsFrom depth) s value)) ∧
      (forall depth t r', (typeMatches (levelsFrom depth) t value).run r = (true, r') ->
        Nonempty (TypeDerivation r.Flattens t value) ∧
          Nonempty (TypeDerivation r'.resolves t value)) ∧
      (forall depth s r', (shapeMatches (levelsFrom depth) s value).run r = (true, r') ->
        Nonempty (ShapeDerivation r.Flattens s value) ∧
          Nonempty (ShapeDerivation r'.resolves s value)) ∧
      (forall t (d : TypeDerivation r.resolves t value), d.Within 128 ->
        ((matchesType t value).run r).1 = true) ∧
      forall s (d : ShapeDerivation r.resolves s value), d.Within 128 ->
        ((matchesShape s value).run r).1 = true := by
  have hfaithful := hr.faithful
  have haccept := (lasting_resolves hfaithful).matches_accept (maxValueDepth + 1)
  have hkept : forall (r' : Registry) id s, r'.kept id s -> r'.resolves id s := by
    intro r' id s hs
    exact congrArg Prod.fst (resolve_of_kept hs)
  refine ⟨?_, ?_, ?_, ?_, ?_, ?_⟩
  · intro depth deeper t r' hle hrun
    have hfits := (typeMatches_decides _ t value).sound hrun
    exact typeMatches_stands hfaithful (hfits.mono (levelsFrom_le hle) fun _ _ hs => hs)
  · intro depth deeper s r' hle hrun
    have hfits := (shapeMatches_decides _ s value).sound hrun
    exact shapeMatches_stands hfaithful (hfits.mono (levelsFrom_le hle) fun _ _ hs => hs)
  · intro depth t r' hrun
    have hdecides := typeMatches_decides (levelsFrom depth) t value
    constructor
    · exact nonempty_typeDerivation (hdecides.accepted hfaithful (congrArg Prod.fst hrun))
    · exact nonempty_typeDerivation (hdecides.mono (hkept r') (hdecides.sound hrun))
  · intro depth s r' hrun
    have hdecides := shapeMatches_decides (levelsFrom depth) s value
    constructor
    · exact nonempty_shapeDerivation (hdecides.accepted hfaithful (congrArg Prod.fst hrun))
    · exact nonempty_shapeDerivation (hdecides.mono (hkept r') (hdecides.sound hrun))
  · intro t d hd
    exact (haccept.1 t value (.refl [] r) rfl).2 (d.fits hd)
  · intro s d hd
    exact (haccept.2 s value (.refl [] r) rfl).2 (d.fits hd)

/-- A list of two objects is seen from far down, so it is also seen from further up. -/
theorem cut_off_only_rejects_rows :
    ((typeMatches (levelsFrom 120) (.reference ⟨1⟩) (row 2)).run rows).1 = true ∧
      ((typeMatches (levelsFrom 3) (.reference ⟨1⟩) (row 2)).run rows).1 = true ∧
      Nonempty (TypeDerivation rows.Flattens (.reference ⟨1⟩) (row 2)) := by
  have hyes : ((typeMatches (levelsFrom 120) (.reference ⟨1⟩) (row 2)).run rows).1 = true := by
    decide +kernel
  rcases hrun : (typeMatches (levelsFrom 120) (.reference ⟨1⟩) (row 2)).run rows with
    ⟨answer, r'⟩
  have hanswer : answer = true := by
    rw [hrun] at hyes
    exact hyes
  subst hanswer
  rcases cut_off_only_rejects rows_reachable (row 2) with ⟨hstands, _, hderivation, _⟩
  have hwalk := (typeMatches_decides _ _ _).walked hrun
  have hafford : rows.Affords r' := by
    apply affords_of_resolves rows_reachable.faithful _ hwalk
    intro id
    exact resolves_of_small rows_reachable.faithful (by decide +kernel) (.reference id)
  exact ⟨rfl, (hstands 3 120 _ r' (by decide) hrun).again hafford,
    (hderivation 120 _ r' hrun).1⟩

/-!
# An earlier start that rejects

Starting earlier is no gain once resolution interferes: levels that are left may
be spent on a rung that has to be kept before another one can be reached.
-/

/--
A number, as is also seen by way of unions or of the last rung but one, and a number by
way of the last rung.  The rung below is asked for only if the unions are too deep.
-/
def wavering : FieldType :=
  .intersection [.keyword .number,
    .union [.union [.union [.keyword .number]], .reference ⟨256⟩], .reference ⟨257⟩]

theorem earlier_start_may_reject :
    Ladder.high.Reachable ∧
      ((typeMatches (levelsFrom 125) wavering Ladder.one).run Ladder.high).1 = true ∧
      ((typeMatches (levelsFrom 124) wavering Ladder.one).run Ladder.high).1 = false := by
  refine ⟨ladder_reachable 257, ?_, ?_⟩
  · rcases Ladder.last_after_next with ⟨r1, r2, hnext, hlast⟩
    have hunions : (typeMatches 3 (.union [.union [.union [.keyword .number]],
        .reference ⟨256⟩]) Ladder.one).run Ladder.high = (true, r1) := by
      have hdeep : (typeMatches 2 (.union [.union [.keyword .number]]) Ladder.one).run
          Ladder.high = (false, Ladder.high) := rfl
      have hrung : (typeMatches 2 (.reference ⟨256⟩) Ladder.one).run Ladder.high = (true, r1) :=
        run_typeMatches_reference hnext
      rw [run_typeMatches_union hdeep, typeMatches, List.anyM_cons, run_stateBind, hrung]
      rfl
    have hrung : (typeMatches 3 (.reference ⟨257⟩) Ladder.one).run r1 = (true, r2) :=
      run_typeMatches_reference hlast
    have hnumber : (typeMatches 3 (.keyword .number) Ladder.one).run Ladder.high =
        (true, Ladder.high) := rfl
    show ((typeMatches (3 + 1) wavering Ladder.one).run Ladder.high).1 = true
    rw [wavering, run_typeMatches_intersection hnumber, run_typeMatches_intersection hunions,
      run_typeMatches_intersection hrung]
    rfl
  · have hnumber : (typeMatches 4 (.keyword .number) Ladder.one).run Ladder.high =
        (true, Ladder.high) := rfl
    have hunions : (typeMatches 4 (.union [.union [.union [.keyword .number]],
        .reference ⟨256⟩]) Ladder.one).run Ladder.high = (true, Ladder.high) := rfl
    show ((typeMatches (4 + 1) wavering Ladder.one).run Ladder.high).1 = false
    rw [wavering, run_typeMatches_intersection hnumber, run_typeMatches_intersection hunions]
    exact typeMatches_intersection_failed (typeMatches_reference_failed Ladder.last_fails)

end Registry

end Shapes
