import Shapes.Proofs.Matching.Fits
import Shapes.Proofs.Registry.Walk

/-!
# What the check of a value decides

The check looks up references by resolving them, so it changes the registry
that it runs on, and a reference that cannot be resolved now may be resolved
later.  `Registry.Decides` says what the answer means nevertheless: a value that
is accepted fits by the shapes that are kept afterwards, and a value that fits
by the shapes that are kept before is accepted.
-/

namespace Shapes
namespace Registry

/-- References stand for the shapes that are kept. -/
def kept (r : Registry) : Lookup :=
  fun id s => r.arena.cached? id = some s

/-- A registry that has all shapes that another one keeps. -/
def Keeps (r r' : Registry) : Prop :=
  forall id s, r.kept id s -> r'.kept id s

theorem Walked.keeps {fixed : List ShapeId} {r r' : Registry} (h : Walked fixed r r') :
    r.Keeps r' :=
  fun _ _ hs => h.cached? hs

theorem resolve_of_kept {r : Registry} {id : ShapeId} {s : Shape} (h : r.kept id s) :
    (resolve id).run r = (.ok s, r) := by
  have hvisit : (WalkM.visit Limits.resolution.maxDepth .root id).run
      ⟨r, Trail.start Limits.resolution⟩ = (.ok s, ⟨r, Trail.start Limits.resolution⟩) := by
    show (WalkM.visitBy _ .root id).run _ = _
    rw [WalkM.run_visitBy]
    simp only [show r.arena.cached? id = some s from h]
  rw [run_resolve, hvisit]
  rfl

/-- A check finds out whether something holds of the shapes that are kept. -/
structure Decides (check : StateM Registry Bool) (fits : Lookup -> Prop) : Prop where
  mono : forall {find find'}, (forall id s, find id s -> find' id s) -> fits find -> fits find'
  walked : forall {r answer r'}, check.run r = (answer, r') -> Walked [] r r'
  sound : forall {r r'}, check.run r = (true, r') -> fits r'.kept
  complete : forall {r answer r'}, fits r.kept -> check.run r = (answer, r') -> answer = true

namespace Decides

theorem pure (answer : Bool) : Decides (Pure.pure answer) fun _ => answer = true := by
  refine ⟨fun _ h => h, ?_, ?_, ?_⟩
  · intro r answer r' h
    cases h
    exact .refl [] r
  · intro r r' h
    cases h
    rfl
  · intro r answer' r' hfits h
    cases h
    exact hfits

theorem congr {check : StateM Registry Bool} {fits fits' : Lookup -> Prop}
    (h : Decides check fits) (hiff : forall find, fits find <-> fits' find) :
    Decides check fits' := by
  rw [show fits' = fits from funext fun find => propext (hiff find).symm]
  exact h

theorem accepted {check : StateM Registry Bool} {fits : Lookup -> Prop} (h : Decides check fits)
    {r : Registry} (hr : r.Faithful) (hyes : (check.run r).1 = true) : fits r.Flattens := by
  rcases hrun : check.run r with ⟨answer, r'⟩
  rw [hrun] at hyes
  cases hyes
  have hwalk := h.walked hrun
  apply h.mono _ (h.sound hrun)
  intro id s hs
  exact hwalk.sameDeclarations.flattens_iff.mp ((hwalk.faithful hr).flattens hs)

variable {α : Type} {check : α -> StateM Registry Bool} {fits : α -> Lookup -> Prop}

theorem run_anyM_cons {a : α} {rest : List α} {r r' : Registry} {answer : Bool}
    (h : ((a :: rest).anyM check).run r = (answer, r')) :
    ((check a).run r = (true, r') ∧ answer = true) ∨
      exists r1, (check a).run r = (false, r1) ∧ (rest.anyM check).run r1 = (answer, r') := by
  rw [List.anyM_cons, run_stateBind] at h
  rcases hrun : (check a).run r with ⟨first, r1⟩
  rw [hrun] at h
  cases first with
  | true =>
      cases h
      exact Or.inl ⟨rfl, rfl⟩
  | false => exact Or.inr ⟨r1, rfl, h⟩

theorem run_allM_cons {a : α} {rest : List α} {r r' : Registry} {answer : Bool}
    (h : ((a :: rest).allM check).run r = (answer, r')) :
    ((check a).run r = (false, r') ∧ answer = false) ∨
      exists r1, (check a).run r = (true, r1) ∧ (rest.allM check).run r1 = (answer, r') := by
  rw [List.allM_cons, run_stateBind] at h
  rcases hrun : (check a).run r with ⟨first, r1⟩
  rw [hrun] at h
  cases first with
  | false =>
      cases h
      exact Or.inl ⟨rfl, rfl⟩
  | true => exact Or.inr ⟨r1, rfl, h⟩

theorem run_reference {id : ShapeId} {check : Shape -> StateM Registry Bool}
    {r r' : Registry} {answer : Bool}
    (h : StateT.run (do
      match <- (resolve id).run with
      | .ok s => check s
      | .error _ => return false : StateM Registry Bool) r = (answer, r')) :
    (exists s r1, (resolve id).run r = (.ok s, r1) ∧ (check s).run r1 = (answer, r')) ∨
      exists failure, (resolve id).run r = (.error failure, r') ∧ answer = false := by
  rw [run_stateBind] at h
  change StateT.run (match ((resolve id).run r).1 with
    | .ok s => check s
    | .error _ => return false) ((resolve id).run r).2 = _ at h
  rcases hrun : (resolve id).run r with ⟨result, r1⟩
  rw [hrun] at h
  cases result with
  | ok s => exact Or.inl ⟨s, r1, rfl, h⟩
  | error failure =>
      cases h
      exact Or.inr ⟨failure, rfl, rfl⟩

theorem anyM {list : List α} (h : forall a, a ∈ list -> Decides (check a) (fits a)) :
    Decides (list.anyM check) fun find => exists a, a ∈ list ∧ fits a find := by
  induction list with
  | nil =>
      refine (Decides.pure false).congr ?_
      simp
  | cons a rest ih =>
      have hfirst := h a List.mem_cons_self
      have hrest := ih fun b hb => h b (List.mem_cons_of_mem a hb)
      refine ⟨?_, ?_, ?_, ?_⟩
      · intro find find' hfind hfound
        rcases hfound with ⟨b, hb, hfits⟩
        exact ⟨b, hb, (h b hb).mono hfind hfits⟩
      · intro r answer r' hrun
        rcases run_anyM_cons hrun with ⟨hstop, rfl⟩ | ⟨r1, hstep, hgo⟩
        · exact hfirst.walked hstop
        · exact (hfirst.walked hstep).trans (hrest.walked hgo)
      · intro r r' hrun
        rcases run_anyM_cons hrun with ⟨hstop, _⟩ | ⟨r1, _, hgo⟩
        · exact ⟨a, List.mem_cons_self, hfirst.sound hstop⟩
        · rcases hrest.sound hgo with ⟨b, hb, hfits⟩
          exact ⟨b, List.mem_cons_of_mem a hb, hfits⟩
      · intro r answer r' hfound hrun
        rcases hfound with ⟨b, hb, hfits⟩
        rcases run_anyM_cons hrun with ⟨_, rfl⟩ | ⟨r1, hstep, hgo⟩
        · rfl
        · rcases List.mem_cons.mp hb with rfl | hb
          · cases hfirst.complete hfits hstep
          · -- What the first check has kept does not get in the way.
            have hkeeps := (hfirst.walked hstep).keeps
            exact hrest.complete
              ⟨b, hb, (h b (List.mem_cons_of_mem a hb)).mono hkeeps hfits⟩ hgo

theorem allM {list : List α} (h : forall a, a ∈ list -> Decides (check a) (fits a)) :
    Decides (list.allM check) fun find => forall a, a ∈ list -> fits a find := by
  induction list with
  | nil =>
      refine (Decides.pure true).congr ?_
      simp
  | cons a rest ih =>
      have hfirst := h a List.mem_cons_self
      have hrest := ih fun b hb => h b (List.mem_cons_of_mem a hb)
      refine ⟨?_, ?_, ?_, ?_⟩
      · intro find find' hfind hall b hb
        exact (h b hb).mono hfind (hall b hb)
      · intro r answer r' hrun
        rcases run_allM_cons hrun with ⟨hstop, rfl⟩ | ⟨r1, hstep, hgo⟩
        · exact hfirst.walked hstop
        · exact (hfirst.walked hstep).trans (hrest.walked hgo)
      · intro r r' hrun b hb
        rcases run_allM_cons hrun with ⟨_, hfalse⟩ | ⟨r1, hstep, hgo⟩
        · cases hfalse
        · rcases List.mem_cons.mp hb with rfl | hb
          · exact hfirst.mono (hrest.walked hgo).keeps (hfirst.sound hstep)
          · exact hrest.sound hgo b hb
      · intro r answer r' hall hrun
        rcases run_allM_cons hrun with ⟨hstop, _⟩ | ⟨r1, hstep, hgo⟩
        · cases hfirst.complete (hall a List.mem_cons_self) hstop
        · have hkeeps := (hfirst.walked hstep).keeps
          apply hrest.complete _ hgo
          intro b hb
          have hmem := List.mem_cons_of_mem a hb
          exact (h b hmem).mono hkeeps (hall b hmem)

theorem reference {id : ShapeId} {check : Shape -> StateM Registry Bool}
    {fits : Shape -> Lookup -> Prop} (h : forall s, Decides (check s) (fits s)) :
    Decides
      (do
        match <- (resolve id).run with
        | .ok s => check s
        | .error _ => return false)
      fun find => exists s, find id s ∧ fits s find := by
  refine ⟨?_, ?_, ?_, ?_⟩
  · intro find find' hfind hfound
    rcases hfound with ⟨s, hs, hfits⟩
    exact ⟨s, hfind id s hs, (h s).mono hfind hfits⟩
  · intro r answer r' hrun
    rcases run_reference hrun with ⟨s, r1, hresolve, hgo⟩ | ⟨failure, hresolve, _⟩
    · exact (resolve_walked hresolve).1.trans ((h s).walked hgo)
    · exact (resolve_walked hresolve).1
  · intro r r' hrun
    rcases run_reference hrun with ⟨s, r1, hresolve, hgo⟩ | ⟨_, _, hfalse⟩
    · have hs : r1.kept id s := (resolve_walked hresolve).2
      exact ⟨s, ((h s).walked hgo).keeps id s hs, (h s).sound hgo⟩
    · cases hfalse
  · intro r answer r' hfound hrun
    rcases hfound with ⟨s, hs, hfits⟩
    rcases run_reference hrun with ⟨t, r1, hresolve, hgo⟩ | ⟨failure, hresolve, _⟩
    · rw [resolve_of_kept hs] at hresolve
      cases hresolve
      exact (h s).complete hfits hgo
    · rw [resolve_of_kept hs] at hresolve
      cases hresolve

end Decides

/-!
# Types and shapes

Each rule of the check is a small run: a reference that resolves is checked by
its shape, one that does not has no values, and fields are matched one by one.
The two halves of `Registry.Decides` go through these runs together.
-/

section Steps

variable {levels : Nat} {id : ShapeId} {value : Json} {r r1 : Registry} {m : FieldType}
  {rest : List FieldType}

theorem run_typeMatches_reference {s : Shape} (h : (resolve id).run r = (.ok s, r1)) :
    (typeMatches (levels + 1) (.reference id) value).run r =
      (shapeMatches levels s value).run r1 := by
  rcases hrun : (typeMatches (levels + 1) (.reference id) value).run r with ⟨answer, r2⟩
  rcases Decides.run_reference hrun with ⟨u, r3, hresolve, hcheck⟩ | ⟨failure, hresolve, _⟩
  · cases h.symm.trans hresolve
    exact hcheck.symm
  · cases h.symm.trans hresolve

theorem typeMatches_reference_failed (h : forall s, ((resolve id).run r).1 ≠ .ok s) :
    ((typeMatches (levels + 1) (.reference id) value).run r).1 = false := by
  rcases hrun : (typeMatches (levels + 1) (.reference id) value).run r with ⟨answer, r2⟩
  rcases Decides.run_reference hrun with ⟨s, r3, hresolve, _⟩ | ⟨failure, _, hfalse⟩
  · exact absurd (congrArg Prod.fst hresolve) (h s)
  · exact hfalse

theorem run_typeMatches_union (h : (typeMatches levels m value).run r = (false, r1)) :
    (typeMatches (levels + 1) (.union (m :: rest)) value).run r =
      (typeMatches (levels + 1) (.union rest) value).run r1 := by
  rw [typeMatches, List.anyM_cons, run_stateBind, h, typeMatches]
  rfl

theorem run_typeMatches_intersection (h : (typeMatches levels m value).run r = (true, r1)) :
    (typeMatches (levels + 1) (.intersection (m :: rest)) value).run r =
      (typeMatches (levels + 1) (.intersection rest) value).run r1 := by
  rw [typeMatches, List.allM_cons, run_stateBind, h, typeMatches]
  rfl

theorem typeMatches_intersection_failed (h : ((typeMatches levels m value).run r).1 = false) :
    ((typeMatches (levels + 1) (.intersection (m :: rest)) value).run r).1 = false := by
  rw [typeMatches, List.allM_cons, run_stateBind, h]
  rfl

variable {name : Option String} {fields : Table FieldType} (others : Table FieldType)
  {key : String} {members : List (String × Json)} {v : Json}

theorem run_shapeMatches_object (hfields : fields.entries = (key, m) :: others.entries)
    (hv : members.lookup key = some v) (h : (typeMatches levels m v).run r = (true, r1)) :
    (shapeMatches (levels + 1) (.object name fields) (.obj members)).run r =
      (shapeMatches (levels + 1) (.object name others) (.obj members)).run r1 := by
  simp only [shapeMatches, hfields, List.allM_cons, hv]
  rw [run_stateBind, h]
  rfl

end Steps

theorem fieldsMatch_decides {levels : Nat}
    (htype : forall t value, Decides (typeMatches levels t value)
      fun find => TypeFits find levels t value)
    (fields : Table FieldType) (members : List (String × Json)) :
    Decides
      (fields.entries.allM fun (key, t) =>
        match members.lookup key with
        | some v => typeMatches levels t v
        | none => return t.admitsUndefined)
      fun find => forall e, e ∈ fields.entries ->
        MemberFits (TypeFits find levels e.2) e.2 (members.lookup e.1) := by
  apply Decides.allM
  intro e _
  simp only
  cases members.lookup e.1 with
  | some v => exact htype e.2 v
  | none => exact Decides.pure _

theorem matches_decide (levels : Nat) :
    (forall t value, Decides (typeMatches levels t value)
        fun find => TypeFits find levels t value) ∧
      forall s value, Decides (shapeMatches levels s value)
        fun find => ShapeFits find levels s value := by
  induction levels with
  | zero =>
      constructor
      · intro t value
        refine (Decides.pure false).congr ?_
        simp [TypeFits]
      · intro s value
        refine (Decides.pure false).congr ?_
        simp [ShapeFits]
  | succ levels ih =>
      rcases ih with ⟨htype, hshape⟩
      constructor
      · intro t value
        unfold typeMatches TypeFits
        cases t with
        | keyword word => exact Decides.pure _
        | literal literal => exact Decides.pure _
        | reference id => exact Decides.reference fun s => hshape s value
        | union members => exact Decides.anyM fun m _ => htype m value
        | intersection members => exact Decides.allM fun m _ => htype m value
      · intro s value
        unfold shapeMatches ShapeFits
        cases s with
        | object name fields =>
            cases value with
            | obj members =>
                refine (fieldsMatch_decides htype fields members).congr ?_
                simp
            | null | bool | num | str | arr =>
                refine (Decides.pure false).congr ?_
                simp
        | union name members => exact Decides.anyM fun m _ => hshape m value
        | keyword word => exact Decides.pure _
        | literal literal => exact Decides.pure _

theorem typeMatches_decides (levels : Nat) (t : FieldType) (value : Json) :
    Decides (typeMatches levels t value) fun find => TypeFits find levels t value :=
  (matches_decide levels).1 t value

theorem shapeMatches_decides (levels : Nat) (s : Shape) (value : Json) :
    Decides (shapeMatches levels s value) fun find => ShapeFits find levels s value :=
  (matches_decide levels).2 s value

end Registry
end Shapes
