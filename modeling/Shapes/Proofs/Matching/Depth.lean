import Shapes.Proofs.Matching.Checker
import Shapes.Proofs.Matching.Holds
import Shapes.Proofs.Registry.Resolving
import Shapes.Proofs.Shape.Identity

/-!
# How deep values are looked at

The check of a value has so many levels to go down.  It spends one on every step:
into a member of an object, and also into a member of a union or an intersection
and from a reference to its shape, where the value stays the same.  So how deep a
value may be nested depends on how its types are written.

`FieldType.height` and `Shape.height` count the steps that stay at one value.  With
so many levels as they ask for at each depth of a value, the check answers what
holds without a limit; with fewer it may reject a value far less deep than there
are levels.
-/

namespace Shapes

/-!
# Heights and depths

The height of a type counts the steps that stay at one value, and the depth of a
value those that lead into it.
-/

theorem le_greatest {α : Type} {measure : α -> Nat} {greatest : List α -> Nat}
    (hcons : forall a rest, greatest (a :: rest) = max (measure a) (greatest rest))
    {list : List α} {a : α} (h : a ∈ list) : measure a ≤ greatest list := by
  induction list with
  | nil => cases h
  | cons first rest ih =>
      rw [hcons]
      rcases List.mem_cons.mp h with rfl | h
      · exact Nat.le_max_left _ _
      · exact Nat.le_trans (ih h) (Nat.le_max_right _ _)

namespace FieldType

mutual

def height : FieldType -> Nat
  | keyword _ | literal _ | reference _ => 1
  | union members | intersection members => tallest members + 1

def tallest : List FieldType -> Nat
  | [] => 0
  | t :: rest => max (height t) (tallest rest)

end

theorem height_le_tallest {types : List FieldType} {t : FieldType} (h : t ∈ types) :
    t.height ≤ tallest types :=
  le_greatest (fun _ _ => rfl) h

theorem height_pos (t : FieldType) : 0 < t.height := by
  cases t <;> exact Nat.succ_pos _

end FieldType

namespace Shape

mutual

def height : Shape -> Nat
  | object _ _ | keyword _ | literal _ => 1
  | union _ members => tallest members + 1

def tallest : List Shape -> Nat
  | [] => 0
  | s :: rest => max (height s) (tallest rest)

end

mutual

def fieldHeight : Shape -> Nat
  | object _ fields => FieldType.tallest (fields.entries.map Prod.snd)
  | union _ members => tallestField members
  | keyword _ | literal _ => 0

def tallestField : List Shape -> Nat
  | [] => 0
  | s :: rest => max (fieldHeight s) (tallestField rest)

end

theorem height_le_tallest {shapes : List Shape} {s : Shape} (h : s ∈ shapes) :
    s.height ≤ tallest shapes :=
  le_greatest (fun _ _ => rfl) h

theorem height_pos (s : Shape) : 0 < s.height := by
  cases s <;> exact Nat.succ_pos _

theorem fieldHeight_le_tallestField {shapes : List Shape} {s : Shape} (h : s ∈ shapes) :
    s.fieldHeight ≤ tallestField shapes :=
  le_greatest (fun _ _ => rfl) h

theorem height_le_fieldHeight (name : Option String) {fields : Table FieldType} {key : String}
    {t : FieldType} (h : (key, t) ∈ fields.entries) :
    t.height ≤ (object name fields).fieldHeight :=
  FieldType.height_le_tallest (List.mem_map_of_mem h)

end Shape

namespace Json

mutual

/-- How deep arrays and objects are nested in a value. -/
def depth : Json -> Nat
  | null | bool _ | num _ | str _ => 0
  | arr items => deepest items + 1
  | obj members => deepestMember members + 1

def deepest : List Json -> Nat
  | [] => 0
  | value :: rest => max (depth value) (deepest rest)

def deepestMember : List (String × Json) -> Nat
  | [] => 0
  | (_, value) :: rest => max (depth value) (deepestMember rest)

end

theorem depth_lt_of_lookup {members : List (String × Json)} {key : String} {value : Json}
    (h : members.lookup key = some value) : value.depth < (obj members).depth := by
  rcases List.lookup_eq_some_iff.mp h with ⟨before, after, rfl, _⟩
  have hmem : (key, value) ∈ before ++ (key, value) :: after := by
    simp
  have hle := @le_greatest _ (fun e => depth e.2) deepestMember (fun _ _ => rfl) _ _ hmem
  rw [depth]
  exact Nat.lt_succ_of_le hle

end Json

/-!
# Enough levels

By induction on the depth of a value: a shape that is no taller than the bound
takes its levels at each depth, and its members are less deep.
-/

section Budget

variable {find : Lookup} {a b : Nat}

/-- No shape that a reference stands for is taller than this, nor is the type of a field. -/
def Low (find : Lookup) (a b : Nat) : Prop :=
  forall id u, find id u -> u.height ≤ a ∧ u.fieldHeight ≤ b

/-- What holds of values up to a depth is seen with levels for the shape and for each depth. -/
def Seen (find : Lookup) (a b n : Nat) : Prop :=
  forall s value levels, value.depth ≤ n -> s.fieldHeight ≤ b ->
    s.height + n * (a + b) ≤ levels -> ShapeHolds find s value -> ShapeFits find levels s value

theorem Seen.types {n : Nat} (hlow : Low find a b) (hshapes : Seen find a b n) (t : FieldType)
    {value : Json} {levels : Nat} (hdepth : value.depth ≤ n)
    (hlevels : t.height + a + n * (a + b) ≤ levels) (h : TypeHolds find t value) :
    TypeFits find levels t value := by
  induction levels generalizing t with
  | zero =>
      have hpos := t.height_pos
      omega
  | succ levels ih =>
      cases t with
      | keyword word =>
          rw [TypeFits]
          exact typeHolds_keyword.mp h
      | literal literal =>
          rw [TypeFits]
          exact typeHolds_literal.mp h
      | reference id =>
          rw [FieldType.height] at hlevels
          rw [TypeFits]
          rcases typeHolds_reference.mp h with ⟨u, hu, hholds⟩
          rcases hlow id u hu with ⟨hheight, hfields⟩
          exact ⟨u, hu, hshapes u value levels hdepth hfields (by omega) hholds⟩
      | union members =>
          rw [FieldType.height] at hlevels
          rcases typeHolds_union.mp h with ⟨m, hm, hholds⟩
          have hheight := FieldType.height_le_tallest hm
          exact typeFits_union.mpr ⟨m, hm, ih m (by omega) hholds⟩
      | intersection members =>
          rw [FieldType.height] at hlevels
          rw [typeFits_intersection]
          intro m hm
          have hheight := FieldType.height_le_tallest hm
          exact ih m (by omega) (typeHolds_intersection.mp h m hm)

theorem seen_of_members {n : Nat} (htypes : forall m, n = m + 1 -> forall t value levels,
      value.depth ≤ m -> t.height + a + m * (a + b) ≤ levels -> TypeHolds find t value ->
        TypeFits find levels t value) : Seen find a b n := by
  intro s value levels hdepth hfields hlevels h
  induction levels generalizing s with
  | zero =>
      have hpos := s.height_pos
      omega
  | succ levels ih =>
      rw [ShapeFits.eq_def]
      cases s with
      | keyword word => exact shapeHolds_keyword.mp h
      | literal literal => exact shapeHolds_literal.mp h
      | union name members =>
          rw [Shape.height] at hlevels
          rw [Shape.fieldHeight] at hfields
          rcases shapeHolds_union.mp h with ⟨m, hm, hholds⟩
          have hheight := Shape.height_le_tallest hm
          have hfield := Shape.fieldHeight_le_tallestField hm
          exact ⟨m, hm, ih m (by omega) (by omega) hholds⟩
      | object name fields =>
          rw [Shape.height] at hlevels
          rcases shapeHolds_object.mp h with ⟨members, rfl, hmembers⟩
          refine ⟨members, rfl, ?_⟩
          intro key t ht
          have hmember := hmembers key t ht
          cases hlookup : members.lookup key with
          | none =>
              rw [hlookup] at hmember
              exact hmember
          | some w =>
              rw [hlookup] at hmember
              have hless := Json.depth_lt_of_lookup hlookup
              have hheight := Shape.height_le_fieldHeight name ht
              cases n with
              | zero => omega
              | succ m =>
                  rw [Nat.succ_mul] at hlevels
                  exact htypes m rfl t w levels (by omega) (by omega) hmember

/-- With levels for the shape and for each depth of a value, all that holds is seen. -/
theorem seen (hlow : Low find a b) (n : Nat) : Seen find a b n := by
  induction n with
  | zero =>
      apply seen_of_members
      intro m hm
      cases hm
  | succ n ih =>
      apply seen_of_members
      intro m hm
      cases hm
      intro t value levels hdepth hlevels h
      exact ih.types hlow t hdepth hlevels h

end Budget

/-!
# Checks that accept

A check that cannot be cut off answers yes to everything that is seen, provided
that its references resolve however far the registry has been resolved.
-/

namespace Registry

/-- References are resolved to what they stand for, however far a registry has been resolved. -/
def Lasting (r : Registry) (find : Lookup) : Prop :=
  forall ⦃id s r1⦄, find id s -> Walked [] r r1 -> exists r2, (resolve id).run r1 = (.ok s, r2)

/-- However far a registry has been resolved, a check says yes if something holds. -/
def Accepts (r : Registry) (check : StateM Registry Bool) (holds : Prop) : Prop :=
  forall ⦃r1 answer r2⦄, Walked [] r r1 -> check.run r1 = (answer, r2) ->
    Walked [] r r2 ∧ (holds -> answer = true)

namespace Accepts

variable {r : Registry}

theorem pure {answer : Bool} {holds : Prop} (h : holds -> answer = true) :
    Accepts r (Pure.pure answer) holds := by
  intro r1 given r2 hwalk hrun
  cases hrun
  exact ⟨hwalk, h⟩

theorem imp {check : StateM Registry Bool} {holds holds' : Prop} (h : Accepts r check holds)
    (himp : holds' -> holds) : Accepts r check holds' := by
  intro r1 answer r2 hwalk hrun
  rcases h hwalk hrun with ⟨hwalk2, hyes⟩
  exact ⟨hwalk2, fun hholds => hyes (himp hholds)⟩

variable {α : Type} {check : α -> StateM Registry Bool} {holds : α -> Prop} {list : List α}

theorem anyM (h : forall a, a ∈ list -> Accepts r (check a) (holds a)) :
    Accepts r (list.anyM check) (exists a, a ∈ list ∧ holds a) := by
  induction list with
  | nil =>
      apply Accepts.pure
      intro hfound
      rcases hfound with ⟨a, ha, _⟩
      cases ha
  | cons a rest ih =>
      rw [List.forall_mem_cons] at h
      intro r1 answer r2 hwalk hrun
      rcases Decides.run_anyM_cons hrun with ⟨hstop, rfl⟩ | ⟨r3, hstep, hgo⟩
      · exact ⟨(h.1 hwalk hstop).1, fun _ => rfl⟩
      · rcases h.1 hwalk hstep with ⟨hwalk3, hfirst⟩
        rcases ih h.2 hwalk3 hgo with ⟨hwalk2, hrest⟩
        refine ⟨hwalk2, ?_⟩
        intro hfound
        rcases hfound with ⟨b, hb, hholds⟩
        rcases List.mem_cons.mp hb with rfl | hb
        · cases hfirst hholds
        · exact hrest ⟨b, hb, hholds⟩

theorem allM (h : forall a, a ∈ list -> Accepts r (check a) (holds a)) :
    Accepts r (list.allM check) (forall a, a ∈ list -> holds a) := by
  induction list with
  | nil => exact Accepts.pure fun _ => rfl
  | cons a rest ih =>
      rw [List.forall_mem_cons] at h
      intro r1 answer r2 hwalk hrun
      rcases Decides.run_allM_cons hrun with ⟨hstop, rfl⟩ | ⟨r3, hstep, hgo⟩
      · rcases h.1 hwalk hstop with ⟨hwalk2, hfirst⟩
        exact ⟨hwalk2, fun hall => hfirst (hall a List.mem_cons_self)⟩
      · rcases ih h.2 (h.1 hwalk hstep).1 hgo with ⟨hwalk2, hrest⟩
        exact ⟨hwalk2, fun hall => hrest fun b hb => hall b (List.mem_cons_of_mem a hb)⟩

theorem reference {find : Lookup} (hfind : r.Lasting find) {id : ShapeId}
    {check : Shape -> StateM Registry Bool} {holds : Shape -> Prop}
    (h : forall s, Accepts r (check s) (holds s)) :
    Accepts r
      (do
        match <- (resolve id).run with
        | .ok s => check s
        | .error _ => return false)
      (exists s, find id s ∧ holds s) := by
  intro r1 answer r2 hwalk hrun
  rcases Decides.run_reference hrun with ⟨s, r3, hresolve, hgo⟩ | ⟨failure, hresolve, rfl⟩
  · rcases h s (hwalk.trans (resolve_walked hresolve).1) hgo with ⟨hwalk2, hshape⟩
    refine ⟨hwalk2, ?_⟩
    intro hfound
    rcases hfound with ⟨u, hu, hholds⟩
    rcases hfind hu hwalk with ⟨r4, hresolve'⟩
    rw [hresolve'] at hresolve
    cases hresolve
    exact hshape hholds
  · refine ⟨hwalk.trans (resolve_walked hresolve).1, ?_⟩
    intro hfound
    rcases hfound with ⟨u, hu, _⟩
    rcases hfind hu hwalk with ⟨r4, hresolve'⟩
    rw [hresolve'] at hresolve
    cases hresolve

end Accepts

theorem fieldsMatch_accepts {r : Registry} {find : Lookup} {levels : Nat}
    (htype : forall t value, Accepts r (typeMatches levels t value)
      (TypeFits find levels t value))
    (fields : Table FieldType) (members : List (String × Json)) :
    Accepts r
      (fields.entries.allM fun (key, t) =>
        match members.lookup key with
        | some v => typeMatches levels t v
        | none => return t.admitsUndefined)
      (forall e, e ∈ fields.entries ->
        MemberFits (TypeFits find levels e.2) e.2 (members.lookup e.1)) := by
  apply Accepts.allM
  intro e _
  simp only
  cases members.lookup e.1 with
  | some v => exact htype e.2 v
  | none => exact Accepts.pure id

/-- A check says yes to what is seen with the levels it has and with lasting references. -/
theorem Lasting.matches_accept {r : Registry} {find : Lookup} (hfind : r.Lasting find)
    (levels : Nat) :
    (forall t value, Accepts r (typeMatches levels t value)
        (TypeFits find levels t value)) ∧
      forall s value, Accepts r (shapeMatches levels s value)
        (ShapeFits find levels s value) := by
  induction levels with
  | zero =>
      constructor
      · intro t value
        apply Accepts.pure
        intro h
        simp only [TypeFits] at h
      · intro s value
        apply Accepts.pure
        intro h
        simp only [ShapeFits] at h
  | succ levels ih =>
      rcases ih with ⟨htype, hshape⟩
      constructor
      · intro t value
        unfold typeMatches TypeFits
        cases t with
        | keyword word => exact Accepts.pure id
        | literal literal => exact Accepts.pure id
        | reference id => exact Accepts.reference hfind fun s => hshape s value
        | union members => exact Accepts.anyM fun m _ => htype m value
        | intersection members => exact Accepts.allM fun m _ => htype m value
      · intro s value
        unfold shapeMatches ShapeFits
        cases s with
        | object name fields =>
            cases value with
            | obj members =>
                apply (fieldsMatch_accepts htype fields members).imp
                intro hmembers
                rcases hmembers with ⟨given, hsame, hmembers⟩
                cases hsame
                exact fun e he => hmembers e.1 e.2 he
            | null | bool | num | str | arr =>
                apply Accepts.pure
                intro h
                rcases h with ⟨members, hvalue, _⟩
                cases hvalue
        | union name members => exact Accepts.anyM fun m _ => hshape m value
        | keyword word => exact Accepts.pure id
        | literal literal => exact Accepts.pure id

theorem matches_accept {r : Registry} (hresolves : forall id, r.Resolves (.reference id))
    (levels : Nat) :
    (forall t value, Accepts r (typeMatches levels t value)
        (TypeFits r.Flattens levels t value)) ∧
      forall s value, Accepts r (shapeMatches levels s value)
        (ShapeFits r.Flattens levels s value) :=
  Lasting.matches_accept (fun id _ _ hs hwalk => (hresolves id).reference hs hwalk) levels

section Exact

variable {r : Registry} {levels : Nat} {value : Json}

theorem typeMatches_iff (hr : r.Faithful) (hresolves : forall id, r.Resolves (.reference id))
    {t : FieldType} :
    ((typeMatches levels t value).run r).1 = true <-> TypeFits r.Flattens levels t value := by
  constructor
  · intro hyes
    exact (typeMatches_decides levels t value).accepted hr hyes
  · intro hfits
    exact ((matches_accept hresolves levels).1 t value (.refl [] r) rfl).2 hfits

theorem shapeMatches_iff (hr : r.Faithful) (hresolves : forall id, r.Resolves (.reference id))
    {s : Shape} :
    ((shapeMatches levels s value).run r).1 = true <-> ShapeFits r.Flattens levels s value := by
  constructor
  · intro hyes
    exact (shapeMatches_decides levels s value).accepted hr hyes
  · intro hfits
    exact ((matches_accept hresolves levels).2 s value (.refl [] r) rfl).2 hfits

end Exact

theorem low_of_flattenWithin {r : Registry} (hr : r.arena.Numbered) {a b : Nat} (levels : Nat)
    (h : forall i, i < r.size ->
      (r.flattenWithin levels ⟨i + 1⟩).any (fun u => u.height ≤ a ∧ u.fieldHeight ≤ b) = true) :
    Low r.Flattens a b := by
  intro id u hu
  rcases hu with ⟨more, hmore⟩
  rcases flattenWithin_succ_eq_some_iff.mp (flattenWithin_succ hmore) with ⟨d, hd, _⟩
  have hrange := hr.exists_get?_iff.mp ⟨d, hd⟩
  have hid : id = ⟨id.index - 1 + 1⟩ := by
    rw [Nat.sub_add_cancel hrange.1]
  have hbounds := h (id.index - 1) (Nat.sub_one_lt_of_le hrange.1 hrange.2)
  rw [← hid, Option.any_eq_true] at hbounds
  rcases hbounds with ⟨v, hv, hbounds⟩
  rw [flattens_unique ⟨more, hmore⟩ ⟨levels, hv⟩]
  simpa using hbounds

/--
How far the answer of a check can be relied on.  A value that is accepted belongs to the
shape, however deep it is.  A value that belongs to the shape is accepted as long as the
levels last for the heights of the shapes and types at each depth of the value.
-/
theorem matching_is_exact_while_levels_last {r : Registry} (hr : r.Reachable)
    (hresolves : forall id, r.Resolves (.reference id)) {a b : Nat} (hlow : Low r.Flattens a b)
    {s : Shape} (hs : s.fieldHeight ≤ b) (value : Json) :
    (((matchesShape s value).run r).1 = true -> ShapeHolds r.Flattens s value) ∧
      (s.height + value.depth * (a + b) ≤ 129 ->
        (((matchesShape s value).run r).1 = true <-> ShapeHolds r.Flattens s value)) := by
  rcases hrun : (matchesShape s value).run r with ⟨answer, r'⟩
  have hdecides := shapeMatches_decides (maxValueDepth + 1) s value
  have hsound : answer = true -> ShapeHolds r.Flattens s value := by
    intro hanswer
    subst hanswer
    have hwalk := hdecides.walked hrun
    refine ⟨maxValueDepth + 1, hdecides.mono ?_ (hdecides.sound hrun)⟩
    intro id u hu
    exact hwalk.sameDeclarations.flattens_iff.mp ((hwalk.faithful hr.faithful).flattens hu)
  refine ⟨hsound, ?_⟩
  intro hlevels
  refine ⟨hsound, ?_⟩
  intro hholds
  have hfits : ShapeFits r.Flattens (maxValueDepth + 1) s value :=
    seen hlow value.depth s value _ (Nat.le_refl _) hs hlevels hholds
  exact ((matches_accept hresolves (maxValueDepth + 1)).2 s value (.refl [] r) hrun).2 hfits

/-!
# Lists

A list that is declared by a reference or `null` takes three levels for each
element, which is more than the nesting of its values shows.
-/

/-- A registry with lists, which have a tail or end. -/
def rows : Registry :=
  ((declare "Row" .mergeable [("next", .union [.reference ⟨1⟩, .keyword .null])]).run
    (empty .common)).2

theorem rows_reachable : rows.Reachable :=
  ⟨.common, .single (.declare "Row" .mergeable [("next", .union [.reference ⟨1⟩, .keyword .null])])⟩

def rowShape : Shape :=
  .object (some "Row") ⟨[("next", .union [.reference ⟨1⟩, .keyword .null])], by simp⟩

theorem rows_flattens : rows.Flattens ⟨1⟩ rowShape :=
  ⟨1, by with_unfolding_all rfl⟩

theorem rows_low : Low rows.Flattens 1 2 :=
  low_of_flattenWithin rows_reachable.coherent.numbered 1 (by decide +kernel)

/-- A list of so many objects. -/
def row : Nat -> Json
  | 0 => .null
  | n + 1 => .obj [("next", row n)]

theorem depth_row (n : Nat) : (row n).depth = n := by
  induction n with
  | zero => rfl
  | succ n ih => simp [row, Json.depth, Json.deepestMember, ih]

theorem shapeHolds_row (n : Nat) : ShapeHolds rows.Flattens rowShape (row (n + 1)) := by
  induction n with
  | zero =>
      refine shapeHolds_object.mpr ⟨_, rfl, ?_⟩
      intro key t ht
      cases List.mem_singleton.mp ht
      exact typeHolds_union.mpr ⟨.keyword .null, by simp, typeHolds_keyword.mpr rfl⟩
  | succ n ih =>
      refine shapeHolds_object.mpr ⟨_, rfl, ?_⟩
      intro key t ht
      cases List.mem_singleton.mp ht
      refine typeHolds_union.mpr ⟨.reference ⟨1⟩, by simp, ?_⟩
      exact typeHolds_reference.mpr ⟨rowShape, rows_flattens, ih⟩

theorem matching_is_exact_while_levels_last_rows :
    rowShape.height + (row 42).depth * (1 + 2) ≤ 129 ∧
      ((matchesShape rowShape (row 42)).run rows).1 = true := by
  have hresolves : forall id, rows.Resolves (.reference id) := fun id =>
    resolves_of_small rows_reachable.faithful (by decide +kernel) (.reference id)
  have hlevels : rowShape.height + (row 42).depth * (1 + 2) ≤ 129 := by
    rw [depth_row]
    decide
  have hexact := (matching_is_exact_while_levels_last rows_reachable hresolves rows_low
    (s := rowShape) (by decide) (row 42)).2 hlevels
  exact ⟨hlevels, hexact.mpr (shapeHolds_row 41)⟩

theorem rows_resolve : ((resolve ⟨1⟩).run rows).1 = .ok rowShape := by
  have hsize : rows.size = 1 := by decide +kernel
  apply resolve_of_flattens rows_reachable.faithful _ _ rows_flattens
  · intro path hpath
    have hlength := hpath.length_le rows_flattens
    rw [hsize] at hlength
    exact Nat.le_trans hlength (by decide)
  · rw [hsize]
    decide

/--
A list of forty-four objects is a list like any other, and it is nested forty-four deep;
yet it is rejected.
-/
theorem long_rows_are_rejected :
    (row 44).depth = 44 ∧ ((resolve ⟨1⟩).run rows).1 = .ok rowShape ∧
      ShapeHolds rows.Flattens rowShape (row 44) ∧
      ((matchesShape rowShape (row 43)).run rows).1 = true ∧
      ((matchesShape rowShape (row 44)).run rows).1 = false :=
  ⟨depth_row 44, rows_resolve, shapeHolds_row 43, by decide +kernel, by decide +kernel⟩

end Registry

end Shapes
