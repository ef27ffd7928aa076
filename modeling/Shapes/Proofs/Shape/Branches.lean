import Shapes.Proofs.Shape.Joint

/-!
# Branches of shapes

The branches of a shape are the shapes that are not unions which it is a choice of.
A union has the branches of its operands, up to identity, and is made of the types
that they are made of.
-/

namespace Shapes
namespace Shape

/-!
# Branches

A shape is a choice of its branches, however its unions are nested.
-/

mutual

/-- The members of a union and of the unions among them; any other shape by itself. -/
def branches : Shape -> List Shape
  | union _ members => allBranches members
  | s => [s]

def allBranches : List Shape -> List Shape
  | [] => []
  | s :: rest => branches s ++ allBranches rest

end

theorem mem_branches_union {name : Option String} {members : List Shape} {x : Shape} :
    x ∈ branches (union name members) <-> exists m, m ∈ members ∧ x ∈ m.branches := by
  rw [branches]
  induction members with
  | nil => simp [allBranches]
  | cons s rest ih => simp [allBranches, ih]

theorem Single.branches {s : Shape} (h : s.Single) : s.branches = [s] := by
  cases s with
  | union name members => exact absurd rfl (h name members)
  | object | keyword | literal => rfl

theorem single_of_mem_branches {s x : Shape} (h : x ∈ s.branches) : x.Single := by
  induction s using memberInduction with
  | union name members ih =>
      rcases mem_branches_union.mp h with ⟨m, hm, hx⟩
      exact ih m hm hx
  | object | keyword | literal =>
      cases List.mem_singleton.mp h
      simp [Single]

theorem exists_same_branch {s t : Shape} (h : s.same t = true) {y : Shape}
    (hy : y ∈ t.branches) : exists x, x ∈ s.branches ∧ x.same y = true := by
  induction s using memberInduction generalizing t with
  | union name members ih =>
      cases t with
      | union other others =>
          rcases mem_branches_union.mp hy with ⟨m, hm, hym⟩
          rcases (same_union_iff.mp h).2 m hm with ⟨m', hm', hsame⟩
          rcases ih m' hm' hsame hym with ⟨x, hx, hxy⟩
          exact ⟨x, mem_branches_union.mpr ⟨m', hm', hx⟩, hxy⟩
      | object | keyword | literal => cases h
  | object | keyword | literal =>
      cases t with
      | union => cases h
      | object | keyword | literal =>
          cases List.mem_singleton.mp hy
          exact ⟨_, List.mem_singleton_self _, h⟩

section Made

variable {good : FieldType -> Prop}

theorem made_union_iff {name : Option String} {members : List Shape} :
    Made good (union name members) <-> members ≠ [] ∧ forall m, m ∈ members -> Made good m := by
  have hall : AllMade good members <-> forall m, m ∈ members -> Made good m := by
    induction members with
    | nil => simp [AllMade]
    | cons s rest ih => simp [AllMade, ih]
  rw [Made, hall]

theorem Made.branches_ne_nil {s : Shape} (h : Made good s) : s.branches ≠ [] := by
  induction s using memberInduction with
  | union name members ih =>
      rcases made_union_iff.mp h with ⟨hsome, hmembers⟩
      rcases List.exists_mem_of_ne_nil members hsome with ⟨m, hm⟩
      rcases List.exists_mem_of_ne_nil _ (ih m hm (hmembers m hm)) with ⟨x, hx⟩
      exact List.ne_nil_of_mem (mem_branches_union.mpr ⟨m, hm, hx⟩)
  | object | keyword | literal => simp [branches]

theorem Made.branch {s x : Shape} (h : Made good s) (hx : x ∈ s.branches) : Made good x := by
  induction s using memberInduction with
  | union name members ih =>
      rcases mem_branches_union.mp hx with ⟨m, hm, hxm⟩
      exact ih m hm ((made_union_iff.mp h).2 m hm) hxm
  | object | keyword | literal =>
      cases List.mem_singleton.mp hx
      exact h

theorem Made.unionParts {s : Shape} (h : Made good s) :
    s.unionParts ≠ [] ∧ forall part, part ∈ s.unionParts -> Made good part := by
  cases s with
  | union name members => exact made_union_iff.mp h
  | object | keyword | literal =>
      constructor
      · simp [Shape.unionParts]
      · intro part hpart
        cases List.mem_singleton.mp hpart
        exact h

theorem Made.and {good' both : FieldType -> Prop} (himp : forall t, good t -> good' t -> both t)
    {s : Shape} (h : Made good s) (h' : Made good' s) : Made both s := by
  induction s using memberInduction with
  | object name fields => exact fun key t ht => himp t (h key t ht) (h' key t ht)
  | union name members ih =>
      rcases made_union_iff.mp h with ⟨hsome, hmembers⟩
      apply made_union_iff.mpr
      constructor
      · exact hsome
      · intro m hm
        exact ih m hm (hmembers m hm) ((made_union_iff.mp h').2 m hm)
  | keyword word => exact himp _ h h'
  | literal value => exact himp _ h h'

end Made

/-!
# Unions

A union succeeds unless it has no members, and every branch of an operand is
identical to a branch of the result.
-/

section Unite

variable {shapes : List Shape} {s : Shape}

theorem unite_cases (h : unite shapes = .ok s) :
    shapes ≠ [] ∧ (distinctBy same (shapes.flatMap unionParts) = [s] ∨
      s = .union none (distinctBy same (shapes.flatMap unionParts)) ∧
        forall only, distinctBy same (shapes.flatMap unionParts) ≠ [only]) := by
  unfold unite at h
  split at h
  · cases h
  · rename_i hsome
    constructor
    · simpa using hsome
    · split at h
      · rename_i only honly
        cases h
        exact Or.inl honly
      · rename_i hmany
        cases h
        exact Or.inr ⟨rfl, hmany⟩

theorem eq_nil_of_unite_eq_error {failure : Failure} (h : unite shapes = .error failure) :
    shapes = [] := by
  unfold unite at h
  split at h
  · rename_i hnone
    exact List.isEmpty_iff.mp hnone
  · split at h
    · cases h
    · cases h

theorem mem_branches_unite (h : unite shapes = .ok s) {z : Shape} :
    z ∈ s.branches <->
      exists part, part ∈ distinctBy same (shapes.flatMap unionParts) ∧ z ∈ part.branches := by
  rcases (unite_cases h).2 with honly | ⟨rfl, _⟩
  · simp [honly]
  · exact mem_branches_union

theorem mem_branches_unionParts {x z : Shape} :
    z ∈ x.branches <-> exists part, part ∈ x.unionParts ∧ z ∈ part.branches := by
  cases x with
  | union name members => exact mem_branches_union
  | object | keyword | literal => simp [unionParts]

theorem exists_of_branch_unite (h : unite shapes = .ok s) {z : Shape} (hz : z ∈ s.branches) :
    exists x, x ∈ shapes ∧ z ∈ x.branches := by
  rcases (mem_branches_unite h).mp hz with ⟨part, hpart, hzpart⟩
  rcases List.mem_flatMap.mp (mem_of_mem_distinctBy hpart) with ⟨x, hx, hpartx⟩
  exact ⟨x, hx, mem_branches_unionParts.mpr ⟨part, hpartx, hzpart⟩⟩

theorem exists_branch_unite (h : unite shapes = .ok s) {x z : Shape} (hx : x ∈ shapes)
    (hz : z ∈ x.branches) : exists z', z' ∈ s.branches ∧ z.same z' = true := by
  rcases mem_branches_unionParts.mp hz with ⟨part, hpart, hzpart⟩
  have hfound : exists part, part ∈ shapes.flatMap unionParts ∧
      exists z', z' ∈ part.branches ∧ z'.same z = true := by
    rcases exists_same_branch (same_refl part) hzpart with ⟨z', hz', hsame⟩
    exact ⟨part, List.mem_flatMap.mpr ⟨x, hx, hpart⟩, z', hz', hsame⟩
  have hrelated : forall a b, a ∈ shapes.flatMap unionParts -> b ∈ shapes.flatMap unionParts ->
      a.same b = true -> (exists z', z' ∈ b.branches ∧ z'.same z = true) ->
        exists z', z' ∈ a.branches ∧ z'.same z = true := by
    intro a b _ _ hab hfound
    rcases hfound with ⟨y, hy, hyz⟩
    rcases exists_same_branch hab hy with ⟨x, hx, hxy⟩
    exact ⟨x, hx, same_trans hxy hyz⟩
  rcases (exists_mem_distinctBy same _ hrelated).mpr hfound with ⟨part', hpart', z', hz', hsame⟩
  exact ⟨z', (mem_branches_unite h).mpr ⟨part', hpart', hz'⟩, same_symm hsame⟩

theorem made_unite {good : FieldType -> Prop} (hmade : forall x, x ∈ shapes -> Made good x)
    (h : unite shapes = .ok s) : Made good s := by
  have hparts : forall m, m ∈ distinctBy same (shapes.flatMap unionParts) -> Made good m := by
    intro m hm
    rcases List.mem_flatMap.mp (mem_of_mem_distinctBy hm) with ⟨x, hx, hmx⟩
    exact (hmade x hx).unionParts.2 m hmx
  rcases unite_cases h with ⟨hsome, honly | ⟨rfl, _⟩⟩
  · apply hparts
    rw [honly]
    exact List.mem_singleton_self s
  · apply made_union_iff.mpr
    constructor
    · intro hnone
      rw [distinctBy_eq_nil_iff, List.flatMap_eq_nil_iff] at hnone
      rcases List.exists_mem_of_ne_nil shapes hsome with ⟨x, hx⟩
      exact (hmade x hx).unionParts.1 (hnone x hx)
    · exact hparts

end Unite

end Shape
end Shapes
