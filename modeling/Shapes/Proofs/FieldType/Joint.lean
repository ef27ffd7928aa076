import Shapes.Proofs.Choices
import Shapes.Proofs.FieldType.Normal

/-!
# What is left of types that were met

When several types are met one after the other, the result can be described by the
types that went into it, without their order.  `FieldType.Gathering` says what such a
description has to do, and there are two of them: `FieldType.Common` for viable types,
which tells where the result is clear, and `FieldType.Exact` for orderly types, which
tells the branches of the result and with them the result itself, up to identity.
-/

namespace Shapes
namespace FieldType

/-- A description of meets by the types that went into them. -/
structure Gathering (good : FieldType -> Prop) (joint : List FieldType -> FieldType -> Prop) :
    Prop where
  viable : forall {t}, good t -> t.Viable
  unit : forall {t}, good t -> joint [t] t
  clear : forall {types t}, joint types t ->
    forall point, Clear point t <-> forall u, u ∈ types -> Clear point u
  same : forall {types t u}, t.same u = true -> joint types t -> joint types u
  perm : forall {types others t}, types.Perm others -> joint types t -> joint others t
  good_meet : forall {a b c}, good a -> good b -> a.meet? b = some c -> good c
  joint_meet : forall {a b c}, good a -> good b -> a.meet? b = some c ->
    forall {types others}, joint types a -> joint others b -> joint (types ++ others) c

/-!
# Where a meet is clear

A meet is clear at the points where all of the types that went into it are,
whatever their order was.
-/

/-- A type is clear where all of several types are. -/
structure Common (types : List FieldType) (t : FieldType) : Prop where
  nonempty : types ≠ []
  clear : forall point, Clear point t <-> forall u, u ∈ types -> Clear point u

theorem gathering_common : Gathering Viable Common where
  viable := fun h => h
  unit := fun _ => ⟨by simp, by simp⟩
  clear := Common.clear
  same := by
    intro types t u hsame hcommon
    constructor
    · exact hcommon.nonempty
    · intro point
      rw [← hcommon.clear point]
      exact (branching_clear point).same (same_symm hsame)
  perm := by
    intro types others t hperm hcommon
    constructor
    · intro hnil
      subst hnil
      exact hcommon.nonempty hperm.eq_nil
    · intro point
      rw [hcommon.clear point]
      exact forall_congr' fun u => by rw [hperm.mem_iff]
  good_meet := viable_meet?
  joint_meet := by
    intro a b c ha hb hc types others hfirst hsecond
    constructor
    · simp [hfirst.nonempty]
    · intro point
      have hmeet := clear_meet? point ha hb
      rw [hc] at hmeet
      rw [List.forall_mem_append, ← hfirst.clear point, ← hsecond.clear point]
      exact hmeet

/-!
# Which branches a meet has

A branch of the result is made of one branch of each type that was met, and
there is one for every choice of branches that hold together.
-/

/-- A type that holds just where all of several types do. -/
def Conjoins (picks : List FieldType) (z : FieldType) : Prop :=
  forall point, At point z <-> forall x, x ∈ picks -> At point x

/-- Types that hold at a common point. -/
def Consistent (picks : List FieldType) : Prop :=
  exists point, forall x, x ∈ picks -> At point x

/-- The branches of a type are those of several types, taken together in all ways. -/
structure Exact (types : List FieldType) (t : FieldType) : Prop where
  common : Common types t
  gathers : Gathers Conjoins Consistent (types.map branches) t.branches

theorem Conjoins.perm {picks picks' : List FieldType} {z : FieldType} (hperm : picks.Perm picks')
    (h : Conjoins picks z) : Conjoins picks' z := by
  intro point
  rw [h point]
  exact forall_congr' fun x => by rw [hperm.mem_iff]

theorem Consistent.perm {picks picks' : List FieldType} (hperm : picks.Perm picks')
    (h : Consistent picks) : Consistent picks' := by
  rcases h with ⟨point, hall⟩
  exact ⟨point, fun x hx => hall x (hperm.mem_iff.mpr hx)⟩

theorem Conjoins.both {ps qs : List FieldType} {x y z : FieldType} (hx : Conjoins ps x)
    (hy : Conjoins qs y) (h : Both x y z) : Conjoins (ps ++ qs) z := by
  intro point
  rw [h point, hx point, hy point, List.forall_mem_append]

theorem gathers_of_same {types : List FieldType} {t u : FieldType} (hsame : t.same u = true)
    (h : Gathers Conjoins Consistent (types.map branches) t.branches) :
    Gathers Conjoins Consistent (types.map branches) u.branches := by
  constructor
  · intro picks hpicks hconsistent
    rcases h.onto picks hpicks hconsistent with ⟨x, hx, hjoint⟩
    rcases exists_same_branch hsame hx with ⟨y, hy, hxy⟩
    exact ⟨y, hy, fun point => (at_iff_of_same hxy).symm.trans (hjoint point)⟩
  · intro y hy
    rcases exists_same_branch (same_symm hsame) hy with ⟨x, hx, hyx⟩
    rcases h.into x hx with ⟨picks, hpicks, hjoint⟩
    exact ⟨picks, hpicks, fun point => (at_iff_of_same hyx).trans (hjoint point)⟩

theorem gathering_exact : Gathering Orderly Exact where
  viable := Orderly.viable
  unit := by
    intro t ht
    constructor
    · exact gathering_common.unit ht.viable
    · apply gathers_singleton
      intro x _ point
      simp
  clear := fun h => h.common.clear
  same := fun hsame h => ⟨gathering_common.same hsame h.common, gathers_of_same hsame h.gathers⟩
  perm := fun hperm h =>
    ⟨gathering_common.perm hperm h.common,
      h.gathers.perm (hperm.map branches) Conjoins.perm Consistent.perm⟩
  good_meet := fun ha hb hc => (orderly_meet? ha hb hc).1
  joint_meet := by
    intro a b c ha hb hc types others hfirst hsecond
    have hspread := (orderly_meet? ha hb hc).2
    constructor
    · exact gathering_common.joint_meet ha.viable hb.viable hc hfirst.common hsecond.common
    · rw [List.map_append]
      apply hfirst.gathers.append hsecond.gathers
      · intro ps qs hconsistent
        rcases hconsistent with ⟨point, hall⟩
        rw [List.forall_mem_append] at hall
        exact ⟨⟨point, hall.1⟩, ⟨point, hall.2⟩⟩
      · intro x hx y hy ps qs hjointx hjointy hconsistent
        rcases hconsistent with ⟨point, hall⟩
        rw [List.forall_mem_append, ← hjointx point, ← hjointy point] at hall
        rcases hspread.onto x hx y hy point hall.1 hall.2 with ⟨z, hz, hboth⟩
        exact ⟨z, hz, hjointx.both hjointy hboth⟩
      · intro z hz
        rcases hspread.into z hz with ⟨x, hx, y, hy, hboth⟩
        exact ⟨x, hx, y, hy, fun ps qs hjointx hjointy => hjointx.both hjointy hboth⟩

/-- Two results of the same types are identical, in whatever order the types were met. -/
theorem Exact.unique {types : List FieldType} {t u : FieldType} (ht : t.Orderly)
    (hu : u.Orderly) (h : Exact types t) (h' : Exact types u) : t.same u = true := by
  have hconsistent : forall {v : FieldType}, v.Orderly -> forall z, z ∈ v.branches ->
      forall picks, Conjoins picks z -> Consistent picks := by
    intro v hv z hz picks hjoint
    rcases (hv.normal.normalBranch hv.viable hz).exists_at with ⟨point, hholds⟩
    exact ⟨point, (hjoint point).mp hholds⟩
  apply ht.normal.same_of_branches hu.normal ht.viable hu.viable
  · intro x hx
    rcases h.gathers.exists_joint h'.gathers (hconsistent ht) hx with
      ⟨y, hy, picks, hjointx, hjointy⟩
    exact ⟨y, hy, fun point => (hjointx point).trans (hjointy point).symm⟩
  · intro y hy
    rcases h'.gathers.exists_joint h.gathers (hconsistent hu) hy with
      ⟨x, hx, picks, hjointy, hjointx⟩
    exact ⟨x, hx, fun point => (hjointx point).trans (hjointy point).symm⟩

end FieldType
end Shapes
