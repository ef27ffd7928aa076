import Mathlib.Data.List.Chain
import Mathlib.Data.List.Nodup
import Mathlib.Data.List.Perm.Subperm
import Shapes.Proofs.Registry.Flattening

/-!
# Paths of dependencies

A walk goes along dependencies, so the shapes on its trail form a path from one
of the shapes it started with to the one at hand, newest first.  Such a path
turns a shape that is met again into a cycle, and a long trail into a long path.
-/

namespace Shapes
namespace Registry

/-- A path along dependencies from a shape through distinct shapes that are not kept. -/
structure FreshPath (r : Registry) (id : ShapeId) (path : List ShapeId) : Prop where
  head : path.head? = some id
  chain : path.IsChain r.Depends
  nodup : path.Nodup
  fresh : forall b, b ∈ path -> r.arena.cached? b = none

theorem length_le_size {r : Registry} {path : List ShapeId} (hnodup : path.Nodup)
    (hdeclared : forall b, b ∈ path -> exists d, r.arena.get? b = some d) :
    path.length ≤ r.size := by
  have hsubset : path ⊆ r.arena.ids :=
    fun b hb => Arena.exists_get?_iff_mem_ids.mp (hdeclared b hb)
  calc path.length ≤ r.arena.ids.length := (hnodup.subperm hsubset).length_le
    _ = r.size := List.length_map _

/-- The shapes that a walk with a given trail may come to next. -/
def Next (r : Registry) (roots : List ShapeId) : List ShapeId -> ShapeId -> Prop
  | [], id => id ∈ roots
  | top :: _, id => r.Depends top id

/-- The trails that a walk along dependencies leaves, newest shape first. -/
inductive Trace (r : Registry) (roots : List ShapeId) : List ShapeId -> Prop where
  | nil : Trace r roots []
  | cons {id : ShapeId} {rest : List ShapeId} : r.Next roots rest id -> id ∉ rest ->
      Trace r roots rest -> Trace r roots (id :: rest)

/-- A shape is looked at from one of the shapes that a walk started with. -/
def ReachedFrom (r : Registry) (roots : List ShapeId) (id : ShapeId) : Prop :=
  exists root, root ∈ roots ∧ r.Reaches root id

namespace Trace

variable {r : Registry} {roots : List ShapeId}

theorem nodup {visiting : List ShapeId} (h : r.Trace roots visiting) : visiting.Nodup := by
  induction h with
  | nil => exact List.nodup_nil
  | cons _ hnew _ ih => exact List.nodup_cons.mpr ⟨hnew, ih⟩

theorem reaches_next {visiting : List ShapeId} (h : r.Trace roots visiting)
    {a id : ShapeId} (ha : a ∈ visiting) (hid : r.Next roots visiting id) :
    Relation.TransGen r.Depends a id := by
  induction h generalizing id with
  | nil => cases ha
  | cons hnext _ _ ih =>
      rcases List.mem_cons.mp ha with rfl | ha
      · exact .single hid
      · exact (ih ha hnext).tail hid

theorem reachedFrom {visiting : List ShapeId} (h : r.Trace roots visiting) {id : ShapeId}
    (hid : r.Next roots visiting id) : r.ReachedFrom roots id := by
  induction h generalizing id with
  | nil => exact ⟨id, hid, .refl⟩
  | cons hnext _ _ ih =>
      rcases ih hnext with ⟨root, hroot, hreach⟩
      exact ⟨root, hroot, hreach.tail hid⟩

theorem onCycle {visiting : List ShapeId} (h : r.Trace roots visiting) {id : ShapeId}
    (hid : r.Next roots visiting id) (hmem : id ∈ visiting) : r.OnCycle id :=
  h.reaches_next hmem hid

theorem isChain {visiting : List ShapeId} (h : r.Trace roots visiting) {id : ShapeId}
    (hid : r.Next roots visiting id) :
    (id :: visiting).IsChain fun a b => r.Depends b a := by
  induction h generalizing id with
  | nil => exact List.isChain_singleton id
  | cons hnext _ _ ih => exact List.isChain_cons_cons.mpr ⟨hid, ih hnext⟩

theorem getLast?_mem_roots {visiting : List ShapeId} (h : r.Trace roots visiting)
    {id : ShapeId} (hid : r.Next roots visiting id) :
    exists root, root ∈ roots ∧ (id :: visiting).getLast? = some root := by
  induction h generalizing id with
  | nil => exact ⟨id, hid, rfl⟩
  | cons hnext _ _ ih =>
      rcases ih hnext with ⟨root, hroot, hlast⟩
      refine ⟨root, hroot, ?_⟩
      rw [List.getLast?_cons_cons]
      exact hlast

theorem freshPath {visiting : List ShapeId} (h : r.Trace roots visiting) {id : ShapeId}
    (hid : r.Next roots visiting id) (hnew : id ∉ visiting)
    (hfresh : forall b, b ∈ id :: visiting -> r.arena.cached? b = none) :
    exists root, root ∈ roots ∧ r.FreshPath root (id :: visiting).reverse := by
  rcases h.getLast?_mem_roots hid with ⟨root, hroot, hlast⟩
  refine ⟨root, hroot, ?_, ?_, ?_, ?_⟩
  · rw [List.head?_reverse]
    exact hlast
  · exact List.isChain_reverse.mpr (h.isChain hid)
  · exact List.nodup_reverse.mpr (List.nodup_cons.mpr ⟨hnew, h.nodup⟩)
  · intro b hb
    exact hfresh b (List.mem_reverse.mp hb)

end Trace

theorem OnCycle.exists_name {r : Registry} {id : ShapeId} (h : r.OnCycle id) :
    exists name, r.arena.name? id = some name := by
  rcases Relation.TransGen.head'_iff.mp h with ⟨b, ⟨d, hd, _⟩, _⟩
  exact ⟨d.name, by simp [Arena.name?, hd]⟩

end Registry
end Shapes
