import Mathlib.Data.List.Nodup
import Mathlib.Logic.Encodable.Basic
import Mathlib.Logic.Equiv.List
import Shapes.Proofs.Registry.ByName
import Shapes.Proofs.Registry.Relabel

/-!
# The same definitions under other identifiers

Identifiers say when a name was registered.  `Registry.label` has identifiers say the
name instead, which makes registries comparable: when the labelled definitions of two
registries agree under every name, then one of the registries is the other one with
other identifiers.
-/

namespace Shapes
namespace Registry

/-!
# Labels

A name is written as a number, so that the label of an identifier does not
depend on when its name was registered.
-/

/-- An identifier that says a name. -/
def labelOf (name : String) : ShapeId :=
  ⟨2 * Encodable.encode (name.toList.map Char.toNat)⟩

theorem labelOf_injective : Function.Injective labelOf := by
  intro name other h
  have hcodes : Encodable.encode (name.toList.map Char.toNat) =
      Encodable.encode (other.toList.map Char.toNat) :=
    Nat.eq_of_mul_eq_mul_left Nat.two_pos (congrArg ShapeId.index h)
  have hchar : Function.Injective Char.toNat :=
    fun c d hcd => Char.ext (UInt32.toNat_inj.mp hcd)
  exact String.toList_inj.mp (hchar.list_map (Encodable.encode_injective hcodes))

/-- The label of an identifier; those that are not in use are told apart. -/
def label (r : Registry) (id : ShapeId) : ShapeId :=
  match r.arena.get? id with
  | some d => labelOf d.name
  | none => ⟨2 * id.index + 1⟩

section Label

variable {r : Registry} {id : ShapeId}

theorem label_of_some {d : Definition} (h : r.arena.get? id = some d) :
    r.label id = labelOf d.name := by
  simp [label, h]

theorem label_of_none (h : r.arena.get? id = none) : r.label id = ⟨2 * id.index + 1⟩ := by
  simp [label, h]

theorem label_of_lookup? (hr : r.Coherent) {name : String} (h : r.lookup? name = some id) :
    r.label id = labelOf name := by
  rcases hr.definition h with ⟨d, hd, rfl⟩
  exact label_of_some hd

theorem label_injective (hr : r.Coherent) : Function.Injective r.label := by
  intro id other h
  cases hd : r.arena.get? id with
  | some d =>
      cases he : r.arena.get? other with
      | some e =>
          rw [label_of_some hd, label_of_some he] at h
          have hid := hr.name hd
          rw [labelOf_injective h, hr.name he] at hid
          exact (Option.some.inj hid).symm
      | none =>
          rw [label_of_some hd, label_of_none he] at h
          have hparity := congrArg ShapeId.index h
          simp only [labelOf] at hparity
          omega
  | none =>
      cases he : r.arena.get? other with
      | some e =>
          rw [label_of_none hd, label_of_some he] at h
          have hparity := congrArg ShapeId.index h
          simp only [labelOf] at hparity
          omega
      | none =>
          rw [label_of_none hd, label_of_none he] at h
          have hindex := congrArg ShapeId.index h
          rcases id with ⟨i⟩
          rcases other with ⟨j⟩
          simp only at hindex
          congr 1
          omega

end Label

/-!
# Identifiers in use

In a coherent registry an identifier is in use exactly if some name has it.
-/

theorem Coherent.mem_names_iff {r : Registry} (hr : r.Coherent) {name : String} :
    name ∈ r.names.keys <-> r.under name ≠ none := by
  have hcontains : name ∈ r.names.keys <-> exists id, r.lookup? name = some id :=
    List.contains_iff_mem.symm.trans Table.contains_iff
  rw [hcontains, Ne, under_eq_none hr, ← Ne, Option.ne_none_iff_exists']

/-!
# Corresponding registries

The identifier of a name in one registry is carried to the identifier of the
same name in the other.
-/

/-- Under every name there is the same definition, up to identifiers. -/
structure Corresponds (r r' : Registry) : Prop where
  policy : r'.policy = r.policy
  under : forall name, (r'.under name).map (Definition.relabel r'.label) =
    (r.under name).map (Definition.relabel r.label)

/-- The identifier in another registry of the name that an identifier stands for. -/
def carry (r r' : Registry) (id : ShapeId) : ShapeId :=
  match r.arena.get? id with
  | some d => (r'.lookup? d.name).getD id
  | none => id

theorem carry_of_none {r : Registry} {id : ShapeId} (h : r.arena.get? id = none)
    (r' : Registry) : carry r r' id = id := by
  simp [carry, h]

namespace Corresponds

variable {r r' : Registry} (h : Corresponds r r')

include h

theorem under_eq_none_iff (name : String) : r'.under name = none <-> r.under name = none := by
  rw [← Option.map_eq_none_iff (f := Definition.relabel r'.label), h.under,
    Option.map_eq_none_iff]

theorem get?_eq_none_iff (hr : r.Coherent) (hr' : r'.Coherent) (id : ShapeId) :
    r'.arena.get? id = none <-> r.arena.get? id = none := by
  have hperm : r'.names.keys.Perm r.names.keys := by
    apply (List.perm_ext_iff_of_nodup r'.names.distinct r.names.distinct).mpr
    intro name
    change name ∈ r'.names.keys <-> name ∈ r.names.keys
    rw [hr'.mem_names_iff, hr.mem_names_iff, Ne, Ne, h.under_eq_none_iff]
  have hnames : r'.names.size = r.names.size := by
    simpa [Table.size, Table.keys] using hperm.length_eq
  have hsize : r'.arena.size = r.arena.size := hr'.counted.symm.trans (hnames.trans hr.counted)
  apply not_iff_not.mp
  rw [← Ne, ← Ne, Option.ne_none_iff_exists', Option.ne_none_iff_exists',
    hr'.numbered.exists_get?_iff, hr.numbered.exists_get?_iff, hsize]

section Carry

variable (hr : r.Coherent) (hr' : r'.Coherent)

include hr

theorem carry_of_some {id : ShapeId} {d : Definition} (hd : r.arena.get? id = some d) :
    r'.lookup? d.name = some (carry r r' id) ∧
      exists d', r'.arena.get? (carry r r' id) = some d' ∧
        d'.relabel r'.label = d.relabel r.label := by
  have hunder := h.under d.name
  rw [under_name hr hd] at hunder
  rcases Option.map_eq_some_iff.mp hunder with ⟨d', hd', hrelabel⟩
  rcases Option.bind_eq_some_iff.mp hd' with ⟨id', hid', hget'⟩
  have hcarry : carry r r' id = id' := by
    simp [carry, hd, hid']
  rw [hcarry]
  exact ⟨hid', d', hget', hrelabel⟩

include hr'

theorem lookup?_eq (name : String) : r'.lookup? name = (r.lookup? name).map (carry r r') := by
  cases hid : r.lookup? name with
  | none =>
      exact (under_eq_none hr').mp ((h.under_eq_none_iff name).mpr ((under_eq_none hr).mpr hid))
  | some id =>
      rcases hr.definition hid with ⟨d, hd, rfl⟩
      exact (h.carry_of_some hr hd).1

theorem label_carry (id : ShapeId) : r'.label (carry r r' id) = r.label id := by
  cases hd : r.arena.get? id with
  | some d => rw [label_of_lookup? hr' (h.carry_of_some hr hd).1, label_of_some hd]
  | none =>
      rw [carry_of_none hd, label_of_none hd,
        label_of_none ((h.get?_eq_none_iff hr hr' id).mpr hd)]

theorem carry_injective : Function.Injective (carry r r') := by
  have hlabel : r'.label ∘ carry r r' = r.label := funext (h.label_carry hr hr')
  apply Function.Injective.of_comp (f := r'.label)
  rw [hlabel]
  exact label_injective hr

theorem relabels : Relabels (carry r r') r r' := by
  have hlabel : r'.label ∘ carry r r' = r.label := funext (h.label_carry hr hr')
  refine ⟨h.policy, ?_, h.lookup?_eq hr hr', ?_⟩
  · intro id
    cases hd : r.arena.get? id with
    | some d =>
        rcases h.carry_of_some hr hd with ⟨_, d', hd', hrelabel⟩
        rw [← hlabel, ← Definition.relabel_relabel] at hrelabel
        rw [hd', Definition.relabel_injective (label_injective hr') hrelabel]
        rfl
    | none =>
        rw [carry_of_none hd, (h.get?_eq_none_iff hr hr' id).mpr hd]
        rfl
  · intro id hid
    exact carry_of_none hid r'

end Carry

end Corresponds

end Registry
end Shapes
