import Mathlib.Data.List.Nodup
import Shapes.Registry.Basic

/-!
# Reading an arena after a write

The laws of `get?` after `set` and `register`.  A definition that is set keeps its
identifier, and a new one takes the next.  As long as identifiers are handed out in this
way only, those in use run from one to the number of definitions, so that the next one
is new.
-/

namespace Shapes
namespace Arena

variable {a : Arena} {id other : ShapeId} {d old found : Definition}

/-!
# Identifiers in use

An identifier is in use when an entry of the arena has it.
-/

def ids (a : Arena) : List ShapeId :=
  a.entries.map Prod.fst

theorem exists_get?_iff_mem_ids : (exists d, a.get? id = some d) <-> id ∈ a.ids := by
  unfold get? ids
  induction a.entries with
  | nil => simp
  | cons e rest ih =>
      rcases e with ⟨first, d⟩
      rw [List.lookup_cons, List.map_cons, List.mem_cons, ← ih]
      by_cases hid : id = first
      · simp [hid]
      · simp [hid, beq_eq_false_iff_ne.mpr hid]

/-!
# Setting a definition

No other definition changes, and the identifiers in use stay the same.
-/

theorem ids_set (a : Arena) (id : ShapeId) (d : Definition) : (a.set id d).ids = a.ids := by
  unfold ids set
  induction a.entries with
  | nil => rfl
  | cons e rest ih =>
      rw [replaceEntry]
      split
      · rfl
      · rw [List.map_cons, ih, List.map_cons]

@[simp] theorem size_set (a : Arena) (id : ShapeId) (d : Definition) :
    (a.set id d).size = a.size := by
  simpa [ids, size] using congrArg List.length (ids_set a id d)

theorem lookup_replaceEntry_self {entries : List (ShapeId × Definition)} (d : Definition)
    (h : entries.lookup id = some old) : (replaceEntry id d entries).lookup id = some d := by
  induction entries with
  | nil => cases h
  | cons e rest ih =>
      rcases e with ⟨first, present⟩
      rw [replaceEntry]
      by_cases hid : first = id
      · rw [if_pos hid, hid, List.lookup_cons_self]
      · have hne : (id == first) = false := beq_eq_false_iff_ne.mpr (Ne.symm hid)
        rw [List.lookup_cons, hne] at h
        rw [if_neg hid, List.lookup_cons, hne]
        exact ih h

theorem get?_set_self (d : Definition) (h : a.get? id = some old) :
    (a.set id d).get? id = some d :=
  lookup_replaceEntry_self d h

theorem get?_set_of_ne (d : Definition) (h : other ≠ id) :
    (a.set id d).get? other = a.get? other := by
  unfold get? set
  induction a.entries with
  | nil => rfl
  | cons e rest ih =>
      rcases e with ⟨first, present⟩
      rw [replaceEntry]
      by_cases hid : first = id
      · have hne : (other == first) = false := beq_eq_false_iff_ne.mpr (hid ▸ h)
        rw [if_pos hid, List.lookup_cons, List.lookup_cons, hne]
      · rw [if_neg hid, List.lookup_cons, List.lookup_cons, ih]

theorem set_of_get?_eq_some (h : a.get? id = some d) : a.set id d = a := by
  rcases a with ⟨entries, next⟩
  have hentries : replaceEntry id d entries = entries := by
    change entries.lookup id = some d at h
    induction entries with
    | nil => rfl
    | cons e rest ih =>
        rcases e with ⟨first, present⟩
        rw [replaceEntry]
        by_cases hid : first = id
        · rw [hid, List.lookup_cons_self] at h
          rw [if_pos hid, Option.some.inj h]
        · rw [List.lookup_cons, beq_eq_false_iff_ne.mpr (Ne.symm hid)] at h
          rw [if_neg hid, ih h]
  rw [set, hentries]

/-!
# Registering a definition

What is found after a registration was there before, or it is the new definition.
-/

theorem get?_register_new (a : Arena) (d : Definition) :
    (a.register d).2.get? (a.register d).1 = some d :=
  List.lookup_cons_self

theorem get?_register_of_ne (d : Definition) (h : id ≠ a.next) :
    (a.register d).2.get? id = a.get? id := by
  rw [get?, register, List.lookup_cons, beq_eq_false_iff_ne.mpr h]
  rfl

theorem get?_register_cases (h : (a.register d).2.get? id = some found) :
    a.get? id = some found ∨ (id = (a.register d).1 ∧ found = d) := by
  by_cases hid : id = a.next
  · subst hid
    rw [show a.next = (a.register d).1 from rfl, get?_register_new] at h
    exact Or.inr ⟨rfl, (Option.some.inj h).symm⟩
  · rw [get?_register_of_ne d hid] at h
    exact Or.inl h

/-!
# Numbered arenas

Identifiers have been handed out one after another, and each of them once.
-/

structure Numbered (a : Arena) : Prop where
  ids : a.ids = (List.range a.size).reverse.map fun i => ⟨i + 1⟩
  next : a.next = ⟨a.size + 1⟩

theorem numbered_empty : empty.Numbered :=
  ⟨rfl, rfl⟩

namespace Numbered

theorem set (h : a.Numbered) (id : ShapeId) (d : Definition) : (a.set id d).Numbered := by
  refine ⟨?_, ?_⟩
  · rw [ids_set, size_set, h.ids]
  · rw [size_set]
    exact h.next

theorem register (h : a.Numbered) (d : Definition) : (a.register d).2.Numbered := by
  refine ⟨?_, ?_⟩
  · show a.next :: a.ids = (List.range (a.size + 1)).reverse.map fun i => ⟨i + 1⟩
    rw [h.next, h.ids, List.range_succ, List.reverse_append]
    rfl
  · show (⟨a.next.index + 1⟩ : ShapeId) = ⟨a.size + 1 + 1⟩
    rw [h.next]

theorem nodup (h : a.Numbered) : a.ids.Nodup := by
  rw [h.ids]
  apply (List.nodup_reverse.mpr List.nodup_range).map
  intro i j hij
  exact Nat.succ.inj (congrArg ShapeId.index hij)

theorem exists_get?_iff (h : a.Numbered) :
    (exists d, a.get? id = some d) <-> 1 ≤ id.index ∧ id.index ≤ a.size := by
  rw [exists_get?_iff_mem_ids, h.ids, List.mem_map]
  constructor
  · rintro ⟨i, hi, rfl⟩
    have hlt : i < a.size := List.mem_range.mp (List.mem_reverse.mp hi)
    exact ⟨Nat.succ_pos i, hlt⟩
  · intro hindex
    refine ⟨id.index - 1, List.mem_reverse.mpr (List.mem_range.mpr ?_), ?_⟩
    · omega
    · exact congrArg ShapeId.mk (Nat.sub_add_cancel hindex.1)

theorem index_le_size (h : a.Numbered) (hd : a.get? id = some d) : id.index ≤ a.size :=
  (h.exists_get?_iff.mp ⟨d, hd⟩).2

theorem get?_next (h : a.Numbered) : a.get? a.next = none := by
  apply Option.eq_none_iff_forall_ne_some.mpr
  intro d hd
  have hle := h.index_le_size hd
  rw [h.next] at hle
  exact Nat.not_succ_le_self _ hle

theorem get?_register_of_some (h : a.Numbered) (d : Definition) (hold : a.get? id = some old) :
    (a.register d).2.get? id = some old := by
  have hne : id ≠ a.next := by
    rintro rfl
    rw [h.get?_next] at hold
    cases hold
  rw [get?_register_of_ne d hne, hold]

end Numbered

end Arena
end Shapes
