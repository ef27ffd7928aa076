/-!
# Ordered tables

A `Table` maps names to values and remembers the order in which the names were
introduced.  Names are distinct by construction, so a table can be read as a
list of entries or as a partial function, and the two readings agree.
-/

namespace Shapes

structure Table (α : Type) where
  entries : List (String × α)
  distinct : (entries.map Prod.fst).Nodup

namespace Table

variable {α : Type}

/-!
# Reading

The first entry of a name is the only one.
-/

def empty : Table α := ⟨[], List.nodup_nil⟩

instance : Inhabited (Table α) := ⟨empty⟩

def keys (t : Table α) : List String :=
  t.entries.map Prod.fst

def get? (t : Table α) (key : String) : Option α :=
  t.entries.lookup key

def contains (t : Table α) (key : String) : Bool :=
  t.keys.contains key

def size (t : Table α) : Nat :=
  t.entries.length

def isEmpty (t : Table α) : Bool :=
  t.entries.isEmpty

/-!
# Writing

A name that is set keeps its place, and one that is new comes last.
-/

def replaceEntry (key : String) (value : α) (entries : List (String × α)) :
    List (String × α) :=
  entries.map fun e => if e.1 = key then (e.1, value) else e

theorem map_fst_replaceEntry (key : String) (value : α) (entries : List (String × α)) :
    (replaceEntry key value entries).map Prod.fst = entries.map Prod.fst := by
  rw [replaceEntry, List.map_map]
  apply List.map_congr_left
  intro e _
  simp only [Function.comp]
  split <;> rfl

theorem nodup_append_new {entries : List (String × α)} {key : String} {value : α}
    (hdistinct : (entries.map Prod.fst).Nodup)
    (hnew : (entries.map Prod.fst).contains key = false) :
    ((entries ++ [(key, value)]).map Prod.fst).Nodup := by
  have hmem : key ∉ entries.map Prod.fst := by
    intro h
    rw [List.contains_iff_mem.mpr h] at hnew
    cases hnew
  rw [List.map_append, List.nodup_append]
  refine ⟨hdistinct, by simp, ?_⟩
  intro a ha b hb
  simp only [List.map_cons, List.map_nil, List.mem_singleton] at hb
  rintro rfl
  exact hmem (hb ▸ ha)

def insert (t : Table α) (key : String) (value : α) : Table α :=
  match h : t.contains key with
  | true =>
      ⟨replaceEntry key value t.entries, by
        rw [map_fst_replaceEntry]
        exact t.distinct⟩
  | false => ⟨t.entries ++ [(key, value)], nodup_append_new t.distinct h⟩

def insertIfNew (t : Table α) (key : String) (value : α) : Table α :=
  if t.contains key then t else t.insert key value

def ofList (entries : List (String × α)) : Table α :=
  entries.foldl (fun t e => t.insert e.1 e.2) empty

/--
The entries of several parents followed by own entries.  An earlier parent
beats a later one, and an own entry beats them all at the place it inherits.
-/
def inherit (parents : List (Table α)) (own : Table α) : Table α :=
  let inherited :=
    parents.foldl
      (fun t parent => parent.entries.foldl (fun t e => t.insertIfNew e.1 e.2) t)
      empty
  own.entries.foldl (fun t e => t.insert e.1 e.2) inherited

end Table
end Shapes
