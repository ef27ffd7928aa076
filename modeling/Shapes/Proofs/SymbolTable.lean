import Mathlib.Algebra.BigOperators.Fin
import Mathlib.Algebra.Order.BigOperators.Group.Finset
import Shapes.Proofs.Table
import Shapes.SymbolTable

/-!
# Texts and their symbols

A symbol table only grows: the texts of a bucket stay where they are and new ones
come after them.  So a text keeps the symbol that it was given first, and as long as
no bucket has to hold more texts than there are positions, no two texts share one.

Every step keeps the map and the list of each bucket inverse to each other, also one
that finds no room; this is `SymbolTable.Sound`.  `SymbolTable.Holds` says in addition
which texts a table has after some texts were asked for.  What a symbol means is read
from the two.
-/

namespace Shapes
namespace Symbol

/-!
# Packing

A symbol is a number of 32 bits.  A position below the limit and a bucket are
packed into it side by side, and both can be read from it again.
-/

theorem raw_pack {position : Nat} (h : position < positionCount) (bucket : Fin 16) :
    (pack position bucket).raw.toNat = position * 16 + bucket.val := by
  have hbucket := bucket.isLt
  unfold positionCount at h
  have hposition : (UInt32.ofNat position).toNat = position := by
    rw [UInt32.toNat_ofNat']
    exact Nat.mod_eq_of_lt (by omega)
  have hlow : (UInt32.ofNat bucket.val).toNat = bucket.val := by
    rw [UInt32.toNat_ofNat']
    exact Nat.mod_eq_of_lt (by omega)
  have hshift : position <<< 4 < 2 ^ 32 := by
    rw [Nat.shiftLeft_eq]
    omega
  calc (pack position bucket).raw.toNat
      = position <<< 4 % 2 ^ 32 ||| bucket.val := by
        simp only [pack, UInt32.toNat_or, UInt32.toNat_shiftLeft, hposition, hlow]
        rfl
    _ = position <<< 4 + bucket.val := by
        rw [Nat.mod_eq_of_lt hshift, Nat.shiftLeft_add_eq_or_of_lt hbucket]
    _ = position * 16 + bucket.val := by
        rw [Nat.shiftLeft_eq]

theorem position_eq (a : Symbol) : a.position = a.raw.toNat / 16 := by
  rw [position, UInt32.toNat_shiftRight, Nat.shiftRight_eq_div_pow]
  rfl

theorem position_lt (a : Symbol) : a.position < positionCount := by
  have hword := a.raw.toNat_lt
  rw [position_eq, positionCount]
  omega

theorem bucket_pack {position : Nat} (h : position < positionCount) (b : Fin 16) :
    (pack position b).bucket = b := by
  apply Fin.ext
  have hb := b.isLt
  show (pack position b).raw.toNat % 16 = b.val
  rw [raw_pack h]
  omega

theorem position_pack {p : Nat} (h : p < positionCount) (b : Fin 16) :
    (pack p b).position = p := by
  have hb := b.isLt
  rw [position_eq, raw_pack h]
  omega

theorem pack_position_bucket (a : Symbol) : pack a.position a.bucket = a := by
  have hraw : (pack a.position a.bucket).raw = a.raw := by
    apply UInt32.toNat_inj.mp
    rw [raw_pack a.position_lt, position_eq]
    show a.raw.toNat / 16 * 16 + a.raw.toNat % 16 = a.raw.toNat
    omega
  cases a with
  | mk raw => exact congrArg Symbol.mk hraw

end Symbol

/-!
# Buckets

The map of a bucket and its list are inverse to each other: every text has the symbol of
its position.  To put a new text at the next position keeps them so.
-/

namespace SymbolBucket

structure Inverse (index : Fin 16) (bucket : SymbolBucket) : Prop where
  size_le : bucket.texts.size ≤ Symbol.positionCount
  symbols : forall {s a}, bucket.symbols.get? s = some a ->
    exists position, bucket.texts[position]? = some s ∧ a = .pack position index
  texts : forall {s position}, bucket.texts[position]? = some s ->
    bucket.symbols.get? s = some (.pack position index)

theorem inverse_empty (index : Fin 16) : empty.Inverse index := by
  refine ⟨Nat.zero_le _, ?_, ?_⟩
  · intro s a hs
    cases hs
  · intro s position hs
    simp [empty] at hs

namespace Inverse

variable {index : Fin 16} {bucket : SymbolBucket} {s : String} (h : bucket.Inverse index)

include h

theorem position_lt {position : Nat} (hs : bucket.texts[position]? = some s) :
    position < Symbol.positionCount :=
  Nat.lt_of_lt_of_le (Array.getElem?_eq_some_iff.mp hs).1 h.size_le

theorem position_unique {p q : Nat} (hp : bucket.texts[p]? = some s)
    (hq : bucket.texts[q]? = some s) : p = q := by
  have hpack : Symbol.pack p index = .pack q index :=
    Option.some.inj ((h.texts hp).symm.trans (h.texts hq))
  rw [← Symbol.position_pack (h.position_lt hp) index, hpack,
    Symbol.position_pack (h.position_lt hq) index]

theorem get?_eq_none_iff : bucket.symbols.get? s = none <-> s ∉ bucket.texts.toList := by
  constructor
  · intro hnone hmem
    rcases List.mem_iff_getElem?.mp hmem with ⟨position, hat⟩
    rw [Array.getElem?_toList] at hat
    rw [h.texts hat] at hnone
    cases hnone
  · intro habsent
    apply Option.eq_none_iff_forall_ne_some.mpr
    intro a hs
    rcases h.symbols hs with ⟨position, hat, _⟩
    rw [← Array.getElem?_toList] at hat
    exact habsent (List.mem_of_getElem? hat)

theorem add (hroom : bucket.texts.size < Symbol.positionCount)
    (hnew : bucket.symbols.get? s = none) :
    (bucket.add s (.pack bucket.texts.size index)).Inverse index := by
  refine ⟨?_, ?_, ?_⟩
  · show (bucket.texts.push s).size ≤ _
    rw [Array.size_push]
    exact hroom
  · intro u a hu
    change (bucket.symbols.insert s _).get? u = some a at hu
    rw [Table.get?_insert] at hu
    show exists position, (bucket.texts.push s)[position]? = some u ∧ _
    split at hu
    · rename_i heq
      cases hu
      exact ⟨bucket.texts.size, by rw [Array.getElem?_push_size, heq], rfl⟩
    · rcases h.symbols hu with ⟨position, hat, hpack⟩
      have hlt := (Array.getElem?_eq_some_iff.mp hat).1
      exact ⟨position, by rw [Array.getElem?_push, if_neg (Nat.ne_of_lt hlt), hat], hpack⟩
  · intro u position hu
    change (bucket.texts.push s)[position]? = some u at hu
    show (bucket.symbols.insert s _).get? u = _
    rw [Array.getElem?_push] at hu
    rw [Table.get?_insert]
    split at hu
    · rename_i hlast
      cases hu
      rw [if_pos rfl, hlast]
    · have hne : u ≠ s := by
        rintro rfl
        rw [h.texts hu] at hnew
        cases hnew
      rw [if_neg hne, h.texts hu]

end Inverse
end SymbolBucket

namespace SymbolTable

/-!
# Sound tables

The buckets of a sound table are as just described, and the empty text is at the first
position of all.  In such a table it makes no difference whether symbols are found in the
maps or texts in the lists.
-/

def textsIn (t : SymbolTable) (index : Fin 16) : List String :=
  (t.buckets.get index).texts.toList

structure Sound (t : SymbolTable) : Prop where
  first : (t.textsIn 0)[0]? = some ""
  inverse : forall index, (t.buckets.get index).Inverse index

theorem get_setBucket (t : SymbolTable) (i b : Fin 16) (bucket : SymbolBucket) :
    (t.setBucket i bucket).buckets.get b = if b = i then bucket else t.buckets.get b := by
  show (t.buckets.set i bucket)[b.val] = _
  rw [Vector.getElem_set]
  by_cases h : i = b
  · rw [if_pos (congrArg Fin.val h), if_pos h.symm]
  · rw [if_neg fun heq => h (Fin.ext heq), if_neg fun heq => h heq.symm]
    rfl

theorem getElem?_textsIn (t : SymbolTable) (index : Fin 16) (position : Nat) :
    (t.textsIn index)[position]? = (t.buckets.get index).texts[position]? :=
  Array.getElem?_toList

theorem text?_eq (t : SymbolTable) (a : Symbol) :
    t.text? a = (t.textsIn a.bucket)[a.position]? := by
  rw [text?, getElem?_textsIn]

section Assignment

variable {assign : String -> Fin 16} {t t' : SymbolTable} {s : String} {a : Symbol}

theorem lookup?_empty : t.lookup? assign "" = some .none :=
  if_pos rfl

theorem ne_empty_of_lookup?_eq_none (h : t.lookup? assign s = none) : s ≠ "" := by
  rintro rfl
  rw [lookup?_empty] at h
  cases h

namespace Sound

variable (h : t.Sound)

include h

theorem nodup_textsIn (index : Fin 16) : (t.textsIn index).Nodup := by
  apply List.nodup_iff_injective_getElem.mpr
  intro i j hsame
  apply Fin.ext
  apply (h.inverse index).position_unique
  · rw [← getElem?_textsIn]
    exact List.getElem?_eq_getElem i.isLt
  · rw [← getElem?_textsIn, List.getElem?_eq_getElem j.isLt]
    exact congrArg some hsame.symm

theorem lookup?_eq_some_iff (hs : s ≠ "") :
    t.lookup? assign s = some a <->
      exists position, (t.textsIn (assign s))[position]? = some s ∧
        a = .pack position (assign s) := by
  rw [lookup?, if_neg hs]
  simp only [getElem?_textsIn]
  constructor
  · exact (h.inverse (assign s)).symbols
  · intro hfound
    rcases hfound with ⟨position, hat, rfl⟩
    exact (h.inverse (assign s)).texts hat

theorem lookup?_eq_none_iff (hs : s ≠ "") :
    t.lookup? assign s = none <-> s ∉ t.textsIn (assign s) := by
  rw [lookup?, if_neg hs]
  exact (h.inverse (assign s)).get?_eq_none_iff

end Sound

/-!
# Growth

A table grows by one text at a time, at the end of its bucket.  What was there before
stays where it was.
-/

/-- A table that has all texts of another one at the same places. -/
def Extends (t t' : SymbolTable) : Prop :=
  forall bucket, t.textsIn bucket <+: t'.textsIn bucket

theorem Extends.refl (t : SymbolTable) : t.Extends t :=
  fun _ => List.prefix_rfl

theorem Extends.trans {t'' : SymbolTable} (h : t.Extends t') (h' : t'.Extends t'') :
    t.Extends t'' :=
  fun bucket => (h bucket).trans (h' bucket)

theorem Extends.lookup? (h : t.Extends t') (ht : t.Sound) (ht' : t'.Sound)
    (hs : t.lookup? assign s = some a) : t'.lookup? assign s = some a := by
  by_cases hempty : s = ""
  · subst hempty
    rw [lookup?_empty] at hs ⊢
    exact hs
  · rcases (ht.lookup?_eq_some_iff hempty).mp hs with ⟨position, hposition, hpack⟩
    have hkept := List.prefix_iff_getElem?.mp (h (assign s)) position
    rcases List.getElem?_eq_some_iff.mp hposition with ⟨hlt, hat⟩
    apply (ht'.lookup?_eq_some_iff hempty).mpr
    exact ⟨position, by rw [hkept hlt, hat], hpack⟩

def put (assign : String -> Fin 16) (t : SymbolTable) (s : String) : SymbolTable :=
  let bucket := t.buckets.get (assign s)
  t.setBucket (assign s) (bucket.add s (.pack bucket.texts.size (assign s)))

theorem textsIn_put (index : Fin 16) :
    (t.put assign s).textsIn index =
      if index = assign s then t.textsIn index ++ [s] else t.textsIn index := by
  rw [textsIn, put, get_setBucket]
  split
  · rename_i hindex
    rw [SymbolBucket.add, Array.toList_push, textsIn, hindex]
  · rfl

theorem extends_put : t.Extends (t.put assign s) := by
  intro index
  rw [textsIn_put]
  split
  · exact List.prefix_append _ _
  · exact List.prefix_rfl

theorem Sound.put (h : t.Sound) (hnew : t.lookup? assign s = none)
    (hroom : (t.textsIn (assign s)).length < Symbol.positionCount) : (t.put assign s).Sound := by
  have hs := ne_empty_of_lookup?_eq_none hnew
  rw [textsIn, Array.length_toList] at hroom
  rw [SymbolTable.lookup?, if_neg hs] at hnew
  constructor
  · rcases List.getElem?_eq_some_iff.mp h.first with ⟨hlt, hat⟩
    rw [List.prefix_iff_getElem?.mp (extends_put 0) 0 hlt, hat]
  · intro index
    rw [SymbolTable.put, get_setBucket]
    split
    · rename_i hindex
      rw [hindex]
      exact (h.inverse (assign s)).add hroom hnew
    · exact h.inverse index

theorem intern_of_lookup? (hs : t.lookup? assign s = some a) : t.intern assign s = (a, t) := by
  rw [lookup?] at hs
  rw [intern]
  split
  · rename_i hempty
    rw [if_pos hempty] at hs
    cases hs
    rfl
  · rename_i hempty
    rw [if_neg hempty] at hs
    simp only [hs]

theorem intern_cases (assign : String -> Fin 16) (t : SymbolTable) (s : String) :
    (exists a, t.lookup? assign s = some a ∧ t.intern assign s = (a, t)) ∨
      (t.lookup? assign s = none ∧ Symbol.positionCount ≤ (t.textsIn (assign s)).length ∧
        t.intern assign s = (.none, t)) ∨
      (t.lookup? assign s = none ∧ (t.textsIn (assign s)).length < Symbol.positionCount ∧
        t.intern assign s =
          (.pack (t.textsIn (assign s)).length (assign s), t.put assign s)) := by
  cases hlookup : t.lookup? assign s with
  | some a => exact Or.inl ⟨a, rfl, intern_of_lookup? hlookup⟩
  | none =>
      have hs := ne_empty_of_lookup?_eq_none hlookup
      rw [lookup?, if_neg hs] at hlookup
      rw [intern, if_neg hs]
      simp only [hlookup, textsIn, Array.length_toList]
      by_cases hfull : Symbol.positionCount ≤ (t.buckets.get (assign s)).texts.size
      · rw [if_pos hfull]
        exact Or.inr (Or.inl ⟨trivial, hfull, rfl⟩)
      · rw [if_neg hfull]
        exact Or.inr (Or.inr ⟨trivial, Nat.lt_of_not_le hfull, rfl⟩)

/-- The maps and lists stay inverse to each other whatever is asked for. -/
theorem Sound.intern (h : t.Sound) (assign : String -> Fin 16) (s : String) :
    (t.intern assign s).2.Sound := by
  rcases intern_cases assign t s with
    ⟨a, _, hrun⟩ | ⟨_, _, hrun⟩ | ⟨hnew, hroom, hrun⟩
  · rw [hrun]
    exact h
  · rw [hrun]
    exact h
  · rw [hrun]
    exact h.put hnew hroom

end Assignment

/-!
# What a table holds

As long as there is room, a table has the texts that were asked for and no others, each of
them in the bucket to which it is assigned.
-/

section Contents

variable (assign : String -> Fin 16)

/-- The different texts that a bucket has to hold; the empty one is in the first bucket. -/
def held (texts : List String) (bucket : Fin 16) : Finset String :=
  (if bucket = 0 then {""} else ∅) ∪
    texts.toFinset.filter fun s => s ≠ "" ∧ assign s = bucket

/-- A table has the texts that were asked for, each of them once in its bucket. -/
structure Holds (texts : List String) (t : SymbolTable) : Prop where
  sound : t.Sound
  mem : forall bucket s, s ∈ t.textsIn bucket <-> s ∈ held assign texts bucket

/-- A table after some texts were asked for, one after another. -/
def internAll (texts : List String) : SymbolTable :=
  texts.foldl (fun t s => (t.intern assign s).2) initial

end Contents

section Steps

variable {assign : String -> Fin 16} {texts : List String} {t : SymbolTable} {s : String}
  {a : Symbol}

theorem mem_held {bucket : Fin 16} :
    s ∈ held assign texts bucket <->
      (s = "" ∧ bucket = 0) ∨ (s ≠ "" ∧ s ∈ texts ∧ assign s = bucket) := by
  unfold held
  rw [Finset.mem_union, Finset.mem_filter, List.mem_toFinset]
  by_cases hbucket : bucket = 0
  · simp [hbucket, and_left_comm]
  · simp [hbucket, and_left_comm]

theorem held_subset {others : List String} (h : texts ⊆ others) (bucket : Fin 16) :
    held assign texts bucket ⊆ held assign others bucket := by
  intro u hu
  cases mem_held.mp hu with
  | inl hempty => exact mem_held.mpr (Or.inl hempty)
  | inr hfull => exact mem_held.mpr (Or.inr ⟨hfull.1, h hfull.2.1, hfull.2.2⟩)

theorem card_held_le (bucket : Fin 16) :
    (held assign texts bucket).card ≤ texts.length + 1 := by
  have hsubset : held assign texts bucket ⊆ insert "" texts.toFinset := by
    intro u hu
    cases mem_held.mp hu with
    | inl hempty => exact Finset.mem_insert.mpr (Or.inl hempty.1)
    | inr hfull =>
        exact Finset.mem_insert.mpr (Or.inr (List.mem_toFinset.mpr hfull.2.1))
  calc (held assign texts bucket).card
      ≤ (insert "" texts.toFinset).card := Finset.card_le_card hsubset
    _ ≤ texts.toFinset.card + 1 := Finset.card_insert_le _ _
    _ ≤ texts.length + 1 := Nat.add_le_add_right (List.toFinset_card_le texts) 1

theorem sound_initial : initial.Sound := by
  have hnone : Symbol.none = .pack 0 0 := rfl
  constructor
  · rfl
  · intro index
    show ((setBucket ⟨.replicate 16 .empty⟩ 0 _).buckets.get index).Inverse index
    rw [get_setBucket]
    split
    · rename_i hindex
      rw [hindex, hnone]
      exact (SymbolBucket.inverse_empty 0).add (by decide) rfl
    · simpa [Vector.get] using SymbolBucket.inverse_empty index

theorem holds_initial : Holds assign [] initial := by
  have hbuckets : forall b, initial.textsIn b = if b = 0 then [""] else [] := by
    decide
  refine ⟨sound_initial, ?_⟩
  intro b u
  rw [hbuckets, mem_held]
  by_cases hb : b = 0
  · simp [hb]
  · simp [hb]

theorem sound_internAll (assign : String -> Fin 16) (texts : List String) :
    (internAll assign texts).Sound := by
  suffices hfrom : forall t : SymbolTable, t.Sound ->
      (texts.foldl (fun t s => (t.intern assign s).2) t).Sound from
    hfrom initial sound_initial
  induction texts with
  | nil => exact fun _ ht => ht
  | cons s rest ih => exact fun t ht => ih _ (ht.intern assign s)

namespace Holds

theorem length_textsIn (h : Holds assign texts t) (bucket : Fin 16) :
    (t.textsIn bucket).length = (held assign texts bucket).card := by
  rw [← List.toFinset_card_of_nodup (h.sound.nodup_textsIn bucket)]
  congr 1
  ext u
  rw [List.mem_toFinset, h.mem]

theorem known (h : Holds assign texts t) (hs : t.lookup? assign s = some a) :
    Holds assign (texts ++ [s]) t := by
  refine ⟨h.sound, ?_⟩
  intro b u
  rw [h.mem]
  constructor
  · intro hu
    exact held_subset (List.subset_append_left texts [s]) b hu
  · intro hu
    cases mem_held.mp hu with
    | inl hempty => exact mem_held.mpr (Or.inl hempty)
    | inr hfull =>
        rcases hfull with ⟨hne, hmem, rfl⟩
        cases List.mem_append.mp hmem with
        | inl hold => exact mem_held.mpr (Or.inr ⟨hne, hold, rfl⟩)
        | inr hlast =>
            cases List.mem_singleton.mp hlast
            rw [← h.mem]
            rcases (h.sound.lookup?_eq_some_iff hne).mp hs with ⟨position, hat, _⟩
            exact List.mem_of_getElem? hat

theorem put (h : Holds assign texts t) (hnew : t.lookup? assign s = none)
    (hroom : (t.textsIn (assign s)).length < Symbol.positionCount) :
    Holds assign (texts ++ [s]) (t.put assign s) := by
  have hs := ne_empty_of_lookup?_eq_none hnew
  refine ⟨h.sound.put hnew hroom, ?_⟩
  intro b u
  have hold := h.mem b u
  rw [mem_held] at hold ⊢
  rw [textsIn_put]
  by_cases hb : b = assign s
  · rw [if_pos hb, List.mem_append, List.mem_singleton, hold, List.mem_append,
      List.mem_singleton]
    grind
  · rw [if_neg hb, hold, List.mem_append, List.mem_singleton]
    grind

theorem length_lt (h : Holds assign texts t) (hnew : t.lookup? assign s = none)
    (hroom : forall b, (held assign (texts ++ [s]) b).card ≤ Symbol.positionCount) :
    (t.textsIn (assign s)).length < Symbol.positionCount := by
  have hs := ne_empty_of_lookup?_eq_none hnew
  have hin : s ∈ held assign (texts ++ [s]) (assign s) :=
    mem_held.mpr (Or.inr ⟨hs, by simp, rfl⟩)
  have hout : s ∉ held assign texts (assign s) := by
    rw [← h.mem]
    exact (h.sound.lookup?_eq_none_iff hs).mp hnew
  have hmore : held assign texts (assign s) ⊂ held assign (texts ++ [s]) (assign s) :=
    ⟨held_subset (List.subset_append_left texts [s]) _, fun hback => hout (hback hin)⟩
  calc (t.textsIn (assign s)).length
      = (held assign texts (assign s)).card := h.length_textsIn (assign s)
    _ < (held assign (texts ++ [s]) (assign s)).card := Finset.card_lt_card hmore
    _ ≤ Symbol.positionCount := hroom (assign s)

theorem intern (h : Holds assign texts t)
    (hroom : forall b, (held assign (texts ++ [s]) b).card ≤ Symbol.positionCount) :
    Holds assign (texts ++ [s]) (t.intern assign s).2 ∧ t.Extends (t.intern assign s).2 ∧
      (t.intern assign s).2.lookup? assign s = some (t.intern assign s).1 := by
  rcases intern_cases assign t s with
    ⟨a, hs, hrun⟩ | ⟨hnew, hfull, _⟩ | ⟨hnew, hlt, hrun⟩
  · rw [hrun]
    exact ⟨h.known hs, .refl t, hs⟩
  · exact absurd (h.length_lt hnew hroom) (Nat.not_lt_of_le hfull)
  · rw [hrun]
    have hput := h.put hnew hlt
    refine ⟨hput, extends_put, ?_⟩
    apply (hput.sound.lookup?_eq_some_iff (ne_empty_of_lookup?_eq_none hnew)).mpr
    refine ⟨_, ?_, rfl⟩
    rw [textsIn_put, if_pos rfl]
    exact List.getElem?_concat_length

end Holds

/-!
# Tables that were asked for texts

What holds of a table after some texts were asked for is found by induction from
the end of the list.
-/

theorem internAll_append (before after : List String) :
    internAll assign (before ++ after) =
      after.foldl (fun t s => (t.intern assign s).2) (internAll assign before) :=
  List.foldl_append

theorem room_of_append {before after : List String}
    (hroom : forall b, (held assign (before ++ after) b).card ≤ Symbol.positionCount) :
    forall b, (held assign before b).card ≤ Symbol.positionCount := by
  intro b
  have hsubset : held assign before b ⊆ held assign (before ++ after) b :=
    held_subset (List.subset_append_left before after) b
  exact Nat.le_trans (Finset.card_le_card hsubset) (hroom b)

theorem holds_internAll
    (hroom : forall b, (held assign texts b).card ≤ Symbol.positionCount) :
    Holds assign texts (internAll assign texts) := by
  induction texts using List.reverseRecOn with
  | nil => exact holds_initial
  | append_singleton before s ih =>
      rw [internAll_append]
      exact ((ih (room_of_append hroom)).intern hroom).1

theorem internAll_extends {before after : List String}
    (hroom : forall b, (held assign (before ++ after) b).card ≤ Symbol.positionCount) :
    (internAll assign before).Extends (internAll assign (before ++ after)) := by
  induction after using List.reverseRecOn with
  | nil =>
      rw [List.append_nil]
      exact .refl _
  | append_singleton after s ih =>
      rw [← List.append_assoc] at hroom ⊢
      have hbefore := room_of_append hroom
      rw [internAll_append (before ++ after)]
      exact (ih hbefore).trans ((holds_internAll hbefore).intern hroom).2.1

/-- A symbol is handed out for a text that is asked for at some moment. -/
def HandedOut (assign : String -> Fin 16) (texts : List String) (s : String) (a : Symbol) : Prop :=
  exists before after, texts = before ++ s :: after ∧
    ((internAll assign before).intern assign s).1 = a

theorem handedOut_iff
    (hroom : forall b, (held assign texts b).card ≤ Symbol.positionCount) :
    HandedOut assign texts s a <->
      s ∈ texts ∧ (internAll assign texts).lookup? assign s = some a := by
  have hlater : forall before after, texts = before ++ s :: after ->
      (internAll assign texts).lookup? assign s =
        some ((internAll assign before).intern assign s).1 := by
    intro before after htexts
    have hsplit : texts = (before ++ [s]) ++ after := by
      rw [htexts, List.append_assoc]
      rfl
    have hall := hroom
    rw [hsplit] at hall
    have hasked := room_of_append hall
    have hnow := ((holds_internAll (room_of_append hasked)).intern hasked).2.2
    have hkept := internAll_extends hall
    have hbefore := sound_internAll assign (before ++ [s])
    rw [← hsplit] at hkept
    rw [internAll_append before [s]] at hkept hbefore
    exact hkept.lookup? hbefore (sound_internAll assign texts) hnow
  constructor
  · intro hhanded
    rcases hhanded with ⟨before, after, htexts, hsymbol⟩
    refine ⟨by rw [htexts]; simp, ?_⟩
    rw [hlater before after htexts, hsymbol]
  · intro hfound
    rcases List.append_of_mem hfound.1 with ⟨before, after, htexts⟩
    refine ⟨before, after, htexts, ?_⟩
    rw [hlater before after htexts] at hfound
    exact Option.some.inj hfound.2

/-!
# Symbols of a table with room

In a table with room, texts and the symbols that were handed out belong to each
other one to one.
-/

namespace Holds

variable {s' : String} {a' : Symbol} (h : Holds assign texts t)

include h

theorem mem_of_lookup? (hs : t.lookup? assign s = some a) : s = "" ∨ s ∈ texts := by
  by_cases hempty : s = ""
  · exact Or.inl hempty
  · rcases (h.sound.lookup?_eq_some_iff hempty).mp hs with ⟨position, hat, _⟩
    cases mem_held.mp ((h.mem _ s).mp (List.mem_of_getElem? hat)) with
    | inl hnone => exact absurd hnone.1 hempty
    | inr hfull => exact Or.inr hfull.2.1

theorem exists_lookup? (hs : s = "" ∨ s ∈ texts) : exists a, t.lookup? assign s = some a := by
  by_cases hempty : s = ""
  · rw [hempty]
    exact ⟨.none, lookup?_empty⟩
  · apply Option.ne_none_iff_exists'.mp
    intro hnone
    apply (h.sound.lookup?_eq_none_iff hempty).mp hnone
    rw [h.mem]
    exact mem_held.mpr (Or.inr ⟨hempty, hs.resolve_left hempty, rfl⟩)

theorem lookup?_iff_intern :
    t.lookup? assign s = some a <-> (s = "" ∨ s ∈ texts) ∧ (t.intern assign s).1 = a := by
  constructor
  · intro hs
    exact ⟨h.mem_of_lookup? hs, by rw [intern_of_lookup? hs]⟩
  · intro hs
    rcases h.exists_lookup? hs.1 with ⟨b, hb⟩
    rw [intern_of_lookup? hb] at hs
    rw [hb, ← hs.2]

theorem exists_position (hs : t.lookup? assign s = some a) (hempty : s ≠ "") :
    exists position, position < Symbol.positionCount ∧
      (t.textsIn (assign s))[position]? = some s ∧ a = .pack position (assign s) := by
  rcases (h.sound.lookup?_eq_some_iff hempty).mp hs with ⟨position, hat, hpack⟩
  have hlt := (h.sound.inverse _).position_lt ((getElem?_textsIn _ _ _).symm.trans hat)
  exact ⟨position, hlt, hat, hpack⟩

theorem text?_eq_some_iff : t.text? a = some s <-> t.lookup? assign s = some a := by
  constructor
  · intro hs
    rw [text?_eq] at hs
    cases mem_held.mp ((h.mem _ s).mp (List.mem_of_getElem? hs)) with
    | inl hempty =>
        rcases hempty with ⟨rfl, hbucket⟩
        rw [hbucket] at hs
        have hfirst := h.sound.first
        rw [getElem?_textsIn] at hs hfirst
        have hposition : a.position = 0 := (h.sound.inverse 0).position_unique hs hfirst
        rw [lookup?_empty, ← a.pack_position_bucket, hposition, hbucket]
        rfl
    | inr hfull =>
        rcases hfull with ⟨hne, _, hbucket⟩
        rw [← hbucket] at hs
        apply (h.sound.lookup?_eq_some_iff hne).mpr
        refine ⟨a.position, hs, ?_⟩
        rw [hbucket, a.pack_position_bucket]
  · intro hs
    rw [text?_eq]
    by_cases hempty : s = ""
    · rw [hempty, lookup?_empty] at hs
      cases hs
      rw [hempty]
      exact h.sound.first
    · rcases h.exists_position hs hempty with ⟨position, hlt, hat, rfl⟩
      rw [Symbol.bucket_pack hlt, Symbol.position_pack hlt]
      exact hat

theorem symbol_eq_iff (hs : t.lookup? assign s = some a) (hs' : t.lookup? assign s' = some a') :
    a = a' <-> s = s' := by
  constructor
  · intro hsymbol
    have htext := h.text?_eq_some_iff.mpr hs
    rw [hsymbol, h.text?_eq_some_iff.mpr hs'] at htext
    exact (Option.some.inj htext).symm
  · intro hsame
    rw [hsame, hs'] at hs
    exact (Option.some.inj hs).symm

theorem exists_text?_iff :
    (exists s, t.text? a = some s) <->
      a = .none ∨ exists s, s ∈ texts ∧ t.lookup? assign s = some a := by
  constructor
  · intro hfound
    rcases hfound with ⟨s, hs⟩
    have hlookup := h.text?_eq_some_iff.mp hs
    cases h.mem_of_lookup? hlookup with
    | inl hempty => exact Or.inl ((h.symbol_eq_iff hlookup lookup?_empty).mpr hempty)
    | inr hmem => exact Or.inr ⟨s, hmem, hlookup⟩
  · intro hgiven
    cases hgiven with
    | inl hnone =>
        rw [hnone]
        exact ⟨"", h.text?_eq_some_iff.mpr lookup?_empty⟩
    | inr hsome =>
        rcases hsome with ⟨s, _, hs⟩
        exact ⟨s, h.text?_eq_some_iff.mpr hs⟩

end Holds

theorem Holds.size_eq (h : Holds assign texts t) :
    t.size = 1 + (texts.toFinset.filter fun s => s ≠ "").card := by
  have hbuckets : t.buckets.toList = (List.finRange 16).map t.buckets.get := by
    apply List.ext_getElem
    · simp
    · intro i _ _
      simp [Vector.get]
  have hsum : t.size = ∑ b : Fin 16, (t.textsIn b).length := by
    rw [size, hbuckets, Fin.sum_univ_def, List.foldl_map, List.sum_eq_foldl, List.foldl_map]
    simp only [textsIn, Array.length_toList]
  have hheld : forall b, (held assign texts b).card =
      (if b = 0 then 1 else 0) +
        ((texts.toFinset.filter fun s => s ≠ "").filter fun s => assign s = b).card := by
    intro b
    rw [held, Finset.card_union_of_disjoint, Finset.filter_filter]
    · congr 1
      split <;> rfl
    · rw [Finset.disjoint_left]
      intro u hu hfull
      split at hu
      · exact (Finset.mem_filter.mp hfull).2.1 (Finset.mem_singleton.mp hu)
      · exact absurd hu (Finset.notMem_empty u)
  rw [hsum, Finset.card_eq_sum_card_fiberwise (f := assign) (t := Finset.univ)
    (fun _ _ => Finset.mem_coe.mpr (Finset.mem_univ _))]
  calc ∑ b : Fin 16, (t.textsIn b).length
      = ∑ b : Fin 16, ((if b = 0 then 1 else 0) +
          ((texts.toFinset.filter fun s => s ≠ "").filter fun s => assign s = b).card) :=
        Finset.sum_congr rfl fun b _ => (h.length_textsIn b).trans (hheld b)
    _ = _ := by
        rw [Finset.sum_add_distrib]
        simp

end Steps

/-!
# Requests

Requests come down to the texts that they ask for.
-/

inductive Request where
  | intern (text : String)
  | preload

namespace Request

/-- The texts that a request asks for. -/
def texts : Request -> List String
  | intern text => [text]
  | preload => commonTexts

def serve (assign : String -> Fin 16) (t : SymbolTable) : Request -> SymbolTable
  | intern text => (t.intern assign text).2
  | preload => t.preload assign

end Request

/-- All texts that are asked for by requests. -/
def asked (requests : List Request) : List String :=
  requests.flatMap Request.texts

/-- A new table that has served some requests. -/
def serveAll (assign : String -> Fin 16) (requests : List Request) : SymbolTable :=
  requests.foldl (Request.serve assign) initial

theorem serveAll_eq (assign : String -> Fin 16) (requests : List Request) :
    serveAll assign requests = internAll assign (asked requests) := by
  rw [serveAll, internAll, asked, List.foldl_flatMap]
  congr 1
  funext t request
  cases request <;> rfl

/--
Symbols stand for texts as long as no bucket is asked to hold more than its positions.
Whatever was handed out for a text, the table knows the text by it and the text by no
other symbol; nothing else has a symbol, and to ask again changes nothing.  The map and
the list of every bucket are inverse to each other.
-/
theorem interning_is_a_stable_injection (assign : String -> Fin 16) (requests : List Request)
    (hroom : forall bucket, (held assign (asked requests) bucket).card ≤ 2 ^ 28) :
    (forall s a, HandedOut assign (asked requests) s a ->
        (serveAll assign requests).text a = s ∧ (a = .none <-> s = "") ∧
          (serveAll assign requests).intern assign s = (a, serveAll assign requests)) ∧
      (forall s a s' a', HandedOut assign (asked requests) s a ->
        HandedOut assign (asked requests) s' a' -> (a = a' <-> s = s')) ∧
      (forall s a, (serveAll assign requests).lookup? assign s = some a <->
        (s = "" ∨ s ∈ asked requests) ∧ ((serveAll assign requests).intern assign s).1 = a) ∧
      (forall a, (exists s, (serveAll assign requests).text? a = some s) <->
        a = .none ∨ exists s, HandedOut assign (asked requests) s a) ∧
      (serveAll assign requests).size =
        1 + ((asked requests).toFinset.filter fun s => s ≠ "").card ∧
      (forall s a, HandedOut assign (asked requests) s a -> s ≠ "" ->
        exists position, position < 2 ^ 28 ∧ a = .pack position (assign s) ∧
          a.raw.toNat = position * 16 + (assign s).val) ∧
      forall index, ((serveAll assign requests).buckets.get index).Inverse index := by
  rw [serveAll_eq]
  have h := holds_internAll hroom
  have hfound : forall s a, HandedOut assign (asked requests) s a ->
      (internAll assign (asked requests)).lookup? assign s = some a := by
    intro s a hgiven
    exact ((handedOut_iff hroom).mp hgiven).2
  refine ⟨?_, ?_, fun s a => h.lookup?_iff_intern, ?_, h.size_eq, ?_, h.sound.inverse⟩
  · intro s a hgiven
    have hs := hfound s a hgiven
    refine ⟨?_, h.symbol_eq_iff hs lookup?_empty, intern_of_lookup? hs⟩
    rw [text, h.text?_eq_some_iff.mpr hs]
    rfl
  · intro s a s' a' hgiven hgiven'
    exact h.symbol_eq_iff (hfound s a hgiven) (hfound s' a' hgiven')
  · intro a
    rw [h.exists_text?_iff]
    exact or_congr Iff.rfl (exists_congr fun s => (handedOut_iff hroom).symm)
  · intro s a hgiven hempty
    rcases h.exists_position (hfound s a hgiven) hempty with ⟨position, hlt, _, hpack⟩
    refine ⟨position, hlt, hpack, ?_⟩
    rw [hpack]
    exact Symbol.raw_pack hlt _

/-- The common texts, and a text that comes twice with two old ones in between. -/
def sampleRequests : List Request :=
  [.preload, .intern "breed", .intern "", .intern "name", .intern "breed"]

/-- Texts of one length share a bucket. -/
def byLength (text : String) : Fin 16 :=
  Fin.ofNat 16 text.length

theorem interning_is_a_stable_injection_sample :
    (forall bucket, (held byLength (asked sampleRequests) bucket).card ≤ 2 ^ 28) ∧
      HandedOut byLength (asked sampleRequests) "breed"
        ((serveAll byLength [.preload]).intern byLength "breed").1 ∧
      (serveAll byLength sampleRequests).text
        ((serveAll byLength [.preload]).intern byLength "breed").1 = "breed" ∧
      (serveAll byLength sampleRequests).size = 18 := by
  have hroom : forall bucket, (held byLength (asked sampleRequests) bucket).card ≤ 2 ^ 28 := by
    intro bucket
    exact Nat.le_trans (card_held_le bucket) (by decide)
  have hbefore : internAll byLength commonTexts = serveAll byLength [.preload] :=
    (serveAll_eq byLength [.preload]).symm
  have hgiven : HandedOut byLength (asked sampleRequests) "breed"
      ((serveAll byLength [.preload]).intern byLength "breed").1 :=
    ⟨commonTexts, ["", "name", "breed"], rfl, by rw [hbefore]⟩
  have h := interning_is_a_stable_injection byLength sampleRequests hroom
  refine ⟨hroom, hgiven, (h.1 _ _ hgiven).1, ?_⟩
  rw [h.2.2.2.2.1]
  decide

end SymbolTable
end Shapes
