import Shapes.Document.Elaborate
import Shapes.Proofs.Registry.ByName
import Shapes.Proofs.Shape.Relabel

/-!
# Reading terms

Elaboration reserves names as it goes.  Seen from the end it does something simpler:
a term is read with the identifiers that names have then, and the names it mentions
are registered.  Whether a term makes sense does not depend on identifiers.
-/

namespace Shapes
namespace TypeTerm

section Read

variable (idOf : String -> ShapeId)

mutual

/-- The type of a term, with identifiers for names; a malformed term has none. -/
def read : TypeTerm -> Option FieldType
  | name n =>
      match Keyword.ofName? n with
      | some word => some (.keyword word)
      | none => some (.reference (idOf n))
  | literal value => (Literal.ofJson? value).map .literal
  | union members => (readAll members).map .union
  | intersection members => (readAll members).map .intersection

def readAll : List TypeTerm -> Option (List FieldType)
  | [] => some []
  | term :: rest => (read term).bind fun t => (readAll rest).map (t :: ·)

end

/-- The types of fields, unless one of them is malformed. -/
def readFields : List (String × TypeTerm) -> Option (List (String × FieldType))
  | [] => some []
  | field :: rest =>
      (read idOf field.2).bind fun t => (readFields rest).map ((field.1, t) :: ·)

end Read

mutual

def mentions : TypeTerm -> List String
  | name n => if (Keyword.ofName? n).isSome then [] else [n]
  | literal _ => []
  | union members => allMentions members
  | intersection members => allMentions members

def allMentions : List TypeTerm -> List String
  | [] => []
  | term :: rest => mentions term ++ allMentions rest

end

def fieldMentions (fields : List (String × TypeTerm)) : List String :=
  allMentions (fields.map Prod.snd)

/-!
# Other identifiers

Reading commutes with a change of identifiers.
-/

section Relabel

variable (f : ShapeId -> ShapeId) (idOf : String -> ShapeId)

mutual

theorem read_relabel : forall term : TypeTerm,
    term.read (f ∘ idOf) = (term.read idOf).map (FieldType.relabel f)
  | name n => by
      rw [read, read]
      cases Keyword.ofName? n <;> rfl
  | literal value => by
      rw [read, read]
      cases Literal.ofJson? value <;> rfl
  | union members => by
      rw [read, read, readAll_relabel members]
      cases readAll idOf members <;> simp
  | intersection members => by
      rw [read, read, readAll_relabel members]
      cases readAll idOf members <;> simp

theorem readAll_relabel : forall terms : List TypeTerm,
    readAll (f ∘ idOf) terms = (readAll idOf terms).map (List.map (FieldType.relabel f))
  | [] => rfl
  | term :: rest => by
      rw [readAll, readAll, read_relabel term, readAll_relabel rest]
      cases read idOf term <;> cases readAll idOf rest <;> rfl

end

theorem readFields_relabel (fields : List (String × TypeTerm)) :
    readFields (f ∘ idOf) fields =
      (readFields idOf fields).map (List.map fun e => (e.1, e.2.relabel f)) := by
  induction fields with
  | nil => rfl
  | cons field rest ih =>
      rw [readFields, readFields, read_relabel, ih]
      cases read idOf field.2 <;> cases readFields idOf rest <;> rfl

end Relabel

section Malformed

variable (idOf idOf' : String -> ShapeId)

-- All names may as well have one identifier.

theorem isSome_read (term : TypeTerm) :
    (term.read idOf).isSome = (term.read idOf').isSome := by
  have hone : forall names : String -> ShapeId,
      (term.read names).isSome = (term.read fun _ => ⟨0⟩).isSome := by
    intro names
    rw [← Option.isSome_map (f := FieldType.relabel fun _ => ⟨0⟩), ← read_relabel]
    rfl
  rw [hone idOf, hone idOf']

theorem isSome_readFields (fields : List (String × TypeTerm)) :
    (readFields idOf fields).isSome = (readFields idOf' fields).isSome := by
  have hone : forall names : String -> ShapeId,
      (readFields names fields).isSome = (readFields (fun _ => ⟨0⟩) fields).isSome := by
    intro names
    rw [← Option.isSome_map (f := List.map fun e => (e.1, e.2.relabel fun _ => ⟨0⟩)),
      ← readFields_relabel]
    rfl
  rw [hone idOf, hone idOf']

end Malformed

/-!
# Identifiers of the names that are mentioned

Only the names that a term mentions make a difference to what is read.
-/

section Congruence

variable {idOf idOf' : String -> ShapeId}

mutual

theorem read_congr : forall term : TypeTerm,
    (forall n, n ∈ term.mentions -> idOf n = idOf' n) -> term.read idOf = term.read idOf'
  | name n, h => by
      rw [read, read]
      cases hword : Keyword.ofName? n with
      | some word => rfl
      | none =>
          have hn : idOf n = idOf' n := h n (by simp [mentions, hword])
          simp only [hn]
  | literal value, _ => rfl
  | union members, h => by rw [read, read, readAll_congr members h]
  | intersection members, h => by rw [read, read, readAll_congr members h]

theorem readAll_congr : forall terms : List TypeTerm,
    (forall n, n ∈ allMentions terms -> idOf n = idOf' n) ->
      readAll idOf terms = readAll idOf' terms
  | [], _ => rfl
  | term :: rest, h => by
      rw [readAll, readAll, read_congr term fun n hn => h n (List.mem_append_left _ hn),
        readAll_congr rest fun n hn => h n (List.mem_append_right _ hn)]

end

theorem readFields_congr {fields : List (String × TypeTerm)}
    (h : forall n, n ∈ fieldMentions fields -> idOf n = idOf' n) :
    readFields idOf fields = readFields idOf' fields := by
  induction fields with
  | nil => rfl
  | cons field rest ih =>
      rw [readFields, readFields, read_congr field.2 fun n hn => h n (List.mem_append_left _ hn),
        ih fun n hn => h n (List.mem_append_right _ hn)]

end Congruence

end TypeTerm

/-!
# Elaboration

Elaborating a term reserves names as it goes; it comes to the same as reading
the term at the end, and fails exactly where reading fails.
-/

namespace Registry

/-- The identifiers of all names of a registry. -/
def Names (r : Registry) (idOf : String -> ShapeId) : Prop :=
  forall {name id}, r.lookup? name = some id -> idOf name = id

theorem exists_names (r : Registry) : exists idOf, r.Names idOf := by
  refine ⟨fun name => (r.lookup? name).getD ⟨0⟩, ?_⟩
  intro name id h
  simp [h]

theorem Names.before {r r' : Registry} {idOf : String -> ShapeId} (h : r'.Names idOf)
    (hgrows : Grows r r') : r.Names idOf :=
  fun hid => h (hgrows.lookup? hid)

end Registry

open Registry

/-- An elaboration that comes to what is read, or fails where nothing can be read. -/
def Elaborates {α : Type} (names : List String) (found : (String -> ShapeId) -> Option α)
    (action : ElaborateM α) : Prop :=
  forall ⦃r answer r'⦄, r.Tidy -> action.run r = (answer, r') ->
    Grows r r' ∧ forall ⦃idOf⦄, r'.Names idOf ->
      match answer with
      | .ok a => found idOf = some a ∧ Reserves names r r'
      | .error _ => found idOf = none

theorem elaborates_pure {α : Type} (a : α) :
    Elaborates [] (fun _ => some a) (pure a) := by
  intro r answer r' hr hrun
  cases hrun
  exact ⟨.refl hr, fun _ _ => ⟨rfl, .nil hr⟩⟩

theorem elaborates_bind {α β : Type} {names others : List String}
    {found : (String -> ShapeId) -> Option α} {next : α -> (String -> ShapeId) -> Option β}
    {action : ElaborateM α} {rest : α -> ElaborateM β} (h : Elaborates names found action)
    (hrest : forall a, Elaborates others (next a) (rest a)) :
    Elaborates (names ++ others) (fun idOf => (found idOf).bind fun a => next a idOf)
      (action >>= rest) := by
  intro r answer r' hr hrun
  rcases run_bind_cases hrun with ⟨a, r1, hfirst, hlast⟩ | ⟨cause, hfirst, rfl⟩
  · rcases h hr hfirst with ⟨hgrows, hread⟩
    rcases hrest a hgrows.tidy hlast with ⟨hgrows', hread'⟩
    refine ⟨hgrows.trans hgrows', ?_⟩
    intro idOf hid
    rcases hread (hid.before hgrows') with ⟨hfound, hreserves⟩
    have hend := hread' hid
    cases answer with
    | ok b => exact ⟨by simp only [hfound]; exact hend.1, hreserves.append hend.2⟩
    | error cause =>
        simp only [hfound]
        exact hend
  · rcases h hr hfirst with ⟨hgrows, hread⟩
    refine ⟨hgrows, ?_⟩
    intro idOf hid
    have hnone : found idOf = none := hread hid
    simp only [hnone]
    rfl

theorem elaborates_map {α β : Type} {names : List String}
    {found : (String -> ShapeId) -> Option α} {action : ElaborateM α}
    (h : Elaborates names found action) (g : α -> β) :
    Elaborates names (fun idOf => (found idOf).map g) (action >>= fun a => pure (g a)) := by
  have hbind := elaborates_bind h fun a => elaborates_pure (g a)
  rw [List.append_nil] at hbind
  simpa only [Option.map_eq_bind, Function.comp_def] using hbind

theorem elaborates_throw {α : Type} (names : List String) (cause : Malformed) :
    Elaborates (α := α) names (fun _ => none) (throw cause) := by
  intro r answer r' hr hrun
  cases hrun
  exact ⟨.refl hr, fun _ _ => rfl⟩

theorem elaborates_reserve (n : String) :
    Elaborates [n] (fun idOf => some (idOf n)) (reserve n : StateM Registry ShapeId) := by
  intro r answer r' hr hrun
  cases hrun
  rcases reserves_reserve hr n with ⟨hreserves, hid⟩
  refine ⟨hreserves.grows, ?_⟩
  intro idOf hnames
  exact ⟨congrArg some (hnames hid), hreserves⟩

namespace TypeTerm

mutual

theorem elaborate_reads : forall term : TypeTerm,
    Elaborates term.mentions (fun idOf => read idOf term) term.elaborate
  | name n => by
      unfold mentions read elaborate
      cases Keyword.ofName? n with
      | some word => exact elaborates_pure (FieldType.keyword word)
      | none => exact elaborates_map (elaborates_reserve n) FieldType.reference
  | literal value => by
      unfold mentions read elaborate
      cases Literal.ofJson? value with
      | some l => exact elaborates_pure (FieldType.literal l)
      | none => exact elaborates_throw [] (.unsupportedLiteral value)
  | union members => elaborates_map (elaborateAll_reads members) FieldType.union
  | intersection members =>
      elaborates_map (elaborateAll_reads members) FieldType.intersection

theorem elaborateAll_reads : forall terms : List TypeTerm,
    Elaborates (allMentions terms) (fun idOf => readAll idOf terms) (elaborateAll terms)
  | [] => elaborates_pure []
  | term :: rest =>
      elaborates_bind (elaborate_reads term) fun t =>
        elaborates_map (elaborateAll_reads rest) (t :: ·)

end

theorem elaborateFields_reads (fields : List (String × TypeTerm)) :
    Elaborates (fieldMentions fields) (fun idOf => readFields idOf fields)
      (elaborateFields fields) := by
  induction fields with
  | nil => exact elaborates_pure []
  | cons field rest ih =>
      unfold elaborateFields
      rw [List.mapM_cons]
      have hfirst := elaborates_map (elaborate_reads field.2) fun t => (field.1, t)
      have hboth := elaborates_bind hfirst fun e => elaborates_map ih (e :: ·)
      simp only [Option.bind_map] at hboth
      exact hboth

end TypeTerm

/-!
# Declarations

A declaration is read part by part, and its parents are looked up only when it
is declared.
-/

namespace Declaration

/-- What a declaration contributes, unless it is malformed. -/
def read (idOf : String -> ShapeId) : Declaration -> Option Contribution
  | interface _ parents fields =>
      (TypeTerm.readFields idOf fields).map (.ofFields .mergeable parents)
  | typeAlias _ (some fields) none =>
      (TypeTerm.readFields idOf fields).map (.ofFields .single [])
  | typeAlias _ none (some body) => (body.read idOf).map .ofBody
  | typeAlias _ _ _ => none

def mentions : Declaration -> List String
  | interface _ _ fields => TypeTerm.fieldMentions fields
  | typeAlias _ (some fields) none => TypeTerm.fieldMentions fields
  | typeAlias _ none (some body) => body.mentions
  | typeAlias _ _ _ => []

/-- The part of declaring that comes before the registry's verdict. -/
def contribution : Declaration -> ElaborateM Contribution
  | interface _ parents fields => do
      let fields <- TypeTerm.elaborateFields fields
      return .ofFields .mergeable parents fields
  | typeAlias _ (some fields) none => do
      let fields <- TypeTerm.elaborateFields fields
      return .ofFields .single [] fields
  | typeAlias _ none (some body) => do
      let t <- TypeTerm.elaborate body
      return .ofBody t
  | typeAlias name (some _) (some _) => throw (.fieldsAndBody name)
  | typeAlias name none none => throw (.neitherFieldsNorBody name)

theorem declare_eq (d : Declaration) :
    d.declare = d.contribution >>= fun c => verdict (Registry.contribute d.name c) := by
  cases d with
  | interface name parents fields =>
      simp only [declare, contribution, bind_assoc, pure_bind]
      congr 1
      funext fields
      split
      · rename_i hparents
        rw [List.isEmpty_iff.mp hparents]
        rfl
      · rfl
  | typeAlias name fields body =>
      cases fields <;> cases body <;>
        simp only [declare, contribution, bind_assoc, pure_bind] <;> rfl

theorem contribution_reads (d : Declaration) :
    Elaborates d.mentions (fun idOf => d.read idOf) d.contribution := by
  cases d with
  | interface name parents fields =>
      exact elaborates_map (TypeTerm.elaborateFields_reads fields) _
  | typeAlias name fields body =>
      cases fields with
      | some fields =>
          cases body with
          | some body => exact elaborates_throw _ (.fieldsAndBody name)
          | none => exact elaborates_map (TypeTerm.elaborateFields_reads fields) _
      | none =>
          cases body with
          | some body => exact elaborates_map (TypeTerm.elaborate_reads body) _
          | none => exact elaborates_throw _ (.neitherFieldsNorBody name)

end Declaration
end Shapes
