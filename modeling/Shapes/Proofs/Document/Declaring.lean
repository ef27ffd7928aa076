import Shapes.Proofs.Document.Reading
import Shapes.Proofs.Registry.Gathering
import Shapes.Report.Basic

/-!
# Declaring one after the other

The declarations of a document come in one by one, and each of them is read with the
identifiers that names have then.  At the end it looks as if all of them had been read
with the identifiers of the end, and as if the declarations of every name had come in
by themselves: `Declaration.Declares` says this of a list of declarations.
-/

namespace Shapes

open Registry Definition

namespace Declaration

/-!
# Reading declarations

What a declaration contributes depends on the identifiers of the names it
mentions and on nothing else.
-/

theorem isSome_read (idOf idOf' : String -> ShapeId) (d : Declaration) :
    (d.read idOf).isSome = (d.read idOf').isSome := by
  cases d with
  | interface name parents fields =>
      simp only [read, Option.isSome_map, TypeTerm.isSome_readFields idOf idOf']
  | typeAlias name fields body =>
      cases fields <;> cases body <;>
        simp only [read, Option.isSome_map, TypeTerm.isSome_readFields idOf idOf',
          TypeTerm.isSome_read idOf idOf']

theorem read_relabel {f : ShapeId -> ShapeId} (hf : Function.Injective f)
    (idOf : String -> ShapeId) (d : Declaration) :
    d.read (f ∘ idOf) = (d.read idOf).map (Contribution.relabel f) := by
  cases d with
  | interface name parents fields =>
      rw [read, read, TypeTerm.readFields_relabel]
      simp only [Option.map_map, Function.comp_def, Contribution.relabel_ofFields hf]
  | typeAlias name fields body =>
      cases fields <;> cases body
      · rfl
      · rw [read, read, TypeTerm.read_relabel]
        simp only [Option.map_map, Function.comp_def, Contribution.relabel_ofBody]
      · rw [read, read, TypeTerm.readFields_relabel]
        simp only [Option.map_map, Function.comp_def, Contribution.relabel_ofFields hf]
      · rfl

theorem read_congr {idOf idOf' : String -> ShapeId} {d : Declaration}
    (h : forall n, n ∈ d.mentions -> idOf n = idOf' n) : d.read idOf = d.read idOf' := by
  cases d with
  | interface name parents fields => rw [read, read, TypeTerm.readFields_congr h]
  | typeAlias name fields body =>
      cases fields <;> cases body
      · rfl
      · rw [read, read, TypeTerm.read_congr _ h]
      · rw [read, read, TypeTerm.readFields_congr h]
      · rfl

/-!
# Name by name

Two runs of declarations are compared name by name: each name has its
contributions, and the verdicts on them are those of a registry that nobody else
declares to.
-/

/-- What the declarations of one name contribute. -/
def contributions (idOf : String -> ShapeId) (name : String) (ds : List Declaration) :
    List Contribution :=
  (ds.filter fun d => d.name = name).filterMap (read idOf)

theorem contributions_append (idOf : String -> ShapeId) (name : String)
    (ds others : List Declaration) :
    contributions idOf name (ds ++ others) =
      contributions idOf name ds ++ contributions idOf name others := by
  simp [contributions]

def outcomeOf (name : String) (verdict : Except Failure Unit) : Outcome :=
  { subject := name, result := verdict.map fun _ => .declared }

/--
Declarations come in, with their outcomes, and lead from one registry to another as if
those of each name came in by themselves.
-/
structure Declares (idOf : String -> ShapeId) (ds : List Declaration) (answers : List Outcome)
    (r r' : Registry) : Prop where
  readable : forall d, d ∈ ds -> (d.read idOf).isSome = true
  subjects : answers.map (·.subject) = ds.map name
  outcomes : forall name, answers.filter (fun answer => answer.subject = name) =
    (verdicts name (r.under name) (contributions idOf name ds)).map (outcomeOf name)
  under : forall name, r'.under name =
    (gathered name (r.under name) (contributions idOf name ds)).or
      (reserved (ds.flatMap mentions) name)

section Declares

variable {idOf : String -> ShapeId} {ds others : List Declaration}
  {answers further : List Outcome} {r r' r'' : Registry}

theorem Declares.nil : Declares idOf [] [] r r := by
  refine ⟨by simp, rfl, fun _ => rfl, ?_⟩
  intro name
  simp [contributions, gathered, reserved]

theorem Declares.append (h : Declares idOf ds answers r r')
    (h' : Declares idOf others further r' r'') :
    Declares idOf (ds ++ others) (answers ++ further) r r'' := by
  refine ⟨?_, ?_, ?_, ?_⟩
  · intro d hd
    rcases List.mem_append.mp hd with hd | hd
    · exact h.readable d hd
    · exact h'.readable d hd
  · rw [List.map_append, List.map_append, h.subjects, h'.subjects]
  · intro name
    rw [List.filter_append, h.outcomes, h'.outcomes, h.under,
      verdicts_or fun _ => reserved_eq_pending, contributions_append, verdicts_append,
      List.map_append]
  · intro name
    rw [h'.under, h.under, gathered_or fun _ => reserved_eq_pending, contributions_append,
      gathered_append, List.flatMap_append, reserved_append, Option.or_assoc]

end Declares

/-!
# Declaring

A declaration is read and the names it mentions are reserved before it is
contributed.  A run stops at a declaration that is malformed, and declares all
of them otherwise.
-/

theorem run_outcome (d : Declaration) (r : Registry) :
    d.outcome.run r =
      match d.declare.run r with
      | (.error cause, r') => (.error ⟨d.name, cause⟩, r')
      | (.ok result, r') =>
          (.ok { subject := d.name, result := result.map fun _ => .declared }, r') := by
  have hdeclare : StateT.run d.declare.run r = d.declare.run r := rfl
  change StateT.run (d.declare.run >>= _) r = _
  rw [run_stateBind, hdeclare]
  rcases d.declare.run r with ⟨answer, r'⟩
  cases answer <;> rfl

theorem Declares.single {idOf : String -> ShapeId} {d : Declaration} {c : Contribution}
    {result : Except Failure ShapeId} {r between r' : Registry} (hread : d.read idOf = some c)
    (hreserves : Reserves d.mentions r between)
    (hrun : (contribute d.name c).run between = (result, r')) :
    Declares idOf [d] [{ subject := d.name, result := result.map fun _ => .declared }] r r' := by
  rcases contribute_receives hreserves.grows.tidy hrun with ⟨_, hverdict, hunder⟩
  refine ⟨by simp [hread], rfl, ?_, ?_⟩
  · intro name
    by_cases hname : d.name = name
    · subst hname
      rw [hreserves.under, receive_or fun _ => reserved_eq_pending] at hverdict
      have hresult : result.map (fun _ => Answer.declared) =
          (result.map fun _ => ()).map fun _ => Answer.declared := by
        cases result <;> rfl
      simp [contributions, hread, verdicts, outcomeOf, hresult, hverdict]
    · simp [contributions, hname, verdicts]
  · intro name
    rw [hunder, hreserves.under]
    by_cases hname : name = d.name
    · subst hname
      rw [if_pos rfl, received_or fun _ => reserved_eq_pending]
      simp [contributions, hread, gathered]
    · simp [contributions, hname, Ne.symm hname, gathered]

section Outcome

variable {r r' : Registry} (hr : r.Tidy)

include hr

theorem outcome_declares {d : Declaration} {answer : Except InvalidDeclaration Outcome}
    (hrun : d.outcome.run r = (answer, r')) :
    Grows r r' ∧ forall idOf, r'.Names idOf ->
      match answer with
      | .ok outcome => Declares idOf [d] [outcome] r r'
      | .error _ => d.read idOf = none := by
  rw [run_outcome, declare_eq] at hrun
  rcases hdeclare : (d.contribution >>= fun c => verdict (contribute d.name c)).run r with
    ⟨result, after⟩
  rw [hdeclare] at hrun
  rcases run_bind_cases hdeclare with ⟨c, between, hfirst, hlast⟩ | ⟨cause, hfirst, rfl⟩
  · rcases contribution_reads d hr hfirst with ⟨hgrows, hread⟩
    rcases hcontribute : (contribute d.name c).run between with ⟨result', after'⟩
    change (Except.ok ((contribute d.name c).run between).1,
      ((contribute d.name c).run between).2) = _ at hlast
    rw [hcontribute] at hlast
    cases hlast
    cases hrun
    rcases contribute_receives hgrows.tidy hcontribute with ⟨hgrows', _⟩
    refine ⟨hgrows.trans hgrows', ?_⟩
    intro idOf hid
    rcases hread (hid.before hgrows') with ⟨hc, hreserves⟩
    exact Declares.single hc hreserves hcontribute
  · rcases contribution_reads d hr hfirst with ⟨hgrows, hread⟩
    cases hrun
    exact ⟨hgrows, fun idOf hid => hread hid⟩

theorem outcomes_declare {ds : List Declaration}
    {answer : Except InvalidDeclaration (List Outcome)}
    (hrun : (ds.mapM outcome).run r = (answer, r')) :
    Grows r r' ∧ forall idOf, r'.Names idOf ->
      match answer with
      | .ok answers => Declares idOf ds answers r r'
      | .error _ => exists d, d ∈ ds ∧ d.read idOf = none := by
  induction ds generalizing r answer with
  | nil =>
      cases hrun
      exact ⟨.refl hr, fun _ _ => .nil⟩
  | cons d rest ih =>
      rw [List.mapM_cons] at hrun
      rcases run_bind_cases hrun with ⟨first, between, hfirst, hlast⟩ | ⟨cause, hfirst, rfl⟩
      · rcases outcome_declares hr hfirst with ⟨hgrows, hdeclares⟩
        rcases run_bind_cases hlast with ⟨further, after, hrest, hend⟩ | ⟨cause, hrest, rfl⟩
        · cases hend
          rcases ih hgrows.tidy hrest with ⟨hgrows', hdeclares'⟩
          refine ⟨hgrows.trans hgrows', ?_⟩
          intro idOf hid
          exact (hdeclares idOf (hid.before hgrows')).append (hdeclares' idOf hid)
        · rcases ih hgrows.tidy hrest with ⟨hgrows', hmalformed⟩
          refine ⟨hgrows.trans hgrows', ?_⟩
          intro idOf hid
          rcases hmalformed idOf hid with ⟨e, he, hread⟩
          exact ⟨e, List.mem_cons_of_mem d he, hread⟩
      · rcases outcome_declares hr hfirst with ⟨hgrows, hmalformed⟩
        exact ⟨hgrows, fun idOf hid => ⟨d, List.mem_cons_self, hmalformed idOf hid⟩⟩

end Outcome

end Declaration
end Shapes
