import Shapes.Proofs.Document.Order
import Shapes.Proofs.Registry.Probe

/-!
# Queries that do not disturb each other

A query leaves shapes kept and definitions frozen, also when it fails halfway, and the
next query finds them so.  In a small registry no answer depends on that: every query
gets the outcome that it would get right after the declarations.
-/

namespace Shapes

open Registry

/-!
# Registries that have only been declared to

Declaring keeps no shape and freezes nothing, so such a registry is faithful.
-/

namespace Declaration.Yields

variable {policy : KeyPolicy} {ds : List Declaration} {answers : List Outcome} {r : Registry}
  {idOf : String -> ShapeId} (h : Yields policy ds answers r idOf)

include h

theorem nothing_kept (id : ShapeId) : r.arena.cached? id = none := by
  cases hd : r.arena.get? id with
  | none => simp [Arena.cached?, hd]
  | some d =>
      have hunder := under_name h.coherent hd
      rw [h.declares.under, under_empty] at hunder
      rw [cached?_of_get? hd]
      rcases Option.or_eq_some_iff.mp hunder with hgathered | ⟨_, hreserved⟩
      · refine Definition.gathered_resolved _ ?_ hgathered
        intro _ hnone
        cases hnone
      · rw [reserved_eq_pending hreserved]
        rfl

theorem faithful : r.Faithful :=
  .of_nothing_kept h.coherent.numbered h.nothing_kept

end Declaration.Yields

/-!
# One query after the other

Each query finds a faithful registry and leaves one behind, and a faithful
registry answers as the registry that was declared.
-/

namespace Query

variable {r r' : Registry} (hsmall : r.size ≤ Limits.resolution.maxDepth) (hr : r.Faithful)
  (h : Later r r')

include hsmall hr h

theorem outcome_later (query : Query) :
    (query.outcome.run r').1 = (query.outcome.run r).1 ∧ Later r (query.outcome.run r').2 := by
  rcases outcome_mirrors (Later.inStep hsmall) query r r' ⟨.refl hr, h⟩ with
    ⟨hanswer, _, hlater⟩
  exact ⟨hanswer, hlater⟩

theorem outcomes_later (queries : List Query) :
    ((queries.mapM outcome).run r').1 = queries.map fun query => (query.outcome.run r).1 := by
  induction queries generalizing r' with
  | nil => rfl
  | cons query rest ih =>
      rcases outcome_later hsmall hr h query with ⟨hanswer, hlater⟩
      rw [List.mapM_cons, run_stateBind, run_stateBind, List.map_cons, hanswer, ← ih hlater]
      rfl

end Query

/-!
# One query alone

The outcome of a query alone is what it gets right after the declarations; the
outcomes of a whole document are compared with that.
-/

namespace Document

/-- What is asked of a document: its queries, and then the keys of some names. -/
def asked (document : Document) (names : List String) : List Query :=
  document.queries ++ names.map Query.keysOf

/-- The outcome of a query right after the declarations. -/
def outcomeAlone (document : Document) (policy : KeyPolicy) (query : Query) : Outcome :=
  (query.outcome.run (document.registered policy)).1

section Alone

variable {document : Document} {policy : KeyPolicy}

theorem run_of_invalid {invalid : InvalidDeclaration}
    (hdeclared : document.declared policy = .error invalid) (queries : List Query)
    (names : List String) : { document with queries }.run policy names = .error invalid := by
  have hsame : { document with queries }.declared policy = .error invalid := hdeclared
  rw [run_eq, hsame]
  rfl

theorem run_of_declared (hsmall : (document.registered policy).size ≤ Limits.resolution.maxDepth)
    {answers : List Outcome} (hdeclared : document.declared policy = .ok answers)
    (queries : List Query) (names : List String) :
    { document with queries }.run policy names =
      .ok { declarations := answers,
            queries := ({ document with queries }.asked names).map
              (document.outcomeAlone policy) } := by
  rcases yields_of_declared hdeclared with ⟨idOf, hyields⟩
  have hr := hyields.faithful
  have hanswers := Query.outcomes_later hsmall hr (.refl hr)
    ({ document with queries }.asked names)
  have hsame : { document with queries }.declared policy = .ok answers := hdeclared
  rw [run_eq, hsame]
  exact congrArg (fun outcomes => Except.ok (Report.mk answers outcomes)) hanswers

end Alone

/--
In a document that registers few names, every query has the outcome that it would have
as the only one, so no other queries make a difference to it, whatever they leave behind.
-/
theorem queries_do_not_disturb_each_other (document : Document) (policy : KeyPolicy)
    (hsmall : (document.registered policy).size ≤ 256) (names : List String) :
    (forall invalid, document.run policy names = .error invalid ->
        forall queries names', { document with queries }.run policy names' = .error invalid) ∧
      forall report, document.run policy names = .ok report ->
        List.Forall₂
            (fun query outcome =>
              { document with queries := [query] }.run policy [] =
                .ok { declarations := report.declarations, queries := [outcome] })
            (document.asked names) report.queries ∧
          forall queries names', exists report',
            { document with queries }.run policy names' = .ok report' ∧
              report'.declarations = report.declarations ∧
              forall i j : Nat,
                (document.asked names)[i]? = ({ document with queries }.asked names')[j]? ->
                  report.queries[i]? = report'.queries[j]? := by
  cases hdeclared : document.declared policy with
  | error invalid =>
      have hrun : document.run policy names = _ :=
        run_of_invalid hdeclared document.queries names
      rw [hrun]
      refine ⟨?_, nofun⟩
      rintro _ ⟨⟩
      exact run_of_invalid hdeclared
  | ok answers =>
      have hruns := run_of_declared hsmall hdeclared
      have hrun : document.run policy names = _ := hruns document.queries names
      rw [hrun]
      refine ⟨nofun, ?_⟩
      rintro _ ⟨⟩
      constructor
      · apply List.forall₂_map_right_iff.mpr
        apply List.forall₂_same.mpr
        intro query _
        exact hruns [query] []
      · intro queries names'
        refine ⟨_, hruns queries names', rfl, ?_⟩
        intro i j hsame
        rw [List.getElem?_map, List.getElem?_map]
        exact congrArg (Option.map (document.outcomeAlone policy)) hsame

/-- Two shapes that extend each other, and a mixture of one of them with a sound one. -/
def rounds : Document :=
  { policy := none
    declarations :=
      [.interface "Good" [] [("size", .name "number")],
        .interface "Even" ["Odd"] [],
        .interface "Odd" ["Even"] [],
        .typeAlias "Mixed" none (some (.intersection [.name "Good", .name "Even"]))]
    queries := [.keysOf "Mixed", .validateKey "Good" "size", .isSubtype "Odd" "Good",
      .keysOf "Mixed"] }

theorem queries_do_not_disturb_each_other_rounds :
    (rounds.registered .common).size ≤ 256 ∧
      exists report, rounds.run .common ["Good"] = .ok report ∧
        report.queries.map Outcome.isFailure = [true, false, true, true, false] ∧
        List.Forall₂
          (fun query outcome =>
            { rounds with queries := [query] }.run .common [] =
              .ok { declarations := report.declarations, queries := [outcome] })
          (rounds.asked ["Good"]) report.queries := by
  have hsmall : (rounds.registered .common).size ≤ 256 := by decide +kernel
  have hfailures : (rounds.run .common ["Good"]).toOption.map
      (fun report => report.queries.map Outcome.isFailure) =
        some [true, false, true, true, false] := by
    decide +kernel
  rcases Option.map_eq_some_iff.mp hfailures with ⟨report, hreport, hqueries⟩
  have hrun := toOption_eq_some hreport
  have halone := queries_do_not_disturb_each_other rounds .common hsmall ["Good"]
  exact ⟨hsmall, report, hrun, hqueries, (halone.2 report hrun).1⟩

end Document
end Shapes
