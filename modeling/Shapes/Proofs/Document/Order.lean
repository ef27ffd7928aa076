import Shapes.Proofs.Document.Declaring
import Shapes.Proofs.Registry.Correspondence
import Shapes.Proofs.Report.Relabel

/-!
# The order of declarations

Declarations of different names can be given in any order.  Another order registers
names at other times, so shapes get other identifiers, but the verdict on a declaration
depends only on those of its own name that come before it, and no answer to a query
shows an identifier.
-/

namespace Shapes

open Registry Definition

namespace Declaration

/-- Another order of declarations, which keeps the order among those of each name. -/
def Reorders (ds ds' : List Declaration) : Prop :=
  forall name, (ds'.filter fun d => d.name = name) = ds.filter fun d => d.name = name

namespace Reorders

variable {ds ds' : List Declaration} (h : Reorders ds ds')

include h

theorem mem_iff (d : Declaration) : d ∈ ds' <-> d ∈ ds := by
  have hname : forall list : List Declaration,
      d ∈ list <-> d ∈ list.filter fun e => e.name = d.name := by
    simp
  rw [hname ds', h d.name, ← hname ds]

theorem symm : Reorders ds' ds :=
  fun name => (h name).symm

theorem contributions_eq (idOf : String -> ShapeId) (name : String) :
    contributions idOf name ds' = contributions idOf name ds := by
  unfold contributions
  rw [h name]

theorem reserved_eq (name : String) :
    reserved (ds'.flatMap mentions) name = reserved (ds.flatMap mentions) name := by
  have hmem : name ∈ ds'.flatMap mentions <-> name ∈ ds.flatMap mentions := by
    simp only [List.mem_flatMap, h.mem_iff]
  simp only [reserved, hmem]

end Reorders

/-!
# Reading names as labels

Which names are registered depends on verdicts, and those on whether two references are
the same.  So two runs cannot be compared by the identifiers of either of them; both are
compared with what comes of reading names as labels, which do not depend on any run.
-/

/-- What declarations lead to on an empty registry, with the identifiers of all names. -/
structure Yields (policy : KeyPolicy) (ds : List Declaration) (answers : List Outcome)
    (r : Registry) (idOf : String -> ShapeId) : Prop where
  grows : Grows (empty policy) r
  names : r.Names idOf
  declares : Declares idOf ds answers (empty policy) r

namespace Yields

variable {policy : KeyPolicy} {ds : List Declaration} {answers : List Outcome} {r : Registry}
  {idOf : String -> ShapeId} (h : Yields policy ds answers r idOf)

include h

theorem coherent : r.Coherent :=
  h.grows.tidy.coherent

theorem label_mentioned {d : Declaration} (hd : d ∈ ds) {name : String}
    (hname : name ∈ d.mentions) : r.label (idOf name) = labelOf name := by
  have hreserved : reserved (ds.flatMap mentions) name = some (.pending name) := by
    unfold reserved
    rw [if_pos (List.mem_flatMap.mpr ⟨d, hd, hname⟩)]
  have hunder : r.under name ≠ none := by
    rw [h.declares.under, hreserved]
    simp
  cases hlookup : r.lookup? name with
  | none => exact absurd ((under_eq_none h.coherent).mpr hlookup) hunder
  | some id => rw [h.names hlookup, label_of_lookup? h.coherent hlookup]

theorem contributions_labelled (name : String) :
    (contributions idOf name ds).map (Contribution.relabel r.label) =
      contributions labelOf name ds := by
  unfold contributions
  rw [List.map_filterMap]
  apply List.filterMap_congr
  intro d hd
  rw [← read_relabel (label_injective h.coherent)]
  apply read_congr
  intro n hn
  exact h.label_mentioned (List.mem_filter.mp hd).1 hn

theorem outcomes_labelled (name : String) :
    (answers.filter fun answer => answer.subject = name) =
      (verdicts name none (contributions labelOf name ds)).map (outcomeOf name) := by
  have hverdicts := verdicts_relabel (label_injective h.coherent) name none
    (contributions idOf name ds)
  rw [h.contributions_labelled] at hverdicts
  rw [h.declares.outcomes, under_empty, ← hverdicts]
  rfl

theorem under_labelled (name : String) :
    (r.under name).map (relabel r.label) =
      (gathered name none (contributions labelOf name ds)).or
        (reserved (ds.flatMap mentions) name) := by
  have hgathered := gathered_relabel (label_injective h.coherent) name none
    (contributions idOf name ds)
  rw [h.contributions_labelled] at hgathered
  have hreserved : (reserved (ds.flatMap mentions) name).map (relabel r.label) =
      reserved (ds.flatMap mentions) name := by
    unfold reserved
    split <;> rfl
  rw [h.declares.under, under_empty, Option.map_or, hreserved, ← hgathered]
  rfl

end Yields

/-!
# Two orders

Names of both runs are read with their labels.  Then the two registries have the
same contributions under every label, and correspond.
-/

namespace Reorders

variable {ds ds' : List Declaration} (h : Reorders ds ds') {policy : KeyPolicy}
  {idOf idOf' : String -> ShapeId} {answers answers' : List Outcome} {r r' : Registry}

include h

theorem not_malformed (hyields : Yields policy ds answers r idOf) :
    Not (exists d, d ∈ ds' ∧ d.read idOf' = none) := by
  intro hmalformed
  rcases hmalformed with ⟨d, hd, hread⟩
  have hreadable := hyields.declares.readable d ((h.mem_iff d).mp hd)
  rw [isSome_read idOf idOf', hread] at hreadable
  cases hreadable

variable (hyields : Yields policy ds answers r idOf)
  (hyields' : Yields policy ds' answers' r' idOf')

include hyields hyields'

theorem corresponds : Corresponds r r' := by
  refine ⟨hyields'.grows.policy.trans hyields.grows.policy.symm, ?_⟩
  intro name
  rw [hyields'.under_labelled, h.contributions_eq, h.reserved_eq, ← hyields.under_labelled]

theorem outcomes_eq (name : String) :
    (answers'.filter fun answer => answer.subject = name) =
      answers.filter fun answer => answer.subject = name := by
  rw [hyields'.outcomes_labelled, h.contributions_eq, ← hyields.outcomes_labelled]

end Reorders

end Declaration

theorem filter_zip_of_map_eq {α β γ : Type} [DecidableEq γ] {f : α -> γ} {g : β -> γ}
    {as : List α} {bs : List β} (h : bs.map g = as.map f) (c : γ) :
    ((as.zip bs).filter fun e => f e.1 = c) =
      (as.filter fun a => f a = c).zip (bs.filter fun b => g b = c) := by
  induction as generalizing bs with
  | nil => rfl
  | cons a rest ih =>
      cases bs with
      | nil => cases h
      | cons b others =>
          rw [List.map_cons, List.map_cons, List.cons.injEq] at h
          have hrest := ih h.2
          by_cases hc : f a = c
          · simp [hc, h.1, hrest]
          · simp [hc, h.1, hrest]

namespace Document

/-- The outcomes of the declarations. -/
def declared (document : Document) (policy : KeyPolicy) :
    Except InvalidDeclaration (List Outcome) :=
  ((document.declarations.mapM Declaration.outcome).run (Registry.empty policy)).1

def registered (document : Document) (policy : KeyPolicy) : Registry :=
  ((document.declarations.mapM Declaration.outcome).run (Registry.empty policy)).2

/-- The outcomes of all queries after the declarations. -/
def answersIn (document : Document) (names : List String) (r : Registry) : List Outcome :=
  (((document.queries ++ names.map Query.keysOf).mapM Query.outcome).run r).1

theorem run_eq (document : Document) (policy : KeyPolicy) (names : List String) :
    document.run policy names =
      (document.declared policy).map fun answers =>
        { declarations := answers
          queries := document.answersIn names (document.registered policy) } := by
  unfold run outcomes declared registered
  rw [run_bind]
  rcases (document.declarations.mapM Declaration.outcome).run (Registry.empty policy) with
    ⟨answer, r⟩
  cases answer <;> rfl

theorem yields_of_declared {document : Document} {policy : KeyPolicy} {answers : List Outcome}
    (h : document.declared policy = .ok answers) :
    exists idOf, Declaration.Yields policy document.declarations answers
      (document.registered policy) idOf := by
  rcases Declaration.outcomes_declare (Tidy.empty policy) (Prod.ext h rfl) with ⟨hgrows, hends⟩
  rcases (document.registered policy).exists_names with ⟨idOf, hid⟩
  exact ⟨idOf, hgrows, hid, hends idOf hid⟩

theorem run_cases (document : Document) (policy : KeyPolicy) (names : List String) :
    (exists invalid, document.run policy names = .error invalid ∧
        exists d idOf, d ∈ document.declarations ∧ d.read idOf = none) ∨
      exists r idOf answers,
        document.run policy names =
            .ok { declarations := answers, queries := document.answersIn names r } ∧
          Declaration.Yields policy document.declarations answers r idOf := by
  rw [run_eq]
  cases hanswer : document.declared policy with
  | error invalid =>
      rcases Declaration.outcomes_declare (Tidy.empty policy) (Prod.ext hanswer rfl) with
        ⟨_, hends⟩
      rcases (document.registered policy).exists_names with ⟨idOf, hid⟩
      rcases hends idOf hid with ⟨d, hd, hread⟩
      exact Or.inl ⟨invalid, rfl, d, idOf, hd, hread⟩
  | ok answers =>
      rcases yields_of_declared hanswer with ⟨idOf, hyields⟩
      exact Or.inr ⟨document.registered policy, idOf, answers, rfl, hyields⟩

theorem answersIn_eq (document : Document) {r r' : Registry} (h : Corresponds r r')
    (hr : r.Coherent) (hr' : r'.Coherent) (names : List String) :
    document.answersIn names r' = document.answersIn names r := by
  have hstep := Relabels.inStep (h.carry_injective hr hr')
  have hmirrors := Mirrors.mapM fun query (_ : query ∈ document.queries ++
    names.map Query.keysOf) => Query.outcome_mirrors hstep query
  rcases hmirrors r r' (h.relabels hr hr') with ⟨hanswers, _⟩
  rw [List.map_id] at hanswers
  exact hanswers

theorem order_among_names_is_immaterial (document : Document) {ds : List Declaration}
    (h : Declaration.Reorders document.declarations ds) (policy : KeyPolicy)
    (names : List String) :
    ((exists invalid, document.run policy names = .error invalid) <->
        exists invalid,
          { document with declarations := ds }.run policy names = .error invalid) ∧
      forall report report', document.run policy names = .ok report ->
        { document with declarations := ds }.run policy names = .ok report' ->
          report.declarations.length = document.declarations.length ∧
            report'.declarations.length = ds.length ∧
            (forall name, ((ds.zip report'.declarations).filter fun e => e.1.name = name) =
              (document.declarations.zip report.declarations).filter fun e =>
                e.1.name = name) ∧
            report'.queries = report.queries := by
  -- Whether a run ends well does not depend on the order, so there are two cases, not four.
  rcases document.run_cases policy names with
    ⟨invalid, hrun, d, idOf, hd, hread⟩ | ⟨r, idOf, answers, hrun, hyields⟩
  · rcases { document with declarations := ds }.run_cases policy names with
      ⟨invalid', hrun', _⟩ | ⟨r', idOf', answers', hrun', hyields'⟩
    · rw [hrun, hrun']
      exact ⟨⟨fun _ => ⟨invalid', rfl⟩, fun _ => ⟨invalid, rfl⟩⟩, nofun⟩
    · exact absurd ⟨d, hd, hread⟩ (h.symm.not_malformed hyields')
  · rcases { document with declarations := ds }.run_cases policy names with
      ⟨invalid', hrun', d, idOf', hd, hread⟩ | ⟨r', idOf', answers', hrun', hyields'⟩
    · exact absurd ⟨d, hd, hread⟩ (h.not_malformed hyields)
    · rw [hrun, hrun']
      refine ⟨by simp, ?_⟩
      rintro _ _ ⟨⟩ ⟨⟩
      refine ⟨?_, ?_, ?_, ?_⟩
      · simpa using congrArg List.length hyields.declares.subjects
      · simpa using congrArg List.length hyields'.declares.subjects
      · intro name
        rw [filter_zip_of_map_eq hyields.declares.subjects,
          filter_zip_of_map_eq hyields'.declares.subjects, h name,
          h.outcomes_eq hyields hyields']
      · exact document.answersIn_eq (h.corresponds hyields hyields') hyields.coherent
          hyields'.coherent names

/-- A tree whose nodes are declared twice, the second time at odds with the first. -/
def trees : Document :=
  { policy := none
    declarations :=
      [.interface "Node" [] [("left", .name "Tree")],
        .typeAlias "Tree" none (some (.union [.name "Node", .name "null"])),
        .interface "Node" [] [("left", .name "string")]]
    queries := [.keysOf "Node", .validateKey "Node" "left", .isSubtype "Node" "Tree"] }

/-- The same declarations, but the one that was in the middle comes first. -/
def treesFirst : List Declaration :=
  [.typeAlias "Tree" none (some (.union [.name "Node", .name "null"])),
    .interface "Node" [] [("left", .name "Tree")],
    .interface "Node" [] [("left", .name "string")]]

theorem trees_reorders : Declaration.Reorders trees.declarations treesFirst := by
  intro name
  unfold trees treesFirst
  by_cases hname : "Node" = name
  · subst hname
    rfl
  · simp only [List.filter_cons, Declaration.name, hname, decide_false]
    rfl

theorem order_among_names_is_immaterial_trees :
    Declaration.Reorders trees.declarations treesFirst ∧
      exists report report', trees.run .common ["Tree"] = .ok report ∧
        { trees with declarations := treesFirst }.run .common ["Tree"] = .ok report' ∧
        report'.queries = report.queries := by
  have hsame := order_among_names_is_immaterial trees trees_reorders .common ["Tree"]
  have hok : (trees.run .common ["Tree"]).isOk = true := by decide +kernel
  have hok' : ({ trees with declarations := treesFirst }.run .common ["Tree"]).isOk = true := by
    decide +kernel
  cases hrun : trees.run .common ["Tree"] with
  | error invalid =>
      rw [hrun] at hok
      cases hok
  | ok report =>
      cases hrun' : { trees with declarations := treesFirst }.run .common ["Tree"] with
      | error invalid =>
          rw [hrun'] at hok'
          cases hok'
      | ok report' =>
          rcases hsame.2 report report' hrun hrun' with ⟨_, _, _, hqueries⟩
          exact ⟨trees_reorders, report, report', rfl, rfl, hqueries⟩

end Document
end Shapes
