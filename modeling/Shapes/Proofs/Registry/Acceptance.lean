import Shapes.Proofs.Registry.Gathering
import Shapes.Proofs.Registry.Lifecycle

/-!
# Accepted and refused declarations

A declaration of a name takes one of three forms.  Whichever it takes, it is accepted
or refused as a whole: what is registered under the name decides, a refused declaration
leaves the registry as it was, and an accepted one writes under its own name only.

Most of it is known of contributions already.  What is added here is the view from
outside: when a declaration is accepted, in words about its fields, and where a write
by name can be seen in the arena.
-/

namespace Shapes
namespace Definition

/-- The fields that are stored under a name; a new name has none. -/
def stored (found : Option Definition) : Table FieldType :=
  found.elim .empty (·.fields)

theorem AtRest.isOpen_iff {d : Definition} (h : d.AtRest) (hkind : d.kind ≠ none) :
    d.stage.isOpen = true <-> d.stage = .unresolved := by
  have hpending : d.stage ≠ .pending := fun hstage => hkind (h.pending.mpr hstage)
  cases hstage : d.stage with
  | pending => exact absurd hstage hpending
  | unresolved | resolving | resolved | frozen => simp [Stage.isOpen]

end Definition

namespace Registry

/-!
# Forms of declarations

What is written is compared with what is stored, in words that do not mention
how contributions are gathered.
-/

/-- How a name is declared: by fields, by fields on top of parents, or by a body. -/
inductive Form where
  | fields (kind : NameKind) (entries : List (String × FieldType))
  | extension (parents : List String) (entries : List (String × FieldType))
  | body (body : FieldType)

namespace Form

def declare (name : String) : Form -> RegistryM ShapeId
  | fields kind entries => Registry.declare name kind entries
  | extension parents entries => extend name parents entries
  | body t => declareBody name t

def kind : Form -> NameKind
  | fields kind _ => kind
  | extension _ _ => .mergeable
  | body _ => .single

/-- The fields as they are written, repetitions included. -/
def entries : Form -> List (String × FieldType)
  | fields _ entries => entries
  | extension _ entries => entries
  | body _ => []

variable (form : Form)

/-- A field is repeated with a type that is not identical to its first one. -/
def Repeats (field : String) : Prop :=
  exists t first, (field, t) ∈ form.entries ∧ form.entries.lookup field = some first ∧
    first.same t = false

/-- A field has a type that is not identical to the one that is stored for it. -/
def Clashes (stored : Table FieldType) (field : String) : Prop :=
  exists t present, (field, t) ∈ form.entries ∧ stored.get? field = some present ∧
    present.same t = false

/--
When a declaration is accepted, by what is registered under its name.  Nothing may be
declared yet, or both sides are mergeable, nothing is resolved and the fields agree.
-/
def Admissible (found : Option Definition) : Prop :=
  (forall field, ¬ form.Repeats field) ∧
    ((forall d, found = some d -> d.stage = .pending) ∨
      exists d, found = some d ∧ d.kind = some .mergeable ∧ d.stage = .unresolved ∧
        form.kind = .mergeable ∧ forall field, ¬ form.Clashes d.fields field)

/-- The failure of a refused declaration of a declared name: the first reason there is. -/
structure Refused (d : Definition) (failure : Failure) : Prop where
  single : d.kind = some .single ∨ form.kind = .single -> failure = .duplicateAlias d.name
  closed : d.kind = some .mergeable -> form.kind = .mergeable -> d.stage ≠ .unresolved ->
    failure = .shapeFrozen d.name
  conflict : d.kind = some .mergeable -> form.kind = .mergeable -> d.stage = .unresolved ->
    exists field, (form.Repeats field ∨ form.Clashes d.fields field) ∧
      failure = .conflictingMerge d.name field

def additions (stored : Table FieldType) : List (String × FieldType) :=
  (distinctBy (fun a b => a.1 == b.1) form.entries).filter fun e => !stored.contains e.1

/-!
# Forms as contributions

Each form is a contribution, and the conflict that a contribution notes is a
repetition with another type.
-/

def contribution : Form -> Contribution
  | fields kind entries => .ofFields kind [] entries
  | extension parents entries => .ofFields .mergeable parents entries
  | body t => .ofBody t

theorem declare_eq (name : String) : form.declare name = contribute name form.contribution := by
  cases form <;> rfl

@[simp] theorem contribution_kind : form.contribution.kind = form.kind := by
  cases form <;> rfl

@[simp] theorem contribution_fields : form.contribution.fields = .firsts form.entries := by
  cases form with
  | fields kind entries => exact Contribution.ofFields_fields kind [] entries
  | extension parents entries => exact Contribution.ofFields_fields .mergeable parents entries
  | body t => rfl

theorem agree_iff_not_repeats :
    Contribution.Agree form.entries <-> forall field, ¬ form.Repeats field := by
  rw [Contribution.agree_iff]
  constructor
  · intro h field hrepeats
    rcases hrepeats with ⟨t, first, hmem, hfirst, hsame⟩
    rw [h field t hmem first hfirst] at hsame
    cases hsame
  · intro h field t hmem first hfirst
    apply Classical.byContradiction
    intro hsame
    exact h field ⟨t, first, hmem, hfirst, eq_false_of_ne_true hsame⟩

theorem contribution_conflict_eq_none_iff :
    form.contribution.conflict = none <-> forall field, ¬ form.Repeats field := by
  rw [← agree_iff_not_repeats]
  cases form with
  | fields kind entries => exact Contribution.ofFields_conflict_eq_none_iff
  | extension parents entries => exact Contribution.ofFields_conflict_eq_none_iff
  | body t => simp [contribution, Contribution.ofBody, Contribution.Agree, entries]

variable {form}

theorem repeats_of_conflict {field : String} (h : form.contribution.conflict = some field) :
    form.Repeats field := by
  cases form with
  | fields kind entries => exact Contribution.exists_of_ofFields_conflict h
  | extension parents entries => exact Contribution.exists_of_ofFields_conflict h
  | body t => cases h

theorem clashes_of_clash? {d : Definition} {field : String}
    (h : d.clash? form.contribution = some field) : form.Clashes d.fields field := by
  rcases Option.map_eq_some_iff.mp h with ⟨⟨name, t⟩, hfind, rfl⟩
  have hmem := List.mem_of_find?_eq_some hfind
  have hany := List.find?_some hfind
  rw [contribution_fields, ← Table.get?_eq_some_iff_mem, Table.get?_firsts] at hmem
  dsimp only at hany
  cases hpresent : d.fields.get? name with
  | none =>
      rw [hpresent] at hany
      cases hany
  | some present =>
      rw [hpresent] at hany
      exact ⟨t, present, Contribution.mem_of_lookup hmem, hpresent, by simpa using hany⟩

theorem clash?_eq_none_iff (hrepeats : forall field, ¬ form.Repeats field) {d : Definition} :
    d.clash? form.contribution = none <-> forall field, ¬ form.Clashes d.fields field := by
  constructor
  · intro hclash field hclashes
    rcases hclashes with ⟨t, present, hmem, hpresent, hdiffers⟩
    rcases Contribution.exists_lookup_of_mem hmem with ⟨first, hfirst⟩
    have hstored : present.same first = true := by
      apply Definition.clash?_eq_none_iff.mp hclash field first _ present hpresent
      rw [contribution_fields, ← Table.get?_eq_some_iff_mem, Table.get?_firsts]
      exact hfirst
    have hagree := form.agree_iff_not_repeats.mpr hrepeats
    have hsame := FieldType.same_trans hstored
      (hagree field first t (Contribution.mem_of_lookup hfirst) hmem)
    rw [hdiffers] at hsame
    cases hsame
  · intro hclashes
    rw [Option.eq_none_iff_forall_ne_some]
    intro field hclash
    exact hclashes field (clashes_of_clash? hclash)

/-!
# Verdicts

The verdict on a contribution depends on the definition under its name alone,
and a refusal names the first reason in the order of `Refused`.
-/

theorem exists_merge_iff_admissible {d : Definition} (hrest : d.AtRest) :
    (exists d', d.merge form.contribution = .ok d') <-> form.Admissible (some d) := by
  constructor
  · intro haccepted
    rcases haccepted with ⟨d', hd'⟩
    rcases Definition.merge_eq_ok_iff.mp hd' with
      ⟨hkind, hfirst⟩ | ⟨hkind, hform, hopen, hconflict, hclash, _⟩
    · have hconflict := (Definition.ofContribution_eq_ok_iff.mp hfirst).1
      refine ⟨form.contribution_conflict_eq_none_iff.mp hconflict, Or.inl ?_⟩
      intro found hfound
      cases hfound
      exact hrest.pending.mp hkind
    · have hrepeats := form.contribution_conflict_eq_none_iff.mp hconflict
      have hstage := (hrest.isOpen_iff (by simp [hkind])).mp hopen
      exact ⟨hrepeats, Or.inr ⟨d, rfl, hkind, hstage, form.contribution_kind.symm.trans hform,
        (clash?_eq_none_iff hrepeats).mp hclash⟩⟩
  · intro hadmissible
    rcases hadmissible with ⟨hrepeats, hcases⟩
    have hconflict := form.contribution_conflict_eq_none_iff.mpr hrepeats
    rcases hcases with hpending | ⟨found, hfound, hkind, hstage, hform, hclashes⟩
    · have hkind := hrest.pending.mpr (hpending d rfl)
      exact ⟨_, Definition.merge_eq_ok_iff.mpr
        (Or.inl ⟨hkind, Definition.ofContribution_eq_ok_iff.mpr ⟨hconflict, rfl⟩⟩)⟩
    · cases hfound
      have hopen := (hrest.isOpen_iff (by simp [hkind])).mpr hstage
      have hclash := (clash?_eq_none_iff hrepeats).mpr hclashes
      exact ⟨_, Definition.merge_eq_ok_iff.mpr
        (Or.inr ⟨hkind, form.contribution_kind.trans hform, hopen, hconflict, hclash, rfl⟩)⟩

theorem exists_receive_iff_admissible (name : String) {found : Option Definition}
    (hrest : forall d, found = some d -> d.AtRest) :
    (exists d, Definition.receive name found form.contribution = .ok d) <->
      form.Admissible found := by
  cases found with
  | none =>
      simp [Admissible, Definition.receive, Definition.ofContribution_eq_ok_iff,
        contribution_conflict_eq_none_iff]
  | some d => exact exists_merge_iff_admissible (hrest d rfl)

theorem refused_of_merge {d : Definition} (hrest : d.AtRest) (hkind : d.kind ≠ none)
    {failure : Failure} (h : d.merge form.contribution = .error failure) :
    form.Refused d failure := by
  have hpending : ¬ d.isPending = true := by simpa [Definition.isPending] using hkind
  have hopen := hrest.isOpen_iff hkind
  unfold Definition.merge at h
  rw [if_neg hpending, contribution_kind] at h
  constructor
  · intro hsingle
    rw [if_pos hsingle] at h
    cases h
    rfl
  · intro hmergeable hform hstage
    rw [if_neg (by simp [hmergeable, hform]), if_pos (by simpa [← hopen] using hstage)] at h
    cases h
    rfl
  · intro hmergeable hform hstage
    rw [if_neg (by simp [hmergeable, hform]), if_neg (by simp [hopen.mpr hstage])] at h
    split at h
    · rename_i field hfield
      cases h
      rcases Option.or_eq_some_iff.mp hfield with hrepeats | ⟨_, hclash⟩
      · exact ⟨field, Or.inl (repeats_of_conflict hrepeats), rfl⟩
      · exact ⟨field, Or.inr (clashes_of_clash? hclash), rfl⟩
    · cases h

/-!
# Fields of accepted declarations

What is stored stays in front, and of the new entries the first one of each
field is added.
-/

theorem receive_fields {name : String} {found : Option Definition} {d : Definition}
    (hrest : forall d, found = some d -> d.AtRest)
    (h : Definition.receive name found form.contribution = .ok d) :
    d.fields = form.entries.foldl (fun t e => t.insertIfNew e.1 e.2) (Definition.stored found) := by
  -- A contribution that comes first has its own fields, in which first entries stand already.
  have hfirst : forall {name d}, Definition.ofContribution name form.contribution = .ok d ->
      d.fields = .firsts form.entries := by
    intro name d hd
    rw [(Definition.ofContribution_eq_ok_iff.mp hd).2]
    exact form.contribution_fields
  cases found with
  | none => exact hfirst h
  | some old =>
      rcases Definition.merge_eq_ok_iff.mp h with ⟨hkind, hd⟩ | ⟨_, _, _, _, _, rfl⟩
      · have hblank := (hrest old rfl).blank hkind
        rw [hfirst hd, hblank]
        rfl
      · rw [Definition.absorb, contribution_fields, Table.firsts, Table.foldl_insertIfNew_foldl]
        rfl

theorem receive_entries {name : String} {found : Option Definition} {d : Definition}
    (hrest : forall d, found = some d -> d.AtRest)
    (h : Definition.receive name found form.contribution = .ok d) :
    d.fields.entries =
      (Definition.stored found).entries ++ form.additions (Definition.stored found) := by
  rw [receive_fields hrest h, Table.entries_foldl_insertIfNew, additions]

end Form

/-!
# Writing under one name

A write by name is seen in the arena as a write at one identifier.
-/

/-- Only one definition is written, and only its name may be new. -/
structure WritesOnly (id : ShapeId) (d : Definition) (r r' : Registry) : Prop where
  policy : r'.policy = r.policy
  name : r'.lookup? d.name = some id
  definition : r'.arena.get? id = some d
  identifier : forall before, r.lookup? d.name = some before -> before = id
  names : forall other, other ≠ d.name -> r'.lookup? other = r.lookup? other
  definitions : forall other, other ≠ id -> r'.arena.get? other = r.arena.get? other

theorem get?_eq_some_iff {r : Registry} (hr : r.Coherent) {id : ShapeId} {d : Definition} :
    r.arena.get? id = some d <-> r.lookup? d.name = some id ∧ r.under d.name = some d := by
  constructor
  · intro hd
    exact ⟨hr.name hd, under_name hr hd⟩
  · intro h
    rcases under_eq_some hr h.2 with ⟨_, found, hfound, hd⟩
    rw [h.1] at hfound
    cases hfound
    exact hd

theorem Puts.writesOnly {r r' : Registry} {d : Definition} (hr : r.Coherent) (h : Puts d r r')
    {id : ShapeId} (hid : r'.lookup? d.name = some id) : WritesOnly id d r r' := by
  have hcoherent := h.grows.tidy.coherent
  have hidentifier : forall before, r.lookup? d.name = some before -> before = id := by
    intro before hbefore
    exact Option.some.inj ((h.grows.lookup? hbefore).symm.trans hid)
  have hunder : forall other, other ≠ d.name -> r'.under other = r.under other := by
    intro other hother
    rw [h.under, if_neg hother]
  have hnames : forall other, other ≠ d.name -> r'.lookup? other = r.lookup? other := by
    intro other hother
    cases hbefore : r.lookup? other with
    | some found => exact h.grows.lookup? hbefore
    | none => rw [← under_eq_none hcoherent, hunder other hother, under_eq_none hr, hbefore]
  have hself : r'.under d.name = some d := by rw [h.under, if_pos rfl]
  refine ⟨h.grows.policy, hid, (get?_eq_some_iff hcoherent).mpr ⟨hid, hself⟩, hidentifier, hnames,
    ?_⟩
  intro other hother
  apply Option.ext
  intro e
  rw [get?_eq_some_iff hcoherent, get?_eq_some_iff hr]
  by_cases hname : e.name = d.name
  · -- The name that is written belongs to another identifier before and after.
    rw [hname, hid]
    constructor
    · intro hafter
      exact absurd (Option.some.inj hafter.1).symm hother
    · intro hbefore
      exact absurd (hidentifier other hbefore.1) hother
  · rw [hnames e.name hname, hunder e.name hname]

/-!
# Declarations

The three forms share the law of declarations, since it speaks of contributions
and of the name they are made to.
-/

/--
A declaration is accepted or refused as a whole.  A refused one leaves the registry as it
was; an accepted one writes under its own name only, where the fields that were stored
stay and the new ones follow in the order of their first entries.  What is registered
under the name decides, and of several reasons to refuse the first one is reported.
-/
theorem declarations_are_all_or_nothing {r : Registry} (hr : r.Reachable) (name : String)
    (form : Form) {answer : Except Failure ShapeId} {r' : Registry}
    (hrun : (form.declare name).run r = (answer, r')) :
    (forall failure, answer = .error failure -> r' = r) ∧
      ((exists id, answer = .ok id) <-> form.Admissible (r.under name)) ∧
      (forall id, answer = .ok id ->
        exists d, d.name = name ∧ WritesOnly id d r r' ∧
          d.fields.entries = (Definition.stored (r.under name)).entries ++
            form.additions (Definition.stored (r.under name))) ∧
      (forall d failure, r.under name = some d -> d.kind ≠ none -> answer = .error failure ->
        form.Refused d failure) := by
  have htidy : r.Tidy := ⟨hr.coherent, fun hd hkind => (hr.atRest _ _ hd).blank hkind⟩
  have hrest : forall d, r.under name = some d -> d.AtRest := by
    intro d hd
    rcases under_eq_some hr.coherent hd with ⟨_, id, _, hget⟩
    exact hr.atRest id d hget
  have hverdict : _ <-> form.Admissible (r.under name) :=
    Form.exists_receive_iff_admissible name hrest
  rw [Form.declare_eq] at hrun
  rcases contribute_cases htidy hrun with
    ⟨id, d, rfl, hd, rfl, hputs, hid⟩ | ⟨failure, rfl, hfailure, rfl⟩
  · refine ⟨?_, ⟨fun _ => hverdict.mp ⟨d, hd⟩, fun _ => ⟨id, rfl⟩⟩, ?_, ?_⟩
    · intro failure hfailure
      cases hfailure
    · intro found hfound
      cases hfound
      exact ⟨d, rfl, hputs.writesOnly hr.coherent hid, Form.receive_entries hrest hd⟩
    · intro old failure _ _ hfailure
      cases hfailure
  · refine ⟨fun _ _ => rfl, ⟨?_, ?_⟩, ?_, ?_⟩
    · intro haccepted
      rcases haccepted with ⟨id, hid⟩
      cases hid
    · intro hadmissible
      rcases hverdict.mpr hadmissible with ⟨d, hd⟩
      rw [hfailure] at hd
      cases hd
    · intro id hid
      cases hid
    · intro d reason hd hkind hreason
      cases hreason
      rw [hd] at hfailure
      exact Form.refused_of_merge (hrest d hd) hkind hfailure

def drafted : Registry :=
  ((declare "Point" .mergeable [("x", .keyword .number)]).run (empty .common)).2

theorem drafted_reachable : drafted.Reachable :=
  ⟨.common, .single (.declare "Point" .mergeable [("x", .keyword .number)])⟩

def widening : Form :=
  .fields .mergeable [("y", .keyword .number), ("x", .keyword .number), ("y", .keyword .number)]

def clashing : Form :=
  .fields .mergeable [("y", .keyword .number), ("x", .keyword .string)]

theorem declarations_are_all_or_nothing_drafted :
    (exists d, ((widening.declare "Point").run drafted).1 = .ok ⟨1⟩ ∧
      WritesOnly ⟨1⟩ d drafted ((widening.declare "Point").run drafted).2 ∧
      d.fields.keys = ["x", "y"]) ∧
    (clashing.declare "Point").run drafted =
      (.error (.conflictingMerge "Point" "x"), drafted) := by
  have haccepted : ((widening.declare "Point").run drafted).1 = .ok ⟨1⟩ := by decide +kernel
  have hrefused : ((clashing.declare "Point").run drafted).1 =
      .error (.conflictingMerge "Point" "x") := by decide +kernel
  constructor
  · rcases declarations_are_all_or_nothing drafted_reachable "Point" widening rfl with
      ⟨_, _, hwritten, _⟩
    rcases hwritten _ haccepted with ⟨d, _, honly, hentries⟩
    have hkeys : d.fields.keys = ["x", "y"] := by
      rw [Table.keys, hentries]
      decide +kernel
    exact ⟨d, haccepted, honly, hkeys⟩
  · rcases declarations_are_all_or_nothing drafted_reachable "Point" clashing rfl with
      ⟨hunchanged, _⟩
    exact Prod.ext hrefused (hunchanged _ hrefused)

end Registry
end Shapes
