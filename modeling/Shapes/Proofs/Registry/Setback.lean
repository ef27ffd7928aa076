import Shapes.Proofs.Registry.Acceptance
import Shapes.Proofs.Registry.Passage
import Shapes.Proofs.Registry.Resolving
import Shapes.Proofs.Shape.Keys

/-!
# Requests that fail

A resolution can fail at any depth, when a whole path of definitions is marked
and some of their dependencies are kept already.  Every visit takes back its own
mark, so what is left of a failed request is a number of kept shapes, all of them
below the shapes it started from.  The shape that was asked for is as it was: it
takes declarations as before, and it resolves once it can be flattened.

That the marks are gone is known from the definitions at rest.  What is added is
that a walk touches nothing but what its roots depend on, and that a visit that
fails leaves its own definition alone.
-/

namespace Shapes

theorem Definition.unmarked_marked {d : Definition} (h : d.stage ≠ .resolving) :
    d.marked.unmarked = d := by
  unfold marked unmarked
  by_cases hunresolved : d.stage = .unresolved
  · rw [if_pos hunresolved, if_pos rfl, ← hunresolved]
  · rw [if_neg hunresolved, if_neg h]

/-- Whether a failure is about a key of a shape that was resolved. -/
def Failure.isOfKey : Failure -> Bool
  | invalidKey .. | missingValue _ => true
  | _ => false

namespace Registry

/-!
# Walks stay below their roots

All writes of a walk go to shapes that its roots depend on.  A visit that fails
also takes back what it did to the definition it was for.
-/

/--
A registry with the declarations of another one in which only definitions that
some shapes depend on may have come further.
-/
structure Confined (r : Registry) (roots : List ShapeId) (r' : Registry) : Prop where
  same : r.SameDeclarations r'
  outside : forall b, ¬ r.ReachedFrom roots b -> r'.arena.get? b = r.arena.get? b

namespace Confined

variable {r r' : Registry} {roots : List ShapeId}

theorem refl (r : Registry) (roots : List ShapeId) : Confined r roots r :=
  ⟨(Walked.refl [] r).sameDeclarations, fun _ _ => rfl⟩

theorem setDefinition (h : Confined r roots r') {id : ShapeId} {d d' : Definition}
    (hid : r.ReachedFrom roots id) (hd : r'.arena.get? id = some d)
    (hd' : d.SameDeclaration d') : Confined r roots (r'.setDefinition id d') := by
  refine ⟨h.same.trans (.setDefinition hd hd'), ?_⟩
  intro b hb
  have hne : b ≠ id := by
    intro heq
    subst heq
    exact hb hid
  rw [Registry.setDefinition, Arena.get?_set_of_ne d' hne]
  exact h.outside b hb

end Confined

theorem ReachedFrom.needs {r r' : Registry} {roots : List ShapeId} (hsame : r.SameDeclarations r')
    {id b : ShapeId} {d : Definition} (hid : r.ReachedFrom roots id)
    (hd : r'.arena.get? id = some d) (hb : b ∈ d.needs r'.lookup?) : r.ReachedFrom roots b := by
  rcases hid with ⟨root, hroot, hreach⟩
  exact ⟨root, hroot, hreach.tail (hsame.depends_iff.mp ⟨d, hd, hb⟩)⟩

namespace WalkM

section Confinement

variable {r : Registry} {roots : List ShapeId}

/-- A walk that touches only what its roots depend on. -/
def Stays {α : Type} (r : Registry) (roots : List ShapeId) : WalkM α -> Prop :=
  Passes (fun w => Confined r roots w.registry) fun w => Confined r roots w.registry

theorem settle_stays {visit : Route -> ShapeId -> WalkM Shape}
    (hvisit : forall route b, r.ReachedFrom roots b -> Stays r roots (visit route b))
    {id : ShapeId} (hid : r.ReachedFrom roots id) : Stays r roots (settle visit id) := by
  have hwrite : Overlooks id fun w => Confined r roots w.registry := by
    intro w d d' hw hd hd'
    exact hw.setDefinition hid hd hd'
  apply settle_passes (fun _ hgood => hgood) hwrite hwrite
  intro w d w1 route b hw hd hw1 hb
  apply hvisit route b
  rw [hw1.same.lookup?_eq, ← hw.same.lookup?_eq] at hb
  exact hid.needs hw.same hd hb

theorem visitBy_stays {settle : ShapeId -> WalkM Shape} {route : Route} {id : ShapeId}
    (hsettle : Stays r roots (settle id)) : Stays r roots (visitBy settle route id) := by
  intro w result w' hw h
  rcases visitBy_cases h with ⟨s, _, rfl, rfl⟩ | ⟨_, entry, trail, _, _, rfl, rfl⟩ |
    ⟨_, trail, w1, _, hrun, rfl⟩
  · exact hw
  · exact hw
  · have hpassed := hsettle (w := { w with trail }) hw hrun
    cases result with
    | ok s => exact hpassed
    | error failure => exact hpassed

theorem visit_stays (levels : Nat) (route : Route) {id : ShapeId}
    (hid : r.ReachedFrom roots id) : Stays r roots (visit levels route id) := by
  induction levels generalizing route id with
  | zero =>
      apply visitBy_stays
      intro w result w' hw h
      cases h
      exact hw
  | succ levels ih => exact visitBy_stays (settle_stays (fun route _ hb => ih route hb) hid)

end Confinement

theorem settle_failed {visit : Route -> ShapeId -> WalkM Shape} (hvisit : Steady visit)
    {id : ShapeId} {w w' : Walk} {failure : Failure} (hid : id ∈ w.trail.visiting)
    (hidle : forall d, w.registry.arena.get? id = some d -> d.stage ≠ .resolving)
    (h : (settle visit id).run w = (.error failure, w')) :
    w'.registry.arena.get? id = w.registry.arena.get? id := by
  rcases settle_cases hvisit hid h with ⟨_, _, rfl⟩ | ⟨d, kind, w2, hd, _, _, hd2, hend⟩
  · rfl
  · cases hend
    show (w2.registry.setDefinition id d.marked.unmarked).arena.get? id = _
    rw [Definition.unmarked_marked (hidle d hd), setDefinition, Arena.get?_set_self d hd2]
    exact hd.symm

theorem visit_failed {levels : Nat} {route : Route} {id : ShapeId} {w w' : Walk}
    {failure : Failure}
    (hidle : forall d, w.registry.arena.get? id = some d -> d.stage ≠ .resolving)
    (h : (visit levels route id).run w = (.error failure, w')) :
    w'.registry.arena.get? id = w.registry.arena.get? id := by
  cases levels with
  | zero =>
      rcases visitBy_cases h with ⟨s, _, hok, _⟩ | ⟨_, _, _, _, _, _, rfl⟩ |
        ⟨_, trail, w1, _, hrun, rfl⟩
      · cases hok
      · rfl
      · cases hrun
        rfl
  | succ levels =>
      rcases visitBy_cases h with ⟨s, _, hok, _⟩ | ⟨_, _, _, _, _, _, rfl⟩ |
        ⟨_, trail, w1, henter, hrun, rfl⟩
      · cases hok
      · rfl
      · rcases Trail.enter_entered henter with ⟨_, _, _, _, hvisiting, _⟩
        have hid : id ∈ trail.visiting := by
          rw [hvisiting]
          exact List.mem_cons_self
        have hback : w1.registry.arena.get? id = w.registry.arena.get? id :=
          settle_failed (w := { w with trail }) (visit_steady levels) hid hidle hrun
        exact hback

end WalkM

/-!
# Requests

Every request that can fail starts with a walk from certain roots, and most of
them are about one shape.
-/

/-- The requests that resolve something before they answer. -/
inductive Request (α : Type) where
  | resolve (id : ShapeId)
  | freeze (id : ShapeId)
  | keys (id : ShapeId)
  | checkKey (id : ShapeId) (key : String)
  | access (id : ShapeId) (members : List (String × α)) (key : String)
  | resolveType (t : FieldType)

namespace Request

variable {α : Type}

/-- What a request does, whatever its answer is. -/
def perform : Request α -> RegistryM Unit
  | resolve id => do let _ <- Registry.resolve id
  | freeze id => do let _ <- Registry.freeze id
  | keys id => do let _ <- Registry.keys id
  | checkKey id key => do let _ <- Registry.checkKey id key
  | access id members key => do let _ <- Registry.access id members key
  | resolveType t => do let _ <- Registry.resolveType t

/-- The shape that is asked for; a type is none. -/
def subject? : Request α -> Option ShapeId
  | resolve id | freeze id | keys id | checkKey id _ | access id _ _ => some id
  | resolveType _ => none

/-- The shapes that the walk of a request starts from. -/
def roots : Request α -> List ShapeId
  | resolve id | freeze id | keys id | checkKey id _ | access id _ _ => [id]
  | resolveType t => t.references

end Request

/-!
# Failures of requests

What follows the resolution can fail by the key only, so any other failure is
the failure of the resolution.
-/

theorem resolve_of_freeze {id : ShapeId} {r r' : Registry} {failure : Failure}
    (h : (freeze id).run r = (.error failure, r')) :
    (resolve id).run r = (.error failure, r') := by
  rw [run_freeze] at h
  rcases hrun : (resolve id).run r with ⟨answer, r1⟩
  rw [hrun] at h
  cases answer with
  | ok s => cases h
  | error cause => exact h

theorem resolve_of_freeze_bind {β : Type} {id : ShapeId} {r r' : Registry}
    {next : Shape -> KeyPolicy -> Except Failure β} {failure : Failure}
    (hnext : forall s policy, Ends (fun _ => True) (fun failure => failure.isOfKey = true)
      (next s policy))
    (hcause : failure.isOfKey = false)
    (h : (do
      let shape <- freeze id
      next shape (<- get).policy : RegistryM β).run r = (.error failure, r')) :
    (resolve id).run r = (.error failure, r') := by
  rcases run_bind_cases h with ⟨s, r1, _, hrest⟩ | ⟨cause, hfreeze, hsame⟩
  · rw [run_getBind, run_liftExcept] at hrest
    have hkey := hnext s r1.policy
    rw [show next s r1.policy = .error failure from congrArg Prod.fst hrest] at hkey
    rw [show failure.isOfKey = true from hkey] at hcause
    cases hcause
  · cases hsame
    exact resolve_of_freeze hfreeze

theorem ends_checkKey (policy : KeyPolicy) (s : Shape) (key : String) :
    Ends (fun _ => True) (fun failure => failure.isOfKey = true) (s.checkKey policy key) := by
  cases hkey : s.checkKey policy key with
  | ok t => trivial
  | error failure =>
      rw [(Shape.checkKey_eq_error_iff.mp hkey).2]
      rfl

theorem ends_access {α : Type} (policy : KeyPolicy) (s : Shape) (members : List (String × α))
    (key : String) :
    Ends (fun _ => True) (fun failure => failure.isOfKey = true)
      (s.access policy members key) := by
  apply (ends_checkKey policy s key).bind
  intro t _
  cases members.lookup key with
  | none => rfl
  | some value => trivial

theorem run_of_discard_failed {β : Type} {walk : RegistryM β} {r r' : Registry}
    {failure : Failure} (h : (do let _ <- walk : RegistryM Unit).run r = (.error failure, r')) :
    walk.run r = (.error failure, r') := by
  rcases run_bind_cases h with ⟨_, _, _, hdone⟩ | ⟨_, hrun, hsame⟩
  · cases hdone
  · cases hsame
    exact hrun

theorem Request.perform_failed {α : Type} {request : Request α} {r r' : Registry}
    {failure : Failure} (h : request.perform.run r = (.error failure, r'))
    (hcause : failure.isOfKey = false) :
    (exists id, request.subject? = some id ∧ request.roots = [id] ∧
        (Registry.resolve id).run r = (.error failure, r')) ∨
      exists t, request.subject? = none ∧ request.roots = t.references ∧
        (Registry.resolveType t).run r = (.error failure, r') := by
  cases request with
  | resolve id => exact Or.inl ⟨id, rfl, rfl, run_of_discard_failed h⟩
  | freeze id => exact Or.inl ⟨id, rfl, rfl, resolve_of_freeze (run_of_discard_failed h)⟩
  | keys id =>
      have hkeys : forall (s : Shape) policy, Ends (fun _ => True)
          (fun failure => failure.isOfKey = true) (.ok (s.keys policy)) := fun _ _ => trivial
      exact Or.inl ⟨id, rfl, rfl, resolve_of_freeze_bind hkeys hcause (run_of_discard_failed h)⟩
  | checkKey id key =>
      exact Or.inl ⟨id, rfl, rfl, resolve_of_freeze_bind
        (fun s policy => ends_checkKey policy s key) hcause (run_of_discard_failed h)⟩
  | access id members key =>
      exact Or.inl ⟨id, rfl, rfl, resolve_of_freeze_bind
        (fun s policy => ends_access policy s members key) hcause (run_of_discard_failed h)⟩
  | resolveType t => exact Or.inr ⟨t, rfl, rfl, run_of_discard_failed h⟩

/-!
# What a failed request leaves behind

Names, identifiers and declarations are untouched, nothing is under way, and
whatever else has changed is a dependency that is resolved now.
-/

/--
Of a registry, what is left after a request that started from some shapes: the names and
identifiers are the same, nothing is under way, and some of the definitions that those
shapes depend on are resolved now.
-/
structure Unharmed (r : Registry) (roots : List ShapeId) (r' : Registry) : Prop where
  policy : r'.policy = r.policy
  names : forall name, r'.lookup? name = r.lookup? name
  identifiers : forall id,
    (exists d, r'.arena.get? id = some d) <-> exists d, r.arena.get? id = some d
  idle : forall id d, r'.arena.get? id = some d -> d.stage ≠ .resolving
  definitions : forall id, r'.arena.get? id = r.arena.get? id ∨
    exists d s, r.arena.get? id = some d ∧ d.resolved = none ∧ r.ReachedFrom roots id ∧
      r.Flattens id s ∧ r'.arena.get? id = some { d with resolved := some s, stage := .resolved }

section Harm

variable {r r' : Registry}

theorem Confined.unharmed {roots : List ShapeId} (hfaithful : r.Faithful) (hrest : r.AtRest)
    (hwalk : Walked [] r r') (h : Confined r roots r') : Unharmed r roots r' := by
  have hrest' : r'.AtRest := (hrest.walk (hwalk.faithful hfaithful) hwalk).1
  refine ⟨hwalk.policy, fun name => by rw [h.same.lookup?_eq], ?_,
    fun id d hd => (hrest' id d hd).idle, ?_⟩
  · intro id
    have hids : r'.arena.ids = r.arena.ids := congrArg Index.ids hwalk.index
    rw [Arena.exists_get?_iff_mem_ids, Arena.exists_get?_iff_mem_ids, hids]
  · intro id
    by_cases hreached : r.ReachedFrom roots id
    · cases hd : r.arena.get? id with
      | none =>
          have hnone := hwalk.definitions id
          rw [hd] at hnone
          generalize r'.arena.get? id = after at hnone
          cases hnone with
          | none => exact Or.inl rfl
      | some d =>
          rcases hwalk.of_get?_eq_some hd with ⟨d', hd', hwalked⟩
          cases hwalked with
          | same => exact Or.inl hd'
          | released _ hstage => exact absurd hstage (hrest id d hd).idle
          | kept s hnone =>
              have hkept : r'.arena.cached? id = some s :=
                cached?_eq_some_iff.mpr ⟨_, hd', rfl⟩
              have hflat := h.same.flattens_iff.mp ((hwalk.faithful hfaithful).flattens hkept)
              exact Or.inr ⟨d, s, rfl, hnone, hreached, hflat, hd'⟩
    · exact Or.inl (h.outside id hreached)

theorem resolve_unharmed (hr : r.Reachable) {id : ShapeId} {failure : Failure}
    (h : (resolve id).run r = (.error failure, r')) :
    Unharmed r [id] r' ∧ r'.arena.get? id = r.arena.get? id := by
  have hwalk := (resolve_walked h).1
  rw [run_resolve] at h
  rcases hrun : (WalkM.visit Limits.resolution.maxDepth .root id).run
    ⟨r, Trail.start Limits.resolution⟩ with ⟨answer, w⟩
  simp only [hrun] at h
  cases answer with
  | ok s => cases h
  | error cause =>
      cases h
      have hid : r.ReachedFrom [id] id := ⟨id, List.mem_cons_self, .refl⟩
      have hconfined : Confined r [id] w.registry :=
        WalkM.visit_stays Limits.resolution.maxDepth .root hid (Confined.refl r [id]) hrun
      refine ⟨hconfined.unharmed hr.faithful hr.atRest hwalk, ?_⟩
      exact WalkM.visit_failed (fun d hd => (hr.atRest id d hd).idle) hrun

theorem resolveType_unharmed (hr : r.Reachable) {t : FieldType} {failure : Failure}
    (h : (resolveType t).run r = (.error failure, r')) : Unharmed r t.references r' := by
  have hwalk := (resolveType_walked h).1
  rw [run_resolveType] at h
  rcases hrun : (WalkM.shapeOf (WalkM.visit Limits.resolution.maxDepth) t).run
    ⟨r, Trail.start Limits.resolution⟩ with ⟨answer, w⟩
  simp only [hrun] at h
  cases h
  have hstays : WalkM.Stays r t.references
      (WalkM.shapeOf (WalkM.visit Limits.resolution.maxDepth) t) := by
    apply WalkM.shapeOf_passes (fun _ hgood => hgood)
    intro b hb
    exact WalkM.visit_stays Limits.resolution.maxDepth .reference ⟨b, hb, .refl⟩
  have hconfined : Confined r t.references w.registry := hstays (Confined.refl r _) hrun
  exact hconfined.unharmed hr.faithful hr.atRest hwalk

end Harm

/-!
# Trying again

The shape that was asked for is exactly as it was, so it accepts what it would
have accepted and resolves once it can.
-/

theorem exists_declare_iff {r : Registry} (hr : r.Reachable) {id : ShapeId} {d : Definition}
    (hd : r.arena.get? id = some d) (form : Form) :
    (exists found, ((form.declare d.name).run r).1 = .ok found) <->
      form.Admissible (some d) := by
  have htidy : r.Tidy := ⟨hr.coherent, fun hd hkind => (hr.atRest _ _ hd).blank hkind⟩
  have hverdict : (exists e, Definition.receive d.name (some d) form.contribution = .ok e) <-> _ :=
    Form.exists_merge_iff_admissible (hr.atRest id d hd)
  rw [← hverdict, Form.declare_eq]
  rcases hrun : (contribute d.name form.contribution).run r with ⟨answer, r'⟩
  rcases contribute_cases htidy hrun with
    ⟨found, e, rfl, he, _, _, _⟩ | ⟨failure, rfl, hfailure, _⟩
  · rw [under_name hr.coherent hd] at he
    exact ⟨fun _ => ⟨e, he⟩, fun _ => ⟨found, rfl⟩⟩
  · rw [under_name hr.coherent hd] at hfailure
    constructor
    · intro haccepted
      rcases haccepted with ⟨found, hfound⟩
      cases hfound
    · intro haccepted
      rcases haccepted with ⟨e, he⟩
      rw [hfailure] at he
      cases he

/--
A request that fails because something cannot be resolved does no harm.  The shape that
was asked for is exactly as it was, and the other definitions are as they were or are
dependencies that are resolved now.  So the shape accepts the declarations it would have
accepted before, and whenever it can be flattened later, within the limits, it resolves.
-/
theorem failed_requests_do_no_harm {r : Registry} (hr : r.Reachable) {α : Type}
    (request : Request α) {failure : Failure} {r' : Registry}
    (hrun : request.perform.run r = (.error failure, r')) (hcause : failure.isOfKey = false) :
    Unharmed r request.roots r' ∧
      forall id, request.subject? = some id ->
        r'.arena.get? id = r.arena.get? id ∧
          (forall d, r.arena.get? id = some d -> forall form : Form,
            (exists found, ((form.declare d.name).run r').1 = .ok found) <->
              form.Admissible (some d)) ∧
          forall r'', Relation.ReflTransGen Step r' r'' ->
            (forall path, r''.FreshPath id path -> path.length ≤ 256) -> r''.size < 100000 ->
              forall s, r''.Flattens id s -> ((resolve id).run r'').1 = .ok s := by
  rcases request.perform_failed hrun hcause with
    ⟨id, hsubject, hroots, hresolve⟩ | ⟨t, hsubject, hroots, hresolve⟩
  · rcases resolve_unharmed hr hresolve with ⟨hunharmed, hback⟩
    have hr' : r'.Reachable := by
      rcases hr with ⟨policy, hsteps⟩
      have hstep := Step.resolve (r := r) id
      rw [hresolve] at hstep
      exact ⟨policy, hsteps.tail hstep⟩
    rw [hroots]
    refine ⟨hunharmed, ?_⟩
    intro found hfound
    rw [hsubject] at hfound
    cases hfound
    refine ⟨hback, ?_, ?_⟩
    · intro d hd form
      exact exists_declare_iff hr' (hback.trans hd) form
    · intro r'' hsteps hshort hsmall s hs
      have hr'' : r''.Reachable := by
        rcases hr' with ⟨policy, hbefore⟩
        exact ⟨policy, hbefore.trans hsteps⟩
      exact resolve_of_flattens hr''.faithful hshort hsmall hs
  · rw [hroots]
    refine ⟨resolveType_unharmed hr hresolve, ?_⟩
    intro id hid
    rw [hsubject] at hid
    cases hid

/-- A leaf below a root that is declared and a stem that is not. -/
def orphaned : Registry :=
  let r := ((declare "Root" .mergeable [("depth", .keyword .number)]).run (empty .common)).2
  ((extend "Leaf" ["Root", "Stem"] [("size", .keyword .number)]).run r).2

theorem orphaned_reachable : orphaned.Reachable := by
  have hroot : Relation.ReflTransGen Step (empty .common) _ :=
    .single (.declare "Root" .mergeable [("depth", .keyword .number)])
  exact ⟨.common, hroot.tail (.extend "Leaf" ["Root", "Stem"] [("size", .keyword .number)])⟩

def askLeaf : Request Unit := .keys ⟨2⟩

theorem failed_requests_do_no_harm_orphaned :
    (askLeaf.perform.run orphaned).1 = .error (.unknownParent "Stem") ∧
      Unharmed orphaned [⟨2⟩] (askLeaf.perform.run orphaned).2 ∧
      (askLeaf.perform.run orphaned).2.arena.get? ⟨2⟩ = orphaned.arena.get? ⟨2⟩ ∧
      orphaned.arena.stage? ⟨1⟩ = some .unresolved ∧
      (askLeaf.perform.run orphaned).2.arena.stage? ⟨1⟩ = some .resolved ∧
      ((resolve ⟨2⟩).run
        ((declare "Stem" .mergeable []).run (askLeaf.perform.run orphaned).2).2).1.isOk = true := by
  have hfailed : (askLeaf.perform.run orphaned).1 = .error (.unknownParent "Stem") := by
    decide +kernel
  rcases failed_requests_do_no_harm orphaned_reachable askLeaf (Prod.ext hfailed rfl) rfl with
    ⟨hunharmed, hsubject⟩
  exact ⟨hfailed, hunharmed, (hsubject ⟨2⟩ rfl).1, by decide +kernel, by decide +kernel,
    by decide +kernel⟩

end Registry
end Shapes
