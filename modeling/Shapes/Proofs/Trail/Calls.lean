import Shapes.Proofs.Trail

/-!
# Trails as bounded paths

Calls on a trail enter a key, leave a key, or run a body of further calls in the scope
of a key.  Whatever they are, they come down to moves, and from the moves alone one can
tell which keys are on the path and how often entry was tried.  A trail agrees with
that after every move, as long as nothing is left that is not on the path.
-/

namespace Shapes
namespace Trail

/-!
# Calls and moves

Every call is run to the moves that it makes on a trail, the end of a scope
among them.
-/

inductive Call (κ : Type) where
  | enter (key : κ)
  | leave (key : κ)
  | scope (key : κ) (body : List (Call κ))

inductive Action (κ : Type) where
  | enter (key : κ) (entry : Entry)
  | leave (key : κ)
  deriving DecidableEq

/-- An action and the trail that it leads to. -/
structure Move (κ : Type) where
  action : Action κ
  after : Trail κ

variable {κ : Type} [DecidableEq κ]

mutual

/-- The moves that a call makes; the end of a scope is one of them. -/
def Call.run : Call κ -> Trail κ -> List (Move κ) × Trail κ
  | .enter key, t =>
      let (entry, after) := t.enter key
      ([⟨.enter key entry, after⟩], after)
  | .leave key, t =>
      let after := t.leave key
      ([⟨.leave key, after⟩], after)
  | .scope key body, t =>
      let recorded (inside : Trail κ) :=
        let (moves, after) := runAll body inside
        ((⟨.enter key .entered, inside⟩ : Move κ) :: moves, after)
      match t.scope key recorded with
      | (.ok moves, after) => (moves ++ [⟨.leave key, after⟩], after)
      | (.error refused, after) => ([⟨.enter key refused, after⟩], after)

def runAll : List (Call κ) -> Trail κ -> List (Move κ) × Trail κ
  | [], t => ([], t)
  | call :: calls, t =>
      let (moves, after) := call.run t
      let (more, last) := runAll calls after
      (moves ++ more, last)

end

/-!
# What moves say

The path, the number of attempts and the answer to an attempt are read off the
moves, without a trail.
-/

namespace Action

def isEnter : Action κ -> Bool
  | enter _ _ => true
  | leave _ => false

/-- The keys on the path after an action. -/
def onPath (keys : List κ) : Action κ -> List κ
  | enter key .entered => key :: keys
  | enter _ _ => keys
  | leave key => keys.erase key

theorem onPath_refused {keys : List κ} {key : κ} {entry : Entry} (h : entry ≠ .entered) :
    (enter key entry).onPath keys = keys := by
  cases entry with
  | entered => exact absurd rfl h
  | cycle => rfl
  | tooDeep => rfl
  | tooManySteps => rfl

/-- Only a key on the path may be left. -/
def Allowed (keys : List κ) : Action κ -> Prop
  | enter _ _ => True
  | leave key => key ∈ keys

instance (keys : List κ) : (action : Action κ) -> Decidable (Allowed keys action)
  | enter _ _ => inferInstanceAs (Decidable True)
  | leave key => inferInstanceAs (Decidable (key ∈ keys))

end Action

/-- The keys on the path after some moves. -/
def pathFrom (keys : List κ) (moves : List (Move κ)) : List κ :=
  moves.foldl (fun keys move => move.action.onPath keys) keys

def path (history : List (Move κ)) : List κ :=
  pathFrom [] history

def attempts (history : List (Move κ)) : Nat :=
  history.countP fun move => move.action.isEnter

/-- Every move that leaves a key finds it on the path. -/
def Proper : List κ -> List (Move κ) -> Prop
  | _, [] => True
  | keys, move :: rest =>
      move.action.Allowed keys ∧ Proper (move.action.onPath keys) rest

instance decidableProper (keys : List κ) : (moves : List (Move κ)) -> Decidable (Proper keys moves)
  | [] => inferInstanceAs (Decidable True)
  | move :: rest =>
      have := decidableProper (move.action.onPath keys) rest
      inferInstanceAs (Decidable (_ ∧ _))

/-- How often a key was let in. -/
def granted (key : κ) (moves : List (Move κ)) : Nat :=
  moves.countP fun move => move.action = .enter key .entered

/-- How often a key was left. -/
def departed (key : κ) (moves : List (Move κ)) : Nat :=
  moves.countP fun move => move.action = .leave key

/-- Every key is left as often as it was let in. -/
def Balanced (moves : List (Move κ)) : Prop :=
  forall key, granted key moves = departed key moves

/-- The answer to an attempt, from the path and the number of attempts. -/
def answer (limits : Limits) (keys : List κ) (attempt : Nat) (key : κ) : Entry :=
  if limits.maxSteps < min attempt stepCeiling then .tooManySteps
  else if key ∈ keys then .cycle
  else if limits.maxDepth ≤ keys.length then .tooDeep
  else .entered

theorem lt_min_stepCeiling_iff {limits : Limits} (h : limits.maxSteps < stepCeiling)
    (attempt : Nat) :
    limits.maxSteps < min attempt stepCeiling <-> limits.maxSteps < attempt := by
  rw [Nat.lt_min]
  exact and_iff_left h

theorem answer_eq_tooManySteps_iff {limits : Limits} (h : limits.maxSteps < stepCeiling)
    {keys : List κ} {attempt : Nat} {key : κ} :
    answer limits keys attempt key = .tooManySteps <-> limits.maxSteps < attempt := by
  rw [← lt_min_stepCeiling_iff h]
  unfold answer
  split
  · rename_i hmany
    exact iff_of_true rfl hmany
  · rename_i hfew
    refine iff_of_false ?_ hfew
    split
    · exact nofun
    · split <;> exact nofun

/-!
# Runs

A call of any kind, scopes and their bodies included, is a run of moves that the
trail makes one after another.
-/

/-- A move that a trail makes. -/
def Move.Made (t : Trail κ) (move : Move κ) : Prop :=
  match move.action with
  | .enter key entry => t.enter key = (entry, move.after)
  | .leave key => t.leave key = move.after

/-- Moves that are made one after another. -/
def Runs : Trail κ -> List (Move κ) -> Trail κ -> Prop
  | t, [], u => u = t
  | t, move :: rest, u => move.Made t ∧ Runs move.after rest u

section Runs

variable {t u : Trail κ} {key : κ}

theorem runs_append {moves more : List (Move κ)} :
    Runs t (moves ++ more) u <-> exists middle, Runs t moves middle ∧ Runs middle more u := by
  induction moves generalizing t with
  | nil => simp [Runs]
  | cons move rest ih => simp [Runs, ih, and_assoc]

theorem scope_granted {α : Type} (hentry : (t.enter key).1 = .entered)
    (body : Trail κ -> α × Trail κ) :
    t.scope key body =
      (.ok (body (t.enter key).2).1, (body (t.enter key).2).2.leave key) := by
  unfold scope
  generalize t.enter key = entered at hentry
  cases entered with
  | mk entry inside =>
      cases hentry
      rfl

theorem scope_refused {α : Type} (hentry : (t.enter key).1 ≠ .entered)
    (body : Trail κ -> α × Trail κ) :
    t.scope key body = (.error (t.enter key).1, (t.enter key).2) := by
  unfold scope
  generalize t.enter key = entered at hentry
  cases entered with
  | mk entry inside =>
      cases entry with
      | entered => exact absurd rfl hentry
      | cycle => rfl
      | tooDeep => rfl
      | tooManySteps => rfl

theorem run_scope_granted (hentry : (t.enter key).1 = .entered) (body : List (Call κ)) :
    (Call.scope key body).run t =
      let inside := (t.enter key).2
      let after := (runAll body inside).2.leave key
      (⟨.enter key .entered, inside⟩ :: (runAll body inside).1 ++ [⟨.leave key, after⟩],
        after) := by
  rw [Call.run]
  simp only [scope_granted hentry]

theorem run_scope_refused (hentry : (t.enter key).1 ≠ .entered) (body : List (Call κ)) :
    (Call.scope key body).run t =
      ([⟨.enter key (t.enter key).1, (t.enter key).2⟩], (t.enter key).2) := by
  rw [Call.run]
  simp only [scope_refused hentry]

mutual

theorem Call.runs (t : Trail κ) : (call : Call κ) -> Runs t (call.run t).1 (call.run t).2
  | .enter key => by
      rw [Call.run]
      exact ⟨rfl, rfl⟩
  | .leave key => by
      rw [Call.run]
      exact ⟨rfl, rfl⟩
  | .scope key body => by
      by_cases hentry : (t.enter key).1 = .entered
      · rw [run_scope_granted hentry]
        refine ⟨Prod.ext hentry rfl, runs_append.mpr ?_⟩
        exact ⟨_, runAll_runs (t.enter key).2 body, rfl, rfl⟩
      · rw [run_scope_refused hentry]
        exact ⟨rfl, rfl⟩

theorem runAll_runs (t : Trail κ) :
    (calls : List (Call κ)) -> Runs t (runAll calls t).1 (runAll calls t).2
  | [] => rfl
  | call :: calls => by
      rw [runAll]
      exact runs_append.mpr ⟨_, call.runs t, runAll_runs _ calls⟩

end

end Runs

/-!
# The path

On a proper history a key is on the path as often as it was let in and not left.
-/

section Path

variable {keys : List κ} {moves more : List (Move κ)}

theorem pathFrom_append :
    pathFrom keys (moves ++ more) = pathFrom (pathFrom keys moves) more :=
  List.foldl_append

theorem proper_append :
    Proper keys (moves ++ more) <-> Proper keys moves ∧ Proper (pathFrom keys moves) more := by
  induction moves generalizing keys with
  | nil => simp [Proper, pathFrom]
  | cons move rest ih =>
      show (_ ∧ Proper _ (rest ++ more)) <-> (_ ∧ _) ∧ _
      rw [ih, and_assoc]
      rfl

theorem count_pathFrom (h : Proper keys moves) (key : κ) :
    (pathFrom keys moves).count key + departed key moves =
      keys.count key + granted key moves := by
  induction moves generalizing keys with
  | nil => rfl
  | cons move rest ih =>
      have hrest := ih h.2
      have hallowed := h.1
      rcases move with ⟨action, after⟩
      unfold departed granted at hrest ⊢
      rw [List.countP_cons, List.countP_cons]
      show (pathFrom (action.onPath keys) rest).count key + _ = _
      cases action with
      | enter other entry =>
          cases entry with
          | entered =>
              simp only [Action.onPath, List.count_cons] at hrest ⊢
              simp only [reduceCtorEq, Action.enter.injEq, and_true, decide_eq_true_eq,
                decide_false, Bool.false_eq_true, if_false, beq_iff_eq] at hrest ⊢
              omega
          | cycle => simpa [Action.onPath] using hrest
          | tooDeep => simpa [Action.onPath] using hrest
          | tooManySteps => simpa [Action.onPath] using hrest
      | leave other =>
          have hmem : other ∈ keys := hallowed
          simp only [Action.onPath, List.count_erase] at hrest ⊢
          simp only [reduceCtorEq, Action.leave.injEq, decide_eq_true_eq, decide_false,
            Bool.false_eq_true, if_false, beq_iff_eq] at hrest ⊢
          by_cases hkey : other = key
          · subst hkey
            have hpos := List.count_pos_iff.mpr hmem
            simp only [if_true] at hrest ⊢
            omega
          · simp only [if_neg hkey] at hrest ⊢
            omega

theorem Balanced.perm (hproper : Proper keys moves) (h : Balanced moves) :
    (pathFrom keys moves).Perm keys := by
  apply List.perm_iff_count.mpr
  intro key
  have hcount := count_pathFrom hproper key
  rw [h key] at hcount
  exact Nat.add_right_cancel hcount

end Path

/-!
# Trails that follow their path

The invariant of a trail holds at the start and is kept by each kind of move, so
it holds after every run.
-/

/-- A trail is what the moves so far say. -/
structure Follows (limits : Limits) (history : List (Move κ)) (t : Trail κ) : Prop where
  limits_eq : t.limits = limits
  visiting : t.visiting = path history
  distinct : (path history).Nodup
  depth : t.depth = (path history).length
  bounded : (path history).length ≤ limits.maxDepth
  steps : t.steps = min (attempts history) stepCeiling

section Follows

variable {limits : Limits} {history : List (Move κ)} {t : Trail κ} {key : κ}

theorem follows_start (limits : Limits) : Follows limits [] (start limits : Trail κ) :=
  ⟨rfl, rfl, List.nodup_nil, rfl, Nat.zero_le _, rfl⟩

theorem path_append (move : Move κ) :
    path (history ++ [move]) = move.action.onPath (path history) :=
  pathFrom_append

omit [DecidableEq κ] in
theorem attempts_append (move : Move κ) :
    attempts (history ++ [move]) = attempts history + if move.action.isEnter then 1 else 0 := by
  rw [attempts, List.countP_append, List.countP_singleton]
  rfl

namespace Follows

theorem enter_answer (h : Follows limits history t) (key : κ) :
    (t.enter key).1 = answer limits (path history) (attempts history + 1) key := by
  have hsteps : min (t.steps + 1) stepCeiling = min (attempts history + 1) stepCeiling := by
    rw [h.steps]
    omega
  unfold enter answer isVisiting
  simp only [List.contains_iff_mem, hsteps, h.limits_eq, h.visiting, h.depth]
  split
  · rfl
  · split
    · rfl
    · split
      · rfl
      · rfl

theorem enter_refused (h : Follows limits history t) (hentry : (t.enter key).1 ≠ .entered) :
    (t.enter key).2.visiting = path history ∧
      (t.enter key).2.depth = (path history).length := by
  rcases enter_cases (Prod.eta (t.enter key)).symm with ⟨_, _, hcases⟩
  have hsame : (t.enter key).2.visiting = t.visiting ∧ (t.enter key).2.depth = t.depth := by
    rcases hcases with hsteps | hcycle | hdeep | hentered
    · exact hsteps.2.2
    · exact hcycle.2.2
    · exact hdeep.2.2.2
    · exact absurd hentered.1 hentry
  rw [hsame.1, hsame.2]
  exact ⟨h.visiting, h.depth⟩

theorem enter (h : Follows limits history t) (key : κ) :
    Follows limits (history ++ [⟨.enter key (t.enter key).1, (t.enter key).2⟩])
      (t.enter key).2 := by
  rcases enter_cases (Prod.eta (t.enter key)).symm with ⟨hlimits, hsteps, _⟩
  have hattempts : (t.enter key).2.steps =
      min (attempts (history ++ [⟨.enter key (t.enter key).1, (t.enter key).2⟩]))
        stepCeiling := by
    have hmore : (Action.enter key (t.enter key).1).isEnter = true := rfl
    rw [attempts_append, hsteps, h.steps, hmore, if_pos rfl]
    omega
  by_cases hentry : (t.enter key).1 = .entered
  · have hentered := enter_entered (Prod.ext hentry rfl : t.enter key = (.entered, _))
    rcases hentered with ⟨_, _, hnew, hroom, hvisiting, hdepth⟩
    have hpath : path (history ++ [⟨.enter key (t.enter key).1, (t.enter key).2⟩]) =
        key :: path history := by
      rw [path_append, hentry]
      rfl
    rw [h.visiting] at hvisiting hnew
    rw [h.depth] at hroom hdepth
    rw [h.limits_eq] at hroom
    constructor
    · exact hlimits.trans h.limits_eq
    · rw [hvisiting, hpath]
    · rw [hpath]
      exact List.nodup_cons.mpr ⟨hnew, h.distinct⟩
    · rw [hdepth, hpath, List.length_cons]
    · rw [hpath, List.length_cons]
      exact hroom
    · exact hattempts
  · have hpath : path (history ++ [⟨.enter key (t.enter key).1, (t.enter key).2⟩]) =
        path history := by
      rw [path_append]
      exact Action.onPath_refused hentry
    have hsame := h.enter_refused hentry
    constructor
    · exact hlimits.trans h.limits_eq
    · rw [hsame.1, hpath]
    · rw [hpath]
      exact h.distinct
    · rw [hsame.2, hpath]
    · rw [hpath]
      exact h.bounded
    · exact hattempts

theorem leave (h : Follows limits history t) (hkey : key ∈ path history) :
    Follows limits (history ++ [⟨.leave key, t.leave key⟩]) (t.leave key) := by
  have hpath : path (history ++ [⟨.leave key, t.leave key⟩]) = (path history).erase key :=
    path_append _
  have hshorter : ((path history).erase key).length = (path history).length - 1 :=
    List.length_erase_of_mem hkey
  have hleave : (t.leave key).visiting = t.visiting.erase key ∧
      (t.leave key).depth = t.depth - 1 := by
    rw [Trail.leave, leave?, isVisiting, h.visiting, if_pos (List.contains_iff_mem.mpr hkey)]
    exact ⟨rfl, rfl⟩
  have hbounded := h.bounded
  constructor
  · rw [leave_limits, h.limits_eq]
  · rw [hleave.1, h.visiting, hpath]
  · rw [hpath]
    exact h.distinct.erase key
  · rw [hleave.2, h.depth, hpath, hshorter]
  · rw [hpath, hshorter]
    omega
  · rw [leave_steps, h.steps, attempts_append]
    rfl

theorem move {move : Move κ} (h : Follows limits history t) (hmade : move.Made t)
    (hallowed : move.action.Allowed (path history)) :
    Follows limits (history ++ [move]) move.after := by
  rcases move with ⟨action, after⟩
  cases action with
  | enter key entry =>
      have henter : t.enter key = (entry, after) := hmade
      have hnext := h.enter key
      rw [henter] at hnext
      exact hnext
  | leave key =>
      have hleave : t.leave key = after := hmade
      have hnext := h.leave hallowed
      rw [hleave] at hnext
      exact hnext

theorem runs {u : Trail κ} {moves : List (Move κ)} (h : Follows limits history t)
    (hruns : Runs t moves u) (hproper : Proper (path history) moves) :
    Follows limits (history ++ moves) u := by
  induction moves generalizing t history with
  | nil =>
      cases hruns
      rw [List.append_nil]
      exact h
  | cons move rest ih =>
      have hnext := h.move hruns.1 hproper.1
      have hrest : Proper (path (history ++ [move])) rest := by
        rw [path_append]
        exact hproper.2
      rw [List.append_cons]
      exact ih hnext hruns.2 hrest

theorem scope {α : Type} {body : Trail κ -> α × Trail κ} {moves : List (Move κ)}
    (h : Follows limits history t) (hentry : (t.enter key).1 = .entered)
    (hruns : Runs (t.enter key).2 moves (body (t.enter key).2).2)
    (hproper : Proper (key :: path history) moves) (hbalanced : Balanced moves) :
    (t.scope key body).2.visiting.Perm (path history) ∧
      (t.scope key body).2.depth = (path history).length := by
  have hinside := h.enter key
  have hpath : path (history ++ [⟨.enter key (t.enter key).1, (t.enter key).2⟩]) =
      key :: path history := by
    rw [path_append, hentry]
    rfl
  have hend := hinside.runs hruns (by rw [hpath]; exact hproper)
  have hperm : (path ((history ++ [⟨.enter key (t.enter key).1, (t.enter key).2⟩]) ++
      moves)).Perm (key :: path history) := by
    rw [path, pathFrom_append]
    show (pathFrom (path _) moves).Perm _
    rw [hpath]
    exact hbalanced.perm hproper
  have hleft := hend.leave (hperm.mem_iff.mpr List.mem_cons_self)
  have hback := hperm.erase key
  rw [List.erase_cons_head] at hback
  rw [scope_granted hentry]
  constructor
  · rw [hleft.visiting, path_append]
    exact hback
  · rw [hleft.depth, path_append]
    exact hback.length_eq

end Follows

/--
A trail is a path with bounds.  At every moment of a history of calls it has the keys that
were let in and not left, it answers an attempt as the path and the number of attempts
tell, which is counted up to the ceiling, and a scope is entered or refused likewise; a
balanced body, if it is run at all, ends on the path on which it began.  That a key is left
which is not on the path is ruled out, also where a scope leaves its own key.
-/
theorem trails_follow_bounded_paths (limits : Limits) (calls : List (Call κ))
    (hproper : Proper [] (runAll calls (start limits)).1) :
    forall before after, (runAll calls (start limits)).1 = before ++ after ->
      exists t, Runs (start limits) before t ∧ Runs t after (runAll calls (start limits)).2 ∧
        Follows limits before t ∧
        (forall key,
          (t.enter key).1 = answer limits (path before) (attempts before + 1) key ∧
            (limits.maxSteps < stepCeiling ->
              ((t.enter key).1 = .tooManySteps <-> limits.maxSteps < attempts before + 1)) ∧
            ((t.enter key).1 ≠ .entered ->
              (t.enter key).2.visiting = path before ∧
                (t.enter key).2.depth = (path before).length)) ∧
        (forall (α : Type) key (body : Trail κ -> α × Trail κ),
          (t.enter key).1 ≠ .entered ->
            t.scope key body = (.error (t.enter key).1, (t.enter key).2)) ∧
        forall (α : Type) key (body : Trail κ -> α × Trail κ) moves,
          (t.enter key).1 = .entered ->
          Runs (t.enter key).2 moves (body (t.enter key).2).2 ->
          Proper (key :: path before) moves -> Balanced moves ->
            (t.scope key body).1 = .ok (body (t.enter key).2).1 ∧
              (t.scope key body).2.visiting.Perm (path before) ∧
              (t.scope key body).2.depth = (path before).length := by
  intro before after hsplit
  have hruns := runAll_runs (start limits) calls
  rw [hsplit] at hruns hproper
  rcases runs_append.mp hruns with ⟨t, hbefore, hafter⟩
  have h := (follows_start limits).runs hbefore (proper_append.mp hproper).1
  rw [List.nil_append] at h
  refine ⟨t, hbefore, hafter, h, ?_, ?_, ?_⟩
  · intro key
    refine ⟨h.enter_answer key, ?_, h.enter_refused⟩
    intro hlimits
    rw [h.enter_answer key]
    exact answer_eq_tooManySteps_iff hlimits
  · intro α key body hentry
    exact scope_refused hentry body
  · intro α key body moves hentry hbody hinside hbalanced
    refine ⟨?_, h.scope hentry hbody hinside hbalanced⟩
    rw [scope_granted hentry]

def sampleCalls : List (Call Nat) :=
  [.scope 1 [.scope 1 [], .enter 2, .enter 3, .leave 2], .scope 1 [.enter 1, .scope 3 []], .enter 4]

theorem trails_follow_bounded_paths_sample :
    Proper [] (runAll sampleCalls (start ⟨2, 7⟩)).1 ∧
      (runAll sampleCalls (start ⟨2, 7⟩)).1.map Move.action =
        [.enter 1 .entered, .enter 1 .cycle, .enter 2 .entered, .enter 3 .tooDeep, .leave 2,
          .leave 1, .enter 1 .entered, .enter 1 .cycle, .enter 3 .entered, .leave 3, .leave 1,
          .enter 4 .tooManySteps] ∧
      Follows ⟨2, 7⟩ (runAll sampleCalls (start ⟨2, 7⟩)).1
        (runAll sampleCalls (start ⟨2, 7⟩)).2 := by
  have hmoments := trails_follow_bounded_paths ⟨2, 7⟩ sampleCalls (by decide +kernel)
  rcases hmoments (runAll sampleCalls (start ⟨2, 7⟩)).1 [] (List.append_nil _).symm with
    ⟨t, _, hend, hfollows, _⟩
  have hlast : (runAll sampleCalls (start ⟨2, 7⟩)).2 = t := hend
  rw [← hlast] at hfollows
  exact ⟨by decide +kernel, by decide +kernel, hfollows⟩

end Follows

/-!
# Beyond the bounds

Attempts are counted up to a ceiling.  Limits as high as that are never exceeded, however
many attempts are made.  And a scope leaves its own key even if its body has left it.
-/

theorem answer_ne_tooManySteps {limits : Limits} (h : stepCeiling ≤ limits.maxSteps)
    (keys : List κ) (attempt : Nat) (key : κ) :
    answer limits keys attempt key ≠ .tooManySteps := by
  unfold answer
  rw [if_neg (Nat.not_lt_of_le (Nat.le_trans (Nat.min_le_right _ _) h))]
  split
  · exact nofun
  · split <;> exact nofun

def enters (key : κ) (n : Nat) : List (Call κ) :=
  List.replicate n (.enter key)

theorem runAll_enters (key : κ) (n : Nat) (t : Trail κ) :
    attempts (runAll (enters key n) t).1 = n ∧
      forall keys, Proper keys (runAll (enters key n) t).1 := by
  induction n generalizing t with
  | zero => exact ⟨rfl, fun _ => trivial⟩
  | succ n ih =>
      rcases ih (t.enter key).2 with ⟨hattempts, hproper⟩
      rw [enters, List.replicate_succ, runAll, Call.run]
      constructor
      · show List.countP _ (_ :: _) = n + 1
        rw [List.countP_cons]
        exact congrArg (· + 1) hattempts
      · intro keys
        exact ⟨trivial, hproper _⟩

theorem enters_beyond_ceiling {limits : Limits} (h : stepCeiling ≤ limits.maxSteps) (key : κ)
    (n : Nat) :
    Proper [] (runAll (enters key n) (start limits)).1 ∧
      n < attempts (runAll (enters key n) (start limits)).1 + 1 ∧
      ((runAll (enters key n) (start limits)).2.enter key).1 ≠ .tooManySteps := by
  rcases runAll_enters key n (start limits) with ⟨hattempts, hproper⟩
  have hruns := runAll_runs (start limits) (enters key n)
  have hfollows := (follows_start limits).runs hruns (hproper [])
  refine ⟨hproper [], by rw [hattempts]; exact Nat.lt_succ_self n, ?_⟩
  rw [hfollows.enter_answer]
  exact answer_ne_tooManySteps h _ _ _

/-- A scope that leaves its own key within the visit of another one. -/
def leaving : List (Call Nat) :=
  [.enter 2, .scope 1 [.leave 1]]

/--
One attempt more than the limit is not refused for that if the limit is the ceiling.  A
scope whose body leaves the key of the scope goes on to leave it once more, and then it
is not on the path.
-/
theorem trails_have_a_ceiling_and_scopes_leave_twice :
    (Proper [] (runAll (enters 0 stepCeiling) (start ⟨1, stepCeiling⟩)).1 ∧
      stepCeiling < attempts (runAll (enters 0 stepCeiling) (start ⟨1, stepCeiling⟩)).1 + 1 ∧
      ((runAll (enters 0 stepCeiling) (start ⟨1, stepCeiling⟩)).2.enter 0).1 ≠ .tooManySteps) ∧
    (runAll leaving (start ⟨5, 100⟩)).1.map Move.action =
        [.enter 2 .entered, .enter 1 .entered, .leave 1, .leave 1] ∧
      Proper [] ((runAll leaving (start ⟨5, 100⟩)).1.take 3) ∧
      path ((runAll leaving (start ⟨5, 100⟩)).1.take 3) = [2] ∧
      ((runAll [.enter 2, .enter 1, .leave 1] (start ⟨5, 100⟩)).2.leave? 1).isNone := by
  refine ⟨enters_beyond_ceiling (Nat.le_refl _) 0 stepCeiling, ?_, ?_, ?_, ?_⟩
  · decide +kernel
  · decide +kernel
  · decide +kernel
  · decide +kernel

end Trail
end Shapes
