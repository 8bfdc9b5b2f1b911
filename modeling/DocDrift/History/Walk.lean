import DocDrift.History.Repository
import DocDrift.Lines.Retrace

/-!
# Walks

A walk follows one line range from the newest revision of a file back through its history, one
transition at a time. Transition `i` leads from entry `i` to entry `i + 1`. Its hunks are asked for
when a walk first needs them and kept for later walks; a failure is not kept.
-/

namespace DocDrift

inductive WalkLimit where
  /-- Until the history runs out. -/
  | exhaustive
  /-- Until the first modification. -/
  | firstModification
  /-- Across the transitions of entries newer than `stop` only. -/
  | until (stop : Nat)
deriving DecidableEq, Repr

inductive WalkEnd where
  /-- The file came into being there. -/
  | creation (index : Nat)
  /-- The range has no lines before that entry. -/
  | origin (index : Nat)
  /-- An older history was not followed across a rename. -/
  | renameBoundary (index : Nat)
  /-- The limit of the walk was reached. -/
  | limit (index : Nat)
deriving DecidableEq, Repr

namespace WalkEnd

def index : WalkEnd → Nat
  | creation i | origin i | renameBoundary i | limit i => i

def truncatedByRename : WalkEnd → Bool
  | renameBoundary _ => true
  | _ => false

end WalkEnd

structure Walk where
  /-- The entries whose transition modified the range, newest first. -/
  modifying : List Nat
  stop : WalkEnd
deriving DecidableEq, Repr

/-- One transition of a walk as it happened. -/
structure WalkStep where
  index : Nat
  /-- The range before the step. -/
  live : LineRange
  modified : Bool
deriving DecidableEq, Repr

/-- The transitions answered so far. `none` says that the older side does not exist. -/
abbrev KnownDiffs := List (Nat × Option (List Hunk))

structure WalkRun where
  outcome : Except Failure Walk
  steps : List WalkStep
  /-- The transitions that the repository was asked about. -/
  asked : List Nat
  /-- The transitions known afterwards. -/
  known : KnownDiffs

namespace WalkRun

/-- A walk that ends at once. -/
def done (stop : WalkEnd) (known : KnownDiffs) : WalkRun :=
  ⟨.ok ⟨[], stop⟩, [], [], known⟩

/-- The run with one step put in front, and its entry recorded if the step modified the range. -/
def behindStep (step : WalkStep) (run : WalkRun) : WalkRun :=
  { run with
    outcome := run.outcome.map fun w =>
      if step.modified then { w with modifying := step.index :: w.modifying } else w
    steps := step :: run.steps }

/-- The run with the transitions `asked` put in front. -/
def behindQuestions (asked : List Nat) (run : WalkRun) : WalkRun :=
  { run with asked := asked ++ run.asked }

end WalkRun

/-- A history together with the source of its diffs. -/
structure Chronicle where
  history : FileHistory
  /-- The hunks that turn the second, older entry into the first. -/
  diff : HistoryEntry → HistoryEntry → Except Failure (List Hunk)

namespace Chronicle

/-- The entry at which the history runs out. -/
def oldest (c : Chronicle) : Nat := c.history.size - 1

/-- How a walk ends that has reached the oldest entry. -/
def endAt (c : Chronicle) (index : Nat) : WalkEnd :=
  match c.history.beyond with
  | .created => .creation index
  | .renamed _ => .renameBoundary index

/-- The answer for a transition: `none` if the older side does not exist. -/
def ask (c : Chronicle) (index : Nat) : Except Failure (Option (List Hunk)) :=
  match c.history.get? index, c.history.get? (index + 1) with
  | some newer, some older =>
    match c.diff newer older with
    | .ok hunks => .ok (some hunks)
    | .error (.notFound _ _) => .ok none
    | .error e => .error e
  | _, _ => .ok none

structure Lookup where
  answer : Except Failure (Option (List Hunk))
  asked : List Nat
  known : KnownDiffs

/-- The hunks of a transition, from what is known or else from the repository. -/
def lookup (c : Chronicle) (known : KnownDiffs) (index : Nat) : Lookup :=
  match known.lookup index with
  | some hunks => ⟨.ok hunks, [], known⟩
  | none =>
    match c.ask index with
    | .ok hunks => ⟨.ok hunks, [index], (index, hunks) :: known⟩
    | .error e => ⟨.error e, [index], known⟩

/-- Whether a walk with this limit goes no further than `index`. -/
def limitReached (limit : WalkLimit) (index : Nat) : Bool :=
  match limit with
  | .until stop => decide (stop ≤ index)
  | _ => false

/-- Follows `live`, a range of entry `index`, backwards. -/
def walkFrom (c : Chronicle) (limit : WalkLimit) (index : Nat) (live : LineRange)
    (known : KnownDiffs) : WalkRun :=
  if limitReached limit index then .done (.limit index) known
  else if c.oldest ≤ index then .done (c.endAt index) known
  else
    let found := c.lookup known index
    match found.answer with
    | .error e => ⟨.error e, [], found.asked, found.known⟩
    | .ok none => (WalkRun.done (.creation index) found.known).behindQuestions found.asked
    | .ok (some hunks) =>
      let r := live.retrace hunks
      let rest : WalkRun :=
        match r.range with
        | none => .done (.origin index) found.known
        | some next =>
          if r.modified && limit == .firstModification then .done (.limit index) found.known
          else walkFrom c limit (index + 1) next found.known
      (rest.behindStep ⟨index, live, r.modified⟩).behindQuestions found.asked
termination_by c.oldest - index

/-- Follows a range of the newest entry backwards. -/
def walk (c : Chronicle) (range : LineRange) (limit : WalkLimit) (known : KnownDiffs) : WalkRun :=
  c.walkFrom limit 0 range known

def query? (c : Chronicle) (index : Nat) : Option Query :=
  match c.history.get? index, c.history.get? (index + 1) with
  | some newer, some older => some (.diff newer older)
  | _, _ => none

end Chronicle

end DocDrift
