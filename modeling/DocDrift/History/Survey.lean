import DocDrift.History.Walk
import DocDrift.Source.Extract

/-!
# Surveys

The survey of a file measures each of its documented units at the newest revision. The docstring is
followed back to its newest modification, or to where its trace ends; then the whole unit is
followed over the newer revisions only, and the modifications on the way are counted.
-/

namespace DocDrift

namespace Chronicle

/-- The revision of the entry at the given distance from the newest one. -/
def revisionAt (c : Chronicle) (index : Nat) : Revision :=
  ((c.history.get? index).map HistoryEntry.revision).getD default

/-- The entry at which the documentation last changed, by a walk along its lines. -/
def docIndex (docWalk : Walk) : Nat := docWalk.modifying.head?.getD docWalk.stop.index

/-- What the two walks of a unit say about it. -/
def statistic (c : Chronicle) (unit : DocumentedUnit) (docWalk bodyWalk : Walk) : UnitStatistic where
  unit := unit
  lastDocRevision := c.revisionAt (docIndex docWalk)
  lastDocRevisionAge := docIndex docWalk
  changesSinceCount := bodyWalk.modifying.length
  truncatedByRename := docWalk.stop.truncatedByRename || bodyWalk.stop.truncatedByRename

structure Measurement where
  outcome : Except Failure (List UnitStatistic)
  /-- The transitions that the repository was asked about. -/
  asked : List Nat
  /-- The transitions known afterwards. -/
  known : KnownDiffs

/-- Measures the units one after the other and stops at the first failure. -/
def measure (c : Chronicle) (known : KnownDiffs) : List DocumentedUnit → Measurement
  | [] => ⟨.ok [], [], known⟩
  | unit :: rest =>
    let doc := c.walk unit.docRange .firstModification known
    match doc.outcome with
    | .error e => ⟨.error e, doc.asked, doc.known⟩
    | .ok docWalk =>
      let body := c.walk unit.bodyRange (.until (docIndex docWalk)) doc.known
      match body.outcome with
      | .error e => ⟨.error e, doc.asked ++ body.asked, body.known⟩
      | .ok bodyWalk =>
        let others := c.measure body.known rest
        { outcome := others.outcome.map (c.statistic unit docWalk bodyWalk :: ·)
          asked := doc.asked ++ body.asked ++ others.asked
          known := others.known }

end Chronicle

structure Survey where
  outcome : Except Failure FileAnalysis
  /-- The questions put to the repository, in order. -/
  queries : List Query

namespace Repository

/-- The history of a file together with the diffs of this repository. -/
def chronicle (r : Repository) (history : FileHistory) : Chronicle where
  history := history
  diff := r.diff

def surveyUnits (r : Repository) (path : Path) (history : FileHistory)
    (units : List DocumentedUnit) : Survey :=
  let c := r.chronicle history
  let m := c.measure [] units
  { outcome := m.outcome.map fun statistics => ⟨path, history.size, statistics⟩
    queries := m.asked.filterMap c.query? }

def surveyHistory (r : Repository) (path : Path) (history : FileHistory) : Survey :=
  match history.tip? with
  | none => ⟨.error (.notTracked path), []⟩
  | some tip =>
    let question := Query.read tip.path tip.revision
    match r.read tip.path tip.revision with
    | .error e => ⟨.error e, [question]⟩
    | .ok content =>
      match Source.extractUnits path content with
      | .error e => ⟨.error e, [question]⟩
      | .ok units =>
        let s := r.surveyUnits path history units
        { s with queries := question :: s.queries }

/-- Surveys a file. The flag says whether to follow its history across renames. -/
def survey (r : Repository) (path : Path) (follow : Bool) : Survey :=
  match r.relative path with
  | .error e => ⟨.error e, [.relative path]⟩
  | .ok inside =>
    match r.enumerate inside follow with
    | .error e => ⟨.error e, [.relative path, .enumerate inside follow]⟩
    | .ok history =>
      let s := r.surveyHistory path history
      { s with queries := .relative path :: .enumerate inside follow :: s.queries }

end Repository

end DocDrift
