import DocDrift.Proofs.Vcs.StatusLines
import DocDrift.Proofs.Vcs.Timeline

/-!
# The log that git writes of a timeline

Every record gives the commit that it stands for back, and the commits tell the timeline's history.
-/

namespace DocDrift

theorem Path.Plain.unquoted {p : Path} (h : p.Plain) : p.Unquoted where
  ne_nil := by
    obtain ⟨⟨c, hc, -⟩, -⟩ := h.trimmed
    intro hnil
    simp [hnil] at hc
  printed c hc := by
    have hprinted := List.all_eq_true.mp h.printed c hc
    simp only [Path.isPrinted, Bool.and_eq_true, decide_eq_true_eq] at hprinted
    exact hprinted.1

theorem Path.Plain.last_not_blank {p : Path} (h : p.Plain) :
    ∀ c ∈ p.text.toList.getLast?, Text.isBlank c = false := by
  obtain ⟨-, d, hd, hblank⟩ := h.trimmed
  intro c hc
  cases Option.mem_unique hc hd
  exact hblank

namespace Git

def statusLine (r : FileRevision) (isOldest : Bool) : List Char :=
  match r.source? with
  | some source => 'R' :: (r.score ++ '\t' :: (source.text.toList ++ '\t' :: r.path.text.toList))
  | none => (if isOldest then 'A' else 'M') :: '\t' :: r.path.text.toList

/-- The record of a revision, without the null character that opens it. -/
def record (r : FileRevision) (isOldest : Bool) : List Char :=
  r.id.toList ++ '\n' :: '\n' :: (statusLine r isOldest ++ ['\n'])

def records : List FileRevision → List (List Char)
  | [] => []
  | r :: rest => record r rest.isEmpty :: records rest

def logText (revs : List FileRevision) : List Char :=
  (records revs).flatMap ('\x00' :: ·)

def commitOf (r : FileRevision) (isOldest : Bool) : Commit where
  id := r.id
  change :=
    match r.source? with
    | some source => .renamed source r.path
    | none => if isOldest then .added r.path else .modified r.path

def commitsOf : List FileRevision → List Commit
  | [] => []
  | r :: rest => commitOf r rest.isEmpty :: commitsOf rest

/-- The status line of a revision, with its fields apart. -/
def lineOf (r : FileRevision) (isOldest : Bool) : StatusLine where
  letter := if r.source?.isSome then 'R' else if isOldest then 'A' else 'M'
  score := if r.source?.isSome then r.score else []
  paths := r.source?.toList ++ [r.path]
  letter_upper := by
    cases r.source? <;> cases isOldest <;> rfl
  score_digit := by
    split
    · exact r.score_digit
    · rfl
  paths_unquoted := by
    intro p hp
    rw [List.mem_append, Option.mem_toList, List.mem_singleton] at hp
    obtain hp | rfl := hp
    · exact (r.source_plain p hp).unquoted
    · exact r.path_plain.unquoted

theorem text_lineOf (r : FileRevision) (isOldest : Bool) :
    (lineOf r isOldest).text = statusLine r isOldest := by
  rw [StatusLine.text, StatusLine.status, statusLine]
  simp only [lineOf]
  cases r.source? <;> simp [field]

theorem writtenAs_lineOf (r : FileRevision) (isOldest : Bool) :
    (commitOf r isOldest).change.WrittenAs (some (lineOf r isOldest)) := by
  unfold commitOf
  cases hs : r.source? with
  | none =>
    cases isOldest with
    | false => exact .modified (by simp [lineOf, hs]) (by simp [lineOf, hs])
    | true => exact .added (by simp [lineOf, hs]) (by simp [lineOf, hs])
  | some source => exact .renamed (by simp [lineOf, hs]) (by simp [lineOf, hs])

/-- The record of a revision, with its parts apart. -/
def recordOf (r : FileRevision) (isOldest : Bool) : Record where
  commit := commitOf r isOldest
  line? := some (lineOf r isOldest)
  id_ne_nil := r.id_ne_nil
  id_hex := r.id_hex
  written := writtenAs_lineOf r isOldest

theorem text_recordOf (r : FileRevision) (isOldest : Bool) :
    (recordOf r isOldest).text = record r isOldest := by
  simp only [Record.text, recordOf, text_lineOf]
  rfl

/-- No path of a revision ends in a blank, so its record tells its commit. -/
theorem read_recordOf (r : FileRevision) (isOldest : Bool) :
    (recordOf r isOldest).read = commitOf r isOldest := by
  have hclosed : (commitOf r isOldest).change.Closed := by
    unfold commitOf
    cases r.source? with
    | none => cases isOldest <;> exact r.path_plain.last_not_blank
    | some source => exact r.path_plain.last_not_blank
  rw [Record.read, (recordOf r isOldest).written.trimmed_eq_self_iff.mpr hclosed]
  rfl

def recordsOf : List FileRevision → List Record
  | [] => []
  | r :: rest => recordOf r rest.isEmpty :: recordsOf rest

theorem log_recordsOf (revs : List FileRevision) : Record.log (recordsOf revs) = logText revs := by
  induction revs with
  | nil => rfl
  | cons r rest ih =>
    rw [Record.log, logText] at ih
    rw [Record.log, logText, recordsOf, records, List.flatMap_cons, List.flatMap_cons, ih,
      text_recordOf]

theorem commits_logText (revs : List FileRevision) : commits (logText revs) = commitsOf revs := by
  have hread : (recordsOf revs).map Record.read = commitsOf revs := by
    induction revs with
    | nil => rfl
    | cons r rest ih => rw [recordsOf, List.map_cons, read_recordOf, ih, commitsOf]
  rw [← log_recordsOf, Record.commits_log, hread]

/-- The commits of a timeline tell its history. -/
theorem historyFrom_commitsOf (follow : Bool) {t : Trail} {revs : List FileRevision}
    (h : Timeline revs) :
    historyFrom follow t (commitsOf revs) = timelineFrom follow t.crossed t.isTip revs := by
  induction h generalizing t with
  | @creation r hs =>
    have hchange : (commitOf r true).change = .added r.path := by simp [commitOf, hs]
    simp only [commitsOf, historyFrom, List.isEmpty_nil, hchange, timelineFrom, hs]
    rfl
  | @newer r next rest _ _ ih =>
    rw [commitsOf, historyFrom, timelineFrom, List.isEmpty_cons]
    cases hs : r.source? with
    | none =>
      have hchange : (commitOf r false).change = .modified r.path := by simp [commitOf, hs]
      rw [hchange]
      simp only [ih]
      rfl
    | some source =>
      have hchange : (commitOf r false).change = .renamed source r.path := by simp [commitOf, hs]
      rw [hchange]
      simp only [ih]
      rfl

/-- What git's log of a timeline is read as. -/
theorem history_logText (path : Path) (follow : Bool) {revs : List FileRevision}
    (h : Timeline revs) : history path follow (commits (logText revs)) = timeline follow revs := by
  rw [commits_logText, history, historyFrom_commitsOf follow h]
  rfl

end Git

end DocDrift
