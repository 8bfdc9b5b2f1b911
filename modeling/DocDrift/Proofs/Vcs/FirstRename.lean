import DocDrift.Proofs.History.Cut
import DocDrift.Vcs.Backend

/-!
# The first rename of a log

Whether renames are followed or not, the history that a log tells is the same up to the first
rename. Without following it stops there, and a survey of it says of every unit what the survey of
the followed history says up to there.
-/

namespace DocDrift

namespace FileHistory
variable {whole short : FileHistory} {first? : Option Nat} {crossed : Bool}

/-- `short` is `whole` up to the first rename, or all of it if there is none. -/
def UpTo (whole short : FileHistory) : Option Nat → Prop
  | none => short = whole
  | some last => whole.CutTo last short

/-- Up to the first rename, the only entry that a rename was crossed to is the one behind it. -/
def FirstRenamed (whole : FileHistory) (first? : Option Nat) : Prop :=
  ∀ i e, whole.get? (i + 1) = some e → (∀ last ∈ first?, i ≤ last) →
    (e.crossedRename = true ↔ first? = some i)

/-- The same records tell `whole` if renames are followed and `short` if they are not, and the entry
`first?` is the first that renamed the file. The flag says whether a rename leads to the records. -/
inductive ToldTwice : Bool → FileHistory → FileHistory → Option Nat → Prop
  | nothing {crossed : Bool} : ToldTwice crossed .empty .empty none
  | created {crossed : Bool} (e : HistoryEntry) : e.crossedRename = crossed →
      ToldTwice crossed (.single e .created) (.single e .created) none
  | changed {crossed : Bool} {whole short : FileHistory} {first? : Option Nat} (e : HistoryEntry) :
      e.crossedRename = crossed → ToldTwice false whole short first? →
      ToldTwice crossed (whole.behind e) (short.behind e) (first?.map (· + 1))
  | renamed {crossed : Bool} {whole short : FileHistory} {first? : Option Nat} (e : HistoryEntry)
      (b : RenameBoundary) : e.crossedRename = crossed → ToldTwice true whole short first? →
      ToldTwice crossed (whole.behind e) (.single e (.renamed b)) (some 0)

namespace ToldTwice

theorem untruncated (h : ToldTwice crossed whole short first?) :
    whole.truncatedByRename = false := by
  induction h with
  | nothing | created => rfl
  | changed _ _ _ ih | renamed _ _ _ _ ih => exact ih

theorem newest (h : ToldTwice crossed whole short first?) {e : HistoryEntry}
    (he : whole.get? 0 = some e) : e.crossedRename = crossed := by
  cases h with
  | nothing => cases he
  | created _ hc | changed _ hc | renamed _ _ hc =>
    cases he
    exact hc

theorem firstRenamed (h : ToldTwice crossed whole short first?) : whole.FirstRenamed first? := by
  induction h with
  | nothing | created =>
    intro i e he
    cases he
  | @changed _ whole short first? _ _ hrest ih =>
    intro i found hfound hi
    cases i with
    | zero => simp [hrest.newest hfound]
    | succ i =>
      have hlater := ih i found hfound fun last hlast => by
        have := hi (last + 1) (Option.mem_map_of_mem _ hlast)
        omega
      simp [hlater]
  | renamed _ _ _ hrest =>
    intro i found hfound hi
    obtain rfl := Nat.le_zero.mp (hi 0 rfl)
    simp [hrest.newest hfound]

theorem upTo (h : ToldTwice crossed whole short first?) : whole.UpTo short first? := by
  induction h with
  | nothing | created => rfl
  | @changed _ whole short first? e _ _ ih =>
    cases first? with
    | none => exact congrArg (·.behind e) ih
    | some last =>
      constructor
      · exact Nat.succ_lt_succ ih.last_lt
      · exact congrArg (e :: ·) ih.entries
      · exact ih.truncated
  | renamed =>
    constructor
    · exact Nat.succ_pos _
    · rfl
    · rfl

end ToldTwice

end FileHistory

/-! ## Logs -/

/-- A log that is read as records or as no history at all is read as records. -/
theorem exists_records {α : Type} (tell : Bool → List α → FileHistory)
    (hnil : ∀ follow, tell follow [] = .empty) {records : List α} {shown absent : Prop}
    [Decidable shown] [Decidable absent] {e : Failure} {follow : Bool} {h : FileHistory}
    (hread : (if shown then .ok (tell follow records)
      else if absent then .ok .empty else .error e : Except Failure FileHistory) = .ok h) :
    ∃ log, ∀ follow, (if shown then .ok (tell follow records)
      else if absent then .ok .empty else .error e : Except Failure FileHistory) =
        .ok (tell follow log) := by
  split at hread
  · next hshown => exact ⟨records, fun _ => if_pos hshown⟩
  · next hno =>
    split at hread
    · next habsent => exact ⟨[], fun _ => by rw [if_neg hno, if_pos habsent, hnil]⟩
    · cases hread

namespace Git

/-- The first entry that renamed the file. A history goes no further than the commit that added or
deleted it. -/
def firstRename? : List Commit → Option Nat
  | [] => none
  | c :: rest =>
    match c.change with
    | .deleted | .added _ => none
    | .renamed _ _ => some 0
    | .modified _ | .unknown => (firstRename? rest).map (· + 1)

theorem historyFrom_toldTwice (t : Trail) (log : List Commit) :
    FileHistory.ToldTwice t.crossed (historyFrom true t log) (historyFrom false t log)
      (firstRename? log) := by
  induction log generalizing t with
  | nil => exact .nothing
  | cons c rest ih =>
    rw [historyFrom, historyFrom, firstRename?]
    cases c.change with
    | deleted => exact .nothing
    | added path => exact .created _ rfl
    | modified path => exact .changed _ rfl (ih { current := path })
    | unknown => exact .changed _ rfl (ih { current := t.current })
    | renamed source path => exact .renamed _ _ rfl (ih { current := source, crossed := true })

theorem readLog_eq_history {tool : Tool} {path : Path} {follow : Bool} {f : Finished}
    {h : FileHistory} (hread : readLog tool path follow f = .ok h) :
    ∃ log, ∀ follow, readLog tool path follow f = .ok (history path follow log) := by
  unfold readLog at hread ⊢
  exact exists_records (history path) (fun _ => rfl) hread

end Git

namespace Mercurial

/-- The first entry that renamed the file from its present name on. -/
def firstRename? (current : Path) : List Changeset → Option Nat
  | [] => none
  | c :: rest =>
    if c.copies.any fun copy => copy.destination.same current then some 0
    else (firstRename? current rest).map (· + 1)

theorem isSome_source? (c : Changeset) (current : Path) :
    (c.source? current).isSome = c.copies.any fun copy => copy.destination.same current := by
  rw [Changeset.source?, Option.isSome_map, List.isSome_find?]

theorem historyFrom_toldTwice (t : Trail) (log : List Changeset) :
    FileHistory.ToldTwice t.crossed (historyFrom true t log) (historyFrom false t log)
      (firstRename? t.current log) := by
  induction log generalizing t with
  | nil => exact .nothing
  | cons c rest ih =>
    rw [historyFrom, historyFrom, firstRename?, ← isSome_source?]
    cases c.source? t.current with
    | none => exact .changed _ rfl (ih { current := t.current })
    | some source => exact .renamed _ _ rfl (ih { current := source, crossed := true })

theorem readLog_eq_history {tool : Tool} {path : Path} {follow : Bool} {f : Finished}
    {h : FileHistory} (hread : readLog tool path follow f = .ok h) :
    ∃ log, ∀ follow, readLog tool path follow f = .ok (history path follow log) := by
  unfold readLog at hread ⊢
  exact exists_records (history path) (fun _ => rfl) hread

end Mercurial

inductive Log where
  | git (commits : List Git.Commit)
  | mercurial (changesets : List Mercurial.Changeset)

namespace Log

def history (path : Path) (follow : Bool) : Log → FileHistory
  | git commits => Git.history path follow commits
  | mercurial changesets => Mercurial.history path follow changesets

def firstRename? (path : Path) : Log → Option Nat
  | git commits => Git.firstRename? commits
  | mercurial changesets => Mercurial.firstRename? path changesets

theorem history_toldTwice (path : Path) (log : Log) :
    FileHistory.ToldTwice false (log.history path true) (log.history path false)
      (log.firstRename? path) := by
  cases log with
  | git commits => exact Git.historyFrom_toldTwice { current := path, isTip := true } commits
  | mercurial changesets =>
    exact Mercurial.historyFrom_toldTwice { current := path, isTip := true } changesets

end Log

/-! ## Surveys -/

/-- The repository enumerates the history of the file from these records. -/
def Repository.Tells (r : Repository) (file : Path) (log : Log) : Prop :=
  ∀ follow, r.enumerate file follow = .ok (log.history file follow)

/-- A repository on disk that enumerates a history does so from records. -/
theorem Backend.tells {b : Backend} {w : World} {file : Path} {follow : Bool}
    {history : FileHistory} (h : (b.repository w).enumerate file follow = .ok history) :
    ∃ log, (b.repository w).Tells file log := by
  cases hrun : b.run w (b.dialect.logArguments file) with
  | error e =>
    simp only [repository, hrun] at h
    cases h
  | ok f =>
    have henumerate : ∀ follow, (b.repository w).enumerate file follow =
        b.tool.kind.dialect.readLog b.tool file follow f := by
      intro follow
      simp only [repository, hrun]
      rfl
    rw [henumerate] at h
    simp only [Repository.Tells, henumerate]
    cases hkind : b.tool.kind with
    | git =>
      rw [hkind] at h
      obtain ⟨commits, hcommits⟩ := Git.readLog_eq_history h
      exact ⟨.git commits, hcommits⟩
    | mercurial =>
      rw [hkind] at h
      obtain ⟨changesets, hchangesets⟩ := Mercurial.readLog_eq_history h
      exact ⟨.mercurial changesets, hchangesets⟩

namespace Repository
variable {r : Repository} {path inside : Path} {analysis : FileAnalysis}

/-- A survey of a cut history succeeds if that of the whole one does. -/
theorem survey_cutTo {whole short : FileHistory} {last : Nat} (hrel : r.relative path = .ok inside)
    (hwhole : r.enumerate inside true = .ok whole) (hshort : r.enumerate inside false = .ok short)
    (hcut : whole.CutTo last short) (h : (r.survey path true).outcome = .ok analysis) :
    ∃ units, (r.survey path false).outcome = .ok ⟨path, last + 1, units⟩ ∧
      List.Forall₂ (whole.CutShort last) analysis.units units := by
  obtain ⟨inside', history, tip, content, units, stats, hrel', hist, htip, hread, hunits, hstats,
    rfl⟩ := survey_eq_ok_iff.mp h
  cases hrel.symm.trans hrel'
  cases hwhole.symm.trans hist
  have hchronicle : (r.chronicle whole).CutTo last (r.chronicle short) := ⟨hcut, rfl⟩
  obtain ⟨stats', hstats'⟩ :=
    hchronicle.measure Chronicle.faithful_nil Chronicle.faithful_nil hstats
  have htip' : short.tip? = some tip := by
    rw [FileHistory.tip?, hcut.entries, List.head?_take]
    exact htip
  have hsize : short.size = last + 1 := by
    have hlast := hcut.last_lt
    unfold FileHistory.size at hlast ⊢
    rw [hcut.entries, List.length_take]
    omega
  have hmeasured :=
    Chronicle.measure_measured (entries_ne_nil_of_tip? htip) Chronicle.faithful_nil hstats
  have hmeasured' :=
    Chronicle.measure_measured (entries_ne_nil_of_tip? htip') Chronicle.faithful_nil hstats'
  refine ⟨stats', ?_, hchronicle.forall₂_cutShort hmeasured hmeasured'⟩
  rw [← hsize]
  exact survey_eq_ok_iff.mpr ⟨inside, short, tip, content, units, stats', hrel, hshort, htip',
    hread, hunits, hstats', rfl⟩

/-- A survey that succeeds if renames are followed succeeds without following them. The history that
it is about goes up to the first rename, and so does what it says of each unit. -/
theorem survey_unfollowed {log : Log} (hrel : r.relative path = .ok inside)
    (hlog : r.Tells inside log) (h : (r.survey path true).outcome = .ok analysis) :
    (log.history inside true).FirstRenamed (log.firstRename? inside) ∧
      (log.history inside true).UpTo (log.history inside false) (log.firstRename? inside) ∧
      (∀ s ∈ analysis.units, s.truncatedByRename = false) ∧
      match log.firstRename? inside with
      | none => (r.survey path false).outcome = .ok analysis
      | some last => ∃ units, (r.survey path false).outcome = .ok ⟨path, last + 1, units⟩ ∧
        List.Forall₂ ((log.history inside true).CutShort last) analysis.units units := by
  have htold := log.history_toldTwice inside
  have hupTo := htold.upTo
  refine ⟨htold.firstRenamed, hupTo, fun s hs => ?_, ?_⟩
  · have hm := (survey_measured hrel (hlog true) h).2 s hs
    rw [hm.truncated]
    change ((log.history inside true).truncatedByRename && _) = false
    rw [htold.untruncated, Bool.false_and]
  · cases hfirst : log.firstRename? inside with
    | none =>
      rw [hfirst] at hupTo
      have hsame : log.history inside false = log.history inside true := hupTo
      obtain ⟨inside', history, tip, content, units, stats, hrel', hist, hrest⟩ :=
        survey_eq_ok_iff.mp h
      cases hrel.symm.trans hrel'
      have hist' : r.enumerate inside false = .ok history := by
        rw [hlog false, hsame, ← hlog true, hist]
      exact survey_eq_ok_iff.mpr
        ⟨inside, history, tip, content, units, stats, hrel, hist', hrest⟩
    | some last =>
      rw [hfirst] at hupTo
      exact survey_cutTo hrel (hlog true) (hlog false) hupTo h

/-- Every commit changes the line below the documentation, and the second one renames the file. -/
theorem survey_unfollowed_renamed :
    let log := Log.git [⟨"d", .modified ⟨"new.py"⟩⟩, ⟨"c", .renamed ⟨"old.py"⟩ ⟨"new.py"⟩⟩,
      ⟨"b", .modified ⟨"old.py"⟩⟩, ⟨"a", .added ⟨"old.py"⟩⟩]
    let r : Repository := ⟨.ok, fun file follow => .ok (log.history file follow),
      fun _ _ => .ok "'d'\nx = 1\n", fun _ _ => .ok [⟨2, 1, 2, 1⟩]⟩
    let unit : DocumentedUnit := ⟨"new", .module, ⟨1, 1⟩, ⟨1, 2⟩⟩
    (r.survey ⟨"new.py"⟩ true).outcome =
        .ok ⟨⟨"new.py"⟩, 4, [⟨unit, ⟨"a", false⟩, 3, 3, false⟩]⟩ ∧
      ∃ units, (r.survey ⟨"new.py"⟩ false).outcome = .ok ⟨⟨"new.py"⟩, 2, units⟩ ∧
        List.Forall₂ ((log.history ⟨"new.py"⟩ true).CutShort 1)
          [⟨unit, ⟨"a", false⟩, 3, 3, false⟩] units := by
  intro log r unit
  have hlog : r.Tells ⟨"new.py"⟩ log := fun _ => rfl
  have hok : (r.survey ⟨"new.py"⟩ true).outcome =
      .ok ⟨⟨"new.py"⟩, 4, [⟨unit, ⟨"a", false⟩, 3, 3, false⟩]⟩ := by decide +kernel
  exact ⟨hok, (survey_unfollowed rfl hlog hok).2.2.2⟩

end Repository

end DocDrift
