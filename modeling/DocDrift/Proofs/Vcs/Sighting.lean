import DocDrift.Proofs.Path
import DocDrift.Proofs.Vcs.FirstRename

/-!
# Histories told record by record

A log is followed from its newest record back under a name that changes with every rename. What
each record says of the file under that name determines the whole history: which records have an
entry, which entries a rename leads to, and how the history ends.
-/

namespace DocDrift

inductive Mention where
  | deleted
  | added (path : Path)
  | kept (path : Path)
  | renamed (source path : Path)
deriving DecidableEq

structure Sighting where
  id : String
  followed : Path
  mention : Mention
deriving DecidableEq

namespace Sighting

/-- The name of the file in the record's revision; none if the record deleted it. -/
def path? (s : Sighting) : Option Path :=
  match s.mention with
  | .deleted => none
  | .added path | .kept path | .renamed _ path => some path

/-- The name before, if the record renamed the file. -/
def source? (s : Sighting) : Option Path :=
  match s.mention with
  | .renamed source _ => some source
  | _ => none

/-- Whether the history ends with the record: there the file came into being, or it got a name
behind which the history is not followed. -/
def stops (follow : Bool) (s : Sighting) : Bool :=
  match s.mention with
  | .added _ => true
  | .renamed _ _ => !follow
  | .deleted | .kept _ => false

/-- The name under which the file is followed to the next older record. -/
def olderName (s : Sighting) : Path :=
  match s.mention with
  | .deleted => s.followed
  | .added path | .kept path => path
  | .renamed source _ => source

/-- What lies beyond the record if the history ends with it. -/
def beyond (s : Sighting) : HistoryEnd :=
  match s.mention with
  | .renamed source path => .renamed ⟨path, source, s.id⟩
  | _ => .created

theorem beyond_eq_renamed_iff (s : Sighting) {b : RenameBoundary} :
    s.beyond = .renamed b ↔
      s.source? = some b.previousPath ∧ s.path? = some b.path ∧ b.revision = s.id := by
  unfold beyond source? path?
  cases s.mention with
  | deleted | added | kept => simp
  | renamed source path =>
    cases b
    simp only [HistoryEnd.renamed.injEq, RenameBoundary.mk.injEq, Option.some.injEq]
    constructor
    · rintro ⟨rfl, rfl, rfl⟩
      exact ⟨rfl, rfl, rfl⟩
    · rintro ⟨rfl, rfl, rfl⟩
      exact ⟨rfl, rfl, rfl⟩

theorem ne_deleted_of_path? {s : Sighting} {path : Path} (h : s.path? = some path) :
    s.mention ≠ .deleted := by
  intro hm
  simp [path?, hm] at h

theorem source?_of_passes {s : Sighting} (h : s.stops false = false) : s.source? = none := by
  unfold stops at h
  unfold source?
  cases hm : s.mention with
  | renamed => simp [hm] at h
  | deleted | added | kept => rfl

/-- The record names the file as it is followed, and a rename gives it another name. -/
structure Steady (s : Sighting) : Prop where
  named : ∀ path ∈ s.path?, path.same s.followed = true
  moved : ∀ source ∈ s.source?, ∀ path ∈ s.path?, source.same path = false

instance (s : Sighting) : Decidable s.Steady :=
  decidable_of_iff (s.path?.all (·.same s.followed) = true ∧
      s.source?.all (fun source => s.path?.all fun path => !source.same path) = true) <| by
    constructor
    · rintro ⟨hnamed, hmoved⟩
      simp only [Option.all_eq_true, Bool.not_eq_true'] at hnamed hmoved
      exact ⟨hnamed, hmoved⟩
    · rintro ⟨hnamed, hmoved⟩
      simp only [Option.all_eq_true, Bool.not_eq_true']
      exact ⟨hnamed, hmoved⟩

end Sighting

/-- The records of a log as the file sees them that is followed under a name. -/
def sightingsOf {Record : Type} (id : Record → String) (mention : Path → Record → Mention) :
    Path → List Record → List Sighting
  | _, [] => []
  | followed, c :: rest =>
    let s : Sighting := ⟨id c, followed, mention followed c⟩
    s :: sightingsOf id mention s.olderName rest

/-- The commits that git lists are those of the followed file, so each speaks of that file, under
whatever name. A commit of which git says nothing leaves the name as it is. -/
def Git.mention (followed : Path) (c : Git.Commit) : Mention :=
  match c.change with
  | .modified path => .kept path
  | .added path => .added path
  | .deleted => .deleted
  | .renamed source path => .renamed source path
  | .unknown => .kept followed

/-- Of the copies that Mercurial lists, the first to the followed name renames the file. -/
def Mercurial.mention (followed : Path) (c : Mercurial.Changeset) : Mention :=
  match c.copies.filter fun copy => copy.destination.same followed with
  | [] => .kept followed
  | copy :: _ => .renamed copy.source followed

namespace Log

def ids : Log → List String
  | git commits => commits.map Git.Commit.id
  | mercurial changesets => changesets.map Mercurial.Changeset.id

def sightings (path : Path) : Log → List Sighting
  | git commits => sightingsOf Git.Commit.id Git.mention path commits
  | mercurial changesets => sightingsOf Mercurial.Changeset.id Mercurial.mention path changesets

end Log

section
variable {Record : Type} {id : Record → String} {mention : Path → Record → Mention}
  {followed : Path} {log : List Record}

theorem ids_sightingsOf : (sightingsOf id mention followed log).map Sighting.id = log.map id := by
  induction log generalizing followed with
  | nil => rfl
  | cons c rest ih => rw [sightingsOf, List.map_cons, List.map_cons, ih]

theorem followed_sightingsOf {i : Nat} {s next : Sighting}
    (hs : (sightingsOf id mention followed log)[i]? = some s)
    (hnext : (sightingsOf id mention followed log)[i + 1]? = some next) :
    next.followed = s.olderName := by
  induction log generalizing followed i with
  | nil => cases hs
  | cons c rest ih =>
    rw [sightingsOf, List.getElem?_cons_succ] at hnext
    cases i with
    | zero =>
      cases hs
      cases rest with
      | nil => cases hnext
      | cons d rest => cases hnext; rfl
    | succ i =>
      rw [sightingsOf, List.getElem?_cons_succ] at hs
      exact ih hs hnext

end

theorem Log.ids_sightings (path : Path) (log : Log) :
    (log.sightings path).map Sighting.id = log.ids := by
  cases log <;> exact ids_sightingsOf

theorem Log.followed_sightings {path : Path} {log : Log} {i : Nat} {s next : Sighting}
    (hs : (log.sightings path)[i]? = some s) (hnext : (log.sightings path)[i + 1]? = some next) :
    next.followed = s.olderName := by
  cases log <;> exact followed_sightingsOf hs hnext

/-! ## What the records tell -/

/-- The records tell the history. The flags say whether a rename leads to the first of them and
whether there is no newer one. -/
inductive Tells (follow : Bool) : Bool → Bool → List Sighting → FileHistory → Prop
  | nothing {crossed isTip : Bool} : Tells follow crossed isTip [] .empty
  | gone {crossed isTip : Bool} {s : Sighting} {rest : List Sighting} :
      s.mention = .deleted → Tells follow crossed isTip (s :: rest) .empty
  | stopped {crossed isTip : Bool} {s : Sighting} {rest : List Sighting} {path : Path} :
      s.path? = some path → s.stops follow = true →
      Tells follow crossed isTip (s :: rest) (.single ⟨⟨s.id, isTip⟩, path, crossed⟩ s.beyond)
  | passed {crossed isTip : Bool} {s : Sighting} {rest : List Sighting} {path : Path}
      {h : FileHistory} : s.path? = some path → s.stops follow = false →
      Tells follow s.source?.isSome false rest h →
      Tells follow crossed isTip (s :: rest) (h.behind ⟨⟨s.id, isTip⟩, path, crossed⟩)

theorem Git.historyFrom_tells (follow : Bool) (t : Git.Trail) (log : List Git.Commit) :
    Tells follow t.crossed t.isTip (sightingsOf Git.Commit.id Git.mention t.current log)
      (Git.historyFrom follow t log) := by
  induction log generalizing t with
  | nil => exact .nothing
  | cons c rest ih =>
    rw [sightingsOf, historyFrom]
    cases hc : c.change with
    | deleted =>
      have hm : mention t.current c = .deleted := by simp only [mention, hc]
      rw [hm]
      exact .gone rfl
    | added path =>
      have hm : mention t.current c = .added path := by simp only [mention, hc]
      rw [hm]
      exact .stopped rfl rfl
    | modified path =>
      have hm : mention t.current c = .kept path := by simp only [mention, hc]
      rw [hm]
      exact .passed rfl rfl (ih { current := path })
    | unknown =>
      have hm : mention t.current c = .kept t.current := by simp only [mention, hc]
      rw [hm]
      exact .passed rfl rfl (ih { current := t.current })
    | renamed source path =>
      have hm : mention t.current c = .renamed source path := by simp only [mention, hc]
      rw [hm]
      cases follow with
      | true => exact .passed rfl rfl (ih { current := source, crossed := true })
      | false => exact .stopped rfl rfl

theorem Mercurial.mention_of_source? {followed : Path} {c : Mercurial.Changeset} :
    mention followed c =
      match c.source? followed with
      | none => .kept followed
      | some source => .renamed source followed := by
  rw [Changeset.source?, ← List.head?_filter, mention]
  cases c.copies.filter fun copy => copy.destination.same followed <;> rfl

theorem Mercurial.historyFrom_tells (follow : Bool) (t : Mercurial.Trail)
    (log : List Mercurial.Changeset) :
    Tells follow t.crossed t.isTip
      (sightingsOf Mercurial.Changeset.id Mercurial.mention t.current log)
      (Mercurial.historyFrom follow t log) := by
  induction log generalizing t with
  | nil => exact .nothing
  | cons c rest ih =>
    rw [sightingsOf, historyFrom]
    cases hc : c.source? t.current with
    | none =>
      have hm : mention t.current c = .kept t.current := by rw [mention_of_source?, hc]
      rw [hm]
      exact .passed rfl rfl (ih { current := t.current })
    | some source =>
      have hm : mention t.current c = .renamed source t.current := by rw [mention_of_source?, hc]
      rw [hm]
      cases follow with
      | true => exact .passed rfl rfl (ih { current := source, crossed := true })
      | false => exact .stopped rfl rfl

theorem Log.history_tells (log : Log) (path : Path) (follow : Bool) :
    Tells follow false true (log.sightings path) (log.history path follow) := by
  cases log with
  | git commits => exact Git.historyFrom_tells follow { current := path, isTip := true } commits
  | mercurial changesets =>
    exact Mercurial.historyFrom_tells follow { current := path, isTip := true } changesets

namespace Tells
variable {follow crossed isTip : Bool} {ss : List Sighting} {h : FileHistory} {i : Nat}
  {e : HistoryEntry}

theorem lt_size_iff (ht : Tells follow crossed isTip ss h) (i : Nat) :
    i < h.size ↔ i < ss.length ∧ (∀ s ∈ ss.take (i + 1), s.mention ≠ .deleted) ∧
      ∀ s ∈ ss.take i, s.stops follow = false := by
  induction ht generalizing i with
  | nothing => simp [FileHistory.empty, FileHistory.size]
  | gone hs => simp [FileHistory.empty, FileHistory.size, hs]
  | stopped hs hstops =>
    cases i with
    | zero => simp [FileHistory.single, FileHistory.size, Sighting.ne_deleted_of_path? hs]
    | succ i => simp [FileHistory.single, FileHistory.size, hstops]
  | @passed crossed isTip s _ path h hs hstops _ ih =>
    cases i with
    | zero => simp [FileHistory.behind, FileHistory.size, Sighting.ne_deleted_of_path? hs]
    | succ i =>
      have hi : i + 1 < (h.behind ⟨⟨s.id, isTip⟩, path, crossed⟩).size ↔ i < h.size :=
        Nat.succ_lt_succ_iff
      rw [hi, ih i]
      simp [Sighting.ne_deleted_of_path? hs, hstops]

theorem get?_path (ht : Tells follow crossed isTip ss h) (he : h.get? i = some e) :
    ∃ s, ss[i]? = some s ∧ s.id = e.revision.id ∧ s.path? = some e.path := by
  induction ht generalizing i with
  | nothing | gone => cases he
  | @stopped _ _ s _ _ hs =>
    cases i with
    | zero =>
      cases he
      exact ⟨s, rfl, rfl, hs⟩
    | succ i => cases he
  | @passed _ _ s _ _ _ hs _ _ ih =>
    cases i with
    | zero =>
      cases he
      exact ⟨s, rfl, rfl, hs⟩
    | succ i => exact ih he

theorem isTip_iff (ht : Tells follow crossed isTip ss h) (he : h.get? i = some e) :
    e.revision.isTip = true ↔ isTip = true ∧ i = 0 := by
  induction ht generalizing i with
  | nothing | gone => cases he
  | stopped =>
    cases i with
    | zero => cases he; simp
    | succ i => cases he
  | passed _ _ _ ih =>
    cases i with
    | zero => cases he; simp
    | succ i => simp [ih he]

theorem newest (ht : Tells follow crossed isTip ss h) (he : h.get? 0 = some e) :
    e.crossedRename = crossed := by
  cases ht with
  | nothing | gone => cases he
  | stopped | passed => cases he; rfl

theorem crossed_iff (ht : Tells follow crossed isTip ss h) (he : h.get? (i + 1) = some e) :
    e.crossedRename = true ↔ ∃ s, ss[i]? = some s ∧ s.source?.isSome = true := by
  induction ht generalizing i with
  | nothing | gone | stopped => cases he
  | passed _ _ hrest ih =>
    cases i with
    | zero => simp [hrest.newest he]
    | succ i => exact ih he

theorem ids_eq (ht : Tells follow crossed isTip ss h) :
    h.entries.map (·.revision.id) = (ss.map Sighting.id).take h.size := by
  induction ht with
  | nothing | gone | stopped => rfl
  | passed _ _ _ ih => exact congrArg (_ :: ·) ih

theorem created (ht : Tells true crossed isTip ss h) : h.beyond = .created := by
  induction ht with
  | nothing | gone => rfl
  | @stopped _ _ s _ _ _ hstops =>
    -- a rename does not stop a history that follows renames
    cases hm : s.mention with
    | renamed => simp [Sighting.stops, hm] at hstops
    | deleted | added | kept => simp [FileHistory.single, Sighting.beyond, hm]
  | passed _ _ _ ih => exact ih

theorem boundary (ht : Tells follow crossed isTip ss h) {b : RenameBoundary}
    (hb : h.beyond = .renamed b) :
    ∃ e s, h.entries.getLast? = some e ∧ b.revision = e.revision.id ∧ b.path = e.path ∧
      ss[h.size - 1]? = some s ∧ s.source? = some b.previousPath := by
  induction ht with
  | nothing | gone => cases hb
  | @stopped crossed isTip s _ path hs =>
    obtain ⟨hsource, hpath, hid⟩ := s.beyond_eq_renamed_iff.mp hb
    rw [hs] at hpath
    exact ⟨⟨⟨s.id, isTip⟩, path, crossed⟩, s, rfl, hid, (Option.some.inj hpath).symm, rfl, hsource⟩
  | @passed _ _ _ rest _ h _ _ _ ih =>
    obtain ⟨e, s, hlast, hid, hpath, hs, hsource⟩ := ih hb
    have hsize : 0 < h.size := by
      rw [FileHistory.size, List.length_pos_iff]
      intro hnil
      rw [hnil] at hlast
      cases hlast
    have hindex : h.size = h.size - 1 + 1 := (Nat.succ_pred_eq_of_pos hsize).symm
    refine ⟨e, s, ?_, hid, hpath, ?_, hsource⟩
    · rw [FileHistory.behind, List.getLast?_cons, hlast]
      rfl
    · change (_ :: rest)[h.size]? = some s
      rw [hindex, List.getElem?_cons_succ, hs]

theorem truncated_iff (ht : Tells false crossed isTip ss h) :
    (∃ b, h.beyond = .renamed b) ↔
      ∃ i s, i < h.size ∧ ss[i]? = some s ∧ s.source?.isSome = true := by
  induction ht with
  | nothing | gone => simp [FileHistory.empty, FileHistory.size]
  | @stopped _ _ s =>
    have hs : (∃ b, s.beyond = .renamed b) ↔ s.source?.isSome = true := by
      unfold Sighting.beyond Sighting.source?
      cases s.mention <;> simp
    refine hs.trans ⟨fun hsource => ⟨0, s, Nat.one_pos, rfl, hsource⟩, ?_⟩
    rintro ⟨i, found, hi, hfound, hsource⟩
    obtain rfl : i = 0 := Nat.lt_one_iff.mp hi
    cases hfound
    exact hsource
  | passed _ hstops _ ih =>
    refine ih.trans ⟨?_, ?_⟩
    · rintro ⟨i, found, hi, hfound, hsource⟩
      exact ⟨i + 1, found, Nat.succ_lt_succ hi, hfound, hsource⟩
    · rintro ⟨i, found, hi, hfound, hsource⟩
      cases i with
      | zero =>
        cases hfound
        rw [Sighting.source?_of_passes hstops] at hsource
        cases hsource
      | succ i => exact ⟨i, found, Nat.lt_of_succ_lt_succ hi, hfound, hsource⟩

end Tells

namespace FileHistory

/-- The history is what the sightings of a file in a log amount to. -/
structure WellFormed (h : FileHistory) (follow : Bool) (ids : List String) (ss : List Sighting) :
    Prop where
  /-- The entries are those of the newest records, each once and in order. -/
  ids_eq : h.entries.map (·.revision.id) = ids.take h.size
  /-- No entry lies at or behind a deletion, nor behind the record that added the file or that
  renamed it without being followed. All other records have an entry. -/
  lt_size_iff : ∀ i, i < h.size ↔ i < ids.length ∧ (∀ s ∈ ss.take (i + 1), s.mention ≠ .deleted) ∧
    ∀ s ∈ ss.take i, s.stops follow = false
  named : ∀ i e, h.get? i = some e → ∃ s, ss[i]? = some s ∧ s.path? = some e.path
  isTip_iff : ∀ i e, h.get? i = some e → (e.revision.isTip = true ↔ i = 0)
  newest : ∀ e, h.get? 0 = some e → e.crossedRename = false
  crossed_iff : ∀ i e, h.get? (i + 1) = some e →
    (e.crossedRename = true ↔ ∃ s, ss[i]? = some s ∧ s.source?.isSome = true)
  created : follow = true → h.beyond = .created
  truncated_iff : follow = false → ((∃ b, h.beyond = .renamed b) ↔
    ∃ i s, i < h.size ∧ ss[i]? = some s ∧ s.source?.isSome = true)
  boundary : ∀ b, h.beyond = .renamed b → ∃ e s, h.entries.getLast? = some e ∧
    b.revision = e.revision.id ∧ b.path = e.path ∧
    ss[h.size - 1]? = some s ∧ s.source? = some b.previousPath
  /-- Of steady records, a rename leads to an entry exactly if the newer one has another name. -/
  crossed_iff_moved : (∀ s ∈ ss, s.Steady) → ∀ i newer older, h.get? i = some newer →
    h.get? (i + 1) = some older →
      (older.crossedRename = true ↔ newer.path.same older.path = false)

end FileHistory

/-- Of two neighbouring entries that steady records name, the older has another name exactly if the
newer record renamed the file. -/
theorem Log.renamed_iff_of_steady {log : Log} {path newer older : Path} {i : Nat}
    {s next : Sighting} (hsteady : ∀ s ∈ log.sightings path, s.Steady)
    (hs : (log.sightings path)[i]? = some s) (hnext : (log.sightings path)[i + 1]? = some next)
    (hnewer : s.path? = some newer) (holder : next.path? = some older) :
    s.source?.isSome = true ↔ newer.same older = false := by
  have hsame : older.components = s.olderName.components := by
    rw [← Path.same_iff, ← Log.followed_sightings hs hnext]
    exact (hsteady next (List.mem_of_getElem? hnext)).named older holder
  have hmoved := (hsteady s (List.mem_of_getElem? hs)).moved
  unfold Path.same
  rw [hsame]
  unfold Sighting.source? Sighting.path? Sighting.olderName at *
  cases hm : s.mention with
  | deleted => simp [hm] at hnewer
  | added | kept =>
    rw [hm] at hnewer
    cases hnewer
    simp
  | renamed source =>
    rw [hm] at hnewer hmoved
    cases hnewer
    have hother := hmoved source rfl newer rfl
    rw [Path.same, beq_eq_false_iff_ne] at hother
    simp [Ne.symm hother]

/-- The histories that logs tell are well-formed. -/
theorem Log.history_wellFormed (log : Log) (path : Path) (follow : Bool) :
    (log.history path follow).WellFormed follow log.ids (log.sightings path) := by
  have ht := log.history_tells path follow
  have hids := log.ids_sightings path
  have hlength : log.ids.length = (log.sightings path).length := by rw [← hids, List.length_map]
  constructor
  · rw [← hids]
    exact ht.ids_eq
  · rw [hlength]
    exact ht.lt_size_iff
  · intro i e he
    obtain ⟨s, hs, -, hpath⟩ := ht.get?_path he
    exact ⟨s, hs, hpath⟩
  · intro i e he
    rw [ht.isTip_iff he, and_iff_right rfl]
  · exact fun e he => ht.newest he
  · exact fun i e he => ht.crossed_iff he
  · rintro rfl
    exact ht.created
  · rintro rfl
    exact ht.truncated_iff
  · exact fun b hb => ht.boundary hb
  · intro hsteady i newer older hnewer holder
    obtain ⟨s, hs, -, hpath⟩ := ht.get?_path hnewer
    obtain ⟨next, hnext, -, hpath'⟩ := ht.get?_path holder
    rw [ht.crossed_iff holder, ← Log.renamed_iff_of_steady hsteady hs hnext hpath hpath']
    simp [hs]

/-- Git says nothing of the commit behind the rename, which keeps the name from before. -/
theorem Log.history_wellFormed_silent :
    let log := Log.git [⟨"c", .renamed ⟨"old.py"⟩ ⟨"new.py"⟩⟩, ⟨"b", .unknown⟩,
      ⟨"a", .added ⟨"old.py"⟩⟩]
    let h := log.history ⟨"new.py"⟩ true
    (∀ s ∈ log.sightings ⟨"new.py"⟩, s.Steady) ∧
      h.WellFormed true log.ids (log.sightings ⟨"new.py"⟩) ∧
      ∀ i newer older, h.get? i = some newer → h.get? (i + 1) = some older →
        (older.crossedRename = true ↔ newer.path.same older.path = false) := by
  intro log h
  have hsteady : ∀ s ∈ log.sightings ⟨"new.py"⟩, s.Steady := by decide +kernel
  have hwell := Log.history_wellFormed log ⟨"new.py"⟩ true
  exact ⟨hsteady, hwell, hwell.crossed_iff_moved hsteady⟩

end DocDrift
