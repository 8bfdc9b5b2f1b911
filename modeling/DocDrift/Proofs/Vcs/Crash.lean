import DocDrift.Proofs.History.Questions
import DocDrift.Vcs.Backend
import Mathlib

/-!
# Commands without an answer

What a command prints counts only if the command exits with status 0. A command that could not be
started or that a signal ended has no answer, and the analysis ends with a complaint about the
executable. There is one exception: Mercurial's refusals are told by their words alone, so one of
its commands that a signal ended behind such words is taken for a refusal.
-/

namespace DocDrift

namespace Outcome

/-- The command could not be started or was ended by a signal. -/
def Crashed : Outcome → Prop
  | .notStarted _ => True
  | .finished status _ _ => status = none

/-- The outcome without the output of a command that did not succeed. -/
def effective : Outcome → Outcome
  | .notStarted reason => .notStarted reason
  | .finished status stdout stderr =>
    .finished status (if status = some 0 then stdout else []) stderr

def Says (words : String) : Outcome → Prop
  | .notStarted _ => False
  | .finished _ _ stderr => Text.occursIn words.toList (Text.Utf8.decode stderr)

end Outcome

/-- The words by which the refusal of a command is told. -/
def Mercurial.refusal? : String → Option String
  | "root" => some "no repository found"
  | "log" => some "cannot follow"
  | "cat" => some "no such file in"
  | "diff" => some "unknown revision"
  | _ => none

/-- The words by which the refusal of a command is told without regard to its status. -/
def VcsKind.refusal? : VcsKind → Invocation → Option String
  | git, _ => none
  | mercurial, i => i.arguments[2]?.bind Mercurial.refusal?

/-! ## Readers -/

/-- A reader of ended commands that heeds the output of those that succeed only, and that takes a
crash for an answer only because of the words of a refusal. -/
structure Tool.Understands {α : Type} (t : Tool) (refusal? : Option String)
    (read : Finished → Except Failure α) : Prop where
  heedless : ∀ f stdout, f.succeeded = false → read { f with stdout } = read f
  crashed : ∀ f, f.status = none → (∀ words, refusal? = some words → ¬Mercurial.complains f words) →
    read f = .error (t.unexpected f)

namespace Tool
variable {α : Type} {t : Tool} {refusal? : Option String}

theorem understands_ite (onSuccess : Finished → Except Failure α) (onRefusal : Except Failure α)
    (refused : Finished → Prop) [DecidablePred refused]
    (hstdout : ∀ f stdout, refused { f with stdout } ↔ refused f)
    (hcrash : ∀ f, f.status = none → refused f →
      ∃ words, refusal? = some words ∧ Mercurial.complains f words) :
    t.Understands refusal? fun f =>
      if f.succeeded then onSuccess f
      else if refused f then onRefusal
      else .error (t.unexpected f) := by
  constructor
  · intro f stdout hf
    have hf' : ({ f with stdout } : Finished).succeeded = false := hf
    simp only [hf, hf', hstdout]
    rfl
  · intro f hstatus hwords
    have hf : f.succeeded = false := by simp [Finished.succeeded, hstatus]
    have hrefused : ¬refused f := by
      intro h
      obtain ⟨words, hw, hc⟩ := hcrash f hstatus h
      exact hwords words hw hc
    simp only [hf, Bool.false_eq_true, if_false, if_neg hrefused]

theorem Understands.crashed_bind {read : Finished → Except Failure α}
    (h : t.Understands refusal? read) {o : Outcome} (ho : o.Crashed)
    (hwords : ∀ words, refusal? = some words → ¬o.Says words) :
    ∃ reason, (t.finish o >>= read) = .error (.vcsExecutable t.kind t.executable reason) := by
  cases o with
  | notStarted reason => exact ⟨_, rfl⟩
  | finished status stdout stderr => exact ⟨_, h.crashed _ ho hwords⟩

theorem Understands.bind_effective {read : Finished → Except Failure α}
    (h : t.Understands refusal? read) (o : Outcome) :
    (t.finish o.effective >>= read) = (t.finish o >>= read) := by
  cases o with
  | notStarted reason => rfl
  | finished status stdout stderr =>
    by_cases hs : status = some 0
    · rw [Outcome.effective, if_pos hs]
    · rw [Outcome.effective, if_neg hs]
      exact h.heedless ⟨status, Text.Utf8.decode stdout, Text.Utf8.decode stderr⟩ _
        (by simpa [Finished.succeeded] using hs)

theorem Understands.bind_congr {read : Finished → Except Failure α}
    (h : t.Understands refusal? read) {o o' : Outcome} (ho : o.effective = o'.effective) :
    (t.finish o >>= read) = (t.finish o' >>= read) := by
  rw [← h.bind_effective o, ho, h.bind_effective o']

end Tool

/-- A refusal that git tells by its status is none if there is no status. -/
theorem Git.understands_nothingFound {α : Type} (t : Tool) (onSuccess : Finished → Except Failure α)
    (onRefusal : Except Failure α) :
    t.Understands none fun f =>
      if f.succeeded then onSuccess f
      else if f.status = some nothingFound then onRefusal
      else .error (t.unexpected f) :=
  t.understands_ite onSuccess onRefusal (fun f => f.status = some nothingFound)
    (fun _ _ => Iff.rfl) fun f hs h => by simp [hs] at h

theorem Mercurial.understands_complains {α : Type} (t : Tool) (words : String)
    (onSuccess : Finished → Except Failure α) (onRefusal : Except Failure α) :
    t.Understands (some words) fun f =>
      if f.succeeded then onSuccess f
      else if complains f words then onRefusal
      else .error (t.unexpected f) :=
  t.understands_ite onSuccess onRefusal (fun f => complains f words) (fun _ _ => Iff.rfl)
    fun _ _ h => ⟨words, rfl, h⟩

theorem Mercurial.understands_content (t : Tool) (path : Path) (revision : Revision) :
    t.Understands (some "no such file in") (readContent t path revision) :=
  t.understands_ite (fun f => .ok (String.ofList f.stdout)) (.error (.notFound path revision.id))
    (fun f => f.status = some 1 || complains f "no such file in") (fun _ _ => Iff.rfl)
    fun f hs h => ⟨_, rfl, by simpa [hs] using h⟩

theorem Tool.understands_root (t : Tool) (path directory : Path) :
    t.Understands (t.kind.refusal? (t.invocation (t.kind.dialect.openArguments directory)))
      (t.kind.dialect.readRoot t path) := by
  obtain ⟨kind, executable, environment⟩ := t
  cases kind with
  | git => exact Git.understands_nothingFound _ _ _
  | mercurial => exact Mercurial.understands_complains _ "no repository found" _ _

namespace Backend
variable (b : Backend)

theorem understands_log (path : Path) (follow : Bool) :
    b.tool.Understands (b.tool.kind.refusal? (b.invocation (b.dialect.logArguments path)))
      (b.dialect.readLog b.tool path follow) := by
  obtain ⟨⟨kind, executable, environment⟩, root⟩ := b
  cases kind with
  | git => exact Git.understands_nothingFound _ _ _
  | mercurial => exact Mercurial.understands_complains _ "cannot follow" _ _

theorem understands_content (path : Path) (revision : Revision) :
    b.tool.Understands
      (b.tool.kind.refusal? (b.invocation (b.dialect.contentArguments path revision)))
      (b.dialect.readContent b.tool path revision) := by
  obtain ⟨⟨kind, executable, environment⟩, root⟩ := b
  cases kind with
  | git => exact Git.understands_nothingFound _ _ _
  | mercurial => exact Mercurial.understands_content _ path revision

theorem understands_diff (newer older : HistoryEntry) :
    b.tool.Understands
      (b.tool.kind.refusal? (b.invocation (b.dialect.diffArguments newer older)))
      (b.dialect.readDiff b.tool newer older) := by
  obtain ⟨⟨kind, executable, environment⟩, root⟩ := b
  cases kind with
  | git => exact Git.understands_nothingFound _ _ _
  | mercurial => exact Mercurial.understands_complains _ "unknown revision" _ _

/-- A crashed command is a refused question, unless its words are those of a refusal. -/
theorem refuses_of_crashed (w : World) {q : Query} {i : Invocation} (hi : b.command? q = some i)
    (hcrash : (w.outcome i).Crashed)
    (hwords : ∀ words, b.tool.kind.refusal? i = some words → ¬(w.outcome i).Says words) :
    ∃ reason,
      (b.repository w).Refuses q (.vcsExecutable b.tool.kind b.tool.executable reason) := by
  cases q with
  | relative path => cases hi
  | enumerate path follow =>
    cases hi
    exact (b.understands_log path follow).crashed_bind hcrash hwords
  | read path revision =>
    cases hi
    exact (b.understands_content path revision).crashed_bind hcrash hwords
  | diff newer older =>
    cases hi
    obtain ⟨reason, hreason⟩ := (b.understands_diff newer older).crashed_bind hcrash hwords
    exact ⟨reason, hreason, fun _ _ h => by cases h⟩

theorem repository_congr {w w' : World} (hfiles : w.files = w'.files)
    (h : ∀ i, (w.outcome i).effective = (w'.outcome i).effective) :
    b.repository w = b.repository w' := by
  unfold repository
  congr 1
  · rw [hfiles]
  · funext path follow
    exact (b.understands_log path follow).bind_congr (h _)
  · funext path revision
    exact (b.understands_content path revision).bind_congr (h _)
  · funext newer older
    exact (b.understands_diff newer older).bind_congr (h _)

end Backend

/-- Once a file has a name in the repository, its history is asked for. -/
theorem Repository.enumerate_mem_queries {r : Repository} {path inside : Path} {follow : Bool}
    (h : r.relative path = .ok inside) :
    .enumerate inside follow ∈ (r.survey path follow).queries := by
  simp only [survey, h]
  cases r.enumerate inside follow with
  | error e => simp
  | ok history => simp

namespace World
variable {w w' : World} {config : VcsConfig} {path : Path}

/-- The opening of a repository without the reading of the root's name. -/
theorem openBackend_eq (w : World) (config : VcsConfig) (path : Path) :
    w.openBackend config path =
      (config.tool.finish (w.outcome (w.openInvocation config path)) >>=
        config.kind.dialect.readRoot config.tool path) >>= fun output =>
          match w.files.canonicalRoot? output with
          | some root => return ⟨config.tool, root⟩
          | none => throw (config.tool.malformed config.kind.dialect.rootFault) := by
  unfold openBackend
  exact (bind_assoc _ _ _).symm

theorem understands_root (w : World) (config : VcsConfig) (path : Path) :
    config.tool.Understands (config.kind.refusal? (w.openInvocation config path))
      (config.kind.dialect.readRoot config.tool path) :=
  config.tool.understands_root path (w.files.nearestDirectory path)

theorem openBackend_tool {b : Backend} (h : w.openBackend config path = .ok b) :
    b.tool = config.tool := by
  rw [openBackend_eq] at h
  cases houtput : config.tool.finish (w.outcome (w.openInvocation config path)) >>=
      config.kind.dialect.readRoot config.tool path with
  | error e =>
    rw [houtput] at h
    cases h
  | ok output =>
    rw [houtput] at h
    cases hroot : w.files.canonicalRoot? output with
    | none => simp [hroot, bind, Except.bind, throw, throwThe, MonadExceptOf.throw] at h
    | some root =>
      simp only [bind, Except.bind, hroot] at h
      cases h
      rfl

theorem openBackend_crashed (hcrash : (w.outcome (w.openInvocation config path)).Crashed)
    (hwords : ∀ words, config.kind.refusal? (w.openInvocation config path) = some words →
      ¬(w.outcome (w.openInvocation config path)).Says words) :
    ∃ reason, w.openBackend config path =
      .error (.vcsExecutable config.kind config.executable reason) := by
  obtain ⟨reason, hreason⟩ := (w.understands_root config path).crashed_bind hcrash hwords
  refine ⟨reason, ?_⟩
  rw [openBackend_eq, hreason]
  rfl

theorem openBackend_congr (hfiles : w.files = w'.files)
    (h : ∀ i, (w.outcome i).effective = (w'.outcome i).effective) :
    w.openBackend config path = w'.openBackend config path := by
  have hinvocation : w.openInvocation config path = w'.openInvocation config path := by
    rw [openInvocation, openInvocation, hfiles]
  rw [openBackend_eq, openBackend_eq, hfiles, hinvocation,
    (w'.understands_root config path).bind_congr (h _)]

/-- An analysis in which a command crashed ends with a complaint about the executable. -/
theorem analyzeFile_crashed {i : Invocation} (hi : i ∈ (w.analyzeFile config path).commands)
    (hcrash : (w.outcome i).Crashed)
    (hwords : ∀ words, config.kind.refusal? i = some words → ¬(w.outcome i).Says words) :
    ∃ reason, (w.analyzeFile config path).outcome =
      .error (.vcsExecutable config.kind config.executable reason) := by
  by_cases hopening : i = w.openInvocation config path
  · subst hopening
    obtain ⟨reason, hreason⟩ := openBackend_crashed hcrash hwords
    exact ⟨reason, by simp only [analyzeFile, hreason]⟩
  · cases hopen : w.openBackend config path with
    | error e =>
      simp only [analyzeFile, hopen, List.mem_singleton] at hi
      exact absurd hi hopening
    | ok b =>
      simp only [analyzeFile, hopen, List.mem_cons, hopening, false_or] at hi ⊢
      obtain ⟨q, hq, hcommand⟩ := List.mem_filterMap.mp hi
      have htool : b.tool = config.tool := openBackend_tool hopen
      have hkind : b.tool.kind = config.kind := by rw [htool]; rfl
      have hexecutable : b.tool.executable = config.executable := by rw [htool]; rfl
      obtain ⟨reason, hreason⟩ := b.refuses_of_crashed w hcommand hcrash (hkind ▸ hwords)
      rw [hkind, hexecutable] at hreason
      exact ⟨reason, Repository.survey_refused hq hreason⟩

theorem analyzeFile_congr (hfiles : w.files = w'.files)
    (h : ∀ i, (w.outcome i).effective = (w'.outcome i).effective) :
    w.analyzeFile config path = w'.analyzeFile config path := by
  have hinvocation : w.openInvocation config path = w'.openInvocation config path := by
    rw [openInvocation, openInvocation, hfiles]
  have hrepository (b : Backend) : b.repository w = b.repository w' := b.repository_congr hfiles h
  simp only [analyzeFile, hinvocation, openBackend_congr hfiles h, hrepository]

/-- A crash is no answer, unless Mercurial is ended by a signal behind the words of a refusal, and
lost output is none. -/
theorem crash_is_no_answer (config : VcsConfig) (path : Path) :
    (∀ (w : World) (i : Invocation), i ∈ (w.analyzeFile config path).commands →
      (w.outcome i).Crashed →
      (∀ words, config.kind.refusal? i = some words → ¬(w.outcome i).Says words) →
        ∃ reason, (w.analyzeFile config path).outcome =
          .error (.vcsExecutable config.kind config.executable reason)) ∧
      ∀ w w' : World, w.files = w'.files →
        (∀ i, (w.outcome i).effective = (w'.outcome i).effective) →
          w.analyzeFile config path = w'.analyzeFile config path :=
  ⟨fun _ _ => analyzeFile_crashed, fun _ _ => analyzeFile_congr⟩

theorem command_mem_commands {b : Backend} {q : Query} {i : Invocation}
    (hopen : w.openBackend config path = .ok b)
    (hq : q ∈ ((b.repository w).survey path config.followRenames).queries)
    (hi : b.command? q = some i) : i ∈ (w.analyzeFile config path).commands := by
  simp only [analyzeFile, hopen]
  exact List.mem_cons_of_mem _ (List.mem_filterMap.mpr ⟨q, hq, hi⟩)

/-- A Mercurial whose log is cut short by a signal. -/
def cutShortWorld (log : List UInt8) : World where
  files := ⟨[], [(["f.py"], .file [])]⟩
  execute i :=
    if "log" ∈ i.arguments then .finished none log [] else .finished (some 0) "/\n".toUTF8.toList []

def logInvocation : Invocation :=
  (Backend.mk (VcsConfig.default .mercurial).tool ⟨"/"⟩).invocation
    (Mercurial.dialect.logArguments ⟨"f.py"⟩)

theorem outcome_logInvocation (log : List UInt8) :
    (cutShortWorld log).outcome logInvocation = .finished none log [] := by
  cbv

theorem logInvocation_mem_commands (log : List UInt8) :
    logInvocation ∈ ((cutShortWorld log).analyzeFile (.default .mercurial) ⟨"f.py"⟩).commands := by
  have hopen : (cutShortWorld log).openBackend (.default .mercurial) ⟨"f.py"⟩ =
      .ok ⟨(VcsConfig.default .mercurial).tool, ⟨"/"⟩⟩ := by
    cbv
  have hrelative : (cutShortWorld log).files.relative ⟨"/"⟩ ⟨"f.py"⟩ = .ok ⟨"f.py"⟩ := by
    cbv
  exact command_mem_commands hopen (Repository.enumerate_mem_queries hrelative) rfl

theorem crash_is_no_answer_cutShort :
    (∃ reason, ((cutShortWorld [98]).analyzeFile (.default .mercurial) ⟨"f.py"⟩).outcome =
        .error (.vcsExecutable .mercurial ⟨"hg"⟩ reason)) ∧
      (cutShortWorld [98]).analyzeFile (.default .mercurial) ⟨"f.py"⟩ =
        (cutShortWorld []).analyzeFile (.default .mercurial) ⟨"f.py"⟩ := by
  obtain ⟨hcrash, hlost⟩ := crash_is_no_answer (.default .mercurial) ⟨"f.py"⟩
  constructor
  · refine hcrash _ logInvocation (logInvocation_mem_commands _) ?_ fun words hwords => ?_
    · rw [outcome_logInvocation]
      rfl
    · have hcannot : some "cannot follow" = some words := hwords
      cases hcannot
      have hquiet : Text.occursIn "cannot follow".toList (Text.Utf8.decode []) = false := by
        decide +kernel
      rw [outcome_logInvocation, Outcome.Says, hquiet]
      exact Bool.false_ne_true
  · refine hlost _ _ rfl fun i => ?_
    simp only [outcome, cutShortWorld]
    split_ifs <;> rfl

end World

end DocDrift
