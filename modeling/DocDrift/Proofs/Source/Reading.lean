import DocDrift.Source.Cursor
import Mathlib.Data.List.Basic

/-!
# What a reading of tokens does

A reading that succeeds is told by what it yields and by the cursor it leaves. Here the steps that
all phrases are made of become facts about both: whatever a step refuses, it moves the cursor at
most behind the next token, and takes from the gap in front of that token at most its line end and
its comments.
-/

namespace DocDrift.Source

variable {α β : Type}

namespace Cursor

/-- The next token; behind the last one, the end of the source. -/
def next (c : Cursor) : Token :=
  match c.tokens with
  | t :: _ => t
  | [] => { kind := .eof, line := c.lastLine, lastLine := c.lastLine, lineBreak := true }

def behind (c : Cursor) : Cursor :=
  match c.tokens with
  | t :: rest => { c with tokens := rest, lastLine := t.lastLine }
  | [] => c

/-- The cursor in front of the next token, which has been taken into the phrase. -/
def taken (c : Cursor) : Cursor :=
  match c.tokens with
  | t :: rest => { c with tokens := { t with lineBreak := false, comments := [] } :: rest }
  | [] => c

def ahead (c : Cursor) (p : Place) : Option Token :=
  if p.lineEnds && c.next.lineBreak then none else some c.next

variable {c : Cursor} {t : Token} {rest : List Token}

theorem next_of_cons (h : c.tokens = t :: rest) : c.next = t := by
  simp only [next, h]

theorem tokens_of_next (h : c.next.kind ≠ .eof) : c.tokens = c.next :: c.tokens.tail := by
  cases h' : c.tokens with
  | nil => simp [next, h'] at h
  | cons t rest => rw [next_of_cons h', List.tail_cons]

theorem tokens_behind (c : Cursor) : c.behind.tokens = c.tokens.tail := by
  unfold behind
  split <;> simp [*]

theorem tokens_taken_of_cons (h : c.tokens = t :: rest) :
    c.taken.tokens = { t with lineBreak := false, comments := [] } :: rest := by
  simp only [taken, h]

theorem tail_taken (c : Cursor) : c.taken.tokens.tail = c.tokens.tail := by
  unfold taken
  split <;> simp [*]

theorem tokens_of_taken (h : c.taken.tokens = t :: rest) :
    ∃ first, c.tokens = first :: rest ∧ t.kind = first.kind := by
  cases hc : c.tokens with
  | nil => simp [taken, hc] at h
  | cons first more =>
    rw [tokens_taken_of_cons hc, List.cons.injEq] at h
    obtain ⟨rfl, rfl⟩ := h
    exact ⟨first, rfl, rfl⟩

theorem map_kind_taken (c : Cursor) : c.taken.tokens.map Token.kind = c.tokens.map Token.kind := by
  unfold taken
  split <;> simp [*]

theorem kind_next_taken (c : Cursor) : c.taken.next.kind = c.next.kind := by
  cases h : c.tokens with
  | nil => rw [show c.taken = c by simp only [taken, h]]
  | cons t rest => rw [next_of_cons (tokens_taken_of_cons h), next_of_cons h]

theorem comments_next_taken (c : Cursor) : c.taken.next.comments = [] := by
  cases h : c.tokens with
  | nil =>
    rw [show c.taken = c by simp only [taken, h]]
    simp only [next, h]
  | cons t rest => rw [next_of_cons (tokens_taken_of_cons h)]

theorem next_of_any_ahead {p : Place} {q : Token → Bool} (h : (c.ahead p).any q = true) :
    q c.next = true := by
  unfold ahead at h
  split at h
  · cases h
  · exact h

theorem lineBreak_of_any_ahead {p : Place} {q : Token → Bool} (hp : p.lineEnds = true)
    (h : (c.ahead p).any q = true) : c.next.lineBreak = false := by
  simp only [ahead, hp, Bool.true_and] at h
  split at h
  · cases h
  · next hbreak => simpa using hbreak

end Cursor

/-- From the cursor `c` the reading yields `a` and leaves the cursor `c'`. -/
def Reads (read : Parse α) (c : Cursor) (a : α) (c' : Cursor) : Prop := read.run c = .ok (a, c')

section

variable {c c' c'' : Cursor} {a : α} {b : β} {f : α → Parse β}

theorem reads_pure {d : α} : Reads (pure d) c a c' ↔ a = d ∧ c' = c := by
  change (Except.ok (d, c) : Except SyntaxError (α × Cursor)) = .ok (a, c') ↔ _
  simp [eq_comm]

theorem reads_bind {read : Parse α} :
    Reads (read >>= f) c b c'' ↔ ∃ a c', Reads read c a c' ∧ Reads (f a) c' b c'' := by
  unfold Reads
  rw [StateT.run_bind]
  cases read.run c with
  | error e => simp [bind, Except.bind]
  | ok r =>
    obtain ⟨a, c'⟩ := r
    simp [bind, Except.bind]

theorem reads_ite {q : Bool} {first second : Parse α} :
    Reads (if q then first else second) c a c' ↔
      q = true ∧ Reads first c a c' ∨ q = false ∧ Reads second c a c' := by
  cases q <;> simp

theorem reads_get {d : Cursor} : Reads get c d c' ↔ d = c ∧ c' = c := reads_pure

theorem reads_modify {g : Cursor → Cursor} {u : Unit} : Reads (modify g) c u c' ↔ c' = g c := by
  change (Except.ok ((), g c) : Except SyntaxError (Unit × Cursor)) = .ok (u, c') ↔ _
  simp [eq_comm]

theorem reads_get_bind {f : Cursor → Parse β} : Reads (get >>= f) c b c' ↔ Reads (f c) c b c' :=
  Iff.rfl

theorem reads_set_bind {d : Cursor} {f : PUnit → Parse β} :
    Reads (set d >>= f) c b c' ↔ Reads (f ⟨⟩) d b c' :=
  Iff.rfl

theorem reads_modify_bind {g : Cursor → Cursor} {f : PUnit → Parse β} :
    Reads (modify g >>= f) c b c' ↔ Reads (f ⟨⟩) (g c) b c' :=
  Iff.rfl

theorem reads_of_orElse {first second : Parse α} (h : Reads (Parse.orElse first second) c a c') :
    Reads first c a c' ∨ Reads second c a c' := by
  simp only [Reads, Parse.orElse, tryCatch, tryCatchThe, MonadExceptOf.tryCatch, StateT.run,
    Except.tryCatch] at h ⊢
  split at h
  · next h' => exact .inl (h'.trans h)
  · exact .inr h

namespace Parse

theorem reads_peek {t : Token} : Reads peek c t c' ↔ t = c.next ∧ c' = c := by
  unfold peek Cursor.next
  rw [reads_get_bind]
  cases c.tokens <;> exact reads_pure

theorem reads_peek_bind {f : Token → Parse β} :
    Reads (peek >>= f) c b c' ↔ Reads (f c.next) c b c' := by
  simp [reads_bind, reads_peek]

theorem reads_peekSecond {t : Token} (h : Reads peekSecond c t c') : c' = c := by
  unfold peekSecond at h
  rw [reads_get_bind] at h
  split at h <;> exact (reads_pure.mp h).2

theorem not_reads_fail : ¬Reads fail c a c' := by
  unfold fail
  rw [reads_get_bind, reads_peek_bind]
  simp [Reads, throw, throwThe, MonadExceptOf.throw, StateT.run, StateT.lift, bind, Except.bind]

theorem not_reads_fail_bind : ¬Reads (fail >>= f) c b c' := by
  rw [reads_bind]
  rintro ⟨_, _, h, -⟩
  exact not_reads_fail h

theorem reads_advance {u : Unit} : Reads advance c u c' ↔ c' = c.behind := reads_modify

theorem reads_advance_bind {f : Unit → Parse β} :
    Reads (advance >>= f) c b c' ↔ Reads (f ()) c.behind b c' :=
  Iff.rfl

/-- Whether the next token is passed over or not, what follows is read. -/
theorem reads_advance_ite {q : Bool} {f : Unit → Parse β}
    (h : Reads (if q then advance >>= f else f ()) c b c') :
    ∃ d, (d = c.behind ∨ d = c) ∧ Reads (f ()) d b c' := by
  obtain ⟨-, h⟩ | ⟨-, h⟩ := reads_ite.mp h
  · exact ⟨c.behind, .inl rfl, reads_advance_bind.mp h⟩
  · exact ⟨c, .inr rfl, h⟩

theorem reads_stay {exempt quoteMayFollow : Bool} {u : Unit}
    (h : Reads (stay exempt quoteMayFollow) c u c') : c' = c := by
  unfold stay at h
  obtain ⟨q, d, hq, h⟩ := reads_bind.mp h
  unfold leavesBlock at hq
  rw [reads_get_bind, reads_peek_bind, reads_pure] at hq
  simp only [reads_ite, not_reads_fail, and_false, false_or, reads_pure] at h
  rw [h.2.2, hq.2]

theorem reads_stay_bind {exempt quoteMayFollow : Bool} {f : Unit → Parse β}
    (h : Reads (stay exempt quoteMayFollow >>= f) c b c') : Reads (f ()) c b c' := by
  obtain ⟨_, d, hd, h⟩ := reads_bind.mp h
  rwa [reads_stay hd] at h

theorem reads_take {exempt : Bool} {t : Token} (h : Reads (take exempt) c t c') :
    t = c.taken.next ∧ c' = c.taken := by
  have h := reads_stay_bind h
  rw [reads_modify_bind, reads_peek] at h
  exact h

theorem reads_take_bind {exempt : Bool} {f : Token → Parse β}
    (h : Reads (take exempt >>= f) c b c') : Reads (f c.taken.next) c.taken b c' := by
  obtain ⟨_, d, hd, h⟩ := reads_bind.mp h
  obtain ⟨rfl, rfl⟩ := reads_take hd
  exact h

theorem reads_following_bind {p : Place} {f : Option Token → Parse β}
    (h : Reads (following p >>= f) c b c') : Reads (f (c.ahead p)) c b c' := by
  obtain ⟨next, d, hnext, h⟩ := reads_bind.mp h
  unfold following at hnext
  rw [reads_peek_bind, reads_ite] at hnext
  obtain ⟨hend, hnext⟩ | ⟨hend, hnext⟩ := hnext
  · obtain ⟨rfl, rfl⟩ := reads_pure.mp hnext
    rwa [Cursor.ahead, if_pos hend]
  · have hnext := reads_stay_bind hnext
    obtain ⟨rfl, rfl⟩ := reads_pure.mp hnext
    rwa [Cursor.ahead, if_neg (by simp [hend])]

theorem reads_followedByOp_bind {p : Place} {text : String} {f : Bool → Parse β}
    (h : Reads (followedByOp p text >>= f) c b c') :
    Reads (f ((c.ahead p).any (·.isOp text))) c b c' := by
  unfold followedByOp at h
  rw [bind_assoc] at h
  have h := reads_following_bind h
  split at h <;> simp_all

theorem reads_skipOp_bind {p : Place} {text : String} {f : Bool → Parse β}
    (h : Reads (skipOp p text >>= f) c b c') :
    (c.ahead p).any (·.isOp text) = true ∧ Reads (f true) c.behind b c' ∨
      (c.ahead p).any (·.isOp text) = false ∧ Reads (f false) c b c' := by
  unfold skipOp at h
  rw [bind_assoc] at h
  have h := reads_followedByOp_bind h
  split at h
  · next hop => exact .inl ⟨hop, h⟩
  · next hop => exact .inr ⟨by simpa using hop, h⟩

theorem reads_expectOp_bind {p : Place} {text : String} {f : Unit → Parse β}
    (h : Reads (expectOp p text >>= f) c b c') :
    c.next.isOp text = true ∧ Reads (f ()) c.behind b c' := by
  unfold expectOp at h
  rw [bind_assoc] at h
  have h := reads_followedByOp_bind h
  split at h
  · next hop =>
    exact ⟨Cursor.next_of_any_ahead hop, h⟩
  · exact absurd h not_reads_fail_bind

end Parse

end

end DocDrift.Source
