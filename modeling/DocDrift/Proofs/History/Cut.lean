import DocDrift.Proofs.History.Statistic

/-!
# Histories cut at a rename

A history that stops at a rename is walked like the whole one as long as a walk stays among its
entries. What the whole history says of a unit beyond them comes down to the oldest one that is
left.
-/

namespace DocDrift

/-- `short` is `whole` without the entries behind `last`, where it stops at a rename. -/
structure FileHistory.CutTo (whole : FileHistory) (last : Nat) (short : FileHistory) : Prop where
  last_lt : last < whole.size
  entries : short.entries = whole.entries.take (last + 1)
  truncated : short.truncatedByRename = true

/-- The statistic `s'` says what `s`, which is about the whole history, says up to entry `last`. -/
structure FileHistory.CutShort (whole : FileHistory) (last : Nat) (s s' : UnitStatistic) :
    Prop where
  unit_eq : s'.unit = s.unit
  age : s'.lastDocRevisionAge = min s.lastDocRevisionAge last
  revision : ∃ entry, whole.get? s'.lastDocRevisionAge = some entry ∧
    s'.lastDocRevision = entry.revision
  truncated : s'.truncatedByRename = true ↔ last ≤ s.lastDocRevisionAge
  changes_eq : s.lastDocRevisionAge ≤ last → s'.changesSinceCount = s.changesSinceCount
  changes_le : s'.changesSinceCount ≤ s.changesSinceCount

namespace Chronicle
variable {c c' : Chronicle} {last i : Nat}

structure CutTo (c : Chronicle) (last : Nat) (c' : Chronicle) : Prop where
  history : c.history.CutTo last c'.history
  diff : c'.diff = c.diff

namespace CutTo

theorem get? (h : c.CutTo last c') (hi : i ≤ last) : c'.history.get? i = c.history.get? i := by
  rw [FileHistory.get?, FileHistory.get?, h.history.entries, List.getElem?_take_of_lt (by omega)]

theorem oldest (h : c.CutTo last c') : c'.oldest = last := by
  have hlast := h.history.last_lt
  unfold FileHistory.size at hlast
  rw [Chronicle.oldest, FileHistory.size, h.history.entries, List.length_take]
  omega

theorem le_oldest (h : c.CutTo last c') : last ≤ c.oldest := by
  have hlast := h.history.last_lt
  unfold Chronicle.oldest
  omega

theorem ask (h : c.CutTo last c') (hi : i < last) : c'.ask i = c.ask i := by
  rw [Chronicle.ask, Chronicle.ask, h.get? (Nat.le_of_lt hi), h.get? hi, h.diff]

theorem hunksAt? (h : c.CutTo last c') (hi : i < last) : c'.hunksAt? i = c.hunksAt? i := by
  have hold := h.le_oldest
  rw [Chronicle.hunksAt?, Chronicle.hunksAt?, h.oldest, h.ask hi, if_pos hi, if_pos (by omega)]

theorem liveAt? (h : c.CutTo last c') (range : LineRange) (hi : i ≤ last) :
    c'.liveAt? range i = c.liveAt? range i := by
  induction i with
  | zero => rfl
  | succ i ih => rw [Chronicle.liveAt?, Chronicle.liveAt?, ih (by omega), h.hunksAt? hi]

theorem modifies (h : c.CutTo last c') (range : LineRange) (hi : i < last) :
    c'.modifies range i = c.modifies range i := by
  rw [Chronicle.modifies, Chronicle.modifies, h.liveAt? range (Nat.le_of_lt hi), h.hunksAt? hi]

theorem modifies_behind (h : c.CutTo last c') (range : LineRange) (hi : last ≤ i) :
    c'.modifies range i = false :=
  modifies_of_no_hunks (hunksAt?_of_oldest_le (by rwa [h.oldest]))

/-- Documentation that was last modified behind the cut goes back to the cut. -/
theorem lastModified (h : c.CutTo last c') {range : LineRange} {d : Nat}
    (hd : c.LastModified range d) : c'.LastModified range (min d last) := by
  rcases Nat.lt_or_ge d last with hlt | hge
  · have hbefore : ∀ j < d, c'.modifies range j = false := fun j hj => by
      rw [h.modifies range (by omega), hd.before j hj]
    rw [Nat.min_eq_left (Nat.le_of_lt hlt)]
    obtain ⟨hm, -⟩ | ⟨hno, ⟨live, hlive⟩, hlost⟩ := hd
    · exact .inl ⟨by rw [h.modifies range hlt, hm], hbefore⟩
    · refine .inr ⟨fun j => ?_, ⟨live, by rw [h.liveAt? range (by omega), hlive]⟩, ?_⟩
      · rcases Nat.lt_or_ge j last with hj | hj
        · rw [h.modifies range hj, hno j]
        · exact h.modifies_behind range hj
      · rw [h.liveAt? range hlt, hlost]
  · rw [Nat.min_eq_right hge]
    refine .inr ⟨fun j => ?_, ?_, ?_⟩
    · rcases Nat.lt_or_ge j last with hj | hj
      · rw [h.modifies range hj, hd.before j (by omega)]
      · exact h.modifies_behind range hj
    · obtain ⟨live, hlive⟩ := hd.reached
      rw [h.liveAt? range Nat.le.refl]
      cases hl : c.liveAt? range last with
      | some l => exact ⟨l, rfl⟩
      | none =>
        rw [liveAt?_mono hge hl] at hlive
        cases hlive
    · rw [Chronicle.liveAt?, hunksAt?_of_oldest_le (Nat.le_of_eq h.oldest)]
      cases c'.liveAt? range last <;> rfl

/-! ## Walks -/

/-- A walk along the cut history ends at once, or the transition is answered as in the whole one. -/
theorem stops_or_asks (h : c.CutTo last c') (limit : WalkLimit) (i : Nat) (live : LineRange) :
    (∃ steps w, Trace c' limit i live steps w) ∨
      limitReached limit i = false ∧ i < last ∧ i < c'.oldest ∧ c'.ask i = c.ask i := by
  cases hl : limitReached limit i with
  | true => exact .inl ⟨_, _, .limit hl⟩
  | false =>
    rcases Nat.lt_or_ge i last with hi | hi
    · exact .inr ⟨rfl, hi, by rwa [h.oldest], h.ask hi⟩
    · exact .inl ⟨_, _, .oldest hl (by rwa [h.oldest])⟩

/-- A walk that succeeds on the whole history succeeds on the cut one, with a limit that is reached
no later. -/
theorem trace (h : c.CutTo last c') {limit limit' : WalkLimit} {live : LineRange}
    {steps : List WalkStep} {w : Walk}
    (hlimit : ∀ j, limitReached limit j = true → limitReached limit' j = true)
    (hfirst : limit' = .firstModification ↔ limit = .firstModification)
    (ht : Trace c limit i live steps w) : ∃ steps' w', Trace c' limit' i live steps' w' := by
  induction ht with
  | @limit i live hl => exact ⟨_, _, .limit (hlimit i hl)⟩
  | @oldest i live _ ho =>
    rcases h.stops_or_asks limit' i live with hdone | ⟨-, hlt, -⟩
    · exact hdone
    · have := h.le_oldest
      omega
  | @missing i live _ _ ha =>
    rcases h.stops_or_asks limit' i live with hdone | ⟨hl, -, hlt, hask⟩
    · exact hdone
    · exact ⟨_, _, .missing hl hlt (hask.trans ha)⟩
  | @lost i live hunks _ _ ha hr =>
    rcases h.stops_or_asks limit' i live with hdone | ⟨hl, -, hlt, hask⟩
    · exact hdone
    · exact ⟨_, _, .lost hl hlt (hask.trans ha) hr⟩
  | @found i live next hunks _ _ ha hr hm hf =>
    rcases h.stops_or_asks limit' i live with hdone | ⟨hl, -, hlt, hask⟩
    · exact hdone
    · exact ⟨_, _, .found hl hlt (hask.trans ha) hr hm (hfirst.mpr hf)⟩
  | @step i live next hunks steps w _ _ ha hr hno _ ih =>
    rcases h.stops_or_asks limit' i live with hdone | ⟨hl, -, hlt, hask⟩
    · exact hdone
    · obtain ⟨steps', w', ht'⟩ := ih
      exact ⟨_, _, .step hl hlt (hask.trans ha) hr (fun hm hf => hno hm (hfirst.mp hf)) ht'⟩

end CutTo

/-! ## Measurements -/

namespace CutTo
variable {unit : DocumentedUnit}

theorem cutShort (h : c.CutTo last c') {s s' : UnitStatistic} (hs : c.Measured unit s)
    (hs' : c'.Measured unit s') : c.history.CutShort last s s' := by
  have hage : s'.lastDocRevisionAge = min s.lastDocRevisionAge last :=
    hs'.lastModified.unique (h.lastModified hs.lastModified)
  have hchanges : s'.changesSinceCount =
      ((List.range (min s.lastDocRevisionAge last)).filter (c.modifies unit.bodyRange)).length := by
    rw [hs'.changes, hage]
    congr 1
    refine List.filter_congr fun j hj => h.modifies unit.bodyRange ?_
    have := List.mem_range.mp hj
    omega
  constructor
  · rw [hs'.unit_eq, hs.unit_eq]
  · exact hage
  · obtain ⟨entry, hentry, hrev⟩ := hs'.revision
    rw [h.get? (by omega)] at hentry
    exact ⟨entry, hentry, hrev⟩
  · rw [hs'.truncated, h.history.truncated, h.oldest, hage, Bool.true_and,
      decide_eq_true_eq]
    omega
  · intro hle
    rw [hchanges, hs.changes, Nat.min_eq_left hle]
  · rw [hchanges, hs.changes]
    exact ((List.range_sublist.mpr (Nat.min_le_left _ _)).filter _).length_le

theorem walk_first (h : c.CutTo last c') {range : LineRange} {known known' : KnownDiffs} {w : Walk}
    (hk : c.Faithful known) (hk' : c'.Faithful known')
    (hw : (c.walk range .firstModification known).outcome = .ok w) :
    ∃ w', (c'.walk range .firstModification known').outcome = .ok w' ∧
      docIndex w' = min (docIndex w) last := by
  have ht := walk_trace hk hw
  obtain ⟨steps', w', ht'⟩ := h.trace (fun _ => id) Iff.rfl ht
  have hlast := h.lastModified ht.docIndex.2
  rw [← ht.docIndex.1] at hlast
  exact ⟨w', ht'.walkFrom hk', ht'.docIndex.1.trans (ht'.docIndex.2.unique hlast)⟩

theorem walk_until (h : c.CutTo last c') {range : LineRange} {known known' : KnownDiffs} {w : Walk}
    {stop : Nat} (hk : c.Faithful known) (hk' : c'.Faithful known')
    (hw : (c.walk range (.until stop) known).outcome = .ok w) :
    ∃ w', (c'.walk range (.until (min stop last)) known').outcome = .ok w' := by
  have hlimit : ∀ j, limitReached (.until stop) j = true →
      limitReached (.until (min stop last)) j = true := by
    intro j hj
    simp only [limitReached, decide_eq_true_eq] at hj ⊢
    omega
  obtain ⟨steps', w', ht'⟩ := h.trace hlimit (by simp) (walk_trace hk hw)
  exact ⟨w', ht'.walkFrom hk'⟩

/-- Units that can be measured in the whole history can be measured in the cut one. -/
theorem measure (h : c.CutTo last c') {units : List DocumentedUnit} {known known' : KnownDiffs}
    {stats : List UnitStatistic} (hk : c.Faithful known) (hk' : c'.Faithful known')
    (hm : (c.measure known units).outcome = .ok stats) :
    ∃ stats', (c'.measure known' units).outcome = .ok stats' := by
  induction units generalizing known known' stats with
  | nil => exact ⟨[], rfl⟩
  | cons unit rest ih =>
    obtain ⟨doc, body, others, hdoc, hbody, hothers, rfl⟩ := measure_cons_eq_ok_iff.mp hm
    have hdocKnown := walk_known .firstModification unit.docRange hk
    have hdocKnown' := walk_known .firstModification unit.docRange hk'
    obtain ⟨doc', hdoc', hindex⟩ := h.walk_first hk hk' hdoc
    obtain ⟨body', hbody'⟩ := h.walk_until hdocKnown hdocKnown' hbody
    rw [← hindex] at hbody'
    have hbodyKnown := walk_known (.until (docIndex doc)) unit.bodyRange hdocKnown
    have hbodyKnown' := walk_known (.until (docIndex doc')) unit.bodyRange hdocKnown'
    obtain ⟨others', hothers'⟩ := ih hbodyKnown hbodyKnown' hothers
    exact ⟨_, measure_cons_eq_ok_iff.mpr ⟨doc', body', others', hdoc', hbody', hothers', rfl⟩⟩

theorem forall₂_cutShort (h : c.CutTo last c') {units : List DocumentedUnit}
    {stats stats' : List UnitStatistic} (hs : List.Forall₂ c.Measured units stats)
    (hs' : List.Forall₂ c'.Measured units stats') :
    List.Forall₂ (c.history.CutShort last) stats stats' := by
  induction hs generalizing stats' with
  | nil =>
    cases hs'
    exact .nil
  | cons hm _ ih =>
    cases hs' with
    | cons hm' hrest => exact .cons (h.cutShort hm hm') (ih hrest)

end CutTo

end Chronicle

end DocDrift
