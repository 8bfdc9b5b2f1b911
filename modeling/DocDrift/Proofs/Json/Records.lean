import DocDrift.Proofs.Json.Scalars
import Mathlib.Data.List.TakeWhile

/-!
# Lists and records read back

A codec recovers a value if its reader takes back what was written, whatever the layout, behind any
blanks and in front of anything that does not prolong a number. A list is recovered when its items
are. A record is recovered when its fields are and no two of them share a name: the members are read
in the order of the fields, so the fields that have been read are always the first ones.
-/

namespace DocDrift.Json

open Reader

variable {α β : Type}

/-- The reader takes the text of `j` for `a`. -/
def Reads (r : Reader α) (j : Json) (a : α) : Prop :=
  ∀ (l : Layout) (depth : Nat) (blanks s : List Char), Blanks blanks → Closed s →
    r (blanks ++ (j.write l depth ++ s)) = .ok (a, s)

def Codec.Recovers (c : Codec α) (a : α) : Prop := Reads c.read (c.write a) a

/-! ## Where a text begins and how it goes on -/

structure Opens (j : Json) (c : Char) : Prop where
  not_blank : isSpace c = false
  not_close : c ≠ ']'
  null : c = 'n' → j = .null

theorem opens_of_isDigit {j : Json} {c : Char} (h : c.isDigit = true) : Opens j c where
  not_blank := isSpace_of_isDigit h
  not_close hc := by
    rw [hc] at h
    cases h
  null hc := by
    rw [hc] at h
    cases h

theorem write_opens (j : Json) (l : Layout) (depth : Nat) :
    ∃ c s, j.write l depth = c :: s ∧ Opens j c := by
  have hmark : ∀ {c : Char}, isSpace c = false → c ≠ ']' → c ≠ 'n' → Opens j c :=
    fun hblank hclose hn => ⟨hblank, hclose, fun h => absurd h hn⟩
  cases j with
  | null => exact ⟨'n', _, rfl, by decide, by decide, fun _ => rfl⟩
  | bool b => cases b <;> exact ⟨_, _, rfl, hmark (by decide) (by decide) (by decide)⟩
  | number n =>
    cases hds : Nat.toDigits 10 n with
    | nil => exact absurd hds Nat.toDigits_ne_nil
    | cons d ds =>
      have hd : d.isDigit = true := Text.isDigit_of_mem_toDigits (n := n) (by rw [hds]; simp)
      exact ⟨d, ds, by simp [write, hds], opens_of_isDigit hd⟩
  | string s => exact ⟨_, _, rfl, hmark (by decide) (by decide) (by decide)⟩
  | array items =>
    cases items <;> exact ⟨_, _, by rw [write], hmark (by decide) (by decide) (by decide)⟩
  | object members =>
    cases members <;> exact ⟨_, _, by rw [write], hmark (by decide) (by decide) (by decide)⟩

theorem Reader.closed_blanks {blanks s : List Char} (hb : Blanks blanks) (hs : Closed s) :
    Closed (blanks ++ s) := by
  cases blanks with
  | nil => exact hs
  | cons c blanks =>
    have hc := hb c (List.mem_cons_self ..)
    simp only [isSpace, Bool.or_eq_true, beq_iff_eq] at hc
    rcases hc with ((rfl | rfl) | rfl) | rfl <;>
      exact closed_cons (by decide) (by decide) (by decide) (by decide)

theorem Reader.closed_of_blanks {blanks : List Char} (hb : Blanks blanks) : Closed blanks := by
  have h := closed_blanks hb closed_nil
  rwa [List.append_nil] at h

theorem closed_writeItems (l : Layout) (depth depth' : Nat) (js : List Json) (s : List Char) :
    Closed (writeItems l depth js ++ (l.lineBreak depth' ++ ']' :: s)) := by
  cases js with
  | nil =>
    rw [writeItems, List.nil_append]
    exact closed_blanks (blanks_lineBreak l depth')
      (closed_cons (by decide) (by decide) (by decide) (by decide))
  | cons j js =>
    rw [writeItems]
    exact closed_cons (by decide) (by decide) (by decide) (by decide)

theorem closed_writeMembers (l : Layout) (depth depth' : Nat) (ms : List (String × Json))
    (s : List Char) : Closed (writeMembers l depth ms ++ (l.lineBreak depth' ++ '\x7d' :: s)) := by
  cases ms with
  | nil =>
    rw [writeMembers, List.nil_append]
    exact closed_blanks (blanks_lineBreak l depth')
      (closed_cons (by decide) (by decide) (by decide) (by decide))
  | cons m ms =>
    rw [writeMembers]
    exact closed_cons (by decide) (by decide) (by decide) (by decide)

theorem length_le_writeItems (l : Layout) (depth : Nat) (js : List Json) :
    js.length ≤ (writeItems l depth js).length := by
  induction js with
  | nil => exact Nat.zero_le _
  | cons j js ih =>
    simp only [writeItems, List.length_cons, List.length_append]
    omega

theorem length_le_writeMembers (l : Layout) (depth : Nat) (ms : List (String × Json)) :
    ms.length ≤ (writeMembers l depth ms).length := by
  induction ms with
  | nil => exact Nat.zero_le _
  | cons m ms ih =>
    simp only [writeMembers, List.length_cons, List.length_append]
    omega

/-! ## Scalars -/

theorem reads_string (expected : String) (text : String) :
    Reads (Reader.string expected) (.string text) text := by
  intro l depth blanks s hb _
  rw [write, quote_append, Reader.string, bind_ok (peekValue_blanks hb (by decide)), if_pos rfl,
    bind_ok (skip_cons ..)]
  exact stringBody_quote text

theorem reads_bool (b : Bool) : Reads Reader.bool (.bool b) b := by
  intro l depth blanks s hb _
  cases b with
  | true =>
    have htrue : (Json.bool true).write l depth ++ s = 't' :: ("rue".toList ++ s) := rfl
    rw [htrue, Reader.bool, bind_ok (peekValue_blanks hb (by decide))]
    exact (bind_ok (skip_cons ..)).trans (bind_ok (wordRest_append _))
  | false =>
    have hfalse : (Json.bool false).write l depth ++ s = 'f' :: ("alse".toList ++ s) := rfl
    rw [hfalse, Reader.bool, bind_ok (peekValue_blanks hb (by decide))]
    exact (bind_ok (skip_cons ..)).trans (bind_ok (wordRest_append _))

theorem reads_natural {n largest : Nat} (expected : String) (hn : n ≤ largest)
    (hlargest : largest ≤ largest64) : Reads (natural largest expected) (.number n) n := by
  intro l depth blanks s hb hs
  have hdigits : (Json.number n).write l depth = Nat.toDigits 10 n := by simp [write]
  rw [hdigits]
  exact natural_toDigits expected hn hlargest hb hs

theorem reads_choice {known : List (String × α)} {name : String} {a : α}
    (h : known.lookup name = some a) : Reads (choice known) (.string name) a := by
  intro l depth blanks s hb _
  rw [write, quote_append, choice, bind_ok (peek_blanks hb (by decide))]
  have hvalue : peekValue ('"' :: (name.toList.flatMap escapeChar ++ '"' :: s)) =
      .ok ('"', '"' :: (name.toList.flatMap escapeChar ++ '"' :: s)) :=
    peekValue_blanks blanks_nil (by decide)
  apply settled_ok
  rw [bind_ok hvalue, if_pos rfl, bind_ok (skip_cons ..), bind_ok (stringBody_quote name), h]
  rfl

theorem reads_none (r : Reader α) : Reads (Reader.optional r) .null none := by
  intro l depth blanks s hb _
  have hnull : Json.null.write l depth ++ s = 'n' :: ("ull".toList ++ s) := rfl
  rw [hnull, Reader.optional, bind_ok (peek_blanks hb (by decide))]
  exact (bind_ok (skip_cons ..)).trans (bind_ok (wordRest_append _))

/-- What is no null is read as a value. -/
theorem reads_some {r : Reader α} {j : Json} {a : α} (hj : j ≠ .null) (h : Reads r j a) :
    Reads (Reader.optional r) j (some a) := by
  intro l depth blanks s hb hs
  obtain ⟨c, t, hwrite, hopens⟩ := write_opens j l depth
  have hread : r (c :: t ++ s) = .ok (a, s) := hwrite ▸ h l depth [] s blanks_nil hs
  have hsome : (r >>= fun a => pure (some a)) (c :: (t ++ s)) = .ok (some a, s) := bind_ok hread
  rw [hwrite, Reader.optional, List.cons_append, bind_ok (peek_blanks hb hopens.not_blank)]
  refine (congrFun ?_ _).trans hsome
  split
  · next hc =>
    cases hc
    exact absurd (hopens.null rfl) hj
  · rfl

/-! ## Lists -/

theorem Reader.enclosed_ok {body : Reader α} {finish : Reader Unit} {settle : List Char → Nat}
    {s t t' : List Char} {a : α} (hbody : body s = .ok (a, t)) (hfinish : finish t = .ok ((), t')) :
    enclosed body finish settle s = .ok (a, t') := by
  simp only [enclosed, hbody, hfinish]

theorem nextItem_close {blanks s : List Char} (first : Bool) (hb : Blanks blanks) :
    nextItem first (blanks ++ ']' :: s) = .ok (false, ']' :: s) := by
  rw [nextItem, bind_ok (peek_blanks hb (by decide))]
  rfl

theorem nextItem_first {blanks s : List Char} {j : Json} {c : Char} (hb : Blanks blanks)
    (hc : Opens j c) : nextItem true (blanks ++ c :: s) = .ok (true, c :: s) := by
  have hpure : (pure true : Reader Bool) (c :: s) = .ok (true, c :: s) := rfl
  rw [nextItem, bind_ok (peek_blanks hb hc.not_blank)]
  refine (congrFun ?_ _).trans hpure
  simp only [if_true]
  split
  · next h => cases h
  · next h =>
    cases h
    exact absurd rfl hc.not_close
  · rfl

theorem nextItem_comma {blanks s : List Char} {j : Json} {c : Char} (hb : Blanks blanks)
    (hc : Opens j c) : nextItem false (',' :: (blanks ++ c :: s)) = .ok (true, c :: s) := by
  have hcomma : peek (',' :: (blanks ++ c :: s)) = .ok (some ',', ',' :: (blanks ++ c :: s)) := rfl
  have hpure : (pure true : Reader Bool) (c :: s) = .ok (true, c :: s) := rfl
  rw [nextItem, bind_ok hcomma]
  refine (bind_ok (skip_cons ..)).trans ?_
  rw [bind_ok (peek_blanks hb hc.not_blank)]
  refine (congrFun ?_ _).trans hpure
  split
  · next h =>
    cases h
    exact absurd rfl hc.not_close
  · rfl
  · next h => cases h

theorem items_step {r : Reader α} {s t t' t'' : List Char} {a : α} {as : List α} {first : Bool}
    {fuel : Nat} (hnext : nextItem first s = .ok (true, t)) (hitem : r t = .ok (a, t'))
    (hrest : items r false fuel t' = .ok (as, t'')) :
    items r first (fuel + 1) s = .ok (a :: as, t'') := by
  rw [items, bind_ok hnext, if_pos rfl, bind_ok hitem, bind_ok hrest]
  rfl

theorem items_writeItems {r : Reader α} {f : α → Json} {as : List α}
    (has : ∀ a ∈ as, Reads r (f a) a) (l : Layout) (depth depth' : Nat) (s : List Char)
    {fuel : Nat} (hfuel : as.length < fuel) :
    items r false fuel (writeItems l depth (as.map f) ++ (l.lineBreak depth' ++ ']' :: s)) =
      .ok (as, ']' :: s) := by
  induction as generalizing fuel with
  | nil =>
    obtain ⟨fuel, rfl⟩ := Nat.exists_eq_add_one_of_ne_zero (Nat.ne_zero_of_lt hfuel)
    rw [items]
    exact bind_ok (nextItem_close false (blanks_lineBreak l depth'))
  | cons a as ih =>
    obtain ⟨fuel, rfl⟩ := Nat.exists_eq_add_one_of_ne_zero (Nat.ne_zero_of_lt hfuel)
    obtain ⟨c, t, hwrite, hopens⟩ := write_opens (f a) l depth
    have hitem := has a (List.mem_cons_self ..) l depth [] _ blanks_nil
      (closed_writeItems l depth depth' (as.map f) s)
    have hrest := ih (fun a ha => has a (List.mem_cons_of_mem _ ha)) (Nat.lt_of_succ_lt_succ hfuel)
    rw [List.nil_append, hwrite, List.cons_append] at hitem
    rw [List.map_cons, writeItems, hwrite]
    simp only [List.cons_append, List.append_assoc]
    exact items_step (nextItem_comma (blanks_lineBreak l depth) hopens) hitem hrest

theorem reads_list {r : Reader α} {f : α → Json} {as : List α} (has : ∀ a ∈ as, Reads r (f a) a) :
    Reads (list r) (.array (as.map f)) as := by
  intro l depth blanks s hb _
  have hlist : ∀ t, items r true (t.length + 1) t = .ok (as, ']' :: s) →
      list r (blanks ++ '[' :: t) = .ok (as, s) := by
    intro t ht
    have hend : endList (']' :: s) = .ok ((), s) := rfl
    rw [list, bind_ok (peekValue_blanks hb (by decide)), if_pos rfl, inList,
      bind_ok (skip_cons ..)]
    exact enclosed_ok ht hend
  -- only the first item has no comma in front of it
  cases as with
  | nil =>
    rw [List.map_nil, write, List.cons_append, List.cons_append, List.nil_append]
    apply hlist
    rw [items]
    exact bind_ok (nextItem_close true blanks_nil)
  | cons a as =>
    obtain ⟨c, t, hwrite, hopens⟩ := write_opens (f a) l (depth + 1)
    have hitem := has a (List.mem_cons_self ..) l (depth + 1) [] _ blanks_nil
      (closed_writeItems l (depth + 1) depth (as.map f) s)
    -- there is a comma for every further item, so the fuel lasts
    have hlength := length_le_writeItems l (depth + 1) (as.map f)
    rw [List.nil_append, hwrite, List.cons_append] at hitem
    rw [List.map_cons, write, hwrite]
    simp only [List.cons_append, List.append_assoc, List.nil_append]
    apply hlist
    refine items_step (nextItem_first (blanks_lineBreak l (depth + 1)) hopens) hitem
      (items_writeItems (fun a ha => has a (List.mem_cons_of_mem _ ha)) l (depth + 1) depth s ?_)
    simp only [List.length_append, List.length_cons, List.length_map] at hlength ⊢
    omega

/-! ## Records -/

theorem colon_layout (l : Layout) (s : List Char) :
    ∃ blanks, Blanks blanks ∧ Reader.colon (l.colon ++ s) = .ok ((), blanks ++ s) := by
  cases l with
  | compact => exact ⟨[], blanks_nil, rfl⟩
  | indented => exact ⟨[' '], by decide, rfl⟩

theorem nextName_close {blanks s : List Char} (first : Bool) (hb : Blanks blanks) :
    nextName first (blanks ++ '\x7d' :: s) = .ok (none, '\x7d' :: s) := by
  rw [nextName, bind_ok (peek_blanks hb (by decide))]
  rfl

theorem some_stringBody_quote (name : String) (s : List Char) :
    (do skip; return some (← stringBody) : Reader (Option String)) (quote name ++ s) =
      .ok (some name, s) := by
  rw [quote_append, bind_ok (skip_cons ..), bind_ok (stringBody_quote name)]
  rfl

theorem peek_quote {blanks : List Char} (hb : Blanks blanks) (name : String) (s : List Char) :
    peek (blanks ++ (quote name ++ s)) = .ok (some '"', quote name ++ s) :=
  peek_blanks hb (by decide)

theorem nextName_first {blanks : List Char} (hb : Blanks blanks) (name : String) (s : List Char) :
    nextName true (blanks ++ (quote name ++ s)) = .ok (some name, s) := by
  rw [nextName, bind_ok (peek_quote hb name s)]
  exact some_stringBody_quote name s

theorem nextName_comma {blanks : List Char} (hb : Blanks blanks) (name : String) (s : List Char) :
    nextName false (',' :: (blanks ++ (quote name ++ s))) = .ok (some name, s) := by
  have hcomma : peek (',' :: (blanks ++ (quote name ++ s))) =
      .ok (some ',', ',' :: (blanks ++ (quote name ++ s))) := rfl
  rw [nextName, bind_ok hcomma]
  refine (bind_ok (skip_cons ..)).trans ?_
  rw [bind_ok (peek_quote hb name s)]
  exact some_stringBody_quote name s

namespace Record

def Recovers : {α : Type} → Record α → α → Prop
  | _, done, _ => True
  | _, field _ codec _ rest, (a, b) => codec.Recovers a ∧ rest.Recovers b

/-- The slots when the first `n` fields have been read. -/
def filled : {α : Type} → (r : Record α) → α → Nat → r.Slots
  | _, r, _, 0 => r.empty
  | _, done, _, _ => ()
  | _, field _ _ _ rest, (a, b), n + 1 => (some a, rest.filled b n)

theorem filled_zero (r : Record α) (a : α) : r.filled a 0 = r.empty := by
  cases r <;> rfl

theorem names_members (r : Record α) (a : α) : (r.members a).map Prod.fst = r.names := by
  induction r with
  | done => rfl
  | field name codec fallback rest ih => simp [members, names, ih]

theorem complete_filled (r : Record α) (a : α) {n : Nat} (hn : r.names.length ≤ n) :
    r.complete (r.filled a n) = .ok a := by
  induction r generalizing n with
  | done => rfl
  | field name codec fallback rest ih =>
    cases n with
    | zero => cases hn
    | succ n =>
      obtain ⟨a, b⟩ := a
      have hrest := ih b (Nat.le_of_succ_le_succ hn)
      change (rest.complete (rest.filled b n)).map (a, ·) = .ok (a, b)
      rw [hrest]
      rfl

theorem readField_own {key : String} {codec : Codec α} {fallback : Option α} {rest : Record β}
    (unknown : Reader Unit) (slots : rest.Slots) :
    (field key codec fallback rest).readField key unknown (none, slots) =
      (do Reader.colon; return (some (← codec.read), slots)) :=
  if_pos rfl

theorem readField_other {name key : String} {codec : Codec α} {fallback : Option α}
    {rest : Record β} (unknown : Reader Unit) (slot : Option α) (slots : rest.Slots)
    (h : name ≠ key) : (field key codec fallback rest).readField name unknown (slot, slots) =
      (do return (slot, ← rest.readField name unknown slots)) :=
  if_neg h

/-- The member that is awaited fills its slot. -/
theorem readField_filled {r : Record α} {a : α} {n : Nat} {name : String} {j : Json}
    {ms : List (String × Json)} {s : List Char} (hnames : r.names.Nodup) (ha : r.Recovers a)
    (hn : (r.members a).drop n = (name, j) :: ms) (unknown : Reader Unit) (l : Layout)
    (depth : Nat) (hs : Closed s) :
    r.readField name unknown (r.filled a n) (l.colon ++ (j.write l depth ++ s)) =
      .ok (r.filled a (n + 1), s) := by
  induction r generalizing n with
  | done =>
    rw [members, List.drop_nil] at hn
    cases hn
  | field key codec fallback rest ih =>
    obtain ⟨a, b⟩ := a
    cases n with
    | zero =>
      obtain ⟨hhead, -⟩ := List.cons.inj hn
      obtain ⟨rfl, rfl⟩ := Prod.mk.inj hhead
      obtain ⟨blanks, hblanks, hcolon⟩ := colon_layout l ((codec.write a).write l depth ++ s)
      have hvalue := ha.1 l depth blanks s hblanks hs
      have hfilled : (field key codec fallback rest).filled (a, b) 1 = (some a, rest.empty) :=
        congrArg (some a, ·) (filled_zero rest b)
      rw [hfilled]
      exact (congrFun (readField_own unknown rest.empty) _).trans
        ((bind_ok hcolon).trans (bind_ok hvalue))
    | succ n =>
      -- the slot of this field is filled, and no member that is still to come has its name
      rw [names, List.nodup_cons] at hnames
      have hmem : name ∈ rest.names := by
        have hdrop : (rest.members b).drop n = (name, j) :: ms := hn
        have hmember : (name, j) ∈ rest.members b := by
          apply List.mem_of_mem_drop (i := n)
          rw [hdrop]
          exact List.mem_cons_self ..
        rw [← names_members rest b]
        exact List.mem_map_of_mem hmember
      have hkey : name ≠ key := fun h => hnames.1 (h ▸ hmem)
      exact (congrFun (readField_other unknown (some a) (rest.filled b n) hkey) _).trans
        (bind_ok (ih hnames.2 ha.2 hn))

theorem readMembers_step {r : Record α} {strict first : Bool} {slots slots' : r.Slots}
    {name : String} {s t t' : List Char} {fuel : Nat}
    (hnext : nextName first s = .ok (some name, t))
    (hfield : ∀ unknown, r.readField name unknown slots t = .ok (slots', t')) :
    r.readMembers strict first slots (fuel + 1) s = r.readMembers strict false slots' fuel t' := by
  rw [readMembers, bind_ok hnext]
  exact bind_ok (hfield _)

theorem readMembers_writeMembers {r : Record α} {a : α} (hnames : r.names.Nodup)
    (ha : r.Recovers a) (strict : Bool) (l : Layout) (depth depth' : Nat) (s : List Char)
    {ms : List (String × Json)} {n fuel : Nat} (hn : (r.members a).drop n = ms)
    (hfuel : ms.length < fuel) :
    r.readMembers strict false (r.filled a n) fuel
        (writeMembers l depth ms ++ (l.lineBreak depth' ++ '\x7d' :: s)) =
      .ok (r.filled a (n + ms.length), '\x7d' :: s) := by
  induction ms generalizing n fuel with
  | nil =>
    obtain ⟨fuel, rfl⟩ := Nat.exists_eq_add_one_of_ne_zero (Nat.ne_zero_of_lt hfuel)
    rw [readMembers]
    exact bind_ok (nextName_close false (blanks_lineBreak l depth'))
  | cons m ms ih =>
    obtain ⟨fuel, rfl⟩ := Nat.exists_eq_add_one_of_ne_zero (Nat.ne_zero_of_lt hfuel)
    obtain ⟨name, j⟩ := m
    have hnext : (r.members a).drop (n + 1) = ms := by
      rw [← List.tail_drop, hn, List.tail_cons]
    have hrest := ih hnext (Nat.lt_of_succ_lt_succ hfuel)
    have hfield := fun unknown => readField_filled hnames ha hn unknown l depth
      (closed_writeMembers l depth depth' ms s)
    rw [writeMembers]
    simp only [List.cons_append, List.append_assoc]
    rw [readMembers_step (nextName_comma (blanks_lineBreak l depth) name _) hfield, hrest,
      List.length_cons, Nat.add_right_comm, Nat.add_assoc]

theorem reads {r : Record α} {a : α} (hnames : r.names.Nodup) (ha : r.Recovers a) (title : String)
    (strict : Bool) : Reads (r.read title strict) (.object (r.members a)) a := by
  intro l depth blanks s hb _
  have hcount : (r.members a).length = r.names.length := by
    rw [← names_members r a, List.length_map]
  have hobject : ∀ t, r.readMembers strict true (r.filled a 0) (t.length + 1) t =
      .ok (r.filled a (r.members a).length, '\x7d' :: s) →
      r.read title strict (blanks ++ '\x7b' :: t) = .ok (a, s) := by
    intro t ht
    have hend : endObject ('\x7d' :: s) = .ok ((), s) := rfl
    have hcomplete := complete_filled r a (Nat.le_of_eq hcount.symm)
    rw [read, bind_ok (peekValue_blanks hb (by decide))]
    refine (bind_ok (skip_cons ..)).trans (enclosed_ok ?_ hend)
    rw [filled_zero] at ht
    rw [bind_ok ht, hcomplete]
    rfl
  cases hms : r.members a with
  | nil =>
    rw [write, List.cons_append, List.cons_append, List.nil_append]
    apply hobject
    rw [readMembers, hms]
    exact bind_ok (nextName_close true blanks_nil)
  | cons m ms =>
    obtain ⟨name, j⟩ := m
    have hnext : (r.members a).drop 1 = ms := by rw [hms, List.drop_one, List.tail_cons]
    have hfield := fun unknown => readField_filled (n := 0) hnames ha hms unknown l (depth + 1)
      (closed_writeMembers l (depth + 1) depth ms s)
    have hlength := length_le_writeMembers l (depth + 1) ms
    rw [write]
    simp only [List.cons_append, List.append_assoc, List.nil_append]
    apply hobject
    rw [readMembers_step (nextName_first (blanks_lineBreak l (depth + 1)) name _) hfield,
      readMembers_writeMembers hnames ha strict l (depth + 1) depth s hnext, hms, List.length_cons,
      Nat.add_comm]
    simp only [List.length_append, List.length_cons]
    omega

end Record

/-! ## Codecs -/

namespace Codec

theorem string_recovers (s : String) : Codec.string.Recovers s := reads_string _ s

theorem bool_recovers (b : Bool) : Codec.bool.Recovers b := reads_bool b

theorem natural_recovers {n largest : Nat} (title : String) (hn : n ≤ largest)
    (hlargest : largest ≤ largest64) : (Codec.natural largest title).Recovers n :=
  reads_natural title hn hlargest

theorem choice_recovers {name : α → String} {known : List (String × α)} {a : α}
    (h : known.lookup (name a) = some a) : (Codec.choice name known).Recovers a :=
  reads_choice h

theorem optional_recovers {c : Codec α} {o : Option α}
    (h : ∀ a ∈ o, c.write a ≠ .null ∧ c.Recovers a) : (Codec.optional c).Recovers o := by
  cases o with
  | none => exact reads_none c.read
  | some a =>
    obtain ⟨hnull, ha⟩ := h a rfl
    exact reads_some hnull ha

theorem list_recovers {c : Codec α} {as : List α} (has : ∀ a ∈ as, c.Recovers a) :
    (Codec.list c).Recovers as :=
  reads_list has

theorem record_recovers {title : String} {strict : Bool} {r : Record β} {make : β → α}
    {fields : α → β} {a : α} (hnames : r.names.Nodup) (ha : r.Recovers (fields a))
    (hmake : make (fields a) = a) : (Codec.record title strict r make fields).Recovers a := by
  intro l depth blanks s hb hs
  have hread : (do return make (← r.read title strict) : Reader α)
      (blanks ++ ((Json.object (r.members (fields a))).write l depth ++ s)) =
      .ok (make (fields a), s) :=
    bind_ok (Record.reads hnames ha title strict l depth blanks s hb hs)
  rw [hmake] at hread
  exact hread

/-- A text that holds a value, and blanks behind it, is read as the value. -/
theorem decode_of_recovers {c : Codec α} {a : α} (h : c.Recovers a) (l : Layout)
    {text : String} {blanks : List Char} (hb : Blanks blanks)
    (htext : text.toList = (c.write a).write l 0 ++ blanks) : c.decode text = .ok a := by
  have hread : c.read text.toList = .ok (a, blanks) := by
    rw [htext]
    exact h l 0 [] blanks blanks_nil (closed_of_blanks hb)
  have hpeek : peek blanks = .ok (none, []) := by
    have hdrop : blanks.dropWhile isSpace = [] := List.dropWhile_eq_nil_iff.mpr hb
    simp only [peek, hdrop, List.head?_nil]
  have hend : c.decode text = (Except.ok (a, [])).map Prod.fst :=
    congrArg (Except.map Prod.fst) ((bind_ok hread).trans (bind_ok hpeek))
  exact hend

theorem decode_encode {c : Codec α} {a : α} (h : c.Recovers a) (l : Layout) :
    c.decode (c.encode l a) = .ok a := by
  apply decode_of_recovers h l blanks_nil
  rw [encode, render, String.toList_ofList, List.append_nil]

end Codec

end DocDrift.Json
