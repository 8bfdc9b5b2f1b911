import DocDrift.Json.Codec
import DocDrift.Proofs.Diff.Numbers
import Mathlib.Tactic.SplitIfs

/-!
# Strings and numbers read back

What a reader takes from the front of a text depends on that text alone and on how it may go on. A
string ends at its closing quote, so anything may follow it; a number ends where no digit, point or
exponent follows.
-/

namespace DocDrift.Json

open Reader

namespace Reader
variable {α β : Type} {s s' : List Char} {a : α}

/-- A reader goes on where the one before it has stopped. -/
theorem bind_ok {r : Reader α} {f : α → Reader β} (h : r s = .ok (a, s')) :
    (r >>= f) s = f a s' := by
  change (r s >>= fun p => f p.1 p.2) = f a s'
  rw [h]
  rfl

theorem settled_ok {r : Reader α} (h : r s = .ok (a, s')) : settled r s = .ok (a, s') := by
  simp only [settled, h]

theorem skip_cons (c : Char) (s : List Char) : skip (c :: s) = .ok ((), s) := rfl

/-! ## Blanks -/

def Blanks (s : List Char) : Prop := ∀ c ∈ s, isSpace c = true

instance (s : List Char) : Decidable (Blanks s) := List.decidableBAll _ s

theorem blanks_nil : Blanks [] := nofun

theorem blanks_lineBreak (l : Layout) (depth : Nat) : Blanks (l.lineBreak depth) := by
  cases l with
  | compact => exact blanks_nil
  | indented =>
    intro c hc
    simp only [Layout.lineBreak, List.mem_cons, List.mem_replicate] at hc
    rcases hc with rfl | ⟨-, rfl⟩ <;> decide

theorem peek_blanks {blanks : List Char} (hb : Blanks blanks) {c : Char} (hc : isSpace c = false) :
    peek (blanks ++ c :: s) = .ok (some c, c :: s) := by
  have hdrop : (blanks ++ c :: s).dropWhile isSpace = c :: s := by
    rw [List.dropWhile_append_of_pos hb, List.dropWhile_cons_of_neg (by simp [hc])]
  simp only [peek, hdrop, List.head?_cons]

theorem peekValue_blanks {blanks : List Char} (hb : Blanks blanks) {c : Char}
    (hc : isSpace c = false) : peekValue (blanks ++ c :: s) = .ok (c, c :: s) := by
  rw [peekValue, bind_ok (peek_blanks hb hc)]
  rfl

theorem wordRest_append (word : List Char) : wordRest word (word ++ s) = .ok ((), s) := by
  induction word with
  | nil => rfl
  | cons c word ih => simpa [wordRest] using ih

/-! ## Strings -/

theorem hexFault?_of_isHex {a b c d : Char} (ha : isHex a = true) (hb : isHex b = true)
    (hc : isHex c = true) (hd : isHex d = true) : hexFault? (a :: b :: c :: d :: s) = none := by
  have hsize : ∀ c : Char, 1 ≤ c.utf8Size := Char.utf8Size_pos
  have ha' := hsize a
  have hb' := hsize b
  have hc' := hsize c
  have hd' := hsize d
  have hoctets : ¬ Text.octets (a :: b :: c :: d :: s) < 4 := by
    simp only [Text.octets]
    omega
  have htake : 4 ≤ ((a :: b :: c :: d :: s).takeWhile isHex).length := by
    simp [ha, hb, hc, hd]
  rw [hexFault?, if_neg hoctets, if_pos htake]

theorem hexDigit_spec : ∀ n < 16, isHex (hexDigit n) = true ∧ hexValue (hexDigit n) = n := by
  decide

theorem stringFrom_silent {state next : StringState} {c : Char}
    (hstep : stringStep state c s = .ok (some (none, next))) :
    stringFrom state (c :: s) = stringFrom next s := by
  simp only [stringFrom, hstep]
  cases stringFrom next s <;> rfl

theorem stringFrom_heard {state next : StringState} {c d : Char} {out : List Char}
    (hstep : stringStep state c s = .ok (some (some d, next)))
    (h : stringFrom next s = .ok (out, s')) :
    stringFrom state (c :: s) = .ok (d :: out, s') := by
  simp only [stringFrom, hstep, h, Option.toList_some, List.singleton_append]

theorem stringFrom_simple {c d : Char} {out : List Char} (hd : simpleEscape? d = some c)
    (h : stringFrom .plain s = .ok (out, s')) :
    stringFrom .plain ('\\' :: d :: s) = .ok (c :: out, s') := by
  have hescaped : stringStep .plain '\\' (d :: s) = .ok (some (none, .escaped)) := rfl
  have hheard : stringStep .escaped d s = .ok (some (some c, .plain)) := by
    simp only [stringStep, hd]
  rw [stringFrom_silent hescaped]
  exact stringFrom_heard hheard h

/-- A control character is written by its number in four digits, two of which are zeros. -/
theorem stringFrom_number {c : Char} {out : List Char} (hc : c.toNat < 32)
    (h : stringFrom .plain s = .ok (out, s')) :
    stringFrom .plain ('\\' :: 'u' :: '0' :: '0' :: hexDigit (c.toNat / 16) ::
      hexDigit (c.toNat % 16) :: s) = .ok (c :: out, s') := by
  obtain ⟨hhigh, hhigh'⟩ := hexDigit_spec (c.toNat / 16) (by omega)
  obtain ⟨hlow, hlow'⟩ := hexDigit_spec (c.toNat % 16) (by omega)
  have hfault := hexFault?_of_isHex (s := s) (by decide : isHex '0' = true)
    (by decide : isHex '0' = true) hhigh hlow
  have hescaped : ∀ s, stringStep .plain '\\' s = .ok (some (none, .escaped)) := fun _ => rfl
  have hopen : ∀ s, hexFault? s = none →
      stringStep .escaped 'u' s = .ok (some (none, .digits none 4 0)) := by
    intro s hs
    simp [stringStep, simpleEscape?, hs]
  have hdigit : ∀ (owed value : Nat) (d : Char) (s : List Char), 1 < owed →
      stringStep (.digits none owed value) d s =
        .ok (some (none, .digits none (owed - 1) (16 * value + hexValue d))) := by
    intro owed value d s howed
    simp only [stringStep, Nat.not_le.mpr howed, if_false]
  have hvalue : 16 * (16 * (16 * (16 * 0 + hexValue '0') + hexValue '0') +
      hexValue (hexDigit (c.toNat / 16))) + hexValue (hexDigit (c.toNat % 16)) = c.toNat := by
    have hzero : hexValue '0' = 0 := rfl
    rw [hzero, hhigh', hlow']
    omega
  have hclose : closeDigits none c.toNat = some (some c, .plain) := by
    have htrail : isTrail c.toNat = false := by simp [isTrail]; omega
    have hlead : isLead c.toNat = false := by simp [isLead]; omega
    simp only [closeDigits, htrail, hlead, Bool.false_eq_true, if_false, Char.ofNat_toNat]
  rw [stringFrom_silent (hescaped _), stringFrom_silent (hopen _ hfault),
    stringFrom_silent (hdigit 4 _ _ _ (by decide)), stringFrom_silent (hdigit 3 _ _ _ (by decide)),
    stringFrom_silent (hdigit 2 _ _ _ (by decide))]
  refine stringFrom_heard ?_ h
  simp only [stringStep, Nat.reduceSub, Nat.le_refl, if_true, hvalue, hclose]

/-- The text of one character gives the character back and leaves the reader in its plain state. -/
theorem stringFrom_escapeChar (c : Char) {out : List Char}
    (h : stringFrom .plain s = .ok (out, s')) :
    stringFrom .plain (escapeChar c ++ s) = .ok (c :: out, s') := by
  unfold escapeChar
  split_ifs with h₁ h₂ h₃ h₄ h₅ h₆ h₇ h₈
  · exact stringFrom_simple (by rw [h₁]; rfl) h
  · exact stringFrom_simple (by rw [h₂]; rfl) h
  · exact stringFrom_simple (by rw [h₃]; rfl) h
  · exact stringFrom_simple (by rw [h₄]; rfl) h
  · exact stringFrom_simple (by rw [h₅]; rfl) h
  · exact stringFrom_simple (by rw [h₆]; rfl) h
  · exact stringFrom_simple (by rw [h₇]; rfl) h
  · exact stringFrom_number h₈ h
  · refine stringFrom_heard ?_ h
    simp only [stringStep, h₁, h₂, h₈, if_false]

theorem stringFrom_quote (text : List Char) :
    stringFrom .plain (text.flatMap escapeChar ++ '"' :: s) = .ok (text, s) := by
  induction text with
  | nil => rfl
  | cons c text ih =>
    rw [List.flatMap_cons, List.append_assoc]
    exact stringFrom_escapeChar c ih

theorem quote_append (text : String) (s : List Char) :
    quote text ++ s = '"' :: (text.toList.flatMap escapeChar ++ '"' :: s) := by
  simp [quote]

theorem stringBody_quote (text : String) :
    stringBody (text.toList.flatMap escapeChar ++ '"' :: s) = .ok (text, s) := by
  simp only [stringBody, stringFrom_quote, String.ofList_toList]

/-! ## Numbers -/

/-- A text that does not prolong a number in front of it. -/
def Closed (s : List Char) : Prop :=
  ∀ c ∈ s.head?, c.isDigit = false ∧ c ≠ '.' ∧ c ≠ 'e' ∧ c ≠ 'E'

theorem closed_nil : Closed [] := nofun

theorem closed_cons {c : Char} (hc : c.isDigit = false) (hpoint : c ≠ '.') (he : c ≠ 'e')
    (hE : c ≠ 'E') : Closed (c :: s) := by
  intro d hd
  cases hd
  exact ⟨hc, hpoint, he, hE⟩

theorem eq_zero_of_head?_toDigits {n : Nat} (h : (Nat.toDigits 10 n).head? = some '0') :
    n = 0 := by
  induction n using Nat.strongRecOn with
  | ind n ih =>
    rw [Nat.toDigits_eq_if (by decide)] at h
    split at h
    · simpa [Nat.digitChar_eq_zero] using h
    · next hle =>
      cases hds : Nat.toDigits 10 (n / 10) with
      | nil => exact absurd hds Nat.toDigits_ne_nil
      | cons d ds =>
        rw [hds, List.cons_append, List.head?_cons] at h
        have := ih (n / 10) (by omega) (by rw [hds, List.head?_cons, h])
        omega

theorem digits_append {ds : List Char} (hds : ∀ c ∈ ds, c.isDigit = true) (hs : Closed s) :
    digits (ds ++ s) = .ok (ds, s) := by
  have htake : s.takeWhile Char.isDigit = [] ∧ s.dropWhile Char.isDigit = s := by
    cases s with
    | nil => exact ⟨rfl, rfl⟩
    | cons c s =>
      have hc := (hs c rfl).1
      simp [hc]
  rw [digits, List.takeWhile_append_of_pos hds, List.dropWhile_append_of_pos hds, htake.1, htake.2,
    List.append_nil]

theorem le_ofDigitChars (ds : List Char) (n : Nat) : n ≤ Nat.ofDigitChars 10 ds n := by
  induction ds generalizing n with
  | nil => exact Nat.le.refl
  | cons c ds ih =>
    rw [Nat.ofDigitChars_cons]
    have := ih (10 * n + (c.toNat - '0'.toNat))
    omega

/-- All digits of a number that fits are taken. -/
theorem fitting_eq {ds : List Char} {n : Nat} (h : Nat.ofDigitChars 10 ds n ≤ largest64) :
    fitting n ds = (Nat.ofDigitChars 10 ds n, ds.length, 0) := by
  induction ds generalizing n with
  | nil => rfl
  | cons c ds ih =>
    rw [Nat.ofDigitChars_cons] at h ⊢
    have hfits := Nat.le_trans (le_ofDigitChars ds _) h
    rw [fitting, if_pos hfits, ih h]
    rfl

theorem look_eq : look s = .ok (s.head?, s) := rfl

theorem tail_closed (n : Nat) (hs : Closed s) : number.tail true n 0 s = .ok (.natural n, s) := by
  rw [number.tail, bind_ok look_eq]
  have hpure : (pure (.natural n) : Reader Number) s = .ok (.natural n, s) := rfl
  refine (congrFun ?_ s).trans hpure
  simp only [ne_eq, not_true_eq_false, if_false, if_true]
  split
  · next h => exact absurd rfl (hs '.' h).2.1
  · next h => exact absurd rfl (hs 'e' h).2.2.1
  · next h => exact absurd rfl (hs 'E' h).2.2.2
  · rfl

theorem number_toDigits {n : Nat} (hn : n ≤ largest64) (hs : Closed s) :
    number true (Nat.toDigits 10 n ++ s) = .ok (.natural n, s) := by
  have hall : ∀ c ∈ Nat.toDigits 10 n, c.isDigit = true := fun _ => Text.isDigit_of_mem_toDigits
  have hvalue : Nat.ofDigitChars 10 (Nat.toDigits 10 n) 0 = n := Nat.ofDigitChars_ten_toDigits
  have hzero := eq_zero_of_head?_toDigits (n := n)
  cases hds : Nat.toDigits 10 n with
  | nil => exact absurd hds Nat.toDigits_ne_nil
  | cons d ds =>
    rw [hds] at hall hvalue hzero
    have hd := hall d (List.mem_cons_self ..)
    rw [number, bind_ok look_eq]
    simp only [List.cons_append, List.head?_cons, hd, Bool.not_true, Bool.false_eq_true, if_false]
    split
    · next hd0 =>
      -- only zero itself begins with a zero
      obtain rfl : n = 0 := hzero (by rw [List.head?_cons, hd0])
      have hsingle : d :: ds = ['0'] := hds.symm.trans rfl
      obtain ⟨rfl, rfl⟩ := List.cons.inj hsingle
      have hnext : s.head?.any Char.isDigit = false := by
        cases s with
        | nil => rfl
        | cons c s => exact (hs c rfl).1
      rw [List.nil_append, bind_ok (skip_cons '0' s), bind_ok look_eq, hnext]
      exact tail_closed 0 hs
    · have hfit : fitting 0 (d :: ds) = _ := fitting_eq (by rwa [hvalue])
      rw [← List.cons_append, bind_ok (digits_append hall hs), hfit, hvalue]
      exact tail_closed n hs

theorem isSpace_of_isDigit {c : Char} (h : c.isDigit = true) : isSpace c = false := by
  rw [Bool.eq_false_iff]
  intro hspace
  simp only [isSpace, Bool.or_eq_true, beq_iff_eq] at hspace
  rcases hspace with ((rfl | rfl) | rfl) | rfl <;> cases h

theorem natural_toDigits {n largest : Nat} (expected : String) (hn : n ≤ largest)
    (hlargest : largest ≤ largest64) {blanks : List Char} (hb : Blanks blanks) (hs : Closed s) :
    natural largest expected (blanks ++ (Nat.toDigits 10 n ++ s)) = .ok (n, s) := by
  have hnumber := number_toDigits (Nat.le_trans hn hlargest) hs
  cases hds : Nat.toDigits 10 n with
  | nil => exact absurd hds Nat.toDigits_ne_nil
  | cons d ds =>
    have hd : d.isDigit = true := Text.isDigit_of_mem_toDigits (n := n) (by rw [hds]; simp)
    have hminus : d ≠ '-' := by
      intro hc
      rw [hc] at hd
      cases hd
    rw [hds] at hnumber
    apply settled_ok
    rw [List.cons_append, bind_ok (peekValue_blanks hb (isSpace_of_isDigit hd))]
    simp only [hminus, hd, if_false, if_true]
    rw [← List.cons_append, bind_ok hnumber]
    simp only [hn, if_true]
    rfl

end Reader

end DocDrift.Json
