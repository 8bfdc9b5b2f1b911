import DocDrift.Diff.Header
import DocDrift.Proofs.Path

/-!
# Paths in header lines

The lines that name one side of a section, and those that record a rename, give a path back that
needs no quotes. The line that opens a section names both sides in one text, and its reader takes
what follows the last ` b/` for the new one.
-/

namespace DocDrift.Diff

section
variable {s : List Char}

theorem dropRight_of_getLast?_ne {c : Char} (h : s.getLast? ≠ some c) : dropRight c s = s := by
  unfold dropRight
  have hd : s.reverse.dropWhile (· == c) = s.reverse := by
    rw [← List.head?_reverse] at h
    cases hs : s.reverse with
    | nil => rfl
    | cons d rest =>
      have hd : d ≠ c := by simpa [hs] using h
      rw [List.dropWhile_cons, beq_false_of_ne hd, if_neg (by simp)]
  rw [hd, List.reverse_reverse]

theorem unquoted_of_ends (hfirst : s.head? ≠ some '"') (hlast : s.getLast? ≠ some '"')
    (ht : '\t' ∉ s) : unquoted s = s := by
  unfold unquoted
  have hd : s.dropWhile (· == '"') = s := by
    cases s with
    | nil => rfl
    | cons d rest =>
      have hd : d ≠ '"' := by simpa using hfirst
      rw [List.dropWhile_cons, beq_false_of_ne hd, if_neg (by simp)]
  rw [dropRight_of_getLast?_ne fun h => ht (List.mem_of_getLast? h), hd,
    dropRight_of_getLast?_ne hlast]

theorem unquoted_eq_self (hq : '"' ∉ s) (ht : '\t' ∉ s) : unquoted s = s :=
  unquoted_of_ends (fun h => hq (List.mem_of_head? h)) (fun h => hq (List.mem_of_getLast? h)) ht

end

/-- The end of a line that names a side: nothing, or a tab and what follows it. -/
def stampText : Option (List Char) → List Char
  | none => []
  | some time => '\t' :: time

section
variable {p q : Path}

theorem unquoted_verbatim (h : p.Verbatim) : unquoted p.text.toList = p.text.toList :=
  unquoted_eq_self h.quote_not_mem h.tab_not_mem

theorem takeWhile_stampText {s : List Char} (h : '\t' ∉ s) (stamp : Option (List Char)) :
    (s ++ stampText stamp).takeWhile (· != '\t') = s := by
  have hall : ∀ c ∈ s, (c != '\t') = true := by
    intro c hc
    simp only [bne_iff_ne]
    rintro rfl
    exact h hc
  rw [List.takeWhile_append_of_pos hall]
  cases stamp <;> simp [stampText]

/-- The letter in front of the slash says which side is named. -/
theorem sidePath?_of_last (ht : '\t' ∉ p.text.toList) (hlast : p.text.toList.getLast? ≠ some '"')
    {side : Char} (hside : side = 'a' ∨ side = 'b') (stamp : Option (List Char)) :
    sidePath? (side :: '/' :: (p.text.toList ++ stampText stamp)) = some p := by
  have htab : '\t' ∉ side :: '/' :: p.text.toList := by
    rcases hside with rfl | rfl <;> simp [ht]
  have hfirst : (side :: '/' :: p.text.toList).head? ≠ some '"' := by
    rcases hside with rfl | rfl <;> simp
  have hend : (side :: '/' :: p.text.toList).getLast? ≠ some '"' := by
    rw [List.getLast?_cons_cons, List.getLast?_cons]
    cases h : p.text.toList.getLast? with
    | none => simp
    | some c => simpa [h] using hlast
  have htake := takeWhile_stampText htab stamp
  rw [List.cons_append, List.cons_append] at htake
  unfold sidePath?
  simp only [htake, unquoted_of_ends hfirst hend htab]
  rcases hside with rfl | rfl <;> simp [withoutSide, pathOf]

theorem sidePath?_verbatim (h : p.Verbatim) {side : Char} (hside : side = 'a' ∨ side = 'b')
    (stamp : Option (List Char)) :
    sidePath? (side :: '/' :: (p.text.toList ++ stampText stamp)) = some p :=
  sidePath?_of_last h.tab_not_mem (fun hlast => h.quote_not_mem (List.mem_of_getLast? hlast)) hside
    stamp

def bothNames (p q : Path) : List Char :=
  'a' :: '/' :: (p.text.toList ++ (" b/".toList ++ q.text.toList))

/-- What the reader of the line that opens a section takes for the new path: what follows the last
` b/` in it, or all of it. -/
def lastName (q : Path) : Path :=
  match Text.splitLast " b/".toList q.text.toList with
  | some (_, rest) => ⟨String.ofList rest⟩
  | none => q

theorem bothPaths_bothNames (hq : q.Plain) : (bothPaths (bothNames p q)).2 = some (lastName q) := by
  have htrim : Text.trim (bothNames p q) = bothNames p q := by
    apply Text.trim_eq_self (by decide)
    intro c hc
    obtain ⟨-, d, hd, hblank⟩ := hq.trimmed
    have hlast : (bothNames p q).getLast? = some d := by
      have hq' : q.text.toList.getLast? = some d := hd
      rw [bothNames, ← List.cons_append, ← List.cons_append, List.getLast?_append,
        List.getLast?_append, hq', Option.some_or, Option.some_or]
    rw [bothNames] at hlast
    rw [hlast] at hc
    cases hc
    exact hblank
  have hreverse : " b/".toList.reverse = '/' :: ['b', ' '] := by simp
  have hsplit := Text.splitLast_append hreverse (by decide) ('a' :: '/' :: p.text.toList)
    q.text.toList
  rw [List.cons_append, List.cons_append] at hsplit
  unfold bothPaths lastName
  simp only [htrim]
  rw [bothNames, hsplit]
  cases hlast : Text.splitLast " b/".toList q.text.toList with
  | none => simp [pathOf, unquoted_verbatim hq.verbatim]
  | some r =>
    obtain ⟨before, rest⟩ := r
    have hmem : ∀ c ∈ rest, c ∈ q.text.toList := by
      intro c hc
      rw [Text.splitLast_eq_some hlast]
      simp [hc]
    have hun : unquoted rest = rest :=
      unquoted_eq_self (fun h => hq.quote_not_mem (hmem _ h))
        (fun h => hq.not_mem (by decide) (hmem _ h))
    simp [pathOf, hun]

example : (bothPaths (bothNames ⟨"lib b/f.py"⟩ ⟨"lib b/f.py"⟩)).2 = some ⟨"f.py"⟩ := by decide

end

end DocDrift.Diff
