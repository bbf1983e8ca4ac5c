import RefBook.Proofs.Text.Separators
import RefBook.Text.Lines

/-!
# RefBook.Proofs.Text.Lines — lines behind one another

* `ended`: lines that are all followed by a line feed; `unlines_concat`, `unlines_append`: a text
  from its lines, cut before the last one or anywhere.
* `joined`: texts with a line feed between each two of those that are not empty; `joined_append`: it
  does not matter which of them are joined first.
* `splitOn_unlines`, `lines_unlines_concat`: lines that were put together are found again.
* `endedLines`: the lines of a text behind which a line feed stands; `lines_append`: the lines of a
  text that is cut at a line feed; `filled_endedLines`: but for empty ones they are the lines of the
  text itself.
* `newline_not_mem_of_mem_lines`: a line holds no line feed.
-/

namespace RefBook

/-! ## Lines with their ends -/

/-- The lines, each with a line feed behind it. -/
def ended (ls : List Text) : Text :=
  ls.flatMap (· ++ ['\n'])

@[simp] theorem ended_nil : ended [] = [] := rfl

@[simp] theorem ended_cons (l : Text) (ls : List Text) :
    ended (l :: ls) = l ++ '\n' :: ended ls := by
  simp [ended]

@[simp] theorem ended_append (ls ks : List Text) : ended (ls ++ ks) = ended ls ++ ended ks :=
  List.flatMap_append

/-- Only the last line of a text has no line feed. -/
theorem unlines_concat (ls : List Text) (last : Text) :
    unlines (ls ++ [last]) = ended ls ++ last := by
  induction ls with
  | nil => simp [unlines]
  | cons l ls ih =>
    obtain ⟨k, ks, hks⟩ := List.exists_cons_of_ne_nil (l := ls ++ [last]) (by simp)
    rw [List.cons_append, hks, unlines, List.intercalate_cons_cons, ← unlines, ← hks, ih,
      ended_cons]
    simp

theorem unlines_append {ls ks : List Text} (hls : ls ≠ []) (hks : ks ≠ []) :
    unlines (ls ++ ks) = unlines ls ++ '\n' :: unlines ks := by
  obtain ⟨l, ls, rfl⟩ := List.exists_cons_of_ne_nil hls
  obtain ⟨k, ks, rfl⟩ := List.exists_cons_of_ne_nil hks
  rw [List.cons_append, unlines_cons, unlines_cons, unlines_cons, List.flatMap_append,
    List.flatMap_cons]
  simp only [List.append_assoc, List.cons_append]

/-! ## Texts of which something is left -/

/-- The texts that are not empty. -/
def filled (ts : List Text) : List Text :=
  ts.filter fun t => !t.isEmpty

/-- The texts that are not empty, with one line feed between each two of them. -/
def joined (ts : List Text) : Text :=
  unlines (filled ts)

theorem mem_filled_iff {ts : List Text} {t : Text} : t ∈ filled ts ↔ t ∈ ts ∧ t ≠ [] := by
  simp [filled]

theorem filled_append (ts us : List Text) : filled (ts ++ us) = filled ts ++ filled us :=
  List.filter_append ..

theorem filled_nil_cons (ts : List Text) : filled ([] :: ts) = filled ts := rfl

theorem filled_cons_of_ne_nil {t : Text} (h : t ≠ []) (ts : List Text) :
    filled (t :: ts) = t :: filled ts := by
  simp [filled, h]

theorem filled_singleton_of_ne_nil {t : Text} (h : t ≠ []) : filled [t] = [t] :=
  filled_cons_of_ne_nil h []

theorem filled_eq_self {ts : List Text} (h : ∀ t ∈ ts, t ≠ []) : filled ts = ts := by
  unfold filled
  rw [List.filter_eq_self]
  intro t ht
  simpa using h t ht

theorem joined_singleton (t : Text) : joined [t] = t := by
  by_cases h : t = []
  · rw [h]
    rfl
  · rw [joined, filled_singleton_of_ne_nil h, unlines, List.intercalate_singleton]

/-- Nothing is left of texts only where nothing is left of each. -/
theorem joined_ne_nil {ts : List Text} (h : filled ts ≠ []) : joined ts ≠ [] := by
  obtain ⟨t, us, hts⟩ := List.exists_cons_of_ne_nil h
  have ht : t ∈ filled ts := by rw [hts]; exact List.mem_cons_self
  have hne : t ≠ [] := (mem_filled_iff.mp ht).2
  rw [joined, hts, unlines_cons]
  exact List.append_ne_nil_of_left_ne_nil hne _

/-- Texts may be joined in two parts first. -/
theorem joined_append (ts us : List Text) : joined (ts ++ us) = joined [joined ts, joined us] := by
  have hpair : filled [joined ts, joined us] = filled [joined ts] ++ filled [joined us] :=
    filled_append [_] [_]
  by_cases hts : filled ts = []
  · have hnone : joined ts = [] := by rw [joined, hts]; rfl
    have hleft : filled [joined ts] = [] := by rw [hnone]; rfl
    rw [joined, filled_append, hts, List.nil_append, joined, hpair, hleft, List.nil_append]
    exact (joined_singleton (joined us)).symm
  · by_cases hus : filled us = []
    · have hnone : joined us = [] := by rw [joined, hus]; rfl
      have hright : filled [joined us] = [] := by rw [hnone]; rfl
      rw [joined, filled_append, hus, List.append_nil, joined, hpair, hright, List.append_nil]
      exact (joined_singleton (joined ts)).symm
    · have hleft := filled_singleton_of_ne_nil (joined_ne_nil hts)
      have hright := filled_singleton_of_ne_nil (joined_ne_nil hus)
      calc joined (ts ++ us) = joined ts ++ '\n' :: joined us := by
            rw [joined, filled_append, unlines_append hts hus]
            rfl
        _ = joined [joined ts, joined us] := by
            rw [joined.eq_def [joined ts, joined us], hpair, hleft, hright]
            simp [unlines]

/-! ## Lines of a text that is cut at a line feed -/

/-- Lines without line feeds are the pieces between the line feeds of the text made of them. -/
theorem splitOn_unlines {ls : List Text} (hne : ls ≠ []) (h : ∀ l ∈ ls, '\n' ∉ l) :
    (unlines ls).splitOn '\n' = ls :=
  List.splitOn_intercalate '\n' h hne

theorem splitOn_unlines_append {ls : List Text} (hne : ls ≠ []) (h : ∀ l ∈ ls, '\n' ∉ l)
    (t : Text) : (unlines ls ++ '\n' :: t).splitOn '\n' = ls ++ t.splitOn '\n' := by
  rw [List.splitOn_append_cons_self, splitOn_unlines hne h]

/-- The lines of a text behind which a line feed stands. -/
def endedLines (t : Text) : List Text :=
  (t.splitOn '\n').map dropReturn

theorem linesOfPieces_append (ps : List Text) {qs : List Text} (h : qs ≠ []) :
    linesOfPieces (ps ++ qs) = ps.map dropReturn ++ linesOfPieces qs := by
  induction ps with
  | nil => rfl
  | cons p ps ih =>
    obtain ⟨r, rs, hrs⟩ := List.exists_cons_of_ne_nil (l := ps ++ qs) (by simp [h])
    rw [List.cons_append, hrs, linesOfPieces, ← hrs, ih, List.map_cons, List.cons_append]

/-- Lines that were put together, but for the carriage returns at their ends. -/
theorem lines_unlines_concat {ls : List Text} {last : Text} (h : ∀ l ∈ ls ++ [last], '\n' ∉ l) :
    lines (unlines (ls ++ [last])) = ls.map dropReturn ++ linesOfPieces [last] := by
  have hne : ls ++ [last] ≠ [] := List.append_ne_nil_of_right_ne_nil ls (List.cons_ne_nil _ _)
  rw [lines, splitOn_unlines hne h, linesOfPieces_append ls (List.cons_ne_nil _ _)]

/-- A line feed ends the lines of what stands before it. -/
theorem lines_append (t u : Text) : lines (t ++ '\n' :: u) = endedLines t ++ lines u := by
  rw [lines, List.splitOn_append_cons_self, linesOfPieces_append _ (List.splitOn_ne_nil _ _)]
  rfl

theorem endedLines_of_not_mem {t : Text} (h : '\n' ∉ t) : endedLines t = [dropReturn t] := by
  rw [endedLines, List.splitOn_eq_singleton h, List.map_singleton]

/-- The last piece of a text is what the text ends with. -/
theorem exists_splitOn_eq_concat (t : Text) :
    ∃ ps last, t.splitOn '\n' = ps ++ [last] ∧ t = ended ps ++ last := by
  have hne : t.splitOn '\n' ≠ [] := List.splitOn_ne_nil _ _
  have hcut : (t.splitOn '\n').dropLast ++ [(t.splitOn '\n').getLast hne] = t.splitOn '\n' :=
    List.dropLast_concat_getLast hne
  have ht : unlines (t.splitOn '\n') = t := List.intercalate_splitOn '\n'
  refine ⟨_, _, hcut.symm, ?_⟩
  rw [← unlines_concat, hcut, ht]

/-- A line feed behind a text changes its lines only by an empty one, unless it makes a carriage
return a part of their ends. -/
theorem filled_endedLines {t : Text} (h : t.getLast? ≠ some '\r') :
    filled (endedLines t) = filled (lines t) := by
  obtain ⟨ps, last, hps, ht⟩ := exists_splitOn_eq_concat t
  have hlast : dropReturn last = last := by
    refine if_neg fun hr => h ?_
    rw [ht, List.getLast?_append, hr, Option.some_or]
  rw [endedLines, lines, hps, linesOfPieces_append ps (List.cons_ne_nil _ _), List.map_append,
    filled_append, filled_append, List.map_singleton, hlast]
  congr 1
  by_cases hnil : last = []
  · rw [hnil]
    rfl
  · rw [linesOfPieces, if_neg (by simpa using hnil)]

/-! ## Characters of lines -/

theorem dropReturn_prefix (t : Text) : dropReturn t <+: t := by
  unfold dropReturn
  split
  · exact List.dropLast_prefix t
  · exact List.prefix_rfl

/-- A line begins a piece between line feeds. -/
theorem exists_prefix_of_mem_linesOfPieces {ps : List Text} {l : Text}
    (h : l ∈ linesOfPieces ps) : ∃ p ∈ ps, l <+: p := by
  rcases List.eq_nil_or_concat ps with rfl | ⟨init, last, rfl⟩
  · contradiction
  · rw [List.concat_eq_append] at h ⊢
    rw [linesOfPieces_append init (List.cons_ne_nil _ _), List.mem_append, List.mem_map] at h
    rcases h with ⟨p, hp, rfl⟩ | h
    · exact ⟨p, List.mem_append_left _ hp, dropReturn_prefix p⟩
    · rw [linesOfPieces] at h
      split at h
      · contradiction
      · rw [List.mem_singleton.mp h]
        exact ⟨last, List.mem_append_right _ List.mem_cons_self, List.prefix_rfl⟩

theorem newline_not_mem_of_mem_lines {t l : Text} (h : l ∈ lines t) : '\n' ∉ l := by
  intro hmem
  obtain ⟨p, hp, hbegins⟩ := exists_prefix_of_mem_linesOfPieces h
  exact not_mem_of_mem_splitOn hp (hbegins.subset hmem)

end RefBook
