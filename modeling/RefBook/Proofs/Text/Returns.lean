import RefBook.Proofs.Text.Lines
import RefBook.Text.Blank

/-!
# RefBook.Proofs.Text.Returns — carriage returns before line feeds

* `withReturns` puts a carriage return before every line feed, `withoutReturns` drops all of them.
* `lines_withReturns`: the lines of a text do not tell which of the two ends it has.
* `splitOn_withReturns`: what stands between its line feeds does.
* `NoReturns`: texts without a carriage return; `noReturns_lines`: so are the lines of one.
* `trimEnd_withoutReturns`, `isBlank_withoutReturns`: a carriage return is blank, so it may as well
  go first where blank space is looked for or goes.
-/

namespace RefBook

open Unicode (isWhiteSpace)

/-- The text with a carriage return before every line feed. -/
def withReturns (t : Text) : Text :=
  t.flatMap fun c => if c = '\n' then ['\r', '\n'] else [c]

/-- The text without its carriage returns. -/
def withoutReturns (t : Text) : Text :=
  t.filter fun c => c ≠ '\r'

variable {t : Text}

@[simp] theorem withoutReturns_nil : withoutReturns [] = [] := rfl

@[simp] theorem withoutReturns_append (t u : Text) :
    withoutReturns (t ++ u) = withoutReturns t ++ withoutReturns u :=
  List.filter_append ..

theorem withoutReturns_eq_self_iff : withoutReturns t = t ↔ '\r' ∉ t := by
  rw [withoutReturns, List.filter_eq_self]
  simp only [decide_eq_true_eq]
  exact ⟨fun h hr => h _ hr rfl, fun h c hc hr => h (hr ▸ hc)⟩

theorem withoutReturns_reverse (t : Text) :
    withoutReturns t.reverse = (withoutReturns t).reverse :=
  List.filter_reverse ..

theorem withoutReturns_flatMap {α : Type} (f : α → Text) (l : List α) :
    withoutReturns (l.flatMap f) = l.flatMap fun a => withoutReturns (f a) :=
  List.filter_flatMap ..

theorem withoutReturns_unlines (ls : List Text) :
    withoutReturns (unlines ls) = unlines (ls.map withoutReturns) :=
  filter_intercalate (by decide) ls

/-- None of the texts holds a carriage return. -/
def NoReturns (ts : List Text) : Prop :=
  ∀ t ∈ ts, '\r' ∉ t

instance (ts : List Text) : Decidable (NoReturns ts) :=
  inferInstanceAs (Decidable (∀ t ∈ ts, '\r' ∉ t))

theorem map_withoutReturns_eq_self {ts : List Text} (h : NoReturns ts) :
    ts.map withoutReturns = ts := by
  rw [List.map_congr_left fun t ht => withoutReturns_eq_self_iff.mpr (h t ht), List.map_id']

theorem return_not_mem_unlines {ls : List Text} (h : NoReturns ls) : '\r' ∉ unlines ls :=
  not_mem_intercalate (by decide) h

/-- The returns that were put in can be dropped again. -/
theorem withoutReturns_withReturns (h : '\r' ∉ t) : withoutReturns (withReturns t) = t := by
  rw [withReturns, withoutReturns_flatMap]
  induction t with
  | nil => rfl
  | cons c t ih =>
    rw [List.mem_cons, not_or] at h
    rw [List.flatMap_cons, ih h.2]
    by_cases hc : c = '\n'
    · rw [if_pos hc, hc]
      rfl
    · rw [if_neg hc, withoutReturns_eq_self_iff.mpr (by simpa using h.1)]
      rfl

/-! ## Lines -/

/-- The pieces between line feeds with a carriage return before each line feed: the last piece has
none behind it. -/
def endReturns : List Text → List Text
  | [] => []
  | [last] => [last]
  | piece :: next :: more => (piece ++ ['\r']) :: endReturns (next :: more)

theorem endReturns_cons {ps : List Text} (h : ps ≠ []) (p : Text) :
    endReturns (p :: ps) = (p ++ ['\r']) :: endReturns ps := by
  obtain ⟨q, qs, rfl⟩ := List.exists_cons_of_ne_nil h
  rfl

theorem endReturns_modifyHead (c : Char) (ps : List Text) :
    endReturns (ps.modifyHead (c :: ·)) = (endReturns ps).modifyHead (c :: ·) := by
  match ps with
  | [] => rfl
  | [_] => rfl
  | _ :: _ :: _ => rfl

theorem splitOn_withReturns (t : Text) :
    (withReturns t).splitOn '\n' = endReturns (t.splitOn '\n') := by
  induction t with
  | nil => rfl
  | cons c t ih =>
    rw [List.splitOn_cons_eq_if_modifyHead, withReturns, List.flatMap_cons, ← withReturns]
    by_cases hc : c = '\n'
    · rw [if_pos hc, if_pos (by simpa using hc), endReturns_cons (List.splitOn_ne_nil _ _), ← ih]
      have hreturn : '\n' ∉ ['\r'] := by decide
      exact List.splitOn_append_cons_self_of_not_mem hreturn _
    · rw [if_neg hc, if_neg (by simpa using hc), List.singleton_append,
        List.splitOn_cons_eq_if_modifyHead, if_neg (by simpa using hc), ih, endReturns_modifyHead]

theorem dropReturn_concat (t : Text) : dropReturn (t ++ ['\r']) = t := by
  simp [dropReturn]

theorem dropReturn_of_not_mem (h : '\r' ∉ t) : dropReturn t = t :=
  if_neg fun hlast => h (List.mem_of_getLast? hlast)

theorem linesOfPieces_endReturns {ps : List Text} (h : NoReturns ps) :
    linesOfPieces (endReturns ps) = linesOfPieces ps := by
  match ps with
  | [] => rfl
  | [_] => rfl
  | p :: q :: more =>
    have hmore := linesOfPieces_endReturns fun r hr => h r (List.mem_cons_of_mem p hr)
    obtain ⟨r, rs, hrs⟩ : ∃ r rs, endReturns (q :: more) = r :: rs := by
      cases more <;> exact ⟨_, _, rfl⟩
    rw [endReturns, linesOfPieces, ← hmore, hrs, linesOfPieces, dropReturn_concat,
      dropReturn_of_not_mem (h p List.mem_cons_self)]

theorem noReturns_splitOn (h : '\r' ∉ t) : NoReturns (t.splitOn '\n') :=
  fun _ hp hr => h (mem_of_mem_splitOn hp hr)

/-- The lines do not tell whether carriage returns stand at their ends. -/
theorem lines_withReturns (h : '\r' ∉ t) : lines (withReturns t) = lines t := by
  rw [lines, splitOn_withReturns]
  exact linesOfPieces_endReturns (noReturns_splitOn h)

theorem noReturns_lines (h : '\r' ∉ t) : NoReturns (lines t) := by
  intro l hl hr
  obtain ⟨p, hp, hbegins⟩ := exists_prefix_of_mem_linesOfPieces hl
  exact h (mem_of_mem_splitOn hp (hbegins.subset hr))

/-! ## Blank space -/

theorem dropWhile_filter {p q : Char → Bool} (h : ∀ c, p c = false → q c = true) (t : Text) :
    (t.filter p).dropWhile q = (t.dropWhile q).filter p := by
  induction t with
  | nil => rfl
  | cons c t ih =>
    cases hp : p c with
    | false =>
      rw [List.filter_cons_of_neg (by simp [hp]), ih, List.dropWhile_cons_of_pos (h c hp)]
    | true =>
      rw [List.filter_cons_of_pos hp]
      cases hq : q c with
      | false => rw [List.dropWhile_cons_of_neg (by simp [hq]),
          List.dropWhile_cons_of_neg (by simp [hq]), List.filter_cons_of_pos hp]
      | true => rw [List.dropWhile_cons_of_pos hq, List.dropWhile_cons_of_pos hq, ih]

theorem dropWhile_withoutReturns {q : Char → Bool} (h : q '\r' = true) (t : Text) :
    (withoutReturns t).dropWhile q = withoutReturns (t.dropWhile q) := by
  refine dropWhile_filter (fun c hc => ?_) t
  have hr : c = '\r' := by simpa using hc
  rw [hr, h]

theorem trimEnd_withoutReturns (t : Text) :
    trimEnd (withoutReturns t) = withoutReturns (trimEnd t) := by
  rw [trimEnd, trimStart, ← withoutReturns_reverse, dropWhile_withoutReturns (by decide),
    ← withoutReturns_reverse]
  rfl

theorem isBlank_withoutReturns (t : Text) : isBlank (withoutReturns t) = isBlank t := by
  rw [isBlank, withoutReturns, List.all_filter, isBlank]
  refine List.all_congr rfl fun c => ?_
  by_cases hc : c = '\r'
  · rw [hc]
    decide
  · simp [hc]

end RefBook
