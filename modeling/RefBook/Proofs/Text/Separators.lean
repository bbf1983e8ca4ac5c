import Mathlib.Data.List.Basic
import RefBook.Text.Basic

/-!
# RefBook.Proofs.Text.Separators — texts in parts

* `mem_and_not_of_mem_splitOnP`: the parts of a text that was cut hold its characters, but no separator.
* `splitOnP_append_of_not`: what is put in front belongs to the first part, unless it holds a separator.
* `eq_or_mem_of_mem_intercalate`, `not_mem_intercalate`: parts that are joined bring no other character
  with them than the separator.
* `intercalate_concat_append`: what is put behind joined parts belongs to the last one.
* `filter_intercalate`: dropping characters other than the separator from joined parts.
-/

namespace RefBook

variable {sep c : Char} {p : Char → Bool}

/-- A character of a part is one of the text, and no separator. -/
theorem mem_and_not_of_mem_splitOnP {t w : Text} (hw : w ∈ t.splitOnP p) (hc : c ∈ w) :
    c ∈ t ∧ p c = false := by
  induction t generalizing w with
  | nil =>
    rw [List.splitOnP_nil, List.mem_singleton] at hw
    rw [hw] at hc
    contradiction
  | cons d t ih =>
    have hlater : ∀ {v : Text}, v ∈ t.splitOnP p → c ∈ v → c ∈ d :: t ∧ p c = false := by
      intro v hv hcv
      exact ⟨List.mem_cons_of_mem d (ih hv hcv).1, (ih hv hcv).2⟩
    rw [List.splitOnP_cons_eq_if_modifyHead] at hw
    by_cases hd : p d = true
    · rw [if_pos hd] at hw
      rcases List.mem_cons.mp hw with rfl | hw
      · contradiction
      · exact hlater hw hc
    · rw [if_neg hd] at hw
      obtain ⟨v, vs, hvs⟩ := List.exists_cons_of_ne_nil (List.splitOnP_ne_nil p t)
      rw [hvs, List.modifyHead_cons] at hw
      rcases List.mem_cons.mp hw with rfl | hw
      · -- the character was put in front of the first part
        rcases List.mem_cons.mp hc with rfl | hc
        · exact ⟨List.mem_cons_self, by simpa using hd⟩
        · exact hlater (hvs ▸ List.mem_cons_self) hc
      · exact hlater (hvs ▸ List.mem_cons_of_mem v hw) hc

theorem not_of_mem_splitOnP {t w : Text} (hw : w ∈ t.splitOnP p) (hc : c ∈ w) : p c = false :=
  (mem_and_not_of_mem_splitOnP hw hc).2

/-- What holds no separator belongs to the first part. -/
theorem splitOnP_append_of_not {w : Text} (hw : ∀ c ∈ w, p c = false) (t : Text) :
    (w ++ t).splitOnP p = (t.splitOnP p).modifyHead (w ++ ·) := by
  induction w with
  | nil => exact (congrFun List.modifyHead_id (t.splitOnP p)).symm
  | cons d w ih =>
    obtain ⟨hd, hw⟩ := List.forall_mem_cons.mp hw
    rw [List.cons_append, List.splitOnP_cons_eq_if_modifyHead, hd, ih hw, List.modifyHead_modifyHead]
    rfl

theorem not_mem_of_mem_splitOn {t w : Text} (hw : w ∈ t.splitOn sep) : sep ∉ w := by
  intro hc
  have hnot := not_of_mem_splitOnP hw hc
  rw [beq_self_eq_true] at hnot
  contradiction

theorem eq_or_mem_of_mem_intercalate {ts : List Text} (h : c ∈ [sep].intercalate ts) :
    c = sep ∨ ∃ t ∈ ts, c ∈ t := by
  cases ts with
  | nil => simp at h
  | cons t ts =>
    rw [intercalate_cons, List.mem_append, List.mem_flatMap] at h
    rcases h with h | ⟨u, hu, h⟩
    · exact Or.inr ⟨t, List.mem_cons_self, h⟩
    · rcases List.mem_cons.mp h with rfl | h
      · exact Or.inl rfl
      · exact Or.inr ⟨u, List.mem_cons_of_mem t hu, h⟩

theorem not_mem_intercalate {ts : List Text} (hsep : c ≠ sep) (h : ∀ t ∈ ts, c ∉ t) :
    c ∉ [sep].intercalate ts := by
  intro hc
  rcases eq_or_mem_of_mem_intercalate hc with hc | ⟨t, ht, hc⟩
  · exact hsep hc
  · exact h t ht hc

/-- What is put behind joined parts belongs to the last one. -/
theorem intercalate_concat_append (ts : List Text) (last t : Text) :
    [sep].intercalate (ts ++ [last]) ++ t = [sep].intercalate (ts ++ [last ++ t]) := by
  cases ts with
  | nil => simp
  | cons u us =>
    rw [List.cons_append, List.cons_append, intercalate_cons, intercalate_cons, List.flatMap_append,
      List.flatMap_append]
    simp

/-- The parts of a text that was cut hold only characters of the text. -/
theorem mem_of_mem_splitOn {t w : Text} (hw : w ∈ t.splitOn sep) (hc : c ∈ w) : c ∈ t :=
  (mem_and_not_of_mem_splitOnP hw hc).1

theorem filter_intercalate (hsep : p sep = true) (ts : List Text) :
    ([sep].intercalate ts).filter p = [sep].intercalate (ts.map fun t => t.filter p) := by
  cases ts with
  | nil => rfl
  | cons t ts =>
    rw [List.map_cons, intercalate_cons, intercalate_cons, List.filter_append, List.filter_flatMap,
      List.flatMap_map]
    simp only [List.filter_cons_of_pos hsep]

end RefBook
