import RefBook.Proofs.Text.Lines
import RefBook.Proofs.Text.Trimming

/-!
# RefBook.Proofs.Text.Words — blank space between words

* `words_across_blank`: blank space divides a text into the words before it and those behind it, however
  much of it there is; so at either end of a text it leaves the words as they are.
* `words_of_not_blank`: without blank space there is one word, unless the text is empty.
-/

namespace RefBook

open Unicode (isWhiteSpace)

variable {t b : Text} {c : Char}

theorem words_eq (t : Text) : words t = filled (t.splitOnP isWhiteSpace) := rfl

theorem words_append_cons (hc : isWhiteSpace c = true) (s t : Text) :
    words (s ++ c :: t) = words s ++ words t := by
  rw [words_eq, List.splitOnP_append_cons s t hc, filled_append, words_eq, words_eq]

theorem words_blank_append (hb : isBlank b = true) (t : Text) : words (b ++ t) = words t := by
  induction b with
  | nil => rfl
  | cons c b ih =>
    obtain ⟨hc, hrest⟩ := List.forall_mem_cons.mp (forall_mem_of_isBlank hb)
    have hfront := words_append_cons hc [] (b ++ t)
    rw [List.nil_append] at hfront
    rw [List.cons_append, hfront, ih (List.all_eq_true.mpr hrest)]
    rfl

/-- Blank space divides the words of a text. -/
theorem words_across_blank (hb : isBlank b = true) (hne : b ≠ []) (s t : Text) :
    words (s ++ b ++ t) = words s ++ words t := by
  obtain ⟨c, b, rfl⟩ := List.exists_cons_of_ne_nil hne
  obtain ⟨hc, hrest⟩ := List.forall_mem_cons.mp (forall_mem_of_isBlank hb)
  rw [List.append_assoc, List.cons_append, words_append_cons hc,
    words_blank_append (List.all_eq_true.mpr hrest)]

theorem words_append_blank (hb : isBlank b = true) (t : Text) : words (t ++ b) = words t := by
  by_cases hne : b = []
  · rw [hne, List.append_nil]
  · have hacross := words_across_blank hb hne t []
    rwa [List.append_nil, show words [] = [] from rfl, List.append_nil] at hacross

theorem words_of_not_blank (ht : ∀ c ∈ t, isWhiteSpace c = false) : words t = filled [t] := by
  rw [words_eq, List.splitOnP_eq_singleton ht]

end RefBook
