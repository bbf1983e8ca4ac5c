import Mathlib.Data.List.TakeWhile
import RefBook.Text.Blank

/-!
# RefBook.Proofs.Text.Trimming — blank space at the ends of a text

* `trim_append_of_blank`, `trim_blank_append`: blank space put at an end goes again.
* `trimEnd_append_of_not_blank`, `trim_cons_of_not_blank`: trimming stops at what is not blank.
* `trim_eq_self_iff`: nothing is trimmed exactly where neither end is blank.
-/

namespace RefBook

open Unicode (isWhiteSpace)

variable {b t : Text} {c : Char}

theorem forall_mem_of_isBlank (h : isBlank b = true) : ∀ c ∈ b, isWhiteSpace c = true :=
  List.all_eq_true.mp h

theorem isBlank_reverse (t : Text) : isBlank t.reverse = isBlank t := by
  rw [isBlank, List.all_reverse, isBlank]

/-! ## Blank ends -/

theorem trimStart_blank_append (h : isBlank b = true) (t : Text) :
    trimStart (b ++ t) = trimStart t :=
  List.dropWhile_append_of_pos (forall_mem_of_isBlank h)

theorem trimEnd_append_of_blank (h : isBlank b = true) (t : Text) :
    trimEnd (t ++ b) = trimEnd t := by
  rw [← isBlank_reverse] at h
  rw [trimEnd, List.reverse_append, trimStart_blank_append h, trimEnd]

theorem trim_blank_append (h : isBlank b = true) (t : Text) : trim (b ++ t) = trim t := by
  rw [trim, trimStart_blank_append h, trim]

theorem trim_append_of_blank (h : isBlank b = true) (t : Text) : trim (t ++ b) = trim t := by
  have happend : trimStart (t ++ b)
      = if (trimStart t).isEmpty then trimStart b else trimStart t ++ b :=
    List.dropWhile_append
  rw [trim, happend, trim]
  split
  · next hnil => rw [trimStart_eq_nil_iff.mpr h, List.isEmpty_iff.mp hnil]
  · exact trimEnd_append_of_blank h _

/-- What is trimmed from the end is blank. -/
theorem exists_eq_trimEnd_append (t : Text) : ∃ b, isBlank b = true ∧ t = trimEnd t ++ b := by
  refine ⟨(t.reverse.takeWhile isWhiteSpace).reverse, ?_, ?_⟩
  · rw [isBlank_reverse]
    exact List.all_eq_true.mpr fun c hc => List.mem_takeWhile_imp hc
  · have hcut : t.reverse.takeWhile isWhiteSpace ++ trimStart t.reverse = t.reverse :=
      List.takeWhile_append_dropWhile
    rw [trimEnd, ← List.reverse_append, hcut, List.reverse_reverse]

theorem mem_of_mem_trim (h : c ∈ trim t) : c ∈ t := by
  obtain ⟨b, -, hb⟩ := exists_eq_trimEnd_append (trimStart t)
  have hstart : c ∈ trimStart t := by
    rw [hb]
    exact List.mem_append_left b h
  exact (List.dropWhile_sublist _).subset hstart

/-! ## Where trimming stops -/

theorem trimStart_cons_of_not_blank (h : isWhiteSpace c = false) : trimStart (c :: t) = c :: t := by
  simp [trimStart, h]

theorem trimEnd_cons_of_not_blank (h : isWhiteSpace c = false) :
    trimEnd (c :: t) = c :: trimEnd t := by
  unfold trimEnd trimStart
  rw [List.reverse_cons, List.dropWhile_append]
  split
  · next hnil => simp [List.isEmpty_iff.mp hnil, h]
  · simp

theorem trim_cons_of_not_blank (h : isWhiteSpace c = false) : trim (c :: t) = c :: trimEnd t := by
  rw [trim, trimStart_cons_of_not_blank h, trimEnd_cons_of_not_blank h]

theorem trimEnd_append_of_not_blank (h : isBlank t = false) (u : Text) :
    trimEnd (u ++ t) = u ++ trimEnd t := by
  have hleft : (trimStart t.reverse).isEmpty = false := by
    rw [List.isEmpty_eq_false_iff]
    intro hnil
    rw [trimStart_eq_nil_iff, isBlank_reverse, h] at hnil
    contradiction
  have happend : trimStart (t.reverse ++ u.reverse) = trimStart t.reverse ++ u.reverse := by
    rw [trimStart, List.dropWhile_append, ← trimStart, hleft]
    rfl
  rw [trimEnd, List.reverse_append, happend, List.reverse_append, List.reverse_reverse, trimEnd]

/-! ## Texts without blank ends -/

theorem trimStart_eq_self_iff :
    trimStart t = t ↔ ∀ c, t.head? = some c → isWhiteSpace c = false := by
  cases t with
  | nil => simp [trimStart]
  | cons c r =>
    rw [List.head?_cons]
    constructor
    · intro h d hd
      obtain rfl := Option.some.inj hd
      have hhead := List.head?_dropWhile_not isWhiteSpace (c :: r)
      rw [show (c :: r).dropWhile isWhiteSpace = c :: r from h] at hhead
      exact hhead
    · intro h
      exact trimStart_cons_of_not_blank (h c rfl)

theorem trimEnd_eq_self_iff :
    trimEnd t = t ↔ ∀ c, t.getLast? = some c → isWhiteSpace c = false := by
  rw [trimEnd, List.reverse_eq_iff, trimStart_eq_self_iff, List.head?_reverse]

/-- Nothing is trimmed exactly where neither end is blank. -/
theorem trim_eq_self_iff :
    trim t = t ↔ (∀ c, t.head? = some c → isWhiteSpace c = false)
      ∧ ∀ c, t.getLast? = some c → isWhiteSpace c = false := by
  rw [← trimStart_eq_self_iff, ← trimEnd_eq_self_iff]
  constructor
  · intro h
    have hend : (trim t).length ≤ (trimStart t).length := by
      obtain ⟨b, -, hb⟩ := exists_eq_trimEnd_append (trimStart t)
      have hlength := congrArg List.length hb
      rw [List.length_append, ← trim] at hlength
      omega
    have hstart : trimStart t = t := by
      have hsuffix : trimStart t <:+ t := List.dropWhile_suffix _
      apply hsuffix.eq_of_length_le
      rw [h] at hend
      exact hend
    refine ⟨hstart, ?_⟩
    rwa [trim, hstart] at h
  · rintro ⟨hstart, hend⟩
    rw [trim, hstart, hend]

end RefBook
