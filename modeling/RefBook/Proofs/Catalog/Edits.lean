import Mathlib.Data.List.Basic
import RefBook.Catalog.Suggestion

/-!
# RefBook.Proofs.Catalog.Edits — how few edits turn one text into another

`withinEdits` looks at the first characters of two texts only, and it pays for the characters
between two that are swapped.  An edit may stand anywhere, and a character may be moved many times.
Both say the same:

* `Edit`: one character inserted, deleted or replaced, or two neighbours swapped.
* `Edited n s t`: at most `n` edits, one after the other, lead from `s` to `t`.
* `FirstEdited`: the ways in which the first characters of both texts can be edited first.
* `Edited.firstEdited`: **every** sequence of edits can be rearranged in one of these ways, with no
  more edits.  By induction on the number of edits, by cases on what the last one does.
* `edited_cons_self_iff`, `edited_cons_cons_iff`: hence the recurrence that the test follows.
* `withinEdits_eq_true_iff`, `editDistance?_eq_some_iff`: the test is exact, and so is the distance.
-/

namespace RefBook

/-! ## Edits -/

/-- One edit of a text: at its front, or further on behind the same first character. -/
inductive Edit : Text → Text → Prop
  /-- A character is put in. -/
  | insert (c : Char) (s : Text) : Edit s (c :: s)
  /-- A character is taken out. -/
  | delete (c : Char) (s : Text) : Edit (c :: s) s
  /-- A character is replaced. -/
  | replace (c d : Char) (s : Text) : Edit (c :: s) (d :: s)
  /-- Two neighbours are swapped. -/
  | swap (c d : Char) (s : Text) : Edit (c :: d :: s) (d :: c :: s)
  /-- The edit is further on. -/
  | behind (c : Char) {s t : Text} (h : Edit s t) : Edit (c :: s) (c :: t)

/-- At most `n` edits lead from the first text to the second. -/
inductive Edited : Nat → Text → Text → Prop
  /-- No edit is needed. -/
  | same (n : Nat) (s : Text) : Edited n s s
  /-- One more edit. -/
  | edit {n : Nat} {s t u : Text} (h : Edited n s t) (last : Edit t u) : Edited (n + 1) s u

section Edits

variable {m n : Nat} {c : Char} {s t u : Text}

theorem Edit.symm (h : Edit s t) : Edit t s := by
  induction h with
  | insert c s => exact .delete c s
  | delete c s => exact .insert c s
  | replace c d s => exact .replace d c s
  | swap c d s => exact .swap d c s
  | behind c _ ih => exact .behind c ih

theorem Edit.length_le (h : Edit s t) : t.length ≤ s.length + 1 := by
  induction h with
  | behind c _ ih => simpa using ih
  | _ => simp only [List.length_cons]; omega

namespace Edited

theorem mono (h : Edited m s t) (hmn : m ≤ n) : Edited n s t := by
  induction h generalizing n with
  | same => exact .same n _
  | @edit m s t u _ last ih =>
    cases n with
    | zero => omega
    | succ n => exact (ih (by omega)).edit last

theorem one (h : Edit s t) : Edited 1 s t :=
  (Edited.same 0 s).edit h

theorem trans (h : Edited m s t) (h' : Edited n t u) : Edited (m + n) s u := by
  induction h' with
  | same n t => exact h.mono (by omega)
  | edit _ last ih => exact (ih h).edit last

/-- One edit before others. -/
theorem edit_first (first : Edit s t) (h : Edited n t u) : Edited (n + 1) s u :=
  ((Edited.one first).trans h).mono (by omega)

theorem symm (h : Edited n s t) : Edited n t s := by
  induction h with
  | same n s => exact .same n s
  | edit _ last ih => exact ih.edit_first last.symm

theorem cons (h : Edited n s t) (c : Char) : Edited n (c :: s) (c :: t) := by
  induction h with
  | same n s => exact .same n (c :: s)
  | edit _ last ih => exact ih.edit (last.behind c)

theorem length_le (h : Edited n s t) : t.length ≤ s.length + n := by
  induction h with
  | same => omega
  | edit _ last ih =>
    have := last.length_le
    omega

theorem eq_of_zero (h : Edited 0 s t) : s = t := by
  cases h
  rfl

/-- What stands in front is put in, character by character. -/
theorem insert_append (t : Text) (h : Edited n s u) : Edited (t.length + n) s (t ++ u) := by
  induction t with
  | nil => exact h.mono (by omega)
  | cons c t ih =>
    rw [List.length_cons, List.cons_append]
    exact (ih.edit (.insert c (t ++ u))).mono (by omega)

theorem delete_append (s : Text) (h : Edited n t u) : Edited (s.length + n) (s ++ t) u :=
  (insert_append s h.symm).symm

theorem delete_cons (c : Char) (h : Edited n s t) : Edited (n + 1) (c :: s) t :=
  h.edit_first (.delete c s)

end Edited

/-- A text is put in or taken out as a whole. -/
theorem edited_nil_iff : Edited n [] t ↔ t.length ≤ n := by
  constructor
  · intro h
    simpa using h.length_le
  · intro h
    have hwhole := Edited.insert_append t (.same 0 [])
    rw [List.append_nil] at hwhole
    exact hwhole.mono h

end Edits

/-! ## The first characters -/

/-- What becomes first of the first characters `x` and `y` of two texts, where at most `n` edits
lead from one text to the other. -/
inductive FirstEdited (n : Nat) (x : Char) (s : Text) (y : Char) (t : Text) : Prop
  /-- They agree. -/
  | keep (hxy : x = y) (h : Edited n s t)
  /-- The first is deleted. -/
  | delete {k : Nat} (hk : k + 1 ≤ n) (h : Edited k s (y :: t))
  /-- The second is inserted. -/
  | insert {k : Nat} (hk : k + 1 ≤ n) (h : Edited k (x :: s) t)
  /-- One replaces the other. -/
  | replace {k : Nat} (hk : k + 1 ≤ n) (h : Edited k s t)
  /-- They are swapped, when what stands between was deleted and before what will stand between is
  inserted. -/
  | swap {k : Nat} {s₁ s₂ t₁ t₂ : Text} (hs : s = s₁ ++ y :: s₂) (ht : t = t₁ ++ x :: t₂)
      (hk : s₁.length + t₁.length + k + 1 ≤ n) (h : Edited k s₂ t₂)

section FirstEdited

variable {m n k : Nat} {x y c z : Char} {s t s₁ s₂ t₁ t₂ : Text}

theorem FirstEdited.mono (h : FirstEdited m x s y t) (hmn : m ≤ n) : FirstEdited n x s y t := by
  cases h with
  | keep hxy h => exact .keep hxy (h.mono hmn)
  | delete hk h => exact .delete (by omega) h
  | insert hk h => exact .insert (by omega) h
  | replace hk h => exact .replace (by omega) h
  | swap hs ht hk h => exact .swap hs ht (by omega) h

/-- Another character that is deleted stands behind the first one. -/
theorem FirstEdited.behind_deleted (h : FirstEdited n x s y t) (z : Char) :
    FirstEdited (n + 1) x (z :: s) y t := by
  cases h with
  | keep hxy h => exact .keep hxy (h.delete_cons z)
  | delete hk h => exact .delete (by omega) (h.delete_cons z)
  | insert hk h => exact .insert (by omega) (h.edit_first (.behind x (.delete z s)))
  | replace hk h => exact .replace (by omega) (h.delete_cons z)
  | @swap _ s₁ s₂ t₁ t₂ hs ht hk h =>
    have hzs : z :: s = (z :: s₁) ++ y :: s₂ := by rw [hs, List.cons_append]
    exact .swap hzs ht (by rw [List.length_cons]; omega) h

/-! ### Blocks around one character -/

/-- One text takes the place of another in front of a character that is replaced. -/
theorem Edited.replace_block (h : Edited k s₂ t₂) (s₁ t₁ : Text) (y x : Char) :
    Edited (s₁.length + t₁.length + k + 1) (s₁ ++ y :: s₂) (t₁ ++ x :: t₂) := by
  have hfirst : Edited (k + 1) (y :: s₂) (x :: t₂) := (h.cons y).edit (.replace y x t₂)
  exact (delete_append s₁ (insert_append t₁ hfirst)).mono (by omega)

/-- A character is moved behind a text that takes the place of another. -/
theorem Edited.move_block (h : Edited k s₂ t₂) (s₁ t₁ : Text) (y x : Char) :
    Edited (s₁.length + t₁.length + k + 1) (x :: (s₁ ++ y :: s₂)) (t₁ ++ x :: t₂) := by
  have hrest : Edited (s₁.length + (k + 1)) (s₁ ++ y :: s₂) t₂ :=
    delete_append s₁ (h.delete_cons y)
  exact (insert_append t₁ (hrest.cons x)).mono (by omega)

/-- Two characters are swapped across texts. -/
theorem Edited.swap_block (h : Edited k s₂ t₂) (s₁ t₁ : Text) (x y : Char) :
    Edited (s₁.length + t₁.length + k + 1) (x :: (s₁ ++ y :: s₂)) (y :: (t₁ ++ x :: t₂)) := by
  have hdeleted : Edited s₁.length (x :: (s₁ ++ y :: s₂)) (x :: y :: s₂) :=
    (delete_append s₁ (.same 0 (y :: s₂))).cons x
  have hinserted : Edited (t₁.length + k) (y :: x :: s₂) (y :: (t₁ ++ x :: t₂)) :=
    (insert_append t₁ (h.cons x)).cons y
  exact ((hdeleted.edit (.swap x y s₂)).trans hinserted).mono (by omega)

/-! ### One more edit -/

/-- An edit of a text that holds a character leaves it there between two edited parts; or else the
new text is as near to the second part as if the first were put in with one character more. -/
theorem Edit.around (h : Edit (t₁ ++ x :: t₂) t) :
    (∃ t₁' t₂' j, t = t₁' ++ x :: t₂' ∧ Edited j t₂ t₂' ∧ t₁'.length + j ≤ t₁.length + 1)
      ∨ Edited (t₁.length + 1) t₂ t := by
  induction t₁ generalizing t with
  | nil =>
    cases h with
    | insert d => exact Or.inl ⟨[d], t₂, 0, rfl, .same 0 t₂, by simp⟩
    | delete => exact Or.inr (.same 1 t₂)
    | replace _ d => exact Or.inr (.one (.insert d t₂))
    | swap _ d t₃ => exact Or.inr (.one (.behind d (.insert x t₃)))
    | behind _ h => exact Or.inl ⟨[], _, 1, rfl, .one h, by simp⟩
  | cons c t₁ ih =>
    rw [List.cons_append] at h
    generalize htail : t₁ ++ x :: t₂ = tail at h
    cases h with
    | insert d => exact Or.inl ⟨d :: c :: t₁, t₂, 0, by simp [← htail], .same 0 t₂, by simp⟩
    | delete => exact Or.inl ⟨t₁, t₂, 0, htail.symm, .same 0 t₂, by simp; omega⟩
    | replace _ d => exact Or.inl ⟨d :: t₁, t₂, 0, by simp [← htail], .same 0 t₂, by simp⟩
    | swap _ d t₃ =>
      cases t₁ with
      | nil =>
        -- the character itself comes to the front
        obtain ⟨rfl, rfl⟩ := List.cons_eq_cons.mp htail
        exact Or.inl ⟨[], c :: t₂, 1, rfl, .one (.insert c t₂), by simp⟩
      | cons e t₁ =>
        obtain ⟨rfl, rfl⟩ := List.cons_eq_cons.mp htail
        exact Or.inl ⟨e :: c :: t₁, t₂, 0, rfl, .same 0 t₂, by simp⟩
    | @behind _ _ t' h =>
      rcases ih (htail ▸ h) with ⟨t₁', t₂', j, rfl, hj, hlength⟩ | hnear
      · exact Or.inl ⟨c :: t₁', t₂', j, rfl, hj, by simp only [List.length_cons]; omega⟩
      · exact Or.inr (hnear.edit (.insert c t'))

/-- Sequences of at most `n` edits can be rearranged. -/
def FirstEditedUpTo (n : Nat) : Prop :=
  ∀ m ≤ n, ∀ {x y : Char} {s t : Text}, Edited m (x :: s) (y :: t) → FirstEdited m x s y t

/-- A later edit further on. -/
theorem FirstEdited.edit_behind (h : FirstEdited n x s y t₁) (last : Edit t₁ t) :
    FirstEdited (n + 1) x s y t := by
  cases h with
  | keep hxy h => exact .keep hxy (h.edit last)
  | delete hk h => exact .delete (by omega) (h.edit (last.behind y))
  | insert hk h => exact .insert (by omega) (h.edit last)
  | replace hk h => exact .replace (by omega) (h.edit last)
  | @swap k s₁ s₂ t₁ t₂ hs ht hk h =>
    subst ht
    rcases last.around with ⟨t₁', t₂', j, ht, hj, hlength⟩ | hnear
    · exact .swap hs ht (by omega) (h.trans hj)
    · -- the first character of the source went, so it need not have been moved
      refine .delete (k := s₁.length + (k + (t₁.length + 1))) (by omega) ?_
      rw [hs]
      exact Edited.delete_append s₁ ((h.trans hnear).cons y)

/-- A later edit takes the first character out. -/
theorem FirstEdited.edit_delete (ih : FirstEditedUpTo n)
    (h : FirstEdited n x s c (y :: t)) : FirstEdited (n + 1) x s y t := by
  cases h with
  | keep _ h => exact .delete (by omega) h
  | delete hk h => exact .delete (by omega) (h.edit (.delete c (y :: t)))
  | insert hk h => exact (ih _ (by omega) h).mono (by omega)
  | replace hk h => exact .delete (by omega) h
  | @swap k s₁ s₂ t₁ t₂ hs ht hk h =>
    refine .delete (k := s₁.length + t₁.length + k + 1) (by omega) ?_
    rw [hs, ht]
    exact h.replace_block s₁ t₁ c x

/-- A later edit replaces the first character. -/
theorem FirstEdited.edit_replace (h : FirstEdited n x s c t) : FirstEdited (n + 1) x s y t := by
  cases h with
  | keep _ h => exact .replace (by omega) h
  | delete hk h => exact .delete (by omega) (h.edit (.replace c y t))
  | insert hk h => exact .insert (by omega) h
  | replace hk h => exact .replace (by omega) h
  | @swap k s₁ s₂ t₁ t₂ hs ht hk h =>
    refine .insert (k := s₁.length + t₁.length + k + 1) (by omega) ?_
    rw [hs, ht]
    exact h.move_block s₁ t₁ c x

/-- A character that was kept at the front is swapped behind the next one. -/
theorem FirstEdited.keep_swap (ih : FirstEditedUpTo n) (h : Edited n s (y :: t)) :
    FirstEdited (n + 1) x s y (x :: t) := by
  cases s with
  | nil =>
    rw [edited_nil_iff, List.length_cons] at h
    exact .insert (by omega) ((edited_nil_iff.mpr (Nat.le_refl t.length)).cons x)
  | cons z s =>
    cases ih n (Nat.le_refl n) h with
    | keep hzy h =>
      have hs : z :: s = [] ++ y :: s := by rw [hzy, List.nil_append]
      have ht : x :: t = [] ++ x :: t := (List.nil_append _).symm
      exact .swap hs ht (by simp) h
    | delete hk h =>
      have hfirst := ih _ hk ((h.cons x).edit (.swap x y t))
      exact (hfirst.behind_deleted z).mono (by omega)
    | insert hk h => exact .insert (by omega) (h.cons x)
    | replace hk h => exact .replace (by omega) ((h.cons z).edit (.replace z x t))
    | @swap k s₁ s₂ t₁ t₂ hs ht hk h =>
      refine .insert (k := s₁.length + t₁.length + k + 1) (by omega) ?_
      rw [hs, ht]
      exact (h.move_block s₁ t₁ y z).cons x

/-- A later edit swaps the first two characters. -/
theorem FirstEdited.edit_swap (ih : FirstEditedUpTo n)
    (h : FirstEdited n x s c (y :: t)) : FirstEdited (n + 1) x s y (c :: t) := by
  cases h with
  | keep hxc h =>
    rw [← hxc]
    exact keep_swap ih h
  | delete hk h => exact .delete (by omega) (h.edit (.swap c y t))
  | insert hk h =>
    have hfirst := ih _ hk (h.edit (.behind y (.insert c t)))
    exact hfirst.mono (by omega)
  | replace hk h => exact .replace (by omega) (h.edit (.replace y c t))
  | @swap k s₁ s₂ t₁ t₂ hs ht hk h =>
    rw [hs]
    cases t₁ with
    | nil =>
      -- the first character of the source comes back to the front
      obtain ⟨rfl, rfl⟩ := List.cons_eq_cons.mp ht
      exact .keep rfl ((Edited.delete_append s₁ (h.cons c)).mono (by omega))
    | cons d t₁ =>
      obtain ⟨rfl, rfl⟩ := List.cons_eq_cons.mp ht
      rw [List.length_cons] at hk
      exact .insert (by omega) (h.swap_block s₁ t₁ x c)

/-- **Every sequence of edits can be rearranged** so that it edits the first characters first, in
one of few ways and with no more edits. -/
theorem Edited.firstEdited (h : Edited n (x :: s) (y :: t)) : FirstEdited n x s y t := by
  induction n using Nat.strongRecOn generalizing x y s t with
  | _ n ih =>
    generalize hv : y :: t = v at h
    cases h with
    | same =>
      obtain ⟨rfl, rfl⟩ := List.cons_eq_cons.mp hv
      exact .keep rfl (.same n t)
    | @edit m _ w _ h last =>
      have ih : FirstEditedUpTo m := fun k hk => ih k (by omega)
      subst hv
      cases last with
      | insert => exact .insert (Nat.le_refl _) h
      | delete c => exact (ih m (Nat.le_refl m) h).edit_delete ih
      | replace c => exact (ih m (Nat.le_refl m) h).edit_replace
      | swap c _ t => exact (ih m (Nat.le_refl m) h).edit_swap ih
      | behind _ last => exact (ih m (Nat.le_refl m) h).edit_behind last

end FirstEdited

/-! ## The test -/

section Test

variable {n : Nat} {x y c : Char} {s t : Text}

/-- First characters that agree may be kept. -/
theorem edited_cons_self_iff : Edited n (c :: s) (c :: t) ↔ Edited n s t := by
  refine ⟨fun h => ?_, fun h => h.cons c⟩
  cases h.firstEdited with
  | keep _ h => exact h
  | delete hk h => exact (h.edit (.delete c t)).mono hk
  | insert hk h => exact (h.edit_first (.insert c s)).mono hk
  | replace hk h => exact h.mono (by omega)
  | @swap k s₁ s₂ t₁ t₂ hs ht hk h =>
    rw [hs, ht]
    exact (h.replace_block s₁ t₁ c c).mono hk

/-- Two texts meet again behind a swap: the first characters `x` and `y` have their likes further on
in the other text, and what lies between and behind is paid from `n`. -/
def EditedAcross (n : Nat) (x : Char) (s : Text) (y : Char) (t : Text) : Prop :=
  ∃ s₁ s₂ t₁ t₂, s = s₁ ++ y :: s₂ ∧ t = t₁ ++ x :: t₂ ∧ s₁.length + t₁.length ≤ n
    ∧ Edited (n - s₁.length - t₁.length) s₂ t₂

/-- First characters that differ cost an edit. -/
theorem edited_cons_cons_iff (hne : x ≠ y) :
    Edited (n + 1) (x :: s) (y :: t) ↔ Edited n s (y :: t) ∨ Edited n (x :: s) t ∨ Edited n s t
      ∨ EditedAcross n x s y t := by
  constructor
  · intro h
    cases h.firstEdited with
    | keep hxy => exact absurd hxy hne
    | delete hk h => exact Or.inl (h.mono (by omega))
    | insert hk h => exact Or.inr (Or.inl (h.mono (by omega)))
    | replace hk h => exact Or.inr (Or.inr (Or.inl (h.mono (by omega))))
    | @swap k s₁ s₂ t₁ t₂ hs ht hk h =>
      exact Or.inr (Or.inr (Or.inr
        ⟨s₁, s₂, t₁, t₂, hs, ht, by omega, h.mono (by omega)⟩))
  · rintro (h | h | h | ⟨s₁, s₂, t₁, t₂, rfl, rfl, hlength, h⟩)
    · exact h.delete_cons x
    · exact h.edit (.insert y t)
    · exact (h.cons x).edit (.replace x y t)
    · exact (h.swap_block s₁ t₁ x y).mono (by omega)

theorem getElem?_eq_some_iff_append {i : Nat} :
    s[i]? = some c ↔ ∃ before, before.length = i ∧ s = before ++ c :: s.drop (i + 1) := by
  constructor
  · intro h
    obtain ⟨hi, hc⟩ := List.getElem?_eq_some_iff.mp h
    refine ⟨s.take i, by rw [List.length_take]; omega, ?_⟩
    rw [← hc, ← List.drop_eq_getElem_cons hi, List.take_append_drop]
  · rintro ⟨before, rfl, hs⟩
    rw [hs]
    simp

/-- The places at which two texts may meet again, tried one after the other. -/
theorem any_across_eq_true_iff {within : Nat → Text → Text → Bool}
    (hwithin : ∀ g h, within (n - g - h) (s.drop (g + 1)) (t.drop (h + 1)) = true
      ↔ Edited (n - g - h) (s.drop (g + 1)) (t.drop (h + 1))) :
    ((List.range (n + 1)).any fun g => s[g]? == some y
      && (List.range (n + 1 - g)).any fun h => t[h]? == some x
        && within (n - g - h) (s.drop (g + 1)) (t.drop (h + 1))) = true
      ↔ EditedAcross n x s y t := by
  simp only [List.any_eq_true, List.mem_range, Bool.and_eq_true, beq_iff_eq, hwithin]
  constructor
  · rintro ⟨g, hg, hy, h, hh, hx, hrest⟩
    obtain ⟨s₁, rfl, hs⟩ := getElem?_eq_some_iff_append.mp hy
    obtain ⟨t₁, rfl, ht⟩ := getElem?_eq_some_iff_append.mp hx
    exact ⟨s₁, _, t₁, _, hs, ht, by omega, hrest⟩
  · rintro ⟨s₁, s₂, t₁, t₂, rfl, rfl, hlength, hrest⟩
    exact ⟨s₁.length, by omega, by simp, t₁.length, by omega, by simp, by simpa using hrest⟩

/-- **The test is exact**: it says whether so few edits, wherever they stand, are enough. -/
theorem withinEdits_eq_true_iff : withinEdits n s t = true ↔ Edited n s t := by
  fun_induction withinEdits n s t with
  | case1 n t => rw [decide_eq_true_eq, edited_nil_iff]
  | case2 n s =>
    rw [decide_eq_true_eq, ← edited_nil_iff]
    exact ⟨Edited.symm, Edited.symm⟩
  | case3 s t =>
    rw [beq_iff_eq]
    constructor
    · rintro rfl
      exact .same 0 s
    · exact Edited.eq_of_zero
  | case4 n x s t ih => rw [ih, edited_cons_self_iff]
  | case5 n x s y t hne ih₁ ih₂ ih₃ ih₄ =>
    rw [Bool.or_eq_true, Bool.or_eq_true, Bool.or_eq_true, ih₁, ih₂, ih₃,
      any_across_eq_true_iff ih₄, edited_cons_cons_iff hne, or_assoc, or_assoc]

/-- `n` is the least number of edits that lead from one text to the other. -/
def LeastEdits (n : Nat) (s t : Text) : Prop :=
  Edited n s t ∧ ∀ m, Edited m s t → n ≤ m

theorem editDistance?_eq_some_iff {limit : Nat} :
    editDistance? limit s t = some n ↔ n ≤ limit ∧ LeastEdits n s t := by
  rw [editDistance?, List.find?_range_eq_some, withinEdits_eq_true_iff, List.mem_range,
    Nat.lt_succ_iff]
  constructor
  · rintro ⟨h, hn, hleast⟩
    refine ⟨hn, h, fun m hm => ?_⟩
    by_contra hlt
    have hfalse := hleast m (by omega)
    rw [withinEdits_eq_true_iff.mpr hm] at hfalse
    contradiction
  · rintro ⟨hn, h, hleast⟩
    refine ⟨h, hn, fun m hm => ?_⟩
    rw [Bool.not_eq_true', ← Bool.not_eq_true, withinEdits_eq_true_iff]
    intro hedited
    have := hleast m hedited
    omega

-- the swapped letters stand apart afterwards
example : editDistance? 3 "ca".toList "abc".toList = some 2 := by cbv

theorem editDistance?_eq_none_iff {limit : Nat} :
    editDistance? limit s t = none ↔ ¬ Edited limit s t := by
  rw [editDistance?, List.find?_range_eq_none]
  constructor
  · intro h hedited
    have hfalse := h limit (Nat.lt_succ_self limit)
    rw [withinEdits_eq_true_iff.mpr hedited] at hfalse
    contradiction
  · intro h m hm
    rw [Bool.not_eq_true', ← Bool.not_eq_true, withinEdits_eq_true_iff]
    exact fun hedited => h (hedited.mono (by omega))

end Test

end RefBook
