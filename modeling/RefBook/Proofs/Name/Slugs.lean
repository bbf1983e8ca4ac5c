import Mathlib.Data.List.Forall2
import Mathlib.Logic.Relation
import RefBook.Proofs.Name.Anchors
import RefBook.Proofs.Text.Words
import RefBook.Proofs.Unicode.Surroundings

/-!
# RefBook.Proofs.Name.Slugs — names with the same slug

* `IsSlug`: texts in normal form, without blank space, dots and capital letters; `slug_eq_self_iff`: they
  are the texts that are their own slug.
* `SameWords`: texts with the same words but for dots, so with the same slug (`slug_congr`).
* `Respelled`: a name with one change of its blank space or one more run of dots.
* `slug_normalizes`: every slug is in normal form, and names that such changes join share it.
-/

namespace RefBook

open Unicode (isWhiteSpace lowercase)

/-! ## Normal form -/

/-- A text that is the slug of some name. -/
structure IsSlug (t : Text) : Prop where
  /-- No character is blank. -/
  not_blank : ∀ c ∈ t, isWhiteSpace c = false
  /-- No character is a dot. -/
  dot_not_mem : '.' ∉ t
  /-- Lowering changes nothing. -/
  small : lowercase t = t

/-- The text without its dots. -/
def dotless (t : Text) : Text :=
  t.filter (· ≠ '.')

section NormalForm

variable {t : Text}

theorem slug_eq (name : Text) :
    slug name = ['-'].intercalate ((words (lowercase name)).map dotless) := rfl

theorem dotless_append (v w : Text) : dotless (v ++ w) = dotless v ++ dotless w :=
  List.filter_append ..

theorem dotless_eq_self (h : '.' ∉ t) : dotless t = t := by
  apply List.filter_eq_self.mpr
  intro c hc
  exact decide_eq_true fun hdot => h (hdot ▸ hc)

theorem dotless_of_dots (h : ∀ c ∈ t, c = '.') : dotless t = [] := by
  apply List.filter_eq_nil_iff.mpr
  intro c hc
  simp [h c hc]

theorem isSlug_slug (name : Text) : IsSlug (slug name) := by
  refine ⟨fun c hc => not_isWhiteSpace_of_mem_slug hc, ?_, ?_⟩
  · intro hdot
    rcases eq_or_mem_of_mem_slug hdot with hyphen | ⟨-, -, hne⟩
    · exact absurd hyphen (by decide)
    · exact hne rfl
  · rw [Unicode.lowercase_eq_self_iff]
    intro c hc
    rcases eq_or_mem_of_mem_slug hc with rfl | ⟨hmem, -⟩
    · exact Unicode.isSmall_hyphen
    · exact Unicode.isSmall_of_mem_lowercase hmem

theorem IsSlug.eq_self (h : IsSlug t) : slug t = t := by
  rw [slug_eq, h.small, words_of_not_blank h.not_blank]
  by_cases ht : t = []
  · rw [ht]
    rfl
  · rw [filled_singleton_of_ne_nil ht, List.map_singleton, dotless_eq_self h.dot_not_mem,
      List.intercalate_singleton]

/-- Slugs are the texts in normal form. -/
theorem slug_eq_self_iff : slug t = t ↔ IsSlug t :=
  ⟨fun h => h ▸ isSlug_slug t, IsSlug.eq_self⟩

end NormalForm

/-! ## Words but for dots -/

/-- The same text but for dots; none is empty unless both are. -/
def AlikeButDots (v w : Text) : Prop :=
  (v = [] ↔ w = []) ∧ dotless v = dotless w

/-- Piece by piece between blank characters, the two texts are the same but for dots. -/
def SameWords (x y : Text) : Prop :=
  List.Forall₂ AlikeButDots (x.splitOnP isWhiteSpace) (y.splitOnP isWhiteSpace)

section SameWords

variable {v w x y : Text} {vs ws : List Text}

theorem AlikeButDots.refl (v : Text) : AlikeButDots v v :=
  ⟨Iff.rfl, rfl⟩

/-- Texts that are not empty, with the same behind both. -/
theorem AlikeButDots.append (hv : v ≠ []) (hw : w ≠ []) (h : dotless v = dotless w) (t : Text) :
    AlikeButDots (v ++ t) (w ++ t) := by
  refine ⟨by simp [hv, hw], ?_⟩
  rw [dotless_append, dotless_append, h]

theorem AlikeButDots.cons (c : Char) (h : AlikeButDots v w) :
    AlikeButDots (c :: v) (c :: w) := by
  refine ⟨by simp, ?_⟩
  rw [← List.singleton_append, dotless_append, h.2, ← dotless_append, List.singleton_append]

theorem forall₂_alikeButDots_refl (ws : List Text) : List.Forall₂ AlikeButDots ws ws :=
  List.forall₂_same.mpr fun w _ => AlikeButDots.refl w

theorem map_dotless_filled (h : List.Forall₂ AlikeButDots vs ws) :
    (filled vs).map dotless = (filled ws).map dotless := by
  induction h with
  | nil => rfl
  | @cons v w vs ws hvw _ ih =>
    by_cases hw : w = []
    · rw [hvw.1.mpr hw, hw, filled_nil_cons, filled_nil_cons, ih]
    · rw [filled_cons_of_ne_nil hw, filled_cons_of_ne_nil (mt hvw.1.mp hw), List.map_cons,
        List.map_cons, hvw.2, ih]

/-- A blank character ends a piece of both texts, and any other belongs to the first one. -/
theorem SameWords.cons (c : Char) (h : SameWords x y) : SameWords (c :: x) (c :: y) := by
  unfold SameWords at h ⊢
  rw [List.splitOnP_cons_eq_if_modifyHead, List.splitOnP_cons_eq_if_modifyHead]
  by_cases hc : isWhiteSpace c = true
  · rw [if_pos hc, if_pos hc]
    exact List.Forall₂.cons (AlikeButDots.refl []) h
  · rw [if_neg hc, if_neg hc]
    generalize x.splitOnP isWhiteSpace = vs, y.splitOnP isWhiteSpace = ws at h ⊢
    cases h with
    | nil => exact List.Forall₂.nil
    | cons hfirst hrest => exact List.Forall₂.cons (hfirst.cons c) hrest

theorem SameWords.append_left (s : Text) (h : SameWords x y) : SameWords (s ++ x) (s ++ y) := by
  induction s with
  | nil => exact h
  | cons c s ih => exact ih.cons c

/-- One word is put for another one that differs by dots alone, whatever stands around it. -/
theorem sameWords_of_word (hv : ∀ c ∈ v, isWhiteSpace c = false)
    (hw : ∀ c ∈ w, isWhiteSpace c = false) (hv' : v ≠ []) (hw' : w ≠ [])
    (h : dotless v = dotless w) (left right : Text) :
    SameWords (left ++ v ++ right) (left ++ w ++ right) := by
  rw [List.append_assoc, List.append_assoc]
  apply SameWords.append_left
  obtain ⟨p, ps, hp⟩ := List.exists_cons_of_ne_nil (List.splitOnP_ne_nil isWhiteSpace right)
  unfold SameWords
  rw [splitOnP_append_of_not hv, splitOnP_append_of_not hw, hp]
  exact List.Forall₂.cons (AlikeButDots.append hv' hw' h p) (forall₂_alikeButDots_refl ps)

theorem slug_congr (h : SameWords (lowercase x) (lowercase y)) : slug x = slug y := by
  rw [slug_eq, slug_eq, words_eq, words_eq, map_dotless_filled h]

end SameWords

/-! ## Changes that leave the slug as it is -/

/-- A name, and the name with one change of its blank space or with more dots. -/
inductive Respelled : Text → Text → Prop where
  /-- Blank space becomes other blank space. -/
  | space (s t : Text) {a b : Text} (ha : isBlank a = true) (hb : isBlank b = true)
      (hne : a ≠ []) (hne' : b ≠ []) : Respelled (s ++ a ++ t) (s ++ b ++ t)
  /-- Blank space comes to the ends. -/
  | ends (t : Text) {a b : Text} (ha : isBlank a = true) (hb : isBlank b = true) :
      Respelled t (a ++ t ++ b)
  /-- Dots come before and behind a character that is not blank. -/
  | dots (s t : Text) {c : Char} {d e : Text} (hc : isWhiteSpace c = false)
      (hd : ∀ x ∈ d, x = '.') (he : ∀ x ∈ e, x = '.') :
      Respelled (s ++ c :: t) (s ++ d ++ c :: (e ++ t))

section Respelling

variable {a b d e name other : Text} {c : Char}

theorem slug_across_blank (hb : isBlank b = true) (hne : b ≠ []) (s t : Text) :
    slug (s ++ b ++ t)
      = ['-'].intercalate ((words (lowercase s) ++ words (lowercase t)).map dotless) := by
  rw [slug_eq, Unicode.lowercase_across_blank hb hne, words_across_blank hb hne]

theorem slug_between_blank (ha : isBlank a = true) (hb : isBlank b = true) (t : Text) :
    slug (a ++ t ++ b) = slug t := by
  rw [slug_eq, Unicode.lowercase_append_blank hb, Unicode.lowercase_blank_append ha,
    words_append_blank hb, words_blank_append ha, slug_eq]

theorem slug_dots (hc : isWhiteSpace c = false) (hd : ∀ x ∈ d, x = '.') (he : ∀ x ∈ e, x = '.')
    (s t : Text) : slug (s ++ d ++ c :: (e ++ t)) = slug (s ++ c :: t) := by
  obtain ⟨left, small, right, hne, hsmall, hlower⟩ := Unicode.exists_lowercase_dots hc s t
  have hplain : lowercase (s ++ c :: t) = left ++ small ++ right := by
    have hnone := hlower [] [] (by simp) (by simp)
    simpa using hnone
  have hblank : ∀ x ∈ d ++ small ++ e, isWhiteSpace x = false := by
    intro x hx
    rw [List.mem_append, List.mem_append] at hx
    rcases hx with (hx | hx) | hx
    · rw [hd x hx]
      decide
    · exact hsmall x hx
    · rw [he x hx]
      decide
  have hdotless : dotless (d ++ small ++ e) = dotless small := by
    rw [dotless_append, dotless_append, dotless_of_dots hd, dotless_of_dots he, List.nil_append,
      List.append_nil]
  apply slug_congr
  rw [hlower d e hd he, hplain]
  exact sameWords_of_word hblank hsmall (by simp [hne]) hne hdotless left right

theorem Respelled.same_slug (h : Respelled name other) : slug other = slug name := by
  cases h with
  | space s t ha hb hne hne' => rw [slug_across_blank hb hne', slug_across_blank ha hne]
  | ends t ha hb => exact slug_between_blank ha hb name
  | dots s t hc hd he => exact slug_dots hc hd he s t

end Respelling

/-- **A slug is a normal form, one for all spellings of a name.**  A slug holds no blank character and no
dot, lowering leaves it alone, and it is its own slug, as are all texts like that and no others.  Names
have the same slug if changes of blank space within them, blank space at their ends and dots beside
characters that are not blank lead from one to the other, in any number and both ways.  The names need not
be in small letters: whether a capital sigma ends a word stays the same, as dots are looked through for it
and blank space is not. -/
theorem slug_normalizes (name : Text) :
    IsSlug (slug name) ∧ slug (slug name) = slug name ∧ (slug name = name ↔ IsSlug name)
      ∧ ∀ other, Relation.EqvGen Respelled name other → slug other = slug name := by
  refine ⟨isSlug_slug name, (isSlug_slug name).eq_self, slug_eq_self_iff, ?_⟩
  intro other h
  induction h with
  | rel name other h => exact h.same_slug
  | refl name => rfl
  | symm name other _ ih => exact ih.symm
  | trans name between other _ _ ih ih' => exact ih'.trans ih

/-- A name in which two sigmas end words, the second one behind a dot and a capital I with a dot. -/
def sigmaName : Text :=
  ['Α', 'Σ', '\t', ' ', 'İ', '.', 'Σ']

/-- The name with other blank space, and with its dots elsewhere. -/
def sigmaSpelling : Text :=
  [' ', 'Α', '.', 'Σ', '.', '.', ' ', 'İ', 'Σ', '\n']

theorem slug_normalizes_sigmaName :
    Relation.EqvGen Respelled sigmaName sigmaSpelling
      ∧ IsSlug (slug sigmaName) ∧ slug (slug sigmaName) = slug sigmaName
      ∧ (slug sigmaName = sigmaName ↔ IsSlug sigmaName)
      ∧ slug sigmaSpelling = slug sigmaName ∧ slug sigmaName = "ας-i\u0307ς".toList := by
  have hdots : Respelled sigmaName ['Α', '.', 'Σ', '.', '.', '\t', ' ', 'İ', '.', 'Σ'] :=
    Respelled.dots ['Α'] ['\t', ' ', 'İ', '.', 'Σ'] (d := ['.']) (e := ['.', '.'])
      (by decide) (by simp) (by simp)
  have hwithout : Respelled ['Α', '.', 'Σ', '.', '.', '\t', ' ', 'İ', 'Σ']
      ['Α', '.', 'Σ', '.', '.', '\t', ' ', 'İ', '.', 'Σ'] :=
    Respelled.dots ['Α', '.', 'Σ', '.', '.', '\t', ' ', 'İ'] [] (d := ['.']) (e := [])
      (by decide) (by simp) (by simp)
  have hspace : Respelled ['Α', '.', 'Σ', '.', '.', '\t', ' ', 'İ', 'Σ']
      ['Α', '.', 'Σ', '.', '.', ' ', 'İ', 'Σ'] :=
    Respelled.space ['Α', '.', 'Σ', '.', '.'] ['İ', 'Σ'] (a := ['\t', ' ']) (b := [' '])
      (by decide) (by decide) (by decide) (by decide)
  have hends : Respelled ['Α', '.', 'Σ', '.', '.', ' ', 'İ', 'Σ'] sigmaSpelling :=
    Respelled.ends _ (a := [' ']) (b := ['\n']) (by decide) (by decide)
  have hchain : Relation.EqvGen Respelled sigmaName sigmaSpelling :=
    .trans _ _ _ (.rel _ _ hdots) <| .trans _ _ _ (.symm _ _ (.rel _ _ hwithout)) <|
      .trans _ _ _ (.rel _ _ hspace) (.rel _ _ hends)
  obtain ⟨hslug, hagain, hown, hshared⟩ := slug_normalizes sigmaName
  exact ⟨hchain, hslug, hagain, hown, hshared sigmaSpelling hchain, by decide +kernel⟩

/-- A dot that stands alone is a word, of which nothing is left but the hyphens around it. -/
example : slug "a . b".toList = "a--b".toList ∧ slug "a b".toList = "a-b".toList := by
  decide

end RefBook
