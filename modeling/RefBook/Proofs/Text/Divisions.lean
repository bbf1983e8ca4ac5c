import Mathlib.Data.List.Basic

/-!
# RefBook.Proofs.Text.Divisions — lists divided into parts

A list is divided from left to right: at every place one part comes next, and what follows it may
have a say in which.

* `IsDivision`: the parts hold all of the list, and each of them comes next at its place.
* `isDivision_cons_iff`: a division, part by part.
* `NextIsOne`, `IsDivision.unique`: where one part only can come next at a place, a list is divided
  in one way only.
-/

namespace RefBook

variable {α σ : Type} {content : σ → List α} {IsNext : List α → σ → Prop}

/-- The list is divided into the parts.  `content` is what a part holds, and `IsNext rest p` says
that the part `p` comes next where `rest` follows it. -/
structure IsDivision (content : σ → List α) (IsNext : List α → σ → Prop) (whole : List α)
    (parts : List σ) : Prop where
  /-- The parts hold all of the list, in order. -/
  content_eq : parts.flatMap content = whole
  /-- Each part comes next at its place. -/
  next : ∀ before p after, parts = before ++ p :: after → IsNext (after.flatMap content) p

/-- One part only comes next at a place, and it holds something. -/
structure NextIsOne (content : σ → List α) (IsNext : List α → σ → Prop) : Prop where
  /-- A part is not empty. -/
  ne_nil : ∀ {rest p}, IsNext rest p → content p ≠ []
  /-- Parts that come next at the same place are the same. -/
  unique : ∀ {rest rest' p p'}, IsNext rest p → IsNext rest' p' →
    content p ++ rest = content p' ++ rest' → p = p' ∧ rest = rest'

section Divisions

variable {whole : List α} {p : σ} {parts parts' : List σ}

theorem isDivision_nil : IsDivision content IsNext [] [] :=
  ⟨rfl, by simp⟩

/-- A division, part by part. -/
theorem isDivision_cons_iff :
    IsDivision content IsNext whole (p :: parts) ↔ ∃ rest, whole = content p ++ rest ∧ IsNext rest p
      ∧ IsDivision content IsNext rest parts := by
  constructor
  · intro h
    refine ⟨parts.flatMap content, h.content_eq.symm, h.next [] p parts rfl, rfl, ?_⟩
    intro before q after hparts
    exact h.next (p :: before) q after (by rw [hparts, List.cons_append])
  · rintro ⟨rest, rfl, hp, h⟩
    refine ⟨by rw [List.flatMap_cons, h.content_eq], ?_⟩
    intro before q after hparts
    cases before with
    | nil =>
      obtain ⟨rfl, rfl⟩ := List.cons_eq_cons.mp hparts
      rwa [h.content_eq]
    | cons b before => exact h.next before q after (List.cons_eq_cons.mp hparts).2

/-- A part of a division comes next somewhere. -/
theorem IsDivision.exists_next (h : IsDivision content IsNext whole parts) (hp : p ∈ parts) :
    ∃ rest, IsNext rest p := by
  obtain ⟨before, after, hparts⟩ := List.append_of_mem hp
  exact ⟨_, h.next before p after hparts⟩

/-- An empty list has no parts. -/
theorem IsDivision.eq_nil (hone : NextIsOne content IsNext)
    (h : IsDivision content IsNext [] parts) : parts = [] := by
  cases parts with
  | nil => rfl
  | cons p parts =>
    obtain ⟨rest, hnil, hp, -⟩ := isDivision_cons_iff.mp h
    exact absurd (List.append_eq_nil_iff.mp hnil.symm).1 (hone.ne_nil hp)

/-- There is one way only to divide a list. -/
theorem IsDivision.unique (hone : NextIsOne content IsNext)
    (h : IsDivision content IsNext whole parts)
    (h' : IsDivision content IsNext whole parts') : parts' = parts := by
  induction parts generalizing whole parts' with
  | nil =>
    obtain rfl : whole = [] := h.content_eq.symm
    exact h'.eq_nil hone
  | cons p parts ih =>
    cases parts' with
    | nil =>
      obtain rfl : whole = [] := h'.content_eq.symm
      exact (h.eq_nil hone).symm
    | cons p' parts' =>
      obtain ⟨rest, hrest, hp, hparts⟩ := isDivision_cons_iff.mp h
      obtain ⟨rest', hrest', hp', hparts'⟩ := isDivision_cons_iff.mp h'
      obtain ⟨rfl, rfl⟩ := hone.unique hp hp' (hrest.symm.trans hrest')
      rw [ih hparts hparts']

end Divisions

end RefBook
