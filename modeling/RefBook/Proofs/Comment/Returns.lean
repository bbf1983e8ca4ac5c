import Mathlib.Data.List.Forall2
import RefBook.Comment.Fence
import RefBook.Proofs.Text.Returns

/-!
# RefBook.Proofs.Comment.Returns — code samples between other line ends

Fencing cuts a comment at its line feeds only, so a carriage return stays on its line, where every
test meets it.

* `MayReturn`: a line, and the line with or without a carriage return at its end.
* `codeSample?_of_mayReturn`, `isBlank_of_mayReturn`: the tests say the same of both.
* `map_withoutReturns_fenceLines`: so do the states of fencing, line by line.
* `withoutReturns_fenceCode`: carriage returns that were put into a comment can be dropped after its
  code samples are fenced as well as before.
-/

namespace RefBook

/-! ## One line -/

/-- The first line is the second, or that line with a carriage return at its end. -/
def MayReturn (returned line : Text) : Prop :=
  returned = line ∨ returned = line ++ ['\r']

section Line

variable {returned line : Text}

theorem MayReturn.withoutReturns_eq (h : MayReturn returned line) (hline : '\r' ∉ line) :
    withoutReturns returned = line := by
  have hself := withoutReturns_eq_self_iff.mpr hline
  rcases h with rfl | rfl
  · exact hself
  · rw [withoutReturns_append, hself]
    exact List.append_nil line

theorem isBlank_of_mayReturn (h : MayReturn returned line) (hline : '\r' ∉ line) :
    isBlank returned = isBlank line := by
  rw [← isBlank_withoutReturns, h.withoutReturns_eq hline]

/-- What does not hold a carriage return is not taken off the front of one. -/
theorem dropLeading_concat {c : Char} {lead : Text} (hlead : c ∉ lead) (t : Text) :
    dropLeading lead (t ++ [c]) = (dropLeading lead t).map (· ++ [c]) := by
  induction lead generalizing t with
  | nil => rfl
  | cons a lead ih =>
    rw [List.mem_cons, not_or] at hlead
    cases t with
    | nil => simp [dropLeading, Ne.symm hlead.1]
    | cons d t =>
      rw [List.cons_append, dropLeading, dropLeading]
      split
      · exact ih hlead.2 t
      · rfl

/-- The indent is found on both lines or on neither, and the same follows it. -/
theorem dropLeading_of_mayReturn (h : MayReturn returned line) :
    (dropLeading codeIndent returned = none ∧ dropLeading codeIndent line = none)
      ∨ ∃ behind code, dropLeading codeIndent returned = some behind
        ∧ dropLeading codeIndent line = some code ∧ MayReturn behind code := by
  have hindent : '\r' ∉ codeIndent := by decide
  cases hd : dropLeading codeIndent line with
  | none =>
    refine Or.inl ⟨?_, rfl⟩
    rcases h with rfl | rfl
    · exact hd
    · rw [dropLeading_concat hindent, hd, Option.map_none]
  | some code =>
    rcases h with rfl | rfl
    · exact Or.inr ⟨code, code, hd, rfl, Or.inl rfl⟩
    · refine Or.inr ⟨code ++ ['\r'], code, ?_, rfl, Or.inr rfl⟩
      rw [dropLeading_concat hindent, hd, Option.map_some]

theorem codeSample?_of_mayReturn (h : MayReturn returned line) (hline : '\r' ∉ line) :
    (codeSample? returned).map withoutReturns = codeSample? line := by
  rcases dropLeading_of_mayReturn h with ⟨hreturned, hnone⟩ | ⟨behind, code, hbehind, hcode, hmay⟩
  · rw [codeSample?, codeSample?, hreturned, hnone]
    rfl
  · have hr : '\r' ∉ code := fun hr =>
      hline (dropLeading_eq_some_iff.mp hcode ▸ List.mem_append_right _ hr)
    rw [codeSample?, codeSample?, hbehind, hcode]
    cases hblank : isBlank code with
    | true => simp [Option.filter, isBlank_of_mayReturn hmay hr, hblank]
    | false => simp [Option.filter, isBlank_of_mayReturn hmay hr, hblank, hmay.withoutReturns_eq hr]

end Line

/-! ## All lines -/

theorem forall₂_mayReturn_endReturns (ps : List Text) :
    List.Forall₂ MayReturn (endReturns ps) ps := by
  match ps with
  | [] => exact .nil
  | [_] => exact .cons (Or.inl rfl) .nil
  | _ :: q :: more => exact .cons (Or.inr rfl) (forall₂_mayReturn_endReturns (q :: more))

/-- Lines with carriage returns at their ends go through the states of fencing as those without. -/
theorem map_withoutReturns_fenceLines {returned ls : List Text}
    (h : List.Forall₂ MayReturn returned ls) (hls : NoReturns ls)
    (held : Option (List Text)) :
    (fenceLines held returned).map withoutReturns
      = fenceLines (held.map (List.map withoutReturns)) ls := by
  have hopen : withoutReturns fenceOpen = fenceOpen := by decide
  have hclose : withoutReturns fenceClose = fenceClose := by decide
  induction h generalizing held with
  | nil => cases held <;> simp [fenceLines, hclose]
  | @cons r l returned ls hr _ ih =>
    have hl : '\r' ∉ l := hls l List.mem_cons_self
    have ih := ih fun k hk => hls k (List.mem_cons_of_mem l hk)
    have hcode := codeSample?_of_mayReturn hr hl
    cases hc : codeSample? r with
    | some code =>
      rw [hc, Option.map_some] at hcode
      cases held <;> simp [fenceLines, hc, ← hcode, hopen, ih]
    | none =>
      rw [hc, Option.map_none] at hcode
      cases held with
      | none => simp [fenceLines, hc, ← hcode, hr.withoutReturns_eq hl, ih]
      | some held =>
        cases hblank : isBlank l with
        | true =>
          simp [fenceLines, hc, ← hcode, isBlank_of_mayReturn hr hl, hblank,
            hr.withoutReturns_eq hl, ih]
        | false =>
          simp [fenceLines, hc, ← hcode, isBlank_of_mayReturn hr hl, hblank,
            hr.withoutReturns_eq hl, ih, hclose]

/-- The carriage returns that were put into a comment go with its line ends, not with its code. -/
theorem withoutReturns_fenceCode {comment : Text} (h : '\r' ∉ comment) :
    withoutReturns (fenceCode (withReturns comment)) = fenceCode comment := by
  rw [fenceCode, withoutReturns_unlines, splitOn_withReturns,
    map_withoutReturns_fenceLines (forall₂_mayReturn_endReturns _) (noReturns_splitOn h)]
  rfl

end RefBook
