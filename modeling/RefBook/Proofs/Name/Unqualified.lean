import RefBook.Proofs.Name.Scanning

/-!
# RefBook.Proofs.Name.Unqualified — no reference is left to shorten

A signature whose references were shortened is another text, which is scanned anew.

* `EndsReference.stripModule`: where a reference ended in front of a text, one ends in front of the
  shortened text as well, so what is left of a reference does not grow together with it.
* `spans_stripModule`: hence the scan of the shortened text is that of the signature, span by span.
* `stripModule_complete`: none of its references belongs to the module, and shortening it once more
  changes nothing.
-/

namespace RefBook

/-- The spans that are left of a span: of a reference that the name `owner` qualifies exactly, only
the characters of its last component. -/
def Span.unqualified (owner : Text) : Span → List Span
  | reference qualifier name =>
    if dotted qualifier = owner then name.map .outside else [.reference qualifier name]
  | outside c => [.outside c]

section Unqualified

variable {owner t rest d name : Text} {c : Char} {ds qualifier : List Text}

/-! ## The shortened text, part by part -/

theorem stripModule_nil (owner : Text) : stripModule owner [] = [] := by
  rw [stripModule, pieces, List.flatMap_nil]

theorem stripModule_outside (h : isReferenceStart c = false) (owner r : Text) :
    stripModule owner (c :: r) = c :: stripModule owner r := by
  rw [stripModule, pieces_outside h]
  rfl

theorem stripModule_append (hd : IsComponent d) (hds : ∀ c ∈ ds, IsComponent c)
    (h : EndsReference rest) (owner : Text) :
    stripModule owner (d ++ (ds.flatMap ('.' :: ·) ++ rest))
      = (Piece.reference d ds).seenFrom owner ++ stripModule owner rest := by
  rw [stripModule, pieces_append hd hds h]
  rfl

/-- The first character that follows a reference is kept, and so is one behind a dot. -/
theorem EndsReference.stripModule (h : EndsReference t) (owner : Text) :
    EndsReference (stripModule owner t) := by
  cases t with
  | nil =>
    rw [stripModule_nil]
    exact .nil
  | cons c r =>
    have hpart := h.part c r rfl
    have hstart : isReferenceStart c = false := by
      rw [← Bool.not_eq_true]
      intro hc
      rw [isReferencePart_of_isReferenceStart hc] at hpart
      contradiction
    rw [stripModule_outside hstart]
    refine ⟨?_, ?_⟩
    · intro c' r' hc'
      obtain ⟨rfl, -⟩ := List.cons_eq_cons.mp hc'
      exact hpart
    · intro e r' he
      obtain ⟨rfl, hr⟩ := List.cons_eq_cons.mp he
      cases r with
      | nil =>
        rw [stripModule_nil] at hr
        contradiction
      | cons e' r =>
        have hstart' := h.dot e' r rfl
        rw [stripModule_outside hstart'] at hr
        obtain ⟨rfl, -⟩ := List.cons_eq_cons.mp hr
        exact hstart'

/-! ## Its scan -/

theorem spans_append (hd : IsComponent d) (hds : ∀ c ∈ ds, IsComponent c)
    (h : EndsReference rest) :
    spans (d ++ (ds.flatMap ('.' :: ·) ++ rest)) = (Piece.reference d ds).spans ++ spans rest := by
  rw [spans, pieces_append hd hds h]
  rfl

theorem spans_outside (h : isReferenceStart c = false) (r : Text) :
    spans (c :: r) = .outside c :: spans r := by
  rw [spans, pieces_outside h]
  rfl

/-- A word without dots is scanned character by character. -/
theorem spans_word_append (hd : IsComponent d) (h : EndsReference rest) :
    spans (d ++ rest) = d.map .outside ++ spans rest := by
  have hword := spans_append hd (List.forall_mem_nil IsComponent) h
  rwa [List.flatMap_nil, List.nil_append] at hword

theorem Span.flatMap_unqualified_outside (owner t : Text) :
    (t.map Span.outside).flatMap (Span.unqualified owner) = t.map Span.outside := by
  rw [List.flatMap_map]
  induction t with
  | nil => rfl
  | cons c t ih => exact congrArg (Span.outside c :: ·) ih

/-- What is shown of components is scanned as what is left of their spans. -/
theorem spans_seenFrom_append (hd : IsComponent d) (hds : ∀ c ∈ ds, IsComponent c)
    (h : EndsReference rest) (owner : Text) :
    spans ((Piece.reference d ds).seenFrom owner ++ rest)
      = (Piece.reference d ds).spans.flatMap (Span.unqualified owner) ++ spans rest := by
  rcases List.eq_nil_or_concat ds with rfl | ⟨front, name, rfl⟩
  · rw [Piece.spans_word, Span.flatMap_unqualified_outside, ← spans_word_append hd h]
    simp [Piece.seenFrom, Piece.text]
  · rw [List.concat_eq_append] at hds ⊢
    have hname : IsComponent name := hds name (by simp)
    rw [Piece.spans_concat, List.flatMap_singleton, Span.unqualified, Piece.seenFrom,
      List.getLast?_concat, List.dropLast_concat]
    by_cases howner : dotted (d :: front) = owner
    · simp only [if_pos howner]
      exact spans_word_append hname h
    · simp only [if_neg howner]
      rw [Piece.text, List.append_assoc, spans_append hd hds h, Piece.spans_concat]

/-- The scan of the shortened text, span by span. -/
theorem spans_stripModule (owner t : Text) :
    spans (stripModule owner t) = (spans t).flatMap (Span.unqualified owner) := by
  induction t using scanInduction with
  | nil => rw [stripModule_nil, spans, pieces, List.flatMap_nil, List.flatMap_nil]
  | outside c r hc ih =>
    rw [stripModule_outside hc, spans_outside hc, spans_outside hc, ih]
    rfl
  | components d ds rest hd hds hrest ih =>
    rw [stripModule_append hd hds hrest, spans_append hd hds hrest, List.flatMap_append, ← ih]
    exact spans_seenFrom_append hd hds (hrest.stripModule owner) owner

/-- Nothing that is left of spans is qualified by the name. -/
theorem dotted_ne_of_mem_unqualified {ss : List Span}
    (h : .reference qualifier name ∈ ss.flatMap (Span.unqualified owner)) :
    dotted qualifier ≠ owner := by
  obtain ⟨s, -, hs⟩ := List.mem_flatMap.mp h
  cases s with
  | outside c => simp [Span.unqualified] at hs
  | reference q n =>
    rw [Span.unqualified] at hs
    split at hs
    · simp at hs
    · next hne =>
      obtain ⟨rfl, rfl⟩ := Span.reference.inj (List.mem_singleton.mp hs)
      exact hne

end Unqualified

/-- **Shortening is complete.**  Shortening a signature once more changes nothing.  The signature
and the shortened text have one scan each; that of the shortened text is what is left of the other,
span by span, so no reference grows together from what stood apart; and the module's name qualifies
none of its references. -/
theorem stripModule_complete (owner signature : Text) :
    stripModule owner (stripModule owner signature) = stripModule owner signature
      ∧ ∃ before after, (∀ ss, IsScan signature ss ↔ ss = before)
        ∧ (∀ ss, IsScan (stripModule owner signature) ss ↔ ss = after)
        ∧ after = before.flatMap (Span.unqualified owner)
        ∧ ∀ qualifier name, .reference qualifier name ∈ after → dotted qualifier ≠ owner := by
  have hnone : ∀ qualifier name,
      .reference qualifier name ∈ spans (stripModule owner signature) →
        dotted qualifier ≠ owner := by
    intro qualifier name hmem
    rw [spans_stripModule] at hmem
    exact dotted_ne_of_mem_unqualified hmem
  exact ⟨stripModule_eq_self hnone, spans signature, spans (stripModule owner signature),
    fun _ => isScan_iff, fun _ => isScan_iff, spans_stripModule owner signature, hnone⟩

end RefBook
