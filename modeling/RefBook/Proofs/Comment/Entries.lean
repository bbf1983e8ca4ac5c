import RefBook.Proofs.Comment.Kinds
import RefBook.Proofs.Text.Lines
import RefBook.Proofs.Text.Separators

/-!
# RefBook.Proofs.Comment.Entries — the names that a directive lists

What follows the word of a directive is cut at commas, and each entry leaves a name: it is trimmed first
and loses its parentheses then.

* `IsKey`: a name that is not empty, holds neither commas nor parentheses and has no blank ends.
* `listedNames`, `directiveNames?_eq_some_iff`: the names behind the word of a directive.
* `bareName_eq_self_iff`: a name without parentheses stays as it is exactly if it has no blank ends.
* `IsTight`, `trim_bareName_eq_self_iff`: parentheses that are dropped may bare blank space, unless each
  blank character stands between others that are kept.
* `directive_names_are_keys_iff`: so the names of a directive are keys exactly as far as its entries are
  tight.
-/

namespace RefBook

open Unicode (isWhiteSpace)

/-! ## Names of entries -/

/-- Whether the character is dropped from the entries of a directive. -/
def isParenthesis (c : Char) : Bool :=
  c = '(' || c = ')'

/-- A name that can be looked up as it is. -/
structure IsKey (name : Text) : Prop where
  /-- It is not empty. -/
  ne_nil : name ≠ []
  /-- It holds neither commas nor parentheses. -/
  plain : ∀ c ∈ name, c ≠ ',' ∧ isParenthesis c = false
  /-- It has no blank ends. -/
  trimmed : trim name = name

section Names

variable {name entry : Text}

theorem bareName_eq (entry : Text) : bareName entry = (trim entry).filter (!isParenthesis ·) := by
  refine List.filter_congr fun c _ => ?_
  simp [isParenthesis]

theorem not_isParenthesis_of_mem_bareName {c : Char} (hc : c ∈ bareName entry) :
    isParenthesis c = false := by
  rw [bareName_eq] at hc
  simpa using (List.mem_filter.mp hc).2

theorem bareName_of_not_parenthesis (h : ∀ c ∈ name, isParenthesis c = false) :
    bareName name = trim name := by
  rw [bareName_eq, List.filter_eq_self]
  intro c hc
  simp [h c (mem_of_mem_trim hc)]

/-- A name without parentheses stays as it is exactly if it has no blank ends. -/
theorem bareName_eq_self_iff (h : ∀ c ∈ name, isParenthesis c = false) :
    bareName name = name ↔ trim name = name := by
  rw [bareName_of_not_parenthesis h]

theorem IsKey.bareName_eq (h : IsKey name) : bareName name = name :=
  (bareName_eq_self_iff fun c hc => (h.plain c hc).2).mpr h.trimmed

/-! ## Blank space that parentheses cover -/

/-- Inside the trimmed entry every blank character stands between others that are no parentheses. -/
def IsTight (entry : Text) : Prop :=
  ∀ before c after, trim entry = before ++ c :: after → isWhiteSpace c = true →
    (∃ d ∈ before, isParenthesis d = false) ∧ ∃ d ∈ after, isParenthesis d = false

theorem not_isParenthesis_of_isWhiteSpace {c : Char} (h : isWhiteSpace c = true) :
    isParenthesis c = false := by
  rw [← Bool.not_eq_true, isParenthesis, Bool.or_eq_true, decide_eq_true_eq, decide_eq_true_eq]
  rintro (rfl | rfl) <;> contradiction

/-- The first character that is kept is not blank exactly if one is kept in front of every blank one. -/
theorem head?_filter_not_blank_iff {keep blank : Char → Bool}
    (hkeep : ∀ c, blank c = true → keep c = true) {t : Text} :
    (∀ c, (t.filter keep).head? = some c → blank c = false)
      ↔ ∀ before c after, t = before ++ c :: after → blank c = true →
        ∃ d ∈ before, keep d = true := by
  constructor
  · rintro h before c after rfl hc
    by_contra hnone
    have hdropped : before.filter keep = [] :=
      List.filter_eq_nil_iff.mpr fun d hd hkept => hnone ⟨d, hd, hkept⟩
    have hfirst := h c (by rw [List.filter_append, hdropped, List.nil_append,
      List.filter_cons_of_pos (hkeep c hc), List.head?_cons])
    rw [hc] at hfirst
    contradiction
  · intro h c hc
    rw [List.head?_filter, List.find?_eq_some_iff_append] at hc
    obtain ⟨-, before, after, ht, hdropped⟩ := hc
    rw [← Bool.not_eq_true]
    intro hblank
    obtain ⟨d, hd, hkept⟩ := h before c after ht hblank
    simpa [hkept] using hdropped d hd

/-- The same from the end of the text. -/
theorem getLast?_filter_not_blank_iff {keep blank : Char → Bool}
    (hkeep : ∀ c, blank c = true → keep c = true) {t : Text} :
    (∀ c, (t.filter keep).getLast? = some c → blank c = false)
      ↔ ∀ before c after, t = before ++ c :: after → blank c = true →
        ∃ d ∈ after, keep d = true := by
  rw [← List.head?_reverse, ← List.filter_reverse, head?_filter_not_blank_iff hkeep]
  constructor
  · rintro h before c after rfl hc
    obtain ⟨d, hd, hkept⟩ := h after.reverse c before.reverse (by simp) hc
    exact ⟨d, List.mem_reverse.mp hd, hkept⟩
  · intro h before c after ht hc
    have hcut := congrArg List.reverse ht
    rw [List.reverse_reverse, List.reverse_append, List.reverse_cons, List.append_assoc] at hcut
    obtain ⟨d, hd, hkept⟩ := h after.reverse c before.reverse hcut hc
    exact ⟨d, List.mem_reverse.mp hd, hkept⟩

theorem trim_bareName_eq_self_iff (entry : Text) :
    trim (bareName entry) = bareName entry ↔ IsTight entry := by
  have hkeep : ∀ c, isWhiteSpace c = true → (!isParenthesis c) = true := by
    intro c hc
    rw [not_isParenthesis_of_isWhiteSpace hc]
    rfl
  rw [trim_eq_self_iff, bareName_eq, head?_filter_not_blank_iff hkeep,
    getLast?_filter_not_blank_iff hkeep]
  simp only [Bool.not_eq_true', IsTight, ← forall_and]

end Names

/-! ## Names of a directive -/

/-- The names that stand behind the word of a directive. -/
def listedNames (rest : Text) : List Text :=
  filled ((rest.splitOn ',').map bareName)

section Directives

variable {line rest : Text} {names : List Text}

theorem directiveNames?_eq_some_iff : directiveNames? line = some names
    ↔ ∃ c rest, trim line = directiveWord ++ c :: rest ∧ isWhiteSpace c = true
      ∧ names = listedNames (c :: rest) := by
  constructor
  · intro h
    unfold directiveNames? at h
    split at h
    · next c rest hrest =>
      split at h
      · next hc =>
        exact ⟨c, rest, dropLeading_eq_some_iff.mp hrest, hc, (Option.some.inj h).symm⟩
      · contradiction
    · contradiction
  · rintro ⟨c, rest, htrim, hc, rfl⟩
    rw [directiveNames?, dropLeading_eq_some_iff.mpr htrim]
    exact if_pos hc

/-- A name of a directive is not empty and holds neither commas nor parentheses. -/
theorem plain_of_mem_listedNames {name : Text} (h : name ∈ listedNames rest) :
    name ≠ [] ∧ ∀ c ∈ name, c ≠ ',' ∧ isParenthesis c = false := by
  obtain ⟨hmem, hne⟩ := mem_filled_iff.mp h
  obtain ⟨entry, hentry, rfl⟩ := List.mem_map.mp hmem
  refine ⟨hne, fun c hc => ⟨?_, not_isParenthesis_of_mem_bareName hc⟩⟩
  rintro rfl
  have hcomma : ',' ∈ entry := mem_of_mem_trim (List.mem_of_mem_filter hc)
  exact not_mem_of_mem_splitOn hentry hcomma

end Directives

/-- **The names of a directive are keys as far as its entries are tight.**  They are what the entries
between its commas leave, in their order, but for those that leave nothing.  None is empty or holds a
comma or a parenthesis; and a name has no blank ends, and is left as it is where it is read as an entry
once more, exactly if its entry is tight. -/
theorem directive_names_are_keys_iff {line : Text} {names : List Text}
    (h : directiveNames? line = some names) :
    ∃ entries : List Text, trim line = directiveWord ++ [','].intercalate entries
      ∧ (∀ e ∈ entries, ',' ∉ e)
      ∧ names = filled (entries.map bareName)
      ∧ (∀ name ∈ names, name ≠ [] ∧ ∀ c ∈ name, c ≠ ',' ∧ isParenthesis c = false)
      ∧ ∀ e ∈ entries, bareName e ∈ names →
        (IsKey (bareName e) ↔ IsTight e) ∧ (bareName (bareName e) = bareName e ↔ IsTight e) := by
  obtain ⟨c, rest, htrim, -, rfl⟩ := directiveNames?_eq_some_iff.mp h
  refine ⟨(c :: rest).splitOn ',', ?_, fun e he => not_mem_of_mem_splitOn he, rfl,
    fun name hname => plain_of_mem_listedNames hname, fun e _ he => ?_⟩
  · rw [List.intercalate_splitOn, htrim]
  · obtain ⟨hne, hplain⟩ := plain_of_mem_listedNames he
    have htight := trim_bareName_eq_self_iff e
    refine ⟨⟨fun hkey => htight.mp hkey.trimmed, fun ht => ⟨hne, hplain, htight.mpr ht⟩⟩, ?_⟩
    rw [bareName_eq_self_iff fun c hc => (hplain c hc).2, htight]

theorem directive_names_are_keys_iff_mixed :
    directiveNames? "  @docs ( map ), ( :: ,fst, ()".toList
        = some [" map ".toList, " ::".toList, "fst".toList]
      ∧ ∃ entries : List Text,
        trim "  @docs ( map ), ( :: ,fst, ()".toList = directiveWord ++ [','].intercalate entries
          ∧ (∀ e ∈ entries, ',' ∉ e)
          ∧ [" map ".toList, " ::".toList, "fst".toList] = filled (entries.map bareName)
          ∧ (∀ name ∈ [" map ".toList, " ::".toList, "fst".toList],
            name ≠ [] ∧ ∀ c ∈ name, c ≠ ',' ∧ isParenthesis c = false)
          ∧ ∀ e ∈ entries, bareName e ∈ [" map ".toList, " ::".toList, "fst".toList] →
            (IsKey (bareName e) ↔ IsTight e)
              ∧ (bareName (bareName e) = bareName e ↔ IsTight e) := by
  have h : directiveNames? "  @docs ( map ), ( :: ,fst, ()".toList
      = some [" map ".toList, " ::".toList, "fst".toList] := by decide
  exact ⟨h, directive_names_are_keys_iff h⟩

/-- A name may have blank ends, so it is not the one that is read from it as an entry. -/
theorem directiveNames?_bares_blank :
    directiveNames? "@docs ( map )".toList = some [" map ".toList]
      ∧ trim " map ".toList ≠ " map ".toList ∧ bareName " map ".toList = "map".toList := by
  refine ⟨?_, ?_, ?_⟩ <;> decide

end RefBook
