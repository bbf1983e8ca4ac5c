import Mathlib.Data.List.Forall2
import RefBook.Name.Operator
import RefBook.Proofs.Comment.Entries

/-!
# RefBook.Proofs.Comment.Directives — directives as they are written

* `IsPadding`: blank space within a line.
* `SpellsEntries`, `SpellsDirective`: the lines that list names, each displayed in a style of its own, with
  padding around them and with entries of padding alone between them.
* `bareName_display`: the displayed form of a key is read as the key.
* `listedNames_append_blank`, `listedNames_blank_append`: padding at the ends of a line leaves the names.
* `documentedNames_unlines`: the names of a comment are those of its lines.
* `directive_roundTrip`: so a line that lists names is a directive with these names, and a comment of such
  lines and others documents the names of all of them in order.
-/

namespace RefBook

open Unicode (isWhiteSpace)

/-! ## Lines that list names -/

/-- Blank space within a line. -/
def IsPadding (t : Text) : Prop :=
  isBlank t = true ∧ '\n' ∉ t

instance (t : Text) : Decidable (IsPadding t) :=
  inferInstanceAs (Decidable (isBlank t = true ∧ '\n' ∉ t))

/-- The entries list the names, in their order. -/
inductive SpellsEntries : List Text → List Text → Prop where
  /-- Nothing is listed. -/
  | nil : SpellsEntries [] []
  /-- An entry of padding lists no name. -/
  | padding {entry : Text} {names entries : List Text} (hentry : IsPadding entry)
      (h : SpellsEntries names entries) : SpellsEntries names (entry :: entries)
  /-- An entry that displays a name, with padding around it. -/
  | name {left name right : Text} {names entries : List Text} (style : OperatorStyle)
      (hname : IsKey name) (hline : '\n' ∉ name) (hleft : IsPadding left) (hright : IsPadding right)
      (h : SpellsEntries names entries) :
      SpellsEntries (name :: names) ((left ++ style.display name ++ right) :: entries)

/-- The line is a directive that lists the names. -/
inductive SpellsDirective (names : List Text) : Text → Prop where
  /-- Padding, the word, more padding, the entries with commas between, and padding at the end. -/
  | mk {lead gap tail : Text} {entries : List Text} (hnames : names ≠ []) (hlead : IsPadding lead)
      (hgap : IsPadding gap) (hne : gap ≠ []) (hentries : SpellsEntries names entries)
      (htail : IsPadding tail) :
      SpellsDirective names (lead ++ directiveWord ++ gap ++ [','].intercalate entries ++ tail)

/-- The line lists the names as a directive, or it is no directive and lists none. -/
inductive SpellsLine : List Text → Text → Prop where
  /-- A directive. -/
  | directive {names : List Text} {line : Text} (h : SpellsDirective names line) :
      SpellsLine names line
  /-- Another line. -/
  | other {line : Text} (hline : '\n' ∉ line) (h : directiveNames? line = none) :
      SpellsLine [] line

/-! ## Names and their displayed forms -/

section Names

variable {b name t : Text} {style : OperatorStyle}

theorem bareName_of_isBlank (h : isBlank b = true) : bareName b = [] := by
  rw [bareName, trim_eq_nil_iff.mpr h, List.filter_nil]

theorem bareName_blank_append (h : isBlank b = true) (t : Text) : bareName (b ++ t) = bareName t := by
  rw [bareName, trim_blank_append h, bareName]

theorem bareName_append_blank (h : isBlank b = true) (t : Text) : bareName (t ++ b) = bareName t := by
  rw [bareName, trim_append_of_blank h, bareName]

/-- The displayed form of a key is read as the key: the parentheses around an operator go. -/
theorem bareName_display (h : IsKey name) (style : OperatorStyle) :
    bareName (style.display name) = name := by
  cases style with
  | bare => exact h.bareName_eq
  | decorated =>
    rw [OperatorStyle.display]
    split
    · have htrim : trim ('(' :: name ++ [')']) = '(' :: name ++ [')'] := by
        refine trim_eq_self_iff.mpr ⟨?_, ?_⟩
        · rintro c ⟨rfl⟩
          decide
        · intro c hc
          rw [List.getLast?_concat] at hc
          obtain rfl := Option.some.inj hc
          decide
      have hplain : name.filter (!isParenthesis ·) = name :=
        List.filter_eq_self.mpr fun c hc => by simp [(h.plain c hc).2]
      rw [bareName_eq, htrim, List.filter_append, List.filter_cons_of_neg (by decide), hplain,
        List.filter_cons_of_neg (by decide), List.filter_nil, List.append_nil]
    · exact h.bareName_eq

theorem mem_of_mem_display {c : Char} (h : c ∈ style.display name) :
    c ∈ name ∨ isParenthesis c = true := by
  cases style with
  | bare => exact Or.inl h
  | decorated =>
    rw [OperatorStyle.display] at h
    split at h
    · rw [List.cons_append, List.mem_cons, List.mem_append, List.mem_singleton] at h
      rcases h with rfl | h | rfl
      · exact Or.inr rfl
      · exact Or.inl h
      · exact Or.inr rfl
    · exact Or.inl h

end Names

/-! ## Padding at the ends of a line -/

section Padding

variable {b t lead gap : Text}

theorem comma_not_mem_of_isBlank (h : isBlank b = true) : ',' ∉ b := by
  intro hc
  have hblank := forall_mem_of_isBlank h ',' hc
  contradiction

theorem listedNames_blank_append (hb : isBlank b = true) (t : Text) :
    listedNames (b ++ t) = listedNames t := by
  obtain ⟨e, es, hcut⟩ := List.exists_cons_of_ne_nil (List.splitOn_ne_nil ',' t)
  have hcommas : ∀ e' ∈ t.splitOn ',', ',' ∉ e' := fun _ he => not_mem_of_mem_splitOn he
  rw [hcut, List.forall_mem_cons] at hcommas
  have ht : b ++ t = [','].intercalate ((b ++ e) :: es) :=
    calc b ++ t = b ++ [','].intercalate (e :: es) := by rw [← hcut, List.intercalate_splitOn]
      _ = [','].intercalate ((b ++ e) :: es) := by
        rw [intercalate_cons, intercalate_cons, List.append_assoc]
  have hpadded : ∀ e' ∈ (b ++ e) :: es, ',' ∉ e' := by
    refine List.forall_mem_cons.mpr ⟨?_, hcommas.2⟩
    rw [List.mem_append, not_or]
    exact ⟨comma_not_mem_of_isBlank hb, hcommas.1⟩
  rw [listedNames, ht, List.splitOn_intercalate ',' hpadded (List.cons_ne_nil _ _), List.map_cons,
    bareName_blank_append hb, ← List.map_cons, ← hcut, listedNames]

theorem listedNames_append_blank (hb : isBlank b = true) (t : Text) :
    listedNames (t ++ b) = listedNames t := by
  obtain ⟨es, last, hcut⟩ : ∃ es last, t.splitOn ',' = es ++ [last] :=
    ⟨_, _, (List.dropLast_concat_getLast (List.splitOn_ne_nil ',' t)).symm⟩
  have hcommas : ∀ e' ∈ t.splitOn ',', ',' ∉ e' := fun _ he => not_mem_of_mem_splitOn he
  rw [hcut, List.forall_mem_append, List.forall_mem_singleton] at hcommas
  have ht : t ++ b = [','].intercalate (es ++ [last ++ b]) := by
    rw [← intercalate_concat_append, ← hcut, List.intercalate_splitOn]
  have hpadded : ∀ e' ∈ es ++ [last ++ b], ',' ∉ e' := by
    rw [List.forall_mem_append, List.forall_mem_singleton, List.mem_append, not_or]
    exact ⟨hcommas.1, hcommas.2, comma_not_mem_of_isBlank hb⟩
  rw [listedNames, ht, List.splitOn_intercalate ',' hpadded (by simp), List.map_append,
    List.map_singleton, bareName_append_blank hb, ← List.map_singleton, ← List.map_append, ← hcut,
    listedNames]

theorem listedNames_of_isBlank (h : isBlank t = true) : listedNames t = [] := by
  have hnil : listedNames [] = [] := rfl
  rw [← List.append_nil t, listedNames_blank_append h, hnil]

/-- The word, blank space behind it and anything that is not blank are a directive, wherever on its line
it stands. -/
theorem directiveNames?_written (hlead : isBlank lead = true) (hgap : isBlank gap = true)
    (hne : gap ≠ []) (ht : isBlank t = false) :
    directiveNames? (lead ++ (directiveWord ++ (gap ++ t))) = some (listedNames t) := by
  obtain ⟨c, g, rfl⟩ := List.exists_cons_of_ne_nil hne
  have hc : isWhiteSpace c = true := forall_mem_of_isBlank hgap c List.mem_cons_self
  have htrim : trim (lead ++ (directiveWord ++ (c :: g ++ t)))
      = directiveWord ++ c :: (g ++ trimEnd t) := by
    have hword : directiveWord ++ (c :: g ++ t) = '@' :: ("docs".toList ++ c :: g ++ t) := by
      rw [List.append_assoc]
      rfl
    rw [trim_blank_append hlead, hword, trim_cons_of_not_blank (by decide),
      trimEnd_append_of_not_blank ht, List.append_assoc]
    rfl
  refine directiveNames?_eq_some_iff.mpr ⟨c, g ++ trimEnd t, htrim, hc, ?_⟩
  obtain ⟨b, hb, hcut⟩ := exists_eq_trimEnd_append t
  calc listedNames t = listedNames (trimEnd t ++ b) := by rw [← hcut]
    _ = listedNames (trimEnd t) := listedNames_append_blank hb _
    _ = listedNames (c :: g ++ trimEnd t) := (listedNames_blank_append hgap _).symm

end Padding

/-! ## Reading what was written -/

namespace SpellsEntries

variable {names entries : List Text}

/-- The entries hold no commas and no line feeds. -/
theorem not_mem (h : SpellsEntries names entries) : ∀ e ∈ entries, ',' ∉ e ∧ '\n' ∉ e := by
  induction h with
  | nil => exact List.forall_mem_nil _
  | padding hentry _ ih =>
    exact List.forall_mem_cons.mpr ⟨⟨comma_not_mem_of_isBlank hentry.1, hentry.2⟩, ih⟩
  | name style hname hline hleft hright _ ih =>
    refine List.forall_mem_cons.mpr ⟨?_, ih⟩
    simp only [List.mem_append, not_or]
    refine ⟨⟨⟨comma_not_mem_of_isBlank hleft.1, fun hc => ?_⟩, comma_not_mem_of_isBlank hright.1⟩,
      ⟨hleft.2, fun hc => ?_⟩, hright.2⟩
    · rcases mem_of_mem_display hc with hc | hc
      · exact (hname.plain _ hc).1 rfl
      · contradiction
    · rcases mem_of_mem_display hc with hc | hc
      · exact hline hc
      · contradiction

theorem filled_map_bareName (h : SpellsEntries names entries) :
    filled (entries.map bareName) = names := by
  induction h with
  | nil => rfl
  | padding hentry _ ih =>
    rw [List.map_cons, bareName_of_isBlank hentry.1, filled_nil_cons, ih]
  | name style hname hline hleft hright _ ih =>
    rw [List.map_cons, bareName_append_blank hright.1, bareName_blank_append hleft.1,
      bareName_display hname, filled_cons_of_ne_nil hname.ne_nil, ih]

theorem listedNames_intercalate (h : SpellsEntries names entries) (hne : names ≠ []) :
    listedNames ([','].intercalate entries) = names := by
  have hentries : entries ≠ [] := by
    rintro rfl
    cases h
    exact hne rfl
  rw [listedNames, List.splitOn_intercalate ',' (fun e he => (h.not_mem e he).1) hentries,
    h.filled_map_bareName]

end SpellsEntries

namespace SpellsDirective

variable {names : List Text} {line : Text}

theorem directiveNames?_eq (h : SpellsDirective names line) : directiveNames? line = some names := by
  cases h with
  | @mk lead gap tail entries hnames hlead hgap hne hentries htail =>
    have hlisted : listedNames ([','].intercalate entries ++ tail) = names := by
      rw [listedNames_append_blank htail.1, hentries.listedNames_intercalate hnames]
    have hblank : isBlank ([','].intercalate entries ++ tail) = false := by
      rw [← Bool.not_eq_true]
      intro hblank
      rw [listedNames_of_isBlank hblank] at hlisted
      exact hnames hlisted.symm
    rw [List.append_assoc, List.append_assoc, List.append_assoc,
      directiveNames?_written hlead.1 hgap.1 hne hblank, hlisted]

theorem ofText_eq (h : SpellsDirective names line) : Line.ofText line = .directive names := by
  rw [Line.ofText_eq, h.directiveNames?_eq]

theorem newline_not_mem (h : SpellsDirective names line) : '\n' ∉ line := by
  cases h with
  | @mk lead gap tail entries _ hlead hgap _ hentries htail =>
    have hword : '\n' ∉ directiveWord := by decide
    have hbody : '\n' ∉ [','].intercalate entries :=
      not_mem_intercalate (by decide) fun e he => (hentries.not_mem e he).2
    simp only [List.mem_append, not_or]
    exact ⟨⟨⟨⟨hlead.2, hword⟩, hgap.2⟩, hbody⟩, htail.2⟩

end SpellsDirective

/-! ## Comments -/

theorem lineNames_dropReturn (line : Text) : lineNames (dropReturn line) = lineNames line := by
  rw [lineNames, directiveNames?_dropReturn, lineNames]

/-- The names of a comment are those of its lines. -/
theorem documentedNames_unlines {ls : List Text} (h : ∀ l ∈ ls, '\n' ∉ l) :
    documentedNames (unlines ls) = ls.flatMap lineNames := by
  rcases List.eq_nil_or_concat ls with rfl | ⟨init, last, rfl⟩
  · rfl
  · have hlast : (linesOfPieces [last]).flatMap lineNames = lineNames last := by
      rw [linesOfPieces]
      split
      · next hnil =>
        rw [List.isEmpty_iff.mp hnil]
        rfl
      · exact List.flatMap_singleton ..
    have hinit : (init.map dropReturn).flatMap lineNames = init.flatMap lineNames := by
      rw [List.flatMap_map]
      exact List.flatMap_congr fun l _ => lineNames_dropReturn l
    rw [List.concat_eq_append] at h ⊢
    rw [documentedNames_eq, lines_unlines_concat h, List.flatMap_append, hinit, hlast,
      List.flatMap_append, List.flatMap_singleton]

namespace SpellsLine

variable {names : List Text} {line : Text}

theorem lineNames_eq (h : SpellsLine names line) : lineNames line = names := by
  cases h with
  | directive h => exact lineNames_of_directive h.directiveNames?_eq
  | other hline h => exact lineNames_of_not_directive h

theorem newline_not_mem (h : SpellsLine names line) : '\n' ∉ line := by
  cases h with
  | directive h => exact h.newline_not_mem
  | other hline h => exact hline

end SpellsLine

/-- **What is listed is read.**  A line of padding, the word of a directive, more padding and entries with
commas between, each of which is padding or displays a key in any style, is a directive with these keys in
their order, however far it is indented.  A comment of such lines and others that are no directives
documents the names of all its lines, in order. -/
theorem directive_roundTrip :
    (∀ (names : List Text) (line : Text), SpellsDirective names line →
        Line.ofText line = .directive names)
      ∧ ∀ (listed : List (List Text)) (ls : List Text), List.Forall₂ SpellsLine listed ls →
        documentedNames (unlines ls) = listed.flatten := by
  refine ⟨fun names line h => h.ofText_eq, fun listed ls h => ?_⟩
  have hfeeds : ∀ l ∈ ls, '\n' ∉ l := by
    induction h with
    | nil => exact List.forall_mem_nil _
    | cons hline _ ih => exact List.forall_mem_cons.mpr ⟨hline.newline_not_mem, ih⟩
  rw [documentedNames_unlines hfeeds]
  induction h with
  | nil => rfl
  | cons hline _ ih =>
    rw [List.flatMap_cons, hline.lineNames_eq, List.flatten_cons,
      ih (List.forall_mem_cons.mp hfeeds).2]

theorem isKey_cons : IsKey "::".toList := ⟨by decide, by simp [isParenthesis], by decide⟩

theorem isKey_map : IsKey "map".toList := ⟨by decide, by simp [isParenthesis], by decide⟩

/-- An operator and a function, listed on a line that is indented like code. -/
theorem spellsDirective_indented :
    SpellsDirective ["::".toList, "map".toList] "    @docs\t (::) ,,map, \r".toList := by
  have hentries : SpellsEntries ["::".toList, "map".toList]
      [" ".toList ++ OperatorStyle.decorated.display "::".toList ++ " ".toList, [],
        [] ++ OperatorStyle.decorated.display "map".toList ++ [], " ".toList] :=
    .name .decorated isKey_cons (by decide) (by decide) (by decide)
      (.padding (by decide)
        (.name .decorated isKey_map (by decide) (by decide) (by decide)
          (.padding (by decide) .nil)))
  have hline : "    @docs\t (::) ,,map, \r".toList
      = "    ".toList ++ directiveWord ++ "\t".toList
        ++ [','].intercalate
          [" ".toList ++ OperatorStyle.decorated.display "::".toList ++ " ".toList, [],
            [] ++ OperatorStyle.decorated.display "map".toList ++ [], " ".toList]
        ++ "\r".toList := by decide +kernel
  rw [hline]
  exact .mk (by decide) (by decide) (by decide) (by decide) hentries (by decide)

theorem directive_roundTrip_indented :
    SpellsDirective ["::".toList, "map".toList] "    @docs\t (::) ,,map, \r".toList
      ∧ Line.ofText "    @docs\t (::) ,,map, \r".toList
        = .directive ["::".toList, "map".toList]
      ∧ List.Forall₂ SpellsLine [["::".toList, "map".toList], [], ["::".toList, "map".toList]]
        ["    @docs\t (::) ,,map, \r".toList, "see @docs fst".toList,
          "    @docs\t (::) ,,map, \r".toList]
      ∧ documentedNames (unlines ["    @docs\t (::) ,,map, \r".toList, "see @docs fst".toList,
          "    @docs\t (::) ,,map, \r".toList])
        = ["::".toList, "map".toList, "::".toList, "map".toList] := by
  have hline := spellsDirective_indented
  have hother : SpellsLine [] "see @docs fst".toList := .other (by decide) (by decide)
  have hlines := List.Forall₂.cons (.directive hline)
    (.cons hother (.cons (.directive hline) List.Forall₂.nil))
  exact ⟨hline, directive_roundTrip.1 _ _ hline, hlines, directive_roundTrip.2 _ _ hlines⟩

end RefBook
