import RefBook.Proofs.Page.Splicing
import RefBook.Proofs.Text.Returns

/-!
# RefBook.Proofs.Page.NormalForm — comments that list nothing

Without directives a comment becomes prose whatever is declared: its empty lines go, and its headings of
the first level go down one.  Nothing is left then that would have to go or go down once more.

* `resolve_of_not_directive`: what becomes of such a comment, line by line.
* `IsProse`: texts in normal form; `isProse_unlines`: lines of which none is empty, a heading or a
  directive make one.
* `resolve_eq_self`: a text in normal form stays as it is.  It must not hold carriage returns, as each
  pass takes one off the end of a line.
* `resolve_prose`: all of this for every comment without directives.
-/

namespace RefBook

/-! ## Lines -/

/-- Nothing is left of a demoted line only where there was nothing. -/
theorem filled_map_demoted (ls : List Text) :
    filled (ls.map demoted) = (filled ls).map demoted := by
  have hempty : ∀ l : Text, (!(demoted l).isEmpty) = !l.isEmpty := by
    intro l
    congr 1
    rw [Bool.eq_iff_iff, List.isEmpty_iff, List.isEmpty_iff, demoted_eq_nil_iff]
  unfold filled
  rw [List.filter_map]
  exact congrArg (List.map demoted) (List.filter_congr fun l _ => hempty l)

section Lines

variable {ls : List Text} (owner : Text) (c : Catalog)

/-- Lines that are no directives are demoted, whatever the catalog holds. -/
theorem resolveLines_of_not_directive (h : ∀ l ∈ ls, directiveNames? l = none) :
    resolveLines owner c ls = .ok ((filled ls).map demoted) := by
  have hnames : ls.flatMap lineNames = [] := by
    rw [List.flatMap_eq_nil_iff]
    intro l hl
    exact lineNames_of_not_directive (h l hl)
  have hshown : ls.map c.shown = ls.map demoted := by
    apply List.map_congr_left
    intro l hl
    rw [Catalog.shown, h l hl]
  rw [resolveLines_eq, hnames, hshown]
  exact congrArg Except.ok (filled_map_demoted ls)

theorem resolve_of_not_directive {comment : Text}
    (h : ∀ l ∈ lines comment, directiveNames? l = none) :
    resolve owner c comment = .ok (unlines ((filled (lines comment)).map demoted)) := by
  rw [resolve, resolveLines_of_not_directive owner c h]
  rfl

/-- Without carriage returns the lines are what stands between the line feeds, but for empty ones. -/
theorem filled_lines {t : Text} (h : '\r' ∉ t) : filled (lines t) = filled (t.splitOn '\n') := by
  have hlast : t.getLast? ≠ some '\r' := fun hr => h (List.mem_of_getLast? hr)
  have hpieces : endedLines t = t.splitOn '\n' := by
    unfold endedLines
    rw [List.map_congr_left fun p hp => dropReturn_of_not_mem (noReturns_splitOn h p hp),
      List.map_id']
  rw [← filled_endedLines hlast, hpieces]

end Lines

/-! ## Texts in normal form -/

/-- A line that a section shows as it is. -/
structure IsProseLine (l : Text) : Prop where
  /-- It does not go. -/
  ne_nil : l ≠ []
  /-- It is one line. -/
  newline_not_mem : '\n' ∉ l
  /-- It does not go down one level. -/
  not_heading : isHeading l = false
  /-- It lists no names. -/
  not_directive : directiveNames? l = none

/-- Prose as a section shows it: unless the text is empty, none of its lines is; none is a heading of the
first level, and none is a directive. -/
structure IsProse (t : Text) : Prop where
  /-- Only the empty text has an empty line. -/
  eq_nil : ∀ l ∈ t.splitOn '\n', l = [] → t = []
  /-- No line competes with the heading of the section. -/
  not_heading : ∀ l ∈ t.splitOn '\n', isHeading l = false
  /-- No line lists names. -/
  not_directive : ∀ l ∈ t.splitOn '\n', directiveNames? l = none

section Prose

variable {t comment : Text} {ls : List Text}

theorem isProse_nil : IsProse [] := by
  have hempty : ∀ l ∈ ([] : Text).splitOn '\n', l = [] := by decide
  refine ⟨fun _ _ _ => rfl, ?_, ?_⟩
  · intro l hl
    rw [hempty l hl]
    rfl
  · intro l hl
    rw [hempty l hl]
    rfl

/-- The lines that are not empty make up all of the text. -/
theorem IsProse.unlines_filled (h : IsProse t) : unlines (filled (t.splitOn '\n')) = t := by
  by_cases ht : t = []
  · rw [ht]
    rfl
  · have hall : filled (t.splitOn '\n') = t.splitOn '\n' := by
      apply filled_eq_self
      intro l hl hnil
      exact ht (h.eq_nil l hl hnil)
    rw [hall]
    exact List.intercalate_splitOn '\n'

/-- Lines of prose make a text in normal form, and are its lines. -/
theorem isProse_unlines (h : ∀ l ∈ ls, IsProseLine l) :
    IsProse (unlines ls) ∧ filled ((unlines ls).splitOn '\n') = ls := by
  by_cases hls : ls = []
  · rw [hls]
    exact ⟨isProse_nil, rfl⟩
  · have hsplit := splitOn_unlines hls fun l hl => (h l hl).newline_not_mem
    rw [hsplit]
    refine ⟨⟨?_, ?_, ?_⟩, filled_eq_self fun l hl => (h l hl).ne_nil⟩
    · rw [hsplit]
      intro l hl hnil
      exact absurd hnil (h l hl).ne_nil
    · rw [hsplit]
      intro l hl
      exact (h l hl).not_heading
    · rw [hsplit]
      intro l hl
      exact (h l hl).not_directive

/-- What is left of a line that is no directive is a line of prose. -/
theorem isProseLine_demoted (h : ∀ l ∈ lines comment, directiveNames? l = none) :
    ∀ d ∈ (filled (lines comment)).map demoted, IsProseLine d := by
  intro d hd
  obtain ⟨l, hl, rfl⟩ := List.mem_map.mp hd
  obtain ⟨hmem, hne⟩ := mem_filled_iff.mp hl
  refine ⟨?_, ?_, isHeading_demoted l, ?_⟩
  · intro hnil
    exact hne (demoted_eq_nil_iff.mp hnil)
  · exact not_mem_demoted (by decide) (newline_not_mem_of_mem_lines hmem)
  · rw [directiveNames?_demoted, h l hmem]

/-- Prose stays as it is, whatever the catalog holds. -/
theorem resolve_eq_self (h : IsProse t) (hreturns : '\r' ∉ t) (owner : Text) (c : Catalog) :
    resolve owner c t = .ok t := by
  have hdemoted : (filled (t.splitOn '\n')).map demoted = filled (t.splitOn '\n') := by
    have hsame : ∀ l ∈ filled (t.splitOn '\n'), demoted l = id l := by
      intro l hl
      exact demoted_of_not_isHeading (h.not_heading l (mem_filled_iff.mp hl).1)
    rw [List.map_congr_left hsame, List.map_id]
  have hlines : resolveLines owner c (lines t) = .ok (filled (t.splitOn '\n')) := by
    rw [← resolveLines_filled, filled_lines hreturns, resolveLines_filled,
      resolveLines_of_not_directive owner c h.not_directive, hdemoted]
  rw [resolve, hlines]
  exact congrArg Except.ok h.unlines_filled

end Prose

/-- **A comment without directives becomes prose in normal form.**  It does so whatever the catalog
holds.  No line of the prose is empty unless all of it is, and none is a heading of the first level or a
directive.  Its lines are those of the comment that are not empty, each once and in their order, a heading
of the first level with one more mark and any other as it is.  Without carriage returns in the comment the
prose is left as it is where it is resolved once more. -/
theorem resolve_prose {comment : Text} (h : ∀ l ∈ lines comment, directiveNames? l = none)
    (owner : Text) (c : Catalog) :
    ∃ text, resolve owner c comment = .ok text ∧ IsProse text
      ∧ filled (text.splitOn '\n') = (filled (lines comment)).map demoted
      ∧ ('\r' ∉ comment → resolve owner c text = .ok text) := by
  obtain ⟨hprose, hlines⟩ := isProse_unlines (isProseLine_demoted h)
  refine ⟨_, resolve_of_not_directive owner c h, hprose, hlines, ?_⟩
  intro hreturns
  apply resolve_eq_self hprose
  apply return_not_mem_unlines
  intro d hd
  obtain ⟨l, hl, rfl⟩ := List.mem_map.mp hd
  exact not_mem_demoted (by decide) (noReturns_lines hreturns l (mem_filled_iff.mp hl).1)

/-- Lines of every kind but directives, and one that only looks like a directive. -/
def proseComment : Text :=
  "# Maps\n\n  \n## Deeper\n    # Code\n\n# 1\n@docsmap\n#Two\n".toList

theorem resolve_prose_kinds :
    (∀ l ∈ lines proseComment, directiveNames? l = none) ∧ '\r' ∉ proseComment
      ∧ ∃ text, resolve [] {} proseComment = .ok text ∧ IsProse text
        ∧ filled (text.splitOn '\n') = (filled (lines proseComment)).map demoted
        ∧ resolve [] {} text = .ok text := by
  have h : ∀ l ∈ lines proseComment, directiveNames? l = none := by decide
  have hreturns : '\r' ∉ proseComment := by decide
  obtain ⟨text, htext, hprose, hlines, hagain⟩ := resolve_prose h [] {}
  exact ⟨h, hreturns, text, htext, hprose, hlines, hagain hreturns⟩

/-- Each pass takes a carriage return off the end of a line. -/
example : resolve [] {} "a\r\r\nb".toList = .ok "a\r\nb".toList
    ∧ resolve [] {} "a\r\nb".toList = .ok "a\nb".toList := by decide

end RefBook
