import Mathlib.Data.List.Forall2
import RefBook.Proofs.Page.Resolution
import RefBook.Proofs.Text.Lines

/-!
# RefBook.Proofs.Page.Splicing — comments put together

* `resolveLines_filled`: empty lines leave nothing, so they may as well go first.
* `unlines_resolveLines_append`, `resolve_append`: a comment is resolved part by part.
* `resolve_splice`: a comment that is cut at a line feed fails as its first part does, else as its
  second one, else its text is that of the parts; and a directive between two parts leaves its
  entries there, as they are.
-/

namespace RefBook

section Parts

variable (owner : Text) (c : Catalog)

/-! ## Lines in parts -/

theorem resolveLine_nil : resolveLine owner c [] = .ok [] := rfl

/-- Nothing becomes of an empty line. -/
theorem resolveLines_filled (ls : List Text) :
    resolveLines owner c (filled ls) = resolveLines owner c ls := by
  induction ls with
  | nil => rfl
  | cons l ls ih =>
    by_cases hl : l = []
    · have hdropped : resolveLines owner c ([] :: ls) = resolveLines owner c ls := by
        rw [resolveLines, resolveLine_nil]
        cases resolveLines owner c ls <;> rfl
      rw [hl, filled_nil_cons, ih, hdropped]
    · rw [filled_cons_of_ne_nil hl, resolveLines, ih, resolveLines]

/-- The complaint about the names that lines list, in their order. -/
def linesComplaint? (ls : List Text) : Option Unresolved :=
  c.complaint? owner (ls.flatMap lineNames)

theorem unlines_resolveLines (ls : List Text) :
    unlines <$> resolveLines owner c ls
      = outcome (linesComplaint? owner c ls) (joined (ls.map c.shown)) := by
  rw [resolveLines_eq, outcome_map]
  rfl

theorem linesComplaint?_append (ls ks : List Text) :
    linesComplaint? owner c (ls ++ ks)
      = (linesComplaint? owner c ls).or (linesComplaint? owner c ks) := by
  rw [linesComplaint?, List.flatMap_append, Catalog.complaint?_append]
  rfl

/-- Lines are resolved part by part, and the first complaint wins. -/
theorem unlines_resolveLines_append (ls ks : List Text) :
    unlines <$> resolveLines owner c (ls ++ ks) = (do
      let x ← unlines <$> resolveLines owner c ls
      let y ← unlines <$> resolveLines owner c ks
      return joined [x, y]) := by
  rw [unlines_resolveLines, unlines_resolveLines, unlines_resolveLines, outcome_both,
    linesComplaint?_append, List.map_append, joined_append]

/-! ## Comments in parts -/

/-- A line feed behind a comment adds an empty line at most. -/
theorem resolveLines_endedLines {a : Text} (h : a.getLast? ≠ some '\r') :
    resolveLines owner c (endedLines a) = resolveLines owner c (lines a) := by
  rw [← resolveLines_filled, filled_endedLines h, resolveLines_filled]

theorem resolve_append {a : Text} (h : a.getLast? ≠ some '\r') (b : Text) :
    resolve owner c (a ++ '\n' :: b) = (do
      let x ← resolve owner c a
      let y ← resolve owner c b
      return joined [x, y]) := by
  rw [resolve, lines_append, unlines_resolveLines_append, resolveLines_endedLines owner c h]
  rfl

variable {c}

/-- A directive whose names all have entries leaves these, one after the other. -/
theorem unlines_resolveLines_directive {d : Text} {names : List Text} (hd : '\n' ∉ d)
    (hnames : Line.ofText d = .directive names) (hkeys : ∀ n ∈ names, n ∈ c.keys) :
    ∃ blocks, List.Forall₂ (fun n e => c.get? n = some e) names blocks
      ∧ unlines <$> resolveLines owner c (endedLines d) = .ok blocks.flatten := by
  have hdirective : directiveNames? (dropReturn d) = some names := by
    rw [directiveNames?_dropReturn, directiveNames?_of_ofText hnames]
  have hnone : linesComplaint? owner c [dropReturn d] = none := by
    rw [linesComplaint?, List.flatMap_singleton, lineNames_of_directive hdirective,
      Catalog.complaint?, Option.map_eq_none_iff, List.find?_eq_none]
    intro n hn
    obtain ⟨e, he⟩ := Catalog.exists_get?_of_mem_keys (hkeys n hn)
    simp [he]
  refine ⟨names.map c.block, ?_, ?_⟩
  · rw [List.forall₂_map_right_iff, List.forall₂_same]
    intro n hn
    obtain ⟨e, he⟩ := Catalog.exists_get?_of_mem_keys (hkeys n hn)
    rw [Catalog.block, he, Option.getD_some]
  · rw [endedLines_of_not_mem hd, unlines_resolveLines, hnone, List.map_singleton,
      joined_singleton, Catalog.shown, hdirective]
    rfl

end Parts

/-- **Comments are resolved part by part.**  A comment that is cut at a line feed, not right behind
a carriage return, fails as its first part does, else as its second one; else it becomes what they
become, with a line feed between unless one is empty.  A line between the parts that is a directive
leaves the entries of its names there, in their order and as they are. -/
theorem resolve_splice (owner : Text) (c : Catalog) {a : Text} (ha : a.getLast? ≠ some '\r')
    (b : Text) :
    (resolve owner c (a ++ '\n' :: b) = do
        let x ← resolve owner c a
        let y ← resolve owner c b
        return joined [x, y])
      ∧ ∀ (d : Text) (names : List Text) (x y : Text), '\n' ∉ d →
        Line.ofText d = .directive names → (∀ n ∈ names, n ∈ c.keys) →
        resolve owner c a = .ok x → resolve owner c b = .ok y →
        ∃ blocks, List.Forall₂ (fun n e => c.get? n = some e) names blocks
          ∧ resolve owner c (a ++ '\n' :: d ++ '\n' :: b)
            = .ok (joined [x, blocks.flatten, y]) := by
  refine ⟨resolve_append owner c ha b, ?_⟩
  intro d names x y hd hnames hkeys hx hy
  obtain ⟨blocks, hblocks, hline⟩ := unlines_resolveLines_directive owner hd hnames hkeys
  refine ⟨blocks, hblocks, ?_⟩
  have hlast : resolve owner c (d ++ '\n' :: b) = .ok (joined [blocks.flatten, y]) := by
    rw [resolve, lines_append, unlines_resolveLines_append, hline, ← resolve, hy]
    rfl
  have hthree : joined [x, joined [blocks.flatten, y]] = joined [x, blocks.flatten, y] := by
    have hpair := joined_append [x] [blocks.flatten, y]
    rw [joined_singleton] at hpair
    exact hpair.symm
  rw [List.append_assoc, List.cons_append, resolve_append owner c ha, hx, hlast, ← hthree]
  rfl

/-- Two entries, one of which ends in blank lines. -/
def spliceCatalog : Catalog :=
  ⟨[("fst".toList, "<F>".toList), ("::".toList, "<C>\n\n".toList)]⟩

theorem resolve_splice_cons :
    resolve [] spliceCatalog "# Intro\n".toList = .ok "## Intro".toList
      ∧ resolve [] spliceCatalog "\nend\r".toList = .ok "end\r".toList
      ∧ ∃ blocks, List.Forall₂ (fun n e => spliceCatalog.get? n = some e)
          ["::".toList, "fst".toList] blocks
        ∧ resolve [] spliceCatalog
            ("# Intro\n".toList ++ '\n' :: "  @docs (::), fst\r".toList ++ '\n' :: "\nend\r".toList)
          = .ok (joined ["## Intro".toList, blocks.flatten, "end\r".toList]) := by
  have hx : resolve [] spliceCatalog "# Intro\n".toList = .ok "## Intro".toList := by decide
  have hy : resolve [] spliceCatalog "\nend\r".toList = .ok "end\r".toList := by decide
  exact ⟨hx, hy, (resolve_splice [] spliceCatalog (by decide) _).2 _ _ _ _ (by decide)
    (by decide) (by decide) hx hy⟩

end RefBook
