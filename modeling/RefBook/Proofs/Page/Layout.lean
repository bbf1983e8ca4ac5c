import RefBook.Proofs.Page.Resolution
import RefBook.Proofs.Text.Lines

/-!
# RefBook.Proofs.Page.Layout — the parts of a document

* `Shows`: the bullet and the section of one module.
* `Parts`: a document as the bullets of its modules, their sections, and a footer;
  `parts_of_document` takes one apart.
* `document_concat`: a module at the end adds a bullet after the others and a section after the
  others, and leaves all else as it is.
-/

namespace RefBook

/-! ## Documents in their parts -/

/-- The bullet and the section of a module by its outline. -/
structure Shows (style : OperatorStyle) (m : Module) (o : Outline) (line part : Text) : Prop where
  /-- The outline is headed by the module. -/
  heading_name : o.heading.name = m.name
  /-- It has the names that the module documents. -/
  entries_name : o.entries.map Link.name = documentedNames m.comment
  /-- The bullet links the module to its heading. -/
  line_eq : line = bullet m.name o.heading.anchor
  /-- The section has the index of the outline, and the body of the module. -/
  part_eq : ∃ body, m.body style = .ok body ∧ part
    = unlines (("# ".toList ++ m.name) :: [] :: o.index style ++ [[], body, []])

/-- A document is a title, bullets, sections and a footer, with a bullet and a section for each
module, in their order. -/
structure Parts (options : RenderOptions) (ms : List Module) (text : Text)
    (bullets sections : List Text) (foot : Text) : Prop where
  /-- A blank line follows the title, and another the bullets. -/
  text_eq : text = "# Modules\n\n".toList ++ ended bullets ++ '\n' :: ended sections ++ foot
  /-- Every bullet belongs to a module. -/
  length_bullets : bullets.length = ms.length
  /-- Every section belongs to a module. -/
  length_sections : sections.length = ms.length
  /-- Those of a module show it by its outline. -/
  shows : ∀ (i : Nat) (m : Module), ms[i]? = some m → ∃ o line part, (outlines ms)[i]? = some o
    ∧ bullets[i]? = some line ∧ sections[i]? = some part ∧ Shows options.style m o line part

/-- The bullets of the table of contents. -/
def contentsBullets (ms : List Module) : List Text :=
  (outlines ms).map fun o => bullet o.heading.name o.heading.anchor

theorem documentText_eq (options : RenderOptions) (ms : List Module) :
    documentText options ms = "# Modules\n\n".toList ++ ended (contentsBullets ms)
      ++ '\n' :: ended (sectionTexts options.style ms (outlines ms)) ++ footer options ms := by
  have htitle : "# ".toList ++ contentsTitle ++ ['\n', '\n'] = "# Modules\n\n".toList := by decide
  have hcontents : ended (contents (outlines ms))
      = "# Modules\n\n".toList ++ ended (contentsBullets ms) ++ ['\n'] := by
    rw [contents, ← contentsBullets, ended_append, ended_cons, ended_cons, ← htitle]
    simp only [List.append_assoc]
    rfl
  rw [documentText, unlines_concat, ended_append, hcontents]
  simp only [List.append_assoc]
  rfl

theorem shows_plan {style : OperatorStyle} {m : Module} (h : m.complaint? style = none)
    (r : Registry) :
    Shows style m (Outline.plan m r).1 (bullet m.name (Outline.plan m r).1.heading.anchor)
      (m.sectionText style (Outline.plan m r).1) :=
  ⟨rfl, Outline.map_name_entries_plan m r, rfl, _, Module.body_eq_ok h, rfl⟩

/-- The parts of a document about which there is no complaint. -/
theorem parts_of_document {options : RenderOptions} {ms : List Module} {text : Text}
    (h : document options ms = .ok text) :
    Parts options ms text (contentsBullets ms) (sectionTexts options.style ms (outlines ms))
      (footer options ms) := by
  rw [document_eq, outcome_eq_ok_iff, List.findSome?_eq_none_iff] at h
  obtain ⟨hnone, rfl⟩ := h
  refine ⟨documentText_eq options ms, ?_, ?_, fun i m hi => ?_⟩
  · rw [contentsBullets, List.length_map, length_outlines]
  · rw [sectionTexts, List.length_zipWith, length_outlines, Nat.min_self]
  · have ho := getElem?_plan (({} : Registry).allocate contentsTitle).2 ms i
    rw [hi, Option.map_some, ← outlines] at ho
    refine ⟨_, _, _, ho, ?_, ?_, shows_plan (hnone m (List.mem_of_getElem? hi)) _⟩
    · rw [contentsBullets, List.getElem?_map, ho, Option.map_some]
      rfl
    · rw [sectionTexts, List.getElem?_zipWith, hi, ho]

/-! ## One module more -/

theorem plan_append (r : Registry) (ms ns : List Module) :
    plan r (ms ++ ns)
      = ((plan r ms).1 ++ (plan (plan r ms).2 ns).1, (plan (plan r ms).2 ns).2) := by
  induction ms generalizing r with
  | nil => rfl
  | cons m ms ih => rw [List.cons_append, plan_cons, ih, plan_cons, List.cons_append]

/-- The outlines of the modules before do not depend on the last one. -/
theorem outlines_concat (ms : List Module) (m : Module) :
    ∃ o, outlines (ms ++ [m]) = outlines ms ++ [o] :=
  ⟨_, by rw [outlines, plan_append]; rfl⟩

/-- The footer reports the compiler of the first module. -/
theorem footer_append {ms : List Module} (h : ms ≠ []) (options : RenderOptions)
    (ns : List Module) : footer options (ms ++ ns) = footer options ms := by
  obtain ⟨m, ms, rfl⟩ := List.exists_cons_of_ne_nil h
  rfl

/-- **A module at the end disturbs nothing before it.**  The document of the longer list has all the
bullets, sections and the footer of the shorter one, byte for byte, and one bullet and one section
more, each behind the others. -/
theorem document_concat {options : RenderOptions} {ms : List Module} {m : Module}
    {text longer : Text} (hms : ms ≠ []) (h : document options ms = .ok text)
    (hlonger : document options (ms ++ [m]) = .ok longer) :
    ∃ bullets sections line part, Parts options ms text bullets sections (footer options ms)
      ∧ Parts options (ms ++ [m]) longer (bullets ++ [line]) (sections ++ [part])
        (footer options ms) := by
  obtain ⟨o, ho⟩ := outlines_concat ms m
  have hlength : ms.length = (outlines ms).length := (length_outlines ms).symm
  have hbullets : contentsBullets (ms ++ [m])
      = contentsBullets ms ++ [bullet o.heading.name o.heading.anchor] := by
    rw [contentsBullets, ho, List.map_append]
    rfl
  have hsections : sectionTexts options.style (ms ++ [m]) (outlines (ms ++ [m]))
      = sectionTexts options.style ms (outlines ms) ++ [m.sectionText options.style o] := by
    rw [sectionTexts, ho, List.zipWith_append hlength]
    rfl
  have hparts := parts_of_document hlonger
  rw [hbullets, hsections, footer_append hms] at hparts
  exact ⟨_, _, _, _, parts_of_document h, hparts⟩

/-- A module with one value. -/
def swapModule : Module where
  name := "Pair".toList
  comment := "# Basics\n@docs swap".toList
  aliases := []
  unions := []
  values := [⟨"swap".toList, [], "( a, b ) -> ( b, a )".toList⟩]
  version := some "0.18.0".toList

/-- The document of that module. -/
def swapText : Text :=
  "# Modules\n\n- [Pair](#pair)\n\n".toList
    ++ "# Pair\n\n- [swap](#swap)\n\n## Basics\n".toList
    ++ "\n### `swap`\n```elm\nswap : ( a, b ) -> ( b, a )\n```\n\n---\n\n\n".toList
    ++ "---\n\n> Generated with elm-make: 0.18.0 and elmdocs: 0.3.0\n".toList

/-- The document of the module twice. -/
def swapTwiceText : Text :=
  "# Modules\n\n- [Pair](#pair)\n- [Pair](#pair-1)\n\n".toList
    ++ "# Pair\n\n- [swap](#swap)\n\n## Basics\n".toList
    ++ "\n### `swap`\n```elm\nswap : ( a, b ) -> ( b, a )\n```\n\n---\n\n\n".toList
    ++ "# Pair\n\n- [swap](#swap-1)\n\n## Basics\n".toList
    ++ "\n### `swap`\n```elm\nswap : ( a, b ) -> ( b, a )\n```\n\n---\n\n\n".toList
    ++ "---\n\n> Generated with elm-make: 0.18.0 and elmdocs: 0.3.0\n".toList

theorem document_concat_swap :
    document {} [swapModule] = .ok swapText
      ∧ document {} ([swapModule] ++ [swapModule]) = .ok swapTwiceText
      ∧ ∃ bullets sections line part,
        Parts {} [swapModule] swapText bullets sections (footer {} [swapModule])
          ∧ Parts {} ([swapModule] ++ [swapModule]) swapTwiceText (bullets ++ [line])
            (sections ++ [part]) (footer {} [swapModule]) := by
  have h : document {} [swapModule] = .ok swapText := by decide +kernel
  have hlonger : document {} ([swapModule] ++ [swapModule]) = .ok swapTwiceText := by
    decide +kernel
  exact ⟨h, hlonger, document_concat (by simp) h hlonger⟩

end RefBook
