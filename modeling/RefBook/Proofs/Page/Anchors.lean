import RefBook.Proofs.Page.Resolution

/-!
# RefBook.Proofs.Page.Anchors — links lead to the headings they name

Anchors are allocated in one pass and printed in another, in two places.  Here they are read off the
flat list of headings instead, by position.

* `linkedHeadings`, `headingPlace`: the headings of a document in order, and where those of a module
  begin; `anchorAt`: the slug of a heading, numbered by the headings of its name **before** it.
* `exists_outline`: the outline of each module holds the anchors of its places.
* `document_links_by_place`: so do the bullets of the contents and of every index, in the text.
-/

namespace RefBook

/-! ## Headings by place -/

/-- The headings of a document that links lead to, in the order in which they are written. -/
def linkedHeadings (ms : List Module) : List Text :=
  contentsTitle :: ms.flatMap Module.headings

/-- The place of the heading of a module; those of its documented names follow. -/
def headingPlace (ms : List Module) (i : Nat) : Nat :=
  1 + ((ms.take i).flatMap Module.headings).length

/-- The anchor of the heading at a place: its slug, with the number of earlier headings of the same
name behind it if there are any. -/
def anchorAt (headings : List Text) (p : Nat) : Text :=
  let name := headings[p]?.getD []
  match (headings.take p).count name with
  | 0 => slug name
  | k + 1 => slug name ++ '-' :: decimal (k + 1)

theorem anchorAt_eq {headings : List Text} {p : Nat} {name : Text}
    (h : headings[p]? = some name) :
    anchorAt headings p = anchor name ((headings.take p).count name) := by
  simp only [anchorAt, h, Option.getD_some, anchor]
  cases (headings.take p).count name <;> rfl

section Places

variable {ms : List Module} {i : Nat} {m : Module}

/-- The headings before a module, its own, and those after it. -/
theorem linkedHeadings_eq (hi : ms[i]? = some m) :
    linkedHeadings ms = linkedHeadings (ms.take i)
      ++ (m.headings ++ (ms.drop (i + 1)).flatMap Module.headings) := by
  obtain ⟨hlt, rfl⟩ := List.getElem?_eq_some_iff.mp hi
  have hcut : ms = ms.take i ++ ms[i] :: ms.drop (i + 1) := by
    rw [← List.drop_eq_getElem_cons hlt, List.take_append_drop]
  conv_lhs => rw [hcut]
  simp only [linkedHeadings, List.flatMap_append, List.flatMap_cons, List.cons_append]

theorem length_linkedHeadings_take : (linkedHeadings (ms.take i)).length = headingPlace ms i := by
  rw [linkedHeadings, List.length_cons, headingPlace, Nat.add_comm]

theorem take_linkedHeadings (hi : ms[i]? = some m) {j : Nat} (hj : j ≤ m.headings.length) :
    (linkedHeadings ms).take (headingPlace ms i + j)
      = linkedHeadings (ms.take i) ++ m.headings.take j := by
  rw [linkedHeadings_eq hi, ← length_linkedHeadings_take, List.take_length_add_append,
    List.take_append_of_le_length hj]

theorem getElem?_linkedHeadings (hi : ms[i]? = some m) {j : Nat} (hj : j < m.headings.length) :
    (linkedHeadings ms)[headingPlace ms i + j]? = m.headings[j]? := by
  rw [linkedHeadings_eq hi, ← length_linkedHeadings_take,
    List.getElem?_append_right (Nat.le_add_right _ _), Nat.add_sub_cancel_left,
    List.getElem?_append_left hj]

/-- The anchor at a place of a module counts what precedes it in the document. -/
theorem anchorAt_headingPlace (hi : ms[i]? = some m) {j : Nat} {name : Text}
    (hj : m.headings[j]? = some name) :
    anchorAt (linkedHeadings ms) (headingPlace ms i + j)
      = anchor name ((linkedHeadings (ms.take i)).count name + (m.headings.take j).count name) := by
  obtain ⟨hlt, -⟩ := List.getElem?_eq_some_iff.mp hj
  have hname : (linkedHeadings ms)[headingPlace ms i + j]? = some name := by
    rw [getElem?_linkedHeadings hi hlt, hj]
  rw [anchorAt_eq hname, take_linkedHeadings hi (Nat.le_of_lt hlt), List.count_append]

end Places

/-! ## Outlines by place -/

/-- The bullet of a module and the bullets of its index link to the anchors of its places, from `p`
on, in a list of headings. -/
structure LinksFrom (style : OperatorStyle) (headings : List Text) (p : Nat) (m : Module)
    (line : Text) (index : List Text) : Prop where
  /-- The heading of the module has the first place. -/
  heading : headings[p]? = some m.name
  /-- The bullet of the module links to it. -/
  line_eq : line = bullet m.name (anchorAt headings p)
  /-- There is one bullet for each documented name. -/
  length_index : index.length = (documentedNames m.comment).length
  /-- The documented names have the places after the first, and their bullets link to them. -/
  entry : ∀ (j : Nat) (name : Text), (documentedNames m.comment)[j]? = some name →
    headings[p + 1 + j]? = some name
      ∧ index[j]? = some (bullet (style.display name) (anchorAt headings (p + 1 + j)))

/-- The registry before a module has counted the headings before it. -/
theorem occurrences_before (ms : List Module) (n : Text) :
    (plan (({} : Registry).allocate contentsTitle).2 ms).2.occurrences n
      = (linkedHeadings ms).count n := by
  rw [occurrences_plan, Registry.occurrences_allocate, Registry.occurrences_empty, Nat.zero_add,
    ← List.count_append]
  rfl

theorem exists_outline (style : OperatorStyle) {ms : List Module} {i : Nat} {m : Module}
    (hi : ms[i]? = some m) :
    ∃ o, (outlines ms)[i]? = some o ∧ o.heading.name = m.name
      ∧ LinksFrom style (linkedHeadings ms) (headingPlace ms i) m
        (bullet o.heading.name o.heading.anchor) (o.index style) := by
  refine ⟨(Outline.plan m (plan (({} : Registry).allocate contentsTitle).2 (ms.take i)).2).1, ?_,
    rfl, ?_, ?_, ?_, fun j name hj => ?_⟩
  · rw [outlines, getElem?_plan, hi, Option.map_some]
  · exact getElem?_linkedHeadings hi (Nat.succ_pos _)
  · have h0 : m.headings[0]? = some m.name := rfl
    rw [Outline.plan_eq, occurrences_before]
    exact congrArg (bullet m.name) (anchorAt_headingPlace hi h0).symm
  · rw [Outline.index, List.length_map, ← Outline.map_name_entries_plan, List.length_map]
  · have hj' : m.headings[j + 1]? = some name := hj
    obtain ⟨hlt, -⟩ := List.getElem?_eq_some_iff.mp hj'
    rw [Nat.add_assoc, Nat.add_comm 1 j]
    refine ⟨by rw [getElem?_linkedHeadings hi hlt, hj'], ?_⟩
    rw [Outline.index, List.getElem?_map, Outline.getElem?_entries_plan, hj, Option.map_some,
      Option.map_some, occurrences_before, anchorAt_headingPlace hi hj']

/-! ## Documents by place -/

/-- The text is a table of contents, the sections and a footer, and the bullets in it link to the
anchors of the places of their headings. -/
def LinksByPlace (options : RenderOptions) (ms : List Module) (text : Text) : Prop :=
  ∃ bullets sections, bullets.length = ms.length ∧ sections.length = ms.length
    ∧ text = unlines ((("# ".toList ++ contentsTitle) :: [] :: bullets ++ [[]]) ++ sections
        ++ [footer options ms])
    ∧ ∀ (i : Nat) (m : Module), ms[i]? = some m → ∃ line index body,
        bullets[i]? = some line ∧ m.body options.style = .ok body
          ∧ sections[i]? = some
            (unlines (("# ".toList ++ m.name) :: [] :: index ++ [[], body, []]))
          ∧ LinksFrom options.style (linkedHeadings ms) (headingPlace ms i) m line index

/-- **Links lead to the headings they name.**  In a document, the bullet of each module and each
bullet of its index carry the anchor of the place of that heading in the document. -/
theorem document_links_by_place {options : RenderOptions} {ms : List Module} {text : Text}
    (h : document options ms = .ok text) : LinksByPlace options ms text := by
  rw [document_eq, outcome_eq_ok_iff, List.findSome?_eq_none_iff] at h
  obtain ⟨hnone, rfl⟩ := h
  refine ⟨(outlines ms).map fun o => bullet o.heading.name o.heading.anchor,
    sectionTexts options.style ms (outlines ms), ?_, ?_, ?_, fun i m hi => ?_⟩
  · rw [List.length_map, length_outlines]
  · rw [sectionTexts, List.length_zipWith, length_outlines, Nat.min_self]
  · rw [documentText, contents]
  · obtain ⟨o, ho, hname, hlinks⟩ := exists_outline options.style hi
    have hbody := Module.body_eq_ok (hnone m (List.mem_of_getElem? hi))
    refine ⟨_, _, m.bodyText options.style, ?_, hbody, ?_, hlinks⟩
    · rw [List.getElem?_map, ho, Option.map_some]
    · rw [sectionTexts, List.getElem?_zipWith, hi, ho]
      simp only [Module.sectionText, Outline.lines, hname]

/-- Two modules that document the same name, one of them named like the contents. -/
def namesakes : List Module := [
  { name := "A.B".toList, comment := "@docs map, (|>)".toList, aliases := [], unions := [],
    values := [⟨"map".toList, [], "a".toList⟩, ⟨"|>".toList, [], "A.B.T".toList⟩],
    version := some "0.18.0".toList },
  { name := "Modules".toList, comment := " @docs map".toList, aliases := [], unions := [],
    values := [⟨"map".toList, [], "b".toList⟩], version := none }]

theorem document_links_by_place_namesakes :
    LinksByPlace { style := .decorated } namesakes
      ("# Modules\n\n- [A.B](#ab)\n- [Modules](#modules-1)\n\n".toList
        ++ "# A.B\n\n- [map](#map)\n- [(|>)](#|>)\n\n".toList
        ++ "\n### `map`\n```elm\nmap : a\n```\n\n---\n".toList
        ++ "\n### `(|>)`\n```elm\n(|>) : T\n```\n\n---\n\n\n".toList
        ++ "# Modules\n\n- [map](#map-1)\n\n".toList
        ++ "\n### `map`\n```elm\nmap : b\n```\n\n---\n\n\n".toList
        ++ "---\n\n> Generated with elm-make: 0.18.0 and elmdocs: 0.3.0\n".toList) :=
  document_links_by_place (by decide +kernel)

end RefBook
