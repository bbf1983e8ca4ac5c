import Mathlib.Data.List.Basic
import RefBook.Proofs.Page.Resolution

/-!
# RefBook.Proofs.Page.Index — index and body of a section agree

The index lists what `directiveNames?` finds in each line; the body is made line by line from the
kinds of the lines, and the headings in it come from three renderers of declarations.

* `OpensWith`: how every entry of a declaration begins, whichever renderer wrote it.
* `BodyPiece`: what a line leaves in a body; `BodyPiece.Renders` ties it to the line.
* `index_matches_body`: the names of the inlined entries are the names of the index, one for one,
  and each entry is headed by the label of its bullet.
-/

namespace RefBook

/-! ## How an entry begins -/

/-- The entry begins with a heading of the third level that shows the label between backticks. -/
def OpensWith (label entry : Text) : Prop :=
  ∃ rest, entry = '\n' :: "### `".toList ++ label ++ "`\n".toList ++ rest

theorem OpensWith.ne_nil {label entry : Text} (h : OpensWith label entry) : entry ≠ [] := by
  obtain ⟨rest, rfl⟩ := h
  simp

theorem opensWith_block (heading code comment : Text) :
    OpensWith heading (block heading code comment) := by
  refine ⟨(fenceOpen ++ ([code, fenceClose] ++ commentLines comment
    ++ [[], "---".toList, []]).flatMap ('\n' :: ·)), ?_⟩
  simp only [block, List.cons_append, List.nil_append, unlines_cons, List.flatMap_cons,
    List.append_assoc]
  rfl

/-- Aliases and union types are headed by their names as they are, values by their displayed names:
the same, as long as only values are operators. -/
theorem opensWith_of_mem_namedBlocks {m : Module} {style : OperatorStyle} {name entry : Text}
    (halias : ∀ a ∈ m.aliases, isOperator a.name = false)
    (hunion : ∀ u ∈ m.unions, isOperator u.name = false)
    (h : (name, entry) ∈ m.namedBlocks style) : OpensWith (style.display name) entry := by
  simp only [Module.namedBlocks, List.mem_append, List.mem_map, Prod.mk.injEq] at h
  rcases h with (⟨a, ha, rfl, rfl⟩ | ⟨u, hu, rfl, rfl⟩) | ⟨v, -, rfl, rfl⟩
  · rw [OperatorStyle.display_of_not_isOperator (halias a ha)]
    exact opensWith_block _ _ _
  · rw [OperatorStyle.display_of_not_isOperator (hunion u hu)]
    exact opensWith_block _ _ _
  · exact opensWith_block _ _ _

/-! ## Pieces of a body -/

/-- What a line of a comment leaves in the body of a section. -/
inductive BodyPiece where
  /-- A line of prose, as the comment has it. -/
  | prose (line : Text)
  /-- The entries of the names that a directive lists, each under its name. -/
  | entries (blocks : List (Text × Text))

namespace BodyPiece

/-- The piece as it stands in the body. -/
def text : BodyPiece → Text
  | prose line => demoted line
  | entries blocks => blocks.flatMap (·.2)

/-- The inlined entries of the piece. -/
def blocks : BodyPiece → List (Text × Text)
  | prose _ => []
  | entries blocks => blocks

/-- The pieces that leave something in the body. -/
def visible (pieces : List BodyPiece) : List BodyPiece :=
  pieces.filter fun p => !p.text.isEmpty

/-- The piece that a line becomes over a catalog. -/
inductive Renders (c : Catalog) : Text → BodyPiece → Prop where
  /-- A line that is no directive stays. -/
  | prose {line : Text} (h : directiveNames? line = none) : Renders c line (.prose line)
  /-- A directive becomes the entries of its names. -/
  | entries {line : Text} {blocks : List (Text × Text)}
      (h : directiveNames? line = some (blocks.map (·.1)))
      (hget : ∀ b ∈ blocks, c.get? b.1 = some b.2) : Renders c line (.entries blocks)

variable {c : Catalog} {line : Text} {p : BodyPiece} {ls : List Text} {pieces : List BodyPiece}

theorem Renders.text_eq (h : Renders c line p) : p.text = c.shown line := by
  cases h with
  | prose h => rw [Catalog.shown, h]; rfl
  | entries h hget =>
    rw [Catalog.shown, h]
    simp only [text, List.flatMap_map]
    refine List.flatMap_congr fun b hb => ?_
    rw [Catalog.block, hget b hb, Option.getD_some]

theorem Renders.names_eq (h : Renders c line p) : p.blocks.map (·.1) = lineNames line := by
  cases h with
  | prose h => exact (lineNames_of_not_directive h).symm
  | entries h _ => exact (lineNames_of_directive h).symm

theorem Renders.get?_of_mem (h : Renders c line p) {b : Text × Text} (hb : b ∈ p.blocks) :
    c.get? b.1 = some b.2 := by
  cases h with
  | prose => exact absurd hb (by simp [blocks])
  | entries _ hget => exact hget b hb

theorem exists_renders (h : ∀ name ∈ lineNames line, c.get? name ≠ none) :
    ∃ p, Renders c line p := by
  cases hd : directiveNames? line with
  | none => exact ⟨_, .prose hd⟩
  | some names =>
    rw [lineNames_of_directive hd] at h
    refine ⟨.entries (names.map fun n => (n, c.block n)), .entries ?_ fun b hb => ?_⟩
    · rw [hd, List.map_map]
      exact congrArg some (List.map_id'' (fun _ => rfl) names).symm
    · obtain ⟨n, hn, rfl⟩ := List.mem_map.mp hb
      obtain ⟨e, he⟩ := Option.ne_none_iff_exists'.mp (h n hn)
      rw [Catalog.block, he, Option.getD_some]

/-! ## The pieces of all lines -/

theorem exists_forall₂_renders (h : ∀ name ∈ ls.flatMap lineNames, c.get? name ≠ none) :
    ∃ pieces, List.Forall₂ (Renders c) ls pieces := by
  induction ls with
  | nil => exact ⟨[], .nil⟩
  | cons line ls ih =>
    simp only [List.flatMap_cons, List.mem_append] at h
    obtain ⟨p, hp⟩ := exists_renders fun name hn => h name (Or.inl hn)
    obtain ⟨ps, hps⟩ := ih fun name hn => h name (Or.inr hn)
    exact ⟨p :: ps, .cons hp hps⟩

theorem map_text_eq (h : List.Forall₂ (Renders c) ls pieces) :
    pieces.map text = ls.map c.shown := by
  induction h with
  | nil => rfl
  | cons hp _ ih => rw [List.map_cons, List.map_cons, hp.text_eq, ih]

theorem map_fst_blocks_eq (h : List.Forall₂ (Renders c) ls pieces) :
    (pieces.flatMap blocks).map (·.1) = ls.flatMap lineNames := by
  induction h with
  | nil => rfl
  | cons hp _ ih => rw [List.flatMap_cons, List.map_append, hp.names_eq, ih, List.flatMap_cons]

theorem get?_of_mem_blocks (h : List.Forall₂ (Renders c) ls pieces) {b : Text × Text}
    (hb : b ∈ pieces.flatMap blocks) : c.get? b.1 = some b.2 := by
  induction h with
  | nil => exact absurd hb (by simp)
  | cons hp _ ih =>
    rw [List.flatMap_cons, List.mem_append] at hb
    rcases hb with hb | hb
    · exact hp.get?_of_mem hb
    · exact ih hb

/-- A piece that leaves nothing in the body inlines no entry, since entries are not empty. -/
theorem blocks_eq_nil_of_text_eq_nil (h : ∀ b ∈ p.blocks, b.2 ≠ []) (ht : p.text = []) :
    p.blocks = [] := by
  cases p with
  | prose => rfl
  | entries bs =>
    refine List.eq_nil_iff_forall_not_mem.mpr fun b hb => h b hb ?_
    exact List.flatMap_eq_nil_iff.mp ht b hb

theorem flatMap_blocks_visible (h : ∀ b ∈ pieces.flatMap blocks, b.2 ≠ []) :
    (visible pieces).flatMap blocks = pieces.flatMap blocks := by
  induction pieces with
  | nil => rfl
  | cons p ps ih =>
    simp only [List.flatMap_cons, List.mem_append] at h
    have ih := ih fun b hb => h b (Or.inr hb)
    cases hp : p.text.isEmpty with
    | false =>
      have hstays : visible (p :: ps) = p :: visible ps := by simp [visible, hp]
      rw [hstays, List.flatMap_cons, List.flatMap_cons, ih]
    | true =>
      have hgoes : visible (p :: ps) = visible ps := by simp [visible, hp]
      have hnil : p.blocks = [] :=
        blocks_eq_nil_of_text_eq_nil (fun b hb => h b (Or.inl hb)) (List.isEmpty_iff.mp hp)
      rw [hgoes, List.flatMap_cons, ih, hnil, List.nil_append]

end BodyPiece

/-! ## Sections -/

/-- What ties the text of a section to its outline: the pieces of the lines of the comment. -/
structure IndexAgrees (m : Module) (o : Outline) (style : OperatorStyle) (text : Text)
    (pieces : List BodyPiece) : Prop where
  /-- Each line of the comment becomes one piece. -/
  renders : List.Forall₂ (BodyPiece.Renders (m.catalog style)) (lines m.comment) pieces
  /-- The body is the pieces that are not empty, one on each line. -/
  body_eq : m.body style = .ok (unlines ((BodyPiece.visible pieces).map (·.text)))
  /-- The section is that body under the heading and the index. -/
  text_eq : text = unlines (o.lines style (unlines ((BodyPiece.visible pieces).map (·.text))))
  /-- The names of the inlined entries are the names of the index, in order. -/
  names_eq : ((BodyPiece.visible pieces).flatMap (·.blocks)).map (·.1) = o.entries.map (·.name)
  /-- There are as many bullets as inlined entries. -/
  length_eq : ((BodyPiece.visible pieces).flatMap (·.blocks)).length = (o.index style).length
  /-- An inlined entry is headed by the label of the bullet at its place. -/
  opens : ∀ (k : Nat) (link : Link), o.entries[k]? = some link →
    (o.index style)[k]? = some (bullet (style.display link.name) link.anchor)
      ∧ ∃ b, ((BodyPiece.visible pieces).flatMap (·.blocks))[k]? = some b
        ∧ OpensWith (style.display link.name) b.2

/-- Outlines whose entries are the names that a module documents agree with its section. -/
theorem indexAgrees_of_names {m : Module} {o : Outline} {style : OperatorStyle}
    {pieces : List BodyPiece}
    (hbody : m.body style = .ok (m.bodyText style))
    (hpieces : List.Forall₂ (BodyPiece.Renders (m.catalog style)) (lines m.comment) pieces)
    (hopens : ∀ b ∈ pieces.flatMap (·.blocks), OpensWith (style.display b.1) b.2)
    (ho : o.entries.map (·.name) = documentedNames m.comment) :
    IndexAgrees m o style (m.sectionText style o) pieces := by
  have hvisible := BodyPiece.flatMap_blocks_visible fun b hb => (hopens b hb).ne_nil
  have hnames : (pieces.flatMap (·.blocks)).map (·.1) = o.entries.map (·.name) := by
    rw [BodyPiece.map_fst_blocks_eq hpieces, ho, documentedNames_eq]
  have hlength : (pieces.flatMap (·.blocks)).length = o.entries.length := by
    simpa using congrArg List.length hnames
  have htext : m.bodyText style = unlines ((BodyPiece.visible pieces).map (·.text)) := by
    rw [Module.bodyText, ← BodyPiece.map_text_eq hpieces, List.filter_map]
    rfl
  refine ⟨hpieces, ?_, ?_, ?_, ?_, fun k link hk => ⟨?_, ?_⟩⟩
  · rw [hbody, htext]
  · rw [Module.sectionText, htext]
  · rw [hvisible, hnames]
  · rw [hvisible, hlength, Outline.index, List.length_map]
  · rw [Outline.index, List.getElem?_map, hk, Option.map_some]
  · have hkn : ((pieces.flatMap (·.blocks)).map (·.1))[k]? = some link.name := by
      rw [hnames, List.getElem?_map, hk, Option.map_some]
    rw [List.getElem?_map, Option.map_eq_some_iff] at hkn
    obtain ⟨b, hb, hname⟩ := hkn
    refine ⟨b, by rw [hvisible, hb], ?_⟩
    rw [← hname]
    exact hopens b (List.mem_of_getElem? hb)

/-- **Index and body of a section agree**, as long as only values are operators: the section is made
of one piece for each line of the comment, the names of the inlined entries are the names of the
index in order, and each entry is headed by the label of its bullet. -/
theorem index_matches_body {m : Module} {r : Registry} {style : OperatorStyle} {text : Text}
    (halias : ∀ a ∈ m.aliases, isOperator a.name = false)
    (hunion : ∀ u ∈ m.unions, isOperator u.name = false)
    (h : m.render (Outline.plan m r).1 style = .ok text) :
    ∃ pieces, IndexAgrees m (Outline.plan m r).1 style text pieces := by
  rw [Module.render_eq, outcome_eq_ok_iff] at h
  obtain ⟨hnone, rfl⟩ := h
  have hdeclared := Module.complaint?_eq_none_iff.mp hnone
  have hget : ∀ name ∈ (lines m.comment).flatMap lineNames, (m.catalog style).get? name ≠ none := by
    intro name hn hget
    exact Module.get?_catalog_eq_none_iff.mp hget (hdeclared name hn)
  obtain ⟨pieces, hpieces⟩ := BodyPiece.exists_forall₂_renders hget
  refine ⟨pieces, indexAgrees_of_names (Module.body_eq_ok hnone) hpieces (fun b hb => ?_)
    (Outline.map_name_entries_plan m r)⟩
  exact opensWith_of_mem_namedBlocks halias hunion
    (Module.mem_namedBlocks_of_get? (BodyPiece.get?_of_mem_blocks hpieces hb))

/-- A module with an operator among its values. -/
def consModule : Module where
  name := "Cons".toList
  comment := "# Cons\n  @docs (::), Pair,\n\n@docs ,\n    x\n@docs Pair".toList
  aliases := [⟨"Pair".toList, [], "( a, a )".toList, ["a".toList]⟩]
  unions := []
  values := [⟨"::".toList, "Prepend.".toList, "a -> Cons.T a".toList⟩]
  version := none

theorem index_matches_body_cons :
    ∃ pieces, IndexAgrees consModule (Outline.plan consModule {}).1 .decorated
      ("# Cons\n\n- [(::)](#::)\n- [Pair](#pair)\n- [Pair](#pair-1)\n\n## Cons\n".toList
        ++ "\n### `(::)`\n```elm\n(::) : a -> T a\n```\n\nPrepend.\n\n---\n".toList
        ++ "\n### `Pair`\n```elm\ntype alias Pair a = ( a, a )\n```\n\n---\n\n    x\n".toList
        ++ "\n### `Pair`\n```elm\ntype alias Pair a = ( a, a )\n```\n\n---\n\n".toList) pieces :=
  index_matches_body (by decide) (by decide) (by decide +kernel)

end RefBook
