import RefBook.Proofs.Catalog.Returns
import RefBook.Proofs.Name.Anchors
import RefBook.Proofs.Page.Index

/-!
# RefBook.Proofs.Page.Returns — line ends do not reach the rest of a document

* `Module.complaint?_withReturns`, `outlines_withReturns`: complaints and outlines are those of the same
  modules without carriage returns.
* `Module.withoutReturns_bodyText`, `map_withoutReturns_sectionTexts`: bodies and sections are, once
  the carriage returns are dropped.
* `document_withReturns`: so a document with other line ends in its comments exists exactly when the
  one without does, fails with the same complaint, and is the same but for its carriage returns.
-/

namespace RefBook

/-! ## Complaints and outlines -/

namespace Catalog

variable (f : Text → Text) (c : Catalog)

theorem complaint?_mapEntries (owner : Text) (names : List Text) :
    (c.mapEntries f).complaint? owner names = c.complaint? owner names :=
  complaint?_congr (keys_mapEntries f c) owner names

theorem block_mapEntries (hf : f [] = []) (name : Text) :
    (c.mapEntries f).block name = f (c.block name) := by
  rw [block, get?_mapEntries, block]
  cases c.get? name with
  | none => exact hf.symm
  | some e => rfl

end Catalog

section OneModule

variable {m : Module}

/-- Directives are read line by line, so the ends of the lines do not show in their names. -/
theorem Module.documentedNames_withReturns (h : NoReturns m.texts) :
    documentedNames m.withReturns.comment = documentedNames m.comment := by
  have hcomment : '\r' ∉ m.comment := (noReturns_iff.mp h).2.1
  rw [documentedNames_eq, withReturns, lines_withReturns hcomment, documentedNames_eq]

theorem Module.complaint?_withReturns (h : NoReturns m.texts) (style : OperatorStyle) :
    m.withReturns.complaint? style = m.complaint? style := by
  rw [complaint?, documentedNames_withReturns h, complaint?, ← mapEntries_catalog_withReturns h,
    Catalog.complaint?_mapEntries]
  rfl

theorem Module.headings_withReturns (h : NoReturns m.texts) : m.withReturns.headings = m.headings :=
  congrArg (m.name :: ·) (documentedNames_withReturns h)

end OneModule

theorem outlines_withReturns {ms : List Module} (h : ∀ m ∈ ms, NoReturns m.texts) :
    outlines (ms.map Module.withReturns) = outlines ms := by
  refine outlines_congr ?_
  rw [List.map_map]
  exact List.map_congr_left fun m hm => Module.headings_withReturns (h m hm)

/-! ## Texts of an outline -/

/-- The texts of a link. -/
def Link.texts (l : Link) : List Text :=
  [l.name, l.anchor]

/-- The texts of an outline. -/
def Outline.texts (o : Outline) : List Text :=
  o.heading.texts ++ o.entries.flatMap Link.texts

theorem return_not_mem_anchor (name : Text) (k : Nat) : '\r' ∉ anchor name k := fun h =>
  absurd (not_isWhiteSpace_of_mem_anchor h) (by decide)

theorem Module.noReturns_declarationNames {m : Module} (h : NoReturns m.texts) :
    NoReturns m.declarationNames := by
  obtain ⟨-, -, -, haliases, hunions, hvalues⟩ := noReturns_iff.mp h
  intro name hname
  simp only [declarationNames, List.mem_append, List.mem_map] at hname
  rcases hname with (⟨a, ha, rfl⟩ | ⟨u, hu, rfl⟩) | ⟨v, hv, rfl⟩
  · exact haliases a ha _ (by simp [Alias.texts])
  · exact hunions u hu _ (by simp [UnionType.texts])
  · exact hvalues v hv _ (by simp [Value.texts])

/-- A module whose texts hold no carriage return puts none into its outline. -/
theorem Outline.noReturns_plan {m : Module} (h : NoReturns m.texts) (hnames : m.DeclaresDocumented)
    (r : Registry) : NoReturns (Outline.plan m r).1.texts := by
  intro t ht
  rcases List.mem_append.mp ht with ht | ht
  · have hheading : t = m.name ∨ t = anchor m.name (r.occurrences m.name) := by
      simpa [plan_eq, Link.texts] using ht
    rcases hheading with rfl | rfl
    · exact (Module.noReturns_iff.mp h).1
    · exact return_not_mem_anchor _ _
  · obtain ⟨e, he, ht⟩ := List.mem_flatMap.mp ht
    obtain ⟨j, hj⟩ := List.mem_iff_getElem?.mp he
    rw [getElem?_entries_plan, Option.map_eq_some_iff] at hj
    obtain ⟨name, hname, rfl⟩ := hj
    simp only [Link.texts, List.mem_cons, List.not_mem_nil, or_false] at ht
    rcases ht with rfl | rfl
    · exact Module.noReturns_declarationNames h _ (hnames _ (List.mem_of_getElem? hname))
    · exact return_not_mem_anchor _ _

theorem noReturns_plan {ms : List Module} (h : ∀ m ∈ ms, NoReturns m.texts)
    (hnames : ∀ m ∈ ms, m.DeclaresDocumented) (r : Registry) :
    ∀ o ∈ (plan r ms).1, NoReturns o.texts := by
  intro o ho
  obtain ⟨i, hi⟩ := List.mem_iff_getElem?.mp ho
  rw [getElem?_plan, Option.map_eq_some_iff] at hi
  obtain ⟨m, hm, rfl⟩ := hi
  have hmem : m ∈ ms := List.mem_of_getElem? hm
  exact Outline.noReturns_plan (h m hmem) (hnames m hmem) _

theorem return_not_mem_bullet {label anchor : Text} (hlabel : '\r' ∉ label)
    (hanchor : '\r' ∉ anchor) : '\r' ∉ bullet label anchor := by
  have hopened : '\r' ∉ "- [".toList ++ label := List.not_mem_append (by decide) hlabel
  have hlinked : '\r' ∉ "- [".toList ++ label ++ "](#".toList ++ anchor :=
    List.not_mem_append (List.not_mem_append hopened (by decide)) hanchor
  exact List.not_mem_append hlinked (by decide)

theorem Outline.noReturns_index {o : Outline} (h : NoReturns o.texts) (style : OperatorStyle) :
    NoReturns (o.index style) := by
  intro t ht
  obtain ⟨e, he, rfl⟩ := List.mem_map.mp ht
  have hentry : NoReturns e.texts := fun t ht =>
    h t (List.mem_append_right _ (List.mem_flatMap.mpr ⟨e, he, ht⟩))
  exact return_not_mem_bullet (return_not_mem_display (hentry _ (by simp [Link.texts])) style)
    (hentry _ (by simp [Link.texts]))

theorem noReturns_contents {os : List Outline} (h : ∀ o ∈ os, NoReturns o.texts) :
    NoReturns (contents os) := by
  have hbullets : ∀ o ∈ os, '\r' ∉ bullet o.heading.name o.heading.anchor := fun o ho =>
    return_not_mem_bullet (h o ho _ (by simp [Outline.texts, Link.texts]))
      (h o ho _ (by simp [Outline.texts, Link.texts]))
  intro t ht
  simp only [contents, List.cons_append, List.mem_cons, List.mem_append, List.mem_map,
    List.not_mem_nil, or_false] at ht
  rcases ht with rfl | rfl | ⟨o, ho, rfl⟩ | rfl
  · decide
  · decide
  · exact hbullets o ho
  · decide

/-! ## Bodies and sections -/

section OneModule

variable {m : Module} {style : OperatorStyle}

theorem head?_of_mem_namedBlocks {name entry : Text} (h : (name, entry) ∈ m.namedBlocks style) :
    entry.head? = some '\n' := by
  have hblock : ∀ heading code comment, (block heading code comment).head? = some '\n' :=
    fun heading code comment => by
      obtain ⟨rest, hrest⟩ := opensWith_block heading code comment
      rw [hrest]
      rfl
  simp only [Module.namedBlocks, List.mem_append, List.mem_map, Prod.mk.injEq] at h
  rcases h with (⟨a, -, -, rfl⟩ | ⟨u, -, -, rfl⟩) | ⟨v, -, -, rfl⟩ <;> exact hblock _ _ _

/-- What a line leaves in a body does not begin with a carriage return. -/
theorem head?_shown_ne {line : Text} (h : '\r' ∉ line) :
    ((m.catalog style).shown line).head? ≠ some '\r' := by
  intro hhead
  rw [Catalog.shown] at hhead
  split at hhead
  · next names _ =>
    rw [List.head?_flatMap] at hhead
    obtain ⟨name, -, hname⟩ := List.exists_of_findSome?_eq_some hhead
    rw [Catalog.block] at hname
    cases hget : (m.catalog style).get? name with
    | none => rw [hget] at hname; contradiction
    | some entry =>
      have hentry := head?_of_mem_namedBlocks (Module.mem_namedBlocks_of_get? hget)
      rw [hget, Option.getD_some, hentry] at hname
      contradiction
  · exact not_mem_demoted (by decide) h (List.mem_of_head? hhead)

theorem isEmpty_withoutReturns {t : Text} (h : t.head? ≠ some '\r') :
    (withoutReturns t).isEmpty = t.isEmpty := by
  cases t with
  | nil => rfl
  | cons c t =>
    have hc : c ≠ '\r' := by simpa using h
    rw [withoutReturns, List.filter_cons_of_pos (by simpa using hc)]
    rfl

theorem Module.withoutReturns_shown (h : NoReturns m.texts) {line : Text} (hline : '\r' ∉ line) :
    withoutReturns ((m.withReturns.catalog style).shown line) = (m.catalog style).shown line := by
  rw [Catalog.shown, Catalog.shown, ← mapEntries_catalog_withReturns h]
  cases directiveNames? line with
  | some names =>
    rw [withoutReturns_flatMap]
    exact List.flatMap_congr fun name _ =>
      (Catalog.block_mapEntries withoutReturns _ withoutReturns_nil name).symm
  | none => exact withoutReturns_eq_self_iff.mpr (not_mem_demoted (by decide) hline)

/-- The lines that show nothing are the same ones, and the others differ by carriage returns. -/
theorem Module.withoutReturns_bodyText (h : NoReturns m.texts) :
    withoutReturns (m.withReturns.bodyText style) = m.bodyText style := by
  have hcomment : '\r' ∉ m.comment := (noReturns_iff.mp h).2.1
  have hlines : lines m.withReturns.comment = lines m.comment := lines_withReturns hcomment
  rw [bodyText, withoutReturns_unlines, hlines, bodyText, List.filter_map, List.filter_map,
    List.map_map]
  have hkept :
      (lines m.comment).filter ((fun t => !t.isEmpty) ∘ (m.withReturns.catalog style).shown)
        = (lines m.comment).filter ((fun t => !t.isEmpty) ∘ (m.catalog style).shown) :=
    List.filter_congr fun line hline => by
      have hr : '\r' ∉ line := noReturns_lines hcomment line hline
      rw [Function.comp_apply, Function.comp_apply, ← withoutReturns_shown h hr,
        isEmpty_withoutReturns (head?_shown_ne hr)]
  rw [hkept]
  exact congrArg unlines (List.map_congr_left fun line hline =>
    withoutReturns_shown h (noReturns_lines hcomment line (List.mem_of_mem_filter hline)))

theorem Module.withoutReturns_sectionText (h : NoReturns m.texts) {o : Outline}
    (ho : NoReturns o.texts) :
    withoutReturns (m.withReturns.sectionText style o) = m.sectionText style o := by
  have hname : '\r' ∉ o.heading.name := ho _ (by simp [Outline.texts, Link.texts])
  have htitle : withoutReturns ("# ".toList ++ o.heading.name) = "# ".toList ++ o.heading.name :=
    withoutReturns_eq_self_iff.mpr (by simp [hname])
  have hindex := map_withoutReturns_eq_self (o.noReturns_index ho style)
  rw [sectionText, withoutReturns_unlines, sectionText, Outline.lines, Outline.lines]
  simp only [List.map_append, List.map_cons, List.map_nil, htitle, hindex,
    withoutReturns_bodyText h, withoutReturns_nil]

end OneModule

theorem map_withoutReturns_sectionTexts {style : OperatorStyle} {ms : List Module}
    {os : List Outline} (hms : ∀ m ∈ ms, NoReturns m.texts) (hos : ∀ o ∈ os, NoReturns o.texts) :
    (sectionTexts style (ms.map Module.withReturns) os).map withoutReturns
      = sectionTexts style ms os := by
  rw [sectionTexts, sectionTexts, List.map_zipWith, List.zipWith_map_left]
  induction ms generalizing os with
  | nil => rfl
  | cons m ms ih =>
    cases os with
    | nil => rfl
    | cons o os =>
      rw [List.forall_mem_cons] at hms hos
      rw [List.zipWith_cons_cons, List.zipWith_cons_cons,
        Module.withoutReturns_sectionText hms.1 hos.1, ih hms.2 hos.2]

/-! ## Documents -/

/-- The texts that a document takes from its options. -/
def RenderOptions.texts (options : RenderOptions) : List Text :=
  [options.toolVersion, options.compilerLabel]

theorem footer_withReturns (options : RenderOptions) (ms : List Module) :
    footer options (ms.map Module.withReturns) = footer options ms := by
  cases ms <;> rfl

theorem return_not_mem_compilerVersion {ms : List Module} (h : ∀ m ∈ ms, NoReturns m.texts) :
    '\r' ∉ compilerVersion ms := by
  cases ms with
  | nil => decide
  | cons m ms =>
    show '\r' ∉ m.version.getD unknownVersion
    cases hm : m.version with
    | none => decide
    | some v => exact (Module.noReturns_iff.mp (h m List.mem_cons_self)).2.2.1 v hm

theorem return_not_mem_footer {options : RenderOptions} {ms : List Module}
    (hoptions : NoReturns options.texts) (hms : ∀ m ∈ ms, NoReturns m.texts) :
    '\r' ∉ footer options ms := by
  have htool : '\r' ∉ options.toolVersion := hoptions _ (by simp [RenderOptions.texts])
  have hcompiler : '\r' ∉ options.compilerLabel := hoptions _ (by simp [RenderOptions.texts])
  have hversion := return_not_mem_compilerVersion hms
  have hlabelled :
      '\r' ∉ "---\n\n> Generated with ".toList ++ options.compilerLabel ++ ": ".toList :=
    List.not_mem_append (List.not_mem_append (by decide) hcompiler) (by decide)
  have hcompilation : '\r' ∉ "---\n\n> Generated with ".toList ++ options.compilerLabel
      ++ ": ".toList ++ compilerVersion ms ++ " and ".toList ++ toolName ++ ": ".toList :=
    List.not_mem_append (List.not_mem_append (List.not_mem_append
      (List.not_mem_append hlabelled hversion) (by decide)) (by decide)) (by decide)
  exact List.not_mem_append (List.not_mem_append hcompilation htool) (by decide)

theorem withoutReturns_documentText {options : RenderOptions} {ms : List Module}
    (hoptions : NoReturns options.texts) (hms : ∀ m ∈ ms, NoReturns m.texts)
    (hnames : ∀ m ∈ ms, m.DeclaresDocumented) :
    withoutReturns (documentText options (ms.map Module.withReturns))
      = documentText options ms := by
  have hos : ∀ o ∈ outlines ms, NoReturns o.texts := noReturns_plan hms hnames _
  have hfooter := withoutReturns_eq_self_iff.mpr (return_not_mem_footer hoptions hms)
  rw [documentText, withoutReturns_unlines, List.map_append, List.map_append,
    outlines_withReturns hms, footer_withReturns, map_withoutReturns_eq_self (noReturns_contents hos),
    map_withoutReturns_sectionTexts hms hos, List.map_singleton, hfooter, documentText]

/-- The first complaint is the same one. -/
theorem findSome?_complaint?_withReturns {ms : List Module} (h : ∀ m ∈ ms, NoReturns m.texts)
    (style : OperatorStyle) :
    (ms.map Module.withReturns).findSome? (·.complaint? style)
      = ms.findSome? (·.complaint? style) := by
  induction ms with
  | nil => rfl
  | cons m ms ih =>
    rw [List.forall_mem_cons] at h
    rw [List.map_cons, List.findSome?_cons, Module.complaint?_withReturns h.1, ih h.2,
      List.findSome?_cons]

/-- **Line ends do not reach the rest of a document.**  With a carriage return before every line feed
of every comment, a document fails with the complaint that it fails with otherwise; and it exists
exactly when it does otherwise, and is that document once its carriage returns are dropped. -/
theorem document_withReturns {options : RenderOptions} {ms : List Module}
    (hoptions : NoReturns options.texts) (hms : ∀ m ∈ ms, NoReturns m.texts) :
    (∀ u, document options (ms.map Module.withReturns) = .error u
        ↔ document options ms = .error u)
      ∧ ∀ text, document options ms = .ok text
        ↔ ∃ returned, document options (ms.map Module.withReturns) = .ok returned
          ∧ withoutReturns returned = text := by
  rw [document_eq, document_eq, findSome?_complaint?_withReturns hms]
  refine ⟨fun u => by rw [outcome_eq_error_iff, outcome_eq_error_iff], fun text => ?_⟩
  simp only [outcome_eq_ok_iff]
  have hdropped (hnone : ms.findSome? (·.complaint? options.style) = none) :
      withoutReturns (documentText options (ms.map Module.withReturns))
        = documentText options ms := by
    refine withoutReturns_documentText hoptions hms fun m hm => ?_
    exact Module.complaint?_eq_none_iff.mp (List.findSome?_eq_none_iff.mp hnone m hm)
  constructor
  · rintro ⟨hnone, rfl⟩
    exact ⟨_, ⟨hnone, rfl⟩, hdropped hnone⟩
  · rintro ⟨_, ⟨hnone, rfl⟩, rfl⟩
    exact ⟨hnone, (hdropped hnone).symm⟩

/-- A module whose value comment has a code sample between blank lines. -/
def twiceModule : Module where
  name := "Twice".toList
  comment := "# Basics\n@docs twice\n\nand more".toList
  aliases := []
  unions := []
  values := [⟨"twice".toList, "\nTwice.\n\n    twice 2\n\n".toList, "a -> a".toList⟩]
  version := none

/-- Its document with carriage returns in the comments: some stay at the ends of lines of the value
comment, also in its code sample, and none in the comment of the module. -/
def twiceReturned : Text :=
  "# Modules\n\n- [Twice](#twice)\n\n# Twice\n\n- [twice](#twice)\n\n## Basics\n".toList
    ++ "\n### `twice`\n```elm\ntwice : a -> a\n```\n\n".toList
    ++ "Twice.\r\n\r\n```elm\ntwice 2\r\n```\n\n---\n\nand more\n\n".toList
    ++ "---\n\n> Generated with elm-make: unknown and elmdocs: 0.3.0\n".toList

theorem document_withReturns_twice :
    NoReturns ({} : RenderOptions).texts ∧ (∀ m ∈ [twiceModule], NoReturns m.texts)
      ∧ document {} [twiceModule.withReturns] = .ok twiceReturned
      ∧ document {} [twiceModule] = .ok (withoutReturns twiceReturned) := by
  have hoptions : NoReturns ({} : RenderOptions).texts := by decide
  have hms : ∀ m ∈ [twiceModule], NoReturns m.texts := by decide
  have hreturned : document {} [twiceModule.withReturns] = .ok twiceReturned := by decide +kernel
  have hdropped := (document_withReturns hoptions hms).2 (withoutReturns twiceReturned)
  exact ⟨hoptions, hms, hreturned, hdropped.mpr ⟨twiceReturned, hreturned, rfl⟩⟩

end RefBook
