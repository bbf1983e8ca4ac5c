import Mathlib.Data.List.Forall2
import RefBook.Proofs.Page.Layout

/-!
# RefBook.Proofs.Page.Locality — what declarations can reach

* `Alike`: two documents that differ at most in the bodies of their sections and in the form in
  which names are shown; `alike_of_outlines`: documents with the same outlines and the same footer.
* `SameComments`, `SameDeclarations`: modules that differ in their declarations only, or in none.
* `document_locality`: declarations reach nothing but the body of the section of their own module.
-/

namespace RefBook

/-! ## Documents that are alike -/

/-- The documents of two lists of modules have the same contents and the same footer; and the
sections at one place have the same heading and the same links, each over its own body. -/
def Alike (options options' : RenderOptions) (ms ns : List Module) (text text' : Text) : Prop :=
  ∃ bullets sections sections' foot,
    Parts options ms text bullets sections foot
      ∧ Parts options' ns text' bullets sections' foot
      ∧ ∀ (i : Nat) (m n : Module), ms[i]? = some m → ns[i]? = some n →
        ∃ (o : Outline) (body body' : Text),
          m.body options.style = .ok body ∧ n.body options'.style = .ok body'
          ∧ sections[i]? = some (unlines (o.lines options.style body))
          ∧ sections'[i]? = some (unlines (o.lines options'.style body'))

theorem Shows.exists_body {style : OperatorStyle} {m : Module} {o : Outline} {line part : Text}
    (h : Shows style m o line part) :
    ∃ body, m.body style = .ok body ∧ part = unlines (o.lines style body) := by
  obtain ⟨body, hbody, hpart⟩ := h.part_eq
  refine ⟨body, hbody, ?_⟩
  rw [hpart, Outline.lines, h.heading_name]

/-- Contents, headings and links are made from the outlines alone. -/
theorem alike_of_outlines {options options' : RenderOptions} {ms ns : List Module}
    {text text' : Text} (houtlines : outlines ms = outlines ns)
    (hfooter : footer options ms = footer options' ns)
    (h : document options ms = .ok text) (h' : document options' ns = .ok text') :
    Alike options options' ms ns text text' := by
  have hbullets : contentsBullets ns = contentsBullets ms := by
    rw [contentsBullets, ← houtlines, contentsBullets]
  have hparts := parts_of_document h
  have hparts' := parts_of_document h'
  rw [hbullets, ← hfooter] at hparts'
  refine ⟨_, _, _, _, hparts, hparts', ?_⟩
  intro i m n hm hn
  obtain ⟨o, line, part, ho, -, hpart, hshows⟩ := hparts.shows i m hm
  obtain ⟨o', line', part', ho', -, hpart', hshows'⟩ := hparts'.shows i n hn
  have hsame : o' = o := by
    rw [houtlines, ho'] at ho
    exact Option.some.inj ho
  obtain ⟨body, hbody, heq⟩ := hshows.exists_body
  obtain ⟨body', hbody', heq'⟩ := hshows'.exists_body
  refine ⟨o, body, body', hbody, hbody', ?_, ?_⟩
  · rw [hpart, heq]
  · rw [hpart', heq', hsame]

/-! ## Edited declarations -/

/-- The modules differ in their declarations and versions only. -/
structure SameComments (m n : Module) : Prop where
  /-- They have the same name. -/
  name_eq : m.name = n.name
  /-- They have the same comment. -/
  comment_eq : m.comment = n.comment

/-- The modules declare the same. -/
structure SameDeclarations (m n : Module) : Prop where
  /-- They have the same type aliases. -/
  aliases_eq : m.aliases = n.aliases
  /-- They have the same union types. -/
  unions_eq : m.unions = n.unions
  /-- They have the same values. -/
  values_eq : m.values = n.values

section Edited

variable {m n : Module} {ms ns : List Module}

theorem SameComments.headings_eq (h : SameComments m n) : m.headings = n.headings := by
  rw [Module.headings, h.name_eq, h.comment_eq, Module.headings]

theorem outlines_of_sameComments (h : List.Forall₂ SameComments ms ns) :
    outlines ms = outlines ns := by
  refine outlines_congr ?_
  induction h with
  | nil => rfl
  | cons hm _ ih => rw [List.map_cons, hm.headings_eq, ih, List.map_cons]

/-- The footer looks at the version of the first module only. -/
theorem footer_of_version (h : ms.head?.map (·.version) = ns.head?.map (·.version))
    (options : RenderOptions) : footer options ms = footer options ns := by
  have hfirst : ms.head?.bind (·.version) = ns.head?.bind (·.version) := by
    simpa [Option.bind_map, Function.comp_def] using congrArg (Option.bind · id) h
  have hversion : compilerVersion ms = compilerVersion ns := by
    rw [compilerVersion, hfirst, compilerVersion]
  unfold footer
  rw [hversion]

/-- The body of a section is made from its own module. -/
theorem SameDeclarations.body_eq (h : SameDeclarations m n) (hc : SameComments m n)
    (style : OperatorStyle) : m.body style = n.body style := by
  have hblocks : m.namedBlocks style = n.namedBlocks style := by
    rw [Module.namedBlocks, h.aliases_eq, h.unions_eq, h.values_eq, hc.name_eq,
      Module.namedBlocks]
  rw [Module.body, Module.catalog, hblocks, hc.name_eq, hc.comment_eq, Module.body,
    Module.catalog]

/-- **Declarations reach the body of their own section and nothing else.**  The documents of two
lists of modules with the same names and comments, and the same version at the head, have the same
contents, headings, links and footer; and where two modules declare the same, whatever the others
do, their sections have the same body. -/
theorem document_locality {options : RenderOptions} {text edited : Text}
    (hcomments : List.Forall₂ SameComments ms ns)
    (hversion : ms.head?.map (·.version) = ns.head?.map (·.version))
    (h : document options ms = .ok text) (hedited : document options ns = .ok edited) :
    Alike options options ms ns text edited
      ∧ ∀ (i : Nat) (m n : Module), ms[i]? = some m → ns[i]? = some n → SameDeclarations m n →
        m.body options.style = n.body options.style := by
  refine ⟨alike_of_outlines (outlines_of_sameComments hcomments)
    (footer_of_version hversion options) h hedited, ?_⟩
  intro i m n hm hn hsame
  have hpair : (m, n) ∈ ms.zip ns := by
    refine List.mem_of_getElem? (i := i) ?_
    rw [List.getElem?_zip_eq_some]
    exact ⟨hm, hn⟩
  exact hsame.body_eq (List.forall₂_iff_zip.mp hcomments |>.2 hpair) options.style

end Edited

/-- A module before its declarations are edited. -/
def draftModule : Module where
  name := "Dict".toList
  comment := "@docs Dict\n# Access\n@docs get".toList
  aliases := [⟨"Dict".toList, [], "List Int".toList, []⟩]
  unions := []
  values := [⟨"get".toList, "Reads.".toList, "Dict.Dict -> Int".toList⟩]
  version := none

/-- The module with a union type for its alias, and a value more. -/
def editedModule : Module :=
  { draftModule with
    aliases := []
    unions := [⟨"Dict".toList, "A set.".toList, [], []⟩]
    values := [⟨"put".toList, [], "a".toList⟩, ⟨"get".toList, [], "Dict -> a".toList⟩] }

/-- The document of either module with another behind it, by the body of its section. -/
def editText (body : Text) : Text :=
  "# Modules\n\n- [Dict](#dict)\n- [Pair](#pair)\n\n".toList
    ++ "# Dict\n\n- [Dict](#dict-1)\n- [get](#get)\n\n".toList ++ body
    ++ "\n\n# Pair\n\n- [swap](#swap)\n\n## Basics\n".toList
    ++ "\n### `swap`\n```elm\nswap : ( a, b ) -> ( b, a )\n```\n\n---\n\n\n".toList
    ++ "---\n\n> Generated with elm-make: unknown and elmdocs: 0.3.0\n".toList

/-- The body before the edit. -/
def draftBody : Text :=
  "\n### `Dict`\n```elm\ntype alias Dict = List Int\n```\n\n---\n\n## Access\n".toList
    ++ "\n### `get`\n```elm\nget : Dict -> Int\n```\n\nReads.\n\n---\n".toList

/-- The body after the edit. -/
def editedBody : Text :=
  "\n### `Dict`\n```elm\ntype Dict\n```\n\nA set.\n\n---\n\n## Access\n".toList
    ++ "\n### `get`\n```elm\nget : Dict -> a\n```\n\n---\n".toList

theorem document_locality_edit :
    document {} [draftModule, swapModule] = .ok (editText draftBody)
      ∧ document {} [editedModule, { swapModule with version := none }]
        = .ok (editText editedBody)
      ∧ Alike {} {} [draftModule, swapModule] [editedModule, { swapModule with version := none }]
        (editText draftBody) (editText editedBody)
      ∧ swapModule.body .bare = { swapModule with version := none }.body .bare := by
  have hcomments : List.Forall₂ SameComments [draftModule, swapModule]
      [editedModule, { swapModule with version := none }] :=
    .cons ⟨rfl, rfl⟩ (.cons ⟨rfl, rfl⟩ .nil)
  have h : document {} [draftModule, swapModule] = .ok (editText draftBody) := by decide +kernel
  have hedited : document {} [editedModule, { swapModule with version := none }]
      = .ok (editText editedBody) := by
    decide +kernel
  obtain ⟨halike, hbodies⟩ := document_locality hcomments rfl h hedited
  exact ⟨h, hedited, halike, hbodies 1 _ _ rfl rfl ⟨rfl, rfl, rfl⟩⟩

end RefBook
