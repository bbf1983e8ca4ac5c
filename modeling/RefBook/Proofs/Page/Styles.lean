import RefBook.Proofs.Page.Locality

/-!
# RefBook.Proofs.Page.Styles — what the style of operators can reach

Names are looked up, suggested and linked to as they are; the style shows in labels, headings and
signatures only.

* `Module.complaint?_style`: complaints do not depend on the style.
* `Module.catalog_style`, `Module.sectionText_style`: without operators, neither do entries and
  sections.
* `document_restyled`: documents in two styles fail alike or are alike, and without operators they
  are the same text.
-/

namespace RefBook

/-! ## One module -/

namespace Module

variable {m : Module} (style style' : OperatorStyle)

/-- None of the names that the module declares is an operator. -/
def DeclaresNoOperator (m : Module) : Prop :=
  ∀ name ∈ m.declarationNames, isOperator name = false

instance (m : Module) : Decidable m.DeclaresNoOperator :=
  inferInstanceAs (Decidable (∀ name ∈ m.declarationNames, isOperator name = false))

/-- The names of a catalog are those declared, in whatever form they are shown. -/
theorem complaint?_style (m : Module) : m.complaint? style = m.complaint? style' := by
  have hkeys : (m.catalog style).keys = (m.catalog style').keys := by
    rw [keys_catalog, keys_catalog]
  exact Catalog.complaint?_congr hkeys _ _

theorem display_style {name : Text} (h : isOperator name = false) :
    style.display name = style'.display name := by
  rw [OperatorStyle.display_of_not_isOperator h, OperatorStyle.display_of_not_isOperator h]

/-- Only the entries of values show the style, where their names are operators. -/
theorem catalog_style (h : m.DeclaresNoOperator) : m.catalog style = m.catalog style' := by
  have hvalues : ∀ v ∈ m.values, valueBlock style m.name v = valueBlock style' m.name v := by
    intro v hv
    have hname : v.name ∈ m.declarationNames := by
      rw [declarationNames]
      exact List.mem_append_right _ (List.mem_map_of_mem hv)
    rw [valueBlock, display_style style style' (h _ hname), valueBlock]
  have hblocks : m.namedBlocks style = m.namedBlocks style' := by
    have hlast : m.values.map (fun v => (v.name, valueBlock style m.name v))
        = m.values.map (fun v => (v.name, valueBlock style' m.name v)) :=
      List.map_congr_left fun v hv => congrArg (Prod.mk v.name) (hvalues v hv)
    rw [namedBlocks, hlast, namedBlocks]
  rw [catalog, hblocks, catalog]

/-- Where the outline holds names of the module only, none of its bullets shows the style. -/
theorem sectionText_style (h : m.DeclaresNoOperator) {o : Outline}
    (hentries : ∀ e ∈ o.entries, e.name ∈ m.declarationNames) :
    m.sectionText style o = m.sectionText style' o := by
  have hbody : m.bodyText style = m.bodyText style' := by
    rw [bodyText, catalog_style style style' h, bodyText]
  have hindex : o.index style = o.index style' := by
    refine List.map_congr_left fun e he => ?_
    rw [display_style style style' (h _ (hentries e he))]
  rw [sectionText, Outline.lines, hbody, hindex, sectionText, Outline.lines]

end Module

/-! ## Documents -/

section Documents

variable (options : RenderOptions) (style : OperatorStyle) {ms : List Module}

theorem findSome?_complaint?_style (style' : OperatorStyle) (ms : List Module) :
    ms.findSome? (·.complaint? style) = ms.findSome? (·.complaint? style') := by
  have hsame : (fun m : Module => m.complaint? style) = fun m => m.complaint? style' :=
    funext fun m => m.complaint?_style style style'
  rw [hsame]

/-- Every name that the outline of a module holds is declared, if the module documents nothing
else. -/
theorem mem_declarationNames_of_outline {i : Nat} {m : Module} {o : Outline}
    (hm : ms[i]? = some m) (ho : (outlines ms)[i]? = some o) (hdeclared : m.DeclaresDocumented) :
    ∀ e ∈ o.entries, e.name ∈ m.declarationNames := by
  rw [outlines, getElem?_plan, hm, Option.map_some, Option.some.injEq] at ho
  intro e he
  have hname : e.name ∈ o.entries.map Link.name := List.mem_map_of_mem he
  rw [← ho, Outline.map_name_entries_plan] at hname
  exact hdeclared _ hname

theorem sectionTexts_style (style' : OperatorStyle) (hnone : ∀ m ∈ ms, m.DeclaresNoOperator)
    (hdeclared : ∀ m ∈ ms, m.DeclaresDocumented) :
    sectionTexts style ms (outlines ms) = sectionTexts style' ms (outlines ms) := by
  refine List.ext_getElem? fun i => ?_
  rw [sectionTexts, sectionTexts, List.getElem?_zipWith, List.getElem?_zipWith]
  cases hm : ms[i]? with
  | none => rfl
  | some m =>
    cases ho : (outlines ms)[i]? with
    | none => rfl
    | some o =>
      have hmem : m ∈ ms := List.mem_of_getElem? hm
      have hentries := mem_declarationNames_of_outline hm ho (hdeclared m hmem)
      exact congrArg some (m.sectionText_style style style' (hnone m hmem) hentries)

/-- The footer shows no operator. -/
theorem footer_style (ms : List Module) :
    footer { options with style } ms = footer options ms := by
  cases options
  rfl

theorem document_style_of_noOperator (hnone : ∀ m ∈ ms, m.DeclaresNoOperator) :
    document { options with style } ms = document options ms := by
  rw [document_eq, document_eq, findSome?_complaint?_style style options.style]
  cases hcomplaint : ms.findSome? (·.complaint? options.style) with
  | some u =>
    -- the two texts differ, but neither is reached
    show Except.error u = Except.error u
    rfl
  | none =>
    have hdeclared : ∀ m ∈ ms, m.DeclaresDocumented := by
      intro m hm
      exact Module.complaint?_eq_none_iff.mp (List.findSome?_eq_none_iff.mp hcomplaint m hm)
    have hsections := sectionTexts_style style options.style hnone hdeclared
    rw [documentText, hsections, footer_style, documentText]

/-- **The style of operators is for display only.**  In two styles, a list of modules either fails
with the same complaint, or becomes documents with the same contents and the same links; and if none
of the modules declares an operator, with the same text. -/
theorem document_restyled (ms : List Module) :
    ((∃ u, document options ms = .error u ∧ document { options with style } ms = .error u)
        ∨ ∃ text restyled, document options ms = .ok text
          ∧ document { options with style } ms = .ok restyled
          ∧ Alike options { options with style } ms ms text restyled)
      ∧ ((∀ m ∈ ms, m.DeclaresNoOperator) →
        document options ms = document { options with style } ms) := by
  refine ⟨?_, fun hnone => (document_style_of_noOperator options style hnone).symm⟩
  have hfooter := (footer_style options style ms).symm
  have h := document_eq options ms
  have hrestyled := document_eq { options with style } ms
  rw [findSome?_complaint?_style style options.style] at hrestyled
  cases hcomplaint : ms.findSome? (·.complaint? options.style) with
  | some u =>
    rw [hcomplaint] at h hrestyled
    exact Or.inl ⟨u, h, hrestyled⟩
  | none =>
    rw [hcomplaint] at h hrestyled
    exact Or.inr ⟨_, _, h, hrestyled, alike_of_outlines rfl hfooter h hrestyled⟩

end Documents

/-- Options that name another compiler. -/
def swapOptions : RenderOptions where
  compilerLabel := "elm".toList

theorem document_restyled_swap :
    (∀ m ∈ [swapModule], m.DeclaresNoOperator)
      ∧ document swapOptions [swapModule]
        = document { swapOptions with style := .decorated } [swapModule] := by
  have hnone : ∀ m ∈ [swapModule], m.DeclaresNoOperator := by decide
  exact ⟨hnone, (document_restyled swapOptions .decorated [swapModule]).2 hnone⟩

/-- A module that declares an operator. -/
def pipeModule : Module :=
  { swapModule with
    comment := "@docs (|>)".toList
    values := [⟨"|>".toList, [], "a -> (a -> b) -> b".toList⟩] }

-- where there is an operator, the texts do differ
example : document {} [pipeModule] ≠ document { style := .decorated } [pipeModule] := by
  decide +kernel

end RefBook
