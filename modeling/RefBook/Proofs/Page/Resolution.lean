import RefBook.Page.Document
import RefBook.Proofs.Catalog.Lookup
import RefBook.Proofs.Comment.Kinds
import RefBook.Proofs.Page.Plan

/-!
# RefBook.Proofs.Page.Resolution — which directives resolve

Every stage of a document is the first complaint about its directives, or a text that does not
depend on the complaint: `outcome complaint text`.  One equation for each stage says so, from one
name up to the whole document.

* `Catalog.inline_eq`, `resolveLine_eq`, `resolveLines_eq`, `resolve_eq`: names, lines, comments.
* `Module.body_eq`, `Module.render_eq`, `sections_eq`, `document_eq`: modules and documents.
* `document_fails_at_first_undeclared`: a document exists exactly when every module declares what it
  documents; else the complaint is about the first name of the first module that does not.
-/

namespace RefBook

/-! ## Complaints -/

/-- The value, unless there is a complaint. -/
def outcome {α : Type} (complaint : Option Unresolved) (a : α) : Except Unresolved α :=
  match complaint with
  | some u => .error u
  | none => .ok a

section Outcome

variable {α β γ : Type} {complaint : Option Unresolved} {a b : α} {u : Unresolved}

theorem outcome_eq_ok_iff : outcome complaint a = .ok b ↔ complaint = none ∧ a = b := by
  cases complaint <;> simp [outcome]

theorem outcome_eq_error_iff : outcome complaint a = .error u ↔ complaint = some u := by
  cases complaint <;> simp [outcome]

theorem exists_outcome_eq_ok_iff : (∃ b, outcome complaint a = .ok b) ↔ complaint = none := by
  simp [outcome_eq_ok_iff]

theorem outcome_map (f : α → β) : f <$> outcome complaint a = outcome complaint (f a) := by
  cases complaint <;> rfl

/-- One stage after the other: the first complaint wins. -/
theorem outcome_both (first later : Option Unresolved) (a : α) (b : β) (f : α → β → γ) :
    (do
      let x ← outcome first a
      let y ← outcome later b
      return f x y) = outcome (first.or later) (f a b) := by
  cases first <;> cases later <;> rfl

end Outcome

namespace Catalog

variable (c : Catalog) (owner : Text)

/-- The complaint about the first of the names that the catalog lacks. -/
def complaint? (names : List Text) : Option Unresolved :=
  (names.find? fun name => (c.get? name).isNone).map fun name => ⟨owner, name, c.nearest? name⟩

/-- The entry of a name, or nothing where there is none. -/
def block (name : Text) : Text :=
  (c.get? name).getD []

/-- What a line leaves in a body: the entries that it names, or itself as prose. -/
def shown (line : Text) : Text :=
  match directiveNames? line with
  | some names => names.flatMap c.block
  | none => demoted line

theorem complaint?_cons (name : Text) (names : List Text) :
    c.complaint? owner (name :: names)
      = (c.complaint? owner [name]).or (c.complaint? owner names) := by
  cases h : (c.get? name).isNone <;> simp [complaint?, h]

theorem complaint?_append (xs ys : List Text) :
    c.complaint? owner (xs ++ ys) = (c.complaint? owner xs).or (c.complaint? owner ys) := by
  rw [complaint?, List.find?_append, Option.map_or]
  rfl

/-- A complaint is made from the names of a catalog. -/
theorem complaint?_congr {c d : Catalog} (h : c.keys = d.keys) (owner : Text) (names : List Text) :
    c.complaint? owner names = d.complaint? owner names := by
  have hmissing : ∀ name, (c.get? name).isNone = (d.get? name).isNone := by
    intro name
    rw [Bool.eq_iff_iff, Option.isNone_iff_eq_none, Option.isNone_iff_eq_none, get?_eq_none_iff,
      get?_eq_none_iff, h]
  simp only [complaint?, hmissing, nearest?, h]

/-- The first of the names that the catalog lacks. -/
def FirstMissing (names : List Text) (name : Text) : Prop :=
  ∃ before after, names = before ++ name :: after ∧ (∀ n ∈ before, n ∈ c.keys) ∧ name ∉ c.keys

theorem isNone_get? (name : Text) : (c.get? name).isNone = !decide (name ∈ c.keys) := by
  rw [Bool.eq_iff_iff, Option.isNone_iff_eq_none, get?_eq_none_iff]
  simp

variable {c owner} in
theorem complaint?_eq_some_iff {names : List Text} {u : Unresolved} :
    c.complaint? owner names = some u ↔ u.owner = owner ∧ c.FirstMissing names u.name
      ∧ u.suggestion = c.nearest? u.name := by
  simp only [complaint?, isNone_get?, Option.map_eq_some_iff, List.find?_eq_some_iff_append,
    Bool.not_eq_true', decide_eq_false_iff_not, Bool.not_not, decide_eq_true_eq, FirstMissing]
  constructor
  · rintro ⟨name, ⟨hname, before, after, hcut, hbefore⟩, rfl⟩
    exact ⟨rfl, ⟨before, after, hcut, hbefore, hname⟩, rfl⟩
  · rintro ⟨howner, ⟨before, after, hcut, hbefore, hname⟩, hnear⟩
    exact ⟨u.name, ⟨hname, before, after, hcut, hbefore⟩, by rw [← howner, ← hnear]⟩

theorem entry_eq (name : Text) :
    c.entry owner name = outcome (c.complaint? owner [name]) (c.block name) := by
  cases h : c.get? name <;> simp [entry, complaint?, block, outcome, h]

theorem inline_eq (names : List Text) :
    c.inline owner names = outcome (c.complaint? owner names) (names.flatMap c.block) := by
  induction names with
  | nil => rfl
  | cons name names ih =>
    rw [inline, entry_eq, ih, outcome_both, ← complaint?_cons, List.flatMap_cons]

end Catalog

/-! ## Lines and comments -/

section Comments

variable (owner : Text) (c : Catalog)

theorem resolveLine_eq (line : Text) :
    resolveLine owner c line = outcome (c.complaint? owner (lineNames line)) (c.shown line) := by
  rw [resolveLine, Line.ofText_eq]
  cases h : directiveNames? line with
  | some names =>
    rw [lineNames_of_directive h, Catalog.shown, h]
    exact c.inline_eq owner names
  | none =>
    rw [lineNames_of_not_directive h, Catalog.shown, h]
    by_cases hh : isHeading line = true
    · simp [hh, demoted, Catalog.complaint?, outcome]
    · cases codeSample? line <;> simp [hh, demoted, Catalog.complaint?, outcome]

theorem resolveLines_eq (ls : List Text) :
    resolveLines owner c ls = outcome (c.complaint? owner (ls.flatMap lineNames))
      ((ls.map c.shown).filter fun t => !t.isEmpty) := by
  induction ls with
  | nil => rfl
  | cons line ls ih =>
    rw [resolveLines, resolveLine_eq, ih, outcome_both, ← Catalog.complaint?_append]
    cases h : (c.shown line).isEmpty <;> simp [h]

theorem resolve_eq (comment : Text) :
    resolve owner c comment = outcome (c.complaint? owner (documentedNames comment))
      (unlines (((lines comment).map c.shown).filter fun t => !t.isEmpty)) := by
  rw [resolve, resolveLines_eq, outcome_map, documentedNames_eq]

end Comments

/-! ## Modules -/

namespace Module

variable (m : Module) (style : OperatorStyle)

/-- The complaint about the first name that the module documents and does not declare. -/
def complaint? : Option Unresolved :=
  (m.catalog style).complaint? m.name (documentedNames m.comment)

/-- The body of the section of a module about which there is no complaint. -/
def bodyText : Text :=
  unlines (((lines m.comment).map (m.catalog style).shown).filter fun t => !t.isEmpty)

/-- The section of a module about which there is no complaint. -/
def sectionText (o : Outline) : Text :=
  unlines (o.lines style (m.bodyText style))

theorem body_eq : m.body style = outcome (m.complaint? style) (m.bodyText style) :=
  resolve_eq m.name (m.catalog style) m.comment

theorem body_eq_ok {m : Module} {style : OperatorStyle} (h : m.complaint? style = none) :
    m.body style = .ok (m.bodyText style) := by
  rw [body_eq, outcome_eq_ok_iff]
  exact ⟨h, rfl⟩

theorem render_eq (o : Outline) :
    m.render o style = outcome (m.complaint? style) (m.sectionText style o) := by
  rw [render, body_eq]
  exact outcome_map fun body => unlines (o.lines style body)

/-- Every name that the comment documents is declared by the module itself. -/
def DeclaresDocumented : Prop :=
  ∀ name ∈ documentedNames m.comment, name ∈ m.declarationNames

/-- The first name, in the order of the directives, that the module does not declare. -/
def FirstUndeclared (name : Text) : Prop :=
  ∃ before after, documentedNames m.comment = before ++ name :: after
    ∧ (∀ n ∈ before, n ∈ m.declarationNames) ∧ name ∉ m.declarationNames

variable {m style} {name : Text}

theorem firstMissing_catalog_iff :
    (m.catalog style).FirstMissing (documentedNames m.comment) name ↔ m.FirstUndeclared name := by
  simp only [Catalog.FirstMissing, keys_catalog, List.mem_eraseDups, FirstUndeclared]

theorem complaint?_eq_none_iff : m.complaint? style = none ↔ m.DeclaresDocumented := by
  simp [complaint?, Catalog.complaint?, Catalog.isNone_get?, keys_catalog, DeclaresDocumented]

theorem complaint?_eq_some_iff {u : Unresolved} :
    m.complaint? style = some u ↔ u.owner = m.name ∧ m.FirstUndeclared u.name
      ∧ u.suggestion = (m.catalog style).nearest? u.name := by
  rw [complaint?, Catalog.complaint?_eq_some_iff, firstMissing_catalog_iff]

end Module

/-! ## Documents -/

/-- The sections of modules about which there is no complaint. -/
def sectionTexts (style : OperatorStyle) (ms : List Module) (os : List Outline) : List Text :=
  List.zipWith (fun m o => m.sectionText style o) ms os

theorem sections_eq (style : OperatorStyle) (ms : List Module) (os : List Outline)
    (h : os.length = ms.length) :
    sections style (ms.zip os)
      = outcome (ms.findSome? (·.complaint? style)) (sectionTexts style ms os) := by
  induction ms generalizing os with
  | nil => rfl
  | cons m ms ih =>
    cases os with
    | nil => contradiction
    | cons o os =>
      rw [List.zip_cons_cons, sections, Module.render_eq, ih os (by simpa using h), outcome_both]
      cases hm : m.complaint? style <;> simp [hm, sectionTexts]

/-- The document of modules about which there is no complaint. -/
def documentText (options : RenderOptions) (ms : List Module) : Text :=
  unlines (contents (outlines ms) ++ sectionTexts options.style ms (outlines ms)
    ++ [footer options ms])

theorem document_eq (options : RenderOptions) (ms : List Module) :
    document options ms
      = outcome (ms.findSome? (·.complaint? options.style)) (documentText options ms) := by
  simp only [document]
  rw [sections_eq options.style ms (outlines ms) (length_outlines ms)]
  exact outcome_map fun ss => unlines (contents (outlines ms) ++ ss ++ [footer options ms])

/-- `name` is the first name that `owner` documents and does not declare, and `owner` is the first
of the modules that has one. -/
def FirstComplaint (ms : List Module) (owner name : Text) : Prop :=
  ∃ earlier m later, ms = earlier ++ m :: later ∧ (∀ e ∈ earlier, e.DeclaresDocumented)
    ∧ m.name = owner ∧ m.FirstUndeclared name

/-- **A document exists exactly when every module declares what it documents.**  Else the complaint
names the first module in order that does not, and the first name in the order of its directives
that it lacks; what other modules declare is of no help. -/
theorem document_fails_at_first_undeclared (options : RenderOptions) (ms : List Module) :
    ((∃ text, document options ms = .ok text) ↔ ∀ m ∈ ms, m.DeclaresDocumented)
      ∧ ∀ owner name, (∃ suggestion, document options ms = .error ⟨owner, name, suggestion⟩)
          ↔ FirstComplaint ms owner name := by
  rw [document_eq]
  refine ⟨?_, fun owner name => ?_⟩
  · rw [exists_outcome_eq_ok_iff, List.findSome?_eq_none_iff]
    simp only [Module.complaint?_eq_none_iff]
  · simp only [outcome_eq_error_iff, List.findSome?_eq_some_iff, Module.complaint?_eq_some_iff,
      Module.complaint?_eq_none_iff]
    constructor
    · rintro ⟨s, earlier, m, later, hms, ⟨howner, hname, -⟩, hearlier⟩
      exact ⟨earlier, m, later, hms, hearlier, howner.symm, hname⟩
    · rintro ⟨earlier, m, later, hms, hearlier, howner, hname⟩
      exact ⟨_, earlier, m, later, hms, ⟨howner.symm, hname, rfl⟩, hearlier⟩

end RefBook
