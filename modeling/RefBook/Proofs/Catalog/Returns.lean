import RefBook.Proofs.Catalog.Lookup
import RefBook.Proofs.Catalog.Signatures
import RefBook.Proofs.Comment.Returns

/-!
# RefBook.Proofs.Catalog.Returns — entries between other line ends

* `Module.withReturns`: a module with a carriage return before every line feed of its comments;
  `Module.texts`: all texts of a module.
* `Catalog.mapEntries`: a catalog entry by entry; no other part of it tells the entries apart.
* `Module.mapEntries_catalog_withReturns`: the entries of both modules are the same but for their
  carriage returns.
-/

namespace RefBook

/-! ## Records with other line ends -/

/-- The alias with carriage returns in its comment. -/
def Alias.withReturns (a : Alias) : Alias :=
  { a with comment := RefBook.withReturns a.comment }

/-- The union type with carriage returns in its comment. -/
def UnionType.withReturns (u : UnionType) : UnionType :=
  { u with comment := RefBook.withReturns u.comment }

/-- The value with carriage returns in its comment. -/
def Value.withReturns (v : Value) : Value :=
  { v with comment := RefBook.withReturns v.comment }

/-- The module with a carriage return before every line feed of a comment. -/
def Module.withReturns (m : Module) : Module :=
  { m with
    comment := RefBook.withReturns m.comment
    aliases := m.aliases.map Alias.withReturns
    unions := m.unions.map UnionType.withReturns
    values := m.values.map Value.withReturns }

/-- The texts of an alias. -/
def Alias.texts (a : Alias) : List Text :=
  a.name :: a.comment :: a.type :: a.args

/-- The texts of a constructor. -/
def Constructor.texts (c : Constructor) : List Text :=
  c.name :: c.args

/-- The texts of a union type. -/
def UnionType.texts (u : UnionType) : List Text :=
  u.name :: u.comment :: u.args ++ u.cases.flatMap Constructor.texts

/-- The texts of a value. -/
def Value.texts (v : Value) : List Text :=
  [v.name, v.comment, v.type]

/-- All texts of a module. -/
def Module.texts (m : Module) : List Text :=
  m.name :: m.comment :: m.version.toList ++ m.aliases.flatMap Alias.texts
    ++ m.unions.flatMap UnionType.texts ++ m.values.flatMap Value.texts

/-- A module holds no carriage return exactly when none of its parts does. -/
theorem Module.noReturns_iff {m : Module} : NoReturns m.texts
    ↔ '\r' ∉ m.name ∧ '\r' ∉ m.comment ∧ (∀ v ∈ m.version, '\r' ∉ v)
      ∧ (∀ a ∈ m.aliases, NoReturns a.texts) ∧ (∀ u ∈ m.unions, NoReturns u.texts)
      ∧ ∀ v ∈ m.values, NoReturns v.texts := by
  simp only [NoReturns, texts, List.mem_append, List.mem_cons, List.mem_flatMap, Option.mem_toList,
    Option.mem_def]
  grind

/-! ## Catalogs entry by entry -/

namespace Catalog

variable (f : Text → Text)

/-- The catalog with each entry replaced. -/
def mapEntries (c : Catalog) : Catalog :=
  ⟨c.entries.map fun e => (e.1, f e.2)⟩

theorem putEntry_map (name entry : Text) (es : List (Text × Text)) :
    putEntry name (f entry) (es.map fun e => (e.1, f e.2))
      = (putEntry name entry es).map fun e => (e.1, f e.2) := by
  induction es with
  | nil => rfl
  | cons e es ih =>
    rw [List.map_cons, putEntry, putEntry, ih]
    split <;> rfl

theorem mapEntries_ofList (es : List (Text × Text)) :
    (ofList es).mapEntries f = ofList (es.map fun e => (e.1, f e.2)) := by
  induction es using List.reverseRecOn with
  | nil => rfl
  | append_singleton es e ih =>
    rw [List.map_append, List.map_singleton, ofList_concat, ofList_concat, ← ih]
    exact congrArg Catalog.mk (putEntry_map f e.1 e.2 _).symm

theorem get?_mapEntries (c : Catalog) (name : Text) :
    (c.mapEntries f).get? name = (c.get? name).map f := by
  obtain ⟨es⟩ := c
  show (es.map fun e => (e.1, f e.2)).lookup name = (es.lookup name).map f
  induction es with
  | nil => rfl
  | cons e es ih =>
    rw [List.map_cons, lookup_cons_eq, lookup_cons_eq, ih]
    split <;> rfl

theorem keys_mapEntries (c : Catalog) : (c.mapEntries f).keys = c.keys := by
  simp [keys, mapEntries, Function.comp_def]

end Catalog

/-! ## Entries with other line ends -/

theorem tidyComment_withoutReturns (comment : Text) :
    tidyComment (withoutReturns comment) = withoutReturns (tidyComment comment) := by
  rw [tidyComment, trimEnd_withoutReturns, dropWhile_withoutReturns (by decide), tidyComment]

theorem commentLines_withoutReturns (comment : Text) :
    commentLines (withoutReturns comment) = (commentLines comment).map withoutReturns := by
  rw [commentLines, tidyComment_withoutReturns, isBlank_withoutReturns, commentLines]
  split <;> rfl

/-- Carriage returns go from an entry with those of its comment. -/
theorem withoutReturns_block {heading code : Text} (hheading : '\r' ∉ heading)
    (hcode : '\r' ∉ code) (comment : Text) :
    withoutReturns (block heading code comment) = block heading code (withoutReturns comment) := by
  have hh := withoutReturns_eq_self_iff.mpr hheading
  have hc := withoutReturns_eq_self_iff.mpr hcode
  have hmark : withoutReturns "### `".toList = "### `".toList := by decide
  have htick : withoutReturns ['`'] = ['`'] := by decide
  have hopen : withoutReturns fenceOpen = fenceOpen := by decide
  have hclose : withoutReturns fenceClose = fenceClose := by decide
  have hrule : withoutReturns "---".toList = "---".toList := by decide
  rw [block, withoutReturns_unlines, List.map_append, List.map_append,
    ← commentLines_withoutReturns, block]
  simp only [List.map_cons, List.map_nil, withoutReturns_append, withoutReturns_nil, hh, hc, hmark,
    htick, hopen, hclose, hrule]

theorem return_not_mem_display {name : Text} (h : '\r' ∉ name) (style : OperatorStyle) :
    '\r' ∉ style.display name := by
  cases style with
  | bare => exact h
  | decorated =>
    rw [OperatorStyle.display]
    split <;> simp [h]

/-- Every character of a piece that is shortened is one of the piece. -/
theorem mem_text_of_mem_seenFrom {p : Piece} {owner : Text} {c : Char} (h : c ∈ p.seenFrom owner) :
    c ∈ p.text := by
  cases p with
  | other d => exact h
  | reference head more =>
    rw [Piece.seenFrom] at h
    split at h
    · next name hname =>
      split at h
      · -- the last component is one of those behind a dot
        have hmem : name ∈ more := List.mem_of_getLast? hname
        exact List.mem_append_right _
          (List.mem_flatMap.mpr ⟨name, hmem, List.mem_cons_of_mem _ h⟩)
      · exact h
    · exact h

theorem mem_of_mem_stripModule {owner signature : Text} {c : Char}
    (h : c ∈ stripModule owner signature) : c ∈ signature := by
  obtain ⟨p, hp, hc⟩ := List.mem_flatMap.mp h
  rw [← text_pieces signature]
  exact List.mem_flatMap.mpr ⟨p, hp, mem_text_of_mem_seenFrom hc⟩

/-! ## Declarations with other line ends -/

theorem return_not_mem_aliasCode {a : Alias} (h : NoReturns a.texts) : '\r' ∉ aliasCode a := by
  refine not_mem_unwords (by decide) fun w hw => ?_
  simp only [List.mem_cons, List.mem_append, List.not_mem_nil, or_false] at hw
  rcases hw with (rfl | rfl | hw) | rfl | rfl
  · decide
  · exact h _ (by simp [Alias.texts])
  · exact h _ (by simp [Alias.texts, hw])
  · decide
  · exact h _ (by simp [Alias.texts])

theorem return_not_mem_unionCode {u : UnionType} (h : NoReturns u.texts) : '\r' ∉ unionCode u := by
  have hcases : ∀ c ∈ u.cases, NoReturns c.texts := fun c hc t ht =>
    h t (List.mem_append_right _ (List.mem_flatMap.mpr ⟨c, hc, ht⟩))
  refine return_not_mem_unlines fun l hl => ?_
  rcases List.mem_cons.mp hl with rfl | hl
  · refine not_mem_unwords (by decide) fun w hw => ?_
    rcases List.mem_cons.mp hw with rfl | hw
    · decide
    · rcases List.mem_cons.mp hw with rfl | hw
      · exact h _ (by simp [UnionType.texts])
      · exact h _ (by simp [UnionType.texts, hw])
  · exact not_mem_constructorLines (by decide) (by decide) (by decide) hcases l hl

theorem withoutReturns_aliasBlock {a : Alias} (h : NoReturns a.texts) :
    withoutReturns (aliasBlock a.withReturns) = aliasBlock a := by
  have hcomment : '\r' ∉ a.comment := h _ (by simp [Alias.texts])
  have hname : '\r' ∉ a.name := h _ (by simp [Alias.texts])
  calc withoutReturns (aliasBlock a.withReturns)
      = block a.name (aliasCode a) (withoutReturns (withReturns a.comment)) :=
        withoutReturns_block hname (return_not_mem_aliasCode h) _
    _ = aliasBlock a := by rw [withoutReturns_withReturns hcomment, aliasBlock]

theorem withoutReturns_unionBlock {u : UnionType} (h : NoReturns u.texts) :
    withoutReturns (unionBlock u.withReturns) = unionBlock u := by
  have hcomment : '\r' ∉ u.comment := h _ (by simp [UnionType.texts])
  have hname : '\r' ∉ u.name := h _ (by simp [UnionType.texts])
  calc withoutReturns (unionBlock u.withReturns)
      = block u.name (unionCode u) (withoutReturns (withReturns u.comment)) :=
        withoutReturns_block hname (return_not_mem_unionCode h) _
    _ = unionBlock u := by rw [withoutReturns_withReturns hcomment, unionBlock]

theorem withoutReturns_valueBlock {v : Value} (h : NoReturns v.texts) (style : OperatorStyle)
    (owner : Text) :
    withoutReturns (valueBlock style owner v.withReturns) = valueBlock style owner v := by
  have hcomment : '\r' ∉ v.comment := h _ (by simp [Value.texts])
  have hname : '\r' ∉ style.display v.name :=
    return_not_mem_display (h _ (by simp [Value.texts])) style
  have htype : '\r' ∉ stripModule owner v.type := fun hr =>
    h _ (by simp [Value.texts]) (mem_of_mem_stripModule hr)
  have hcode : '\r' ∉ style.display v.name ++ " : ".toList ++ stripModule owner v.type := by
    simp [hname, htype]
  calc withoutReturns (valueBlock style owner v.withReturns)
      = block (style.display v.name)
          (style.display v.name ++ " : ".toList ++ stripModule owner v.type)
          (withoutReturns (fenceCode (withReturns v.comment))) :=
        withoutReturns_block hname hcode _
    _ = valueBlock style owner v := by rw [withoutReturns_fenceCode hcomment, valueBlock]

/-- The entries of both modules are the same but for their carriage returns. -/
theorem Module.mapEntries_catalog_withReturns {m : Module} (h : NoReturns m.texts)
    (style : OperatorStyle) :
    (m.withReturns.catalog style).mapEntries withoutReturns = m.catalog style := by
  obtain ⟨-, -, -, haliases, hunions, hvalues⟩ := noReturns_iff.mp h
  rw [catalog, Catalog.mapEntries_ofList, catalog, namedBlocks, namedBlocks]
  congr 1
  simp only [List.map_append, List.map_map, withReturns]
  congr 1
  · congr 1
    · exact List.map_congr_left fun a ha =>
        congrArg (Prod.mk a.name) (withoutReturns_aliasBlock (haliases a ha))
    · exact List.map_congr_left fun u hu =>
        congrArg (Prod.mk u.name) (withoutReturns_unionBlock (hunions u hu))
  · exact List.map_congr_left fun v hv =>
      congrArg (Prod.mk v.name) (withoutReturns_valueBlock (hvalues v hv) style m.name)

end RefBook
