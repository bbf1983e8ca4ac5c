import RefBook.Proofs.Catalog.Lookup

/-!
# RefBook.Proofs.Catalog.Declarations — the entries of a module, declaration by declaration

* `Declaration`: a declaration of any of the three kinds; `Module.declarations` has all of a module,
  in the order of the groups.
* `Catalog.get?_ofList_eq_some_iff`: the entry of a name is the one behind which no other of the name
  was put in.
* `Catalog.entries_ofList_of_nodup`: entries with different names are all kept, in their order.
* `Module.catalog_by_declarations`: so a catalog has the declared names, each where it first comes,
  with the entry of the **last** declaration of the name; and all entries are there exactly when the
  names are different.
-/

namespace RefBook

/-! ## Declarations -/

/-- A declaration of any kind. -/
inductive Declaration where
  /-- A type alias. -/
  | ofAlias (a : Alias)
  /-- A union type. -/
  | ofUnion (u : UnionType)
  /-- A value. -/
  | ofValue (v : Value)
deriving DecidableEq, Repr

namespace Declaration

/-- The name that is declared. -/
def name : Declaration → Text
  | ofAlias a => a.name
  | ofUnion u => u.name
  | ofValue v => v.name

/-- The entry of the declaration in the module `owner`. -/
def entry (style : OperatorStyle) (owner : Text) : Declaration → Text
  | ofAlias a => aliasBlock a
  | ofUnion u => unionBlock u
  | ofValue v => valueBlock style owner v

end Declaration

namespace Module

/-- All declarations: aliases, then union types, then values. -/
def declarations (m : Module) : List Declaration :=
  m.aliases.map .ofAlias ++ m.unions.map .ofUnion ++ m.values.map .ofValue

theorem map_name_declarations (m : Module) :
    m.declarations.map Declaration.name = m.declarationNames := by
  simp only [declarations, List.map_append, List.map_map]
  rfl

theorem namedBlocks_eq (m : Module) (style : OperatorStyle) :
    m.namedBlocks style = m.declarations.map fun d => (d.name, d.entry style m.name) := by
  simp only [declarations, List.map_append, List.map_map]
  rfl

end Module

/-! ## Entries of a catalog -/

namespace Catalog

variable {es : List (Text × Text)} {name entry : Text}

/-- The entry of a name is the one behind which no other of the name was put in. -/
theorem get?_ofList_eq_some_iff : (ofList es).get? name = some entry
    ↔ ∃ before after, es = before ++ (name, entry) :: after ∧ ∀ e ∈ after, e.1 ≠ name := by
  rw [get?_ofList, List.lookup_eq_some_iff]
  constructor
  · rintro ⟨after, before, hes, hafter⟩
    refine ⟨before.reverse, after.reverse, ?_, ?_⟩
    · have hreverse := congrArg List.reverse hes
      simpa using hreverse
    · intro e he
      have hne := hafter e (List.mem_reverse.mp he)
      exact fun h => by simp [h] at hne
  · rintro ⟨before, after, rfl, hafter⟩
    refine ⟨after.reverse, before.reverse, by simp, ?_⟩
    intro e he
    have hne : name ≠ e.1 := (hafter e (List.mem_reverse.mp he)).symm
    simpa using hne

theorem putEntry_of_not_mem (h : name ∉ es.map (·.1)) :
    putEntry name entry es = es ++ [(name, entry)] := by
  induction es with
  | nil => rfl
  | cons e es ih =>
    rw [List.map_cons, List.mem_cons, not_or] at h
    rw [putEntry, if_neg (Ne.symm h.1), ih h.2, List.cons_append]

/-- Entries with different names are all kept, in their order. -/
theorem entries_ofList_of_nodup (h : (es.map (·.1)).Nodup) : (ofList es).entries = es := by
  induction es using List.reverseRecOn with
  | nil => rfl
  | append_singleton es e ih =>
    rw [List.map_append, List.map_singleton, List.nodup_append] at h
    obtain ⟨hes, -, hfresh⟩ := h
    have hnew : e.1 ∉ es.map (·.1) := fun hmem => hfresh e.1 hmem e.1 (by simp) rfl
    rw [ofList_concat, insert, ih hes, putEntry_of_not_mem hnew]

/-- No name comes twice in a catalog. -/
theorem nodup_keys_ofList (es : List (Text × Text)) : (ofList es).keys.Nodup := by
  induction es using List.reverseRecOn with
  | nil => exact List.nodup_nil
  | append_singleton es e ih =>
    rw [ofList_concat, keys_insert]
    split
    · exact ih
    · next hnew =>
      refine List.nodup_append.mpr ⟨ih, by simp, ?_⟩
      intro key hkey other hother
      rw [List.mem_singleton.mp hother]
      exact fun hname => hnew (hname ▸ hkey)

end Catalog

/-- **A catalog has one entry for each name, that of its last declaration.**  The names of a module's
catalog are the declared ones without repetitions, each where it first comes.  The entry of a name is
that of a declaration behind which none of the same name comes, aliases standing before union types
and these before values.  So every declaration has its own entry, and none is lost, exactly when all
names are different. -/
theorem Module.catalog_by_declarations (m : Module) (style : OperatorStyle) :
    (m.catalog style).keys = m.declarationNames.eraseDups
      ∧ (∀ name entry, (m.catalog style).get? name = some entry
          ↔ ∃ before d after, m.declarations = before ++ d :: after ∧ d.name = name
            ∧ (∀ e ∈ after, e.name ≠ name) ∧ entry = d.entry style m.name)
      ∧ (m.declarationNames.Nodup
          ↔ (m.catalog style).entries
            = m.declarations.map fun d => (d.name, d.entry style m.name)) := by
  refine ⟨keys_catalog, fun name entry => ?_, ?_, ?_⟩
  · rw [catalog, Catalog.get?_ofList_eq_some_iff, namedBlocks_eq]
    constructor
    · rintro ⟨before, after, hcut, hafter⟩
      obtain ⟨ds, rest, hds, -, hrest⟩ := List.map_eq_append_iff.mp hcut
      obtain ⟨d, later, rfl, hd, rfl⟩ := List.map_eq_cons_iff.mp hrest
      obtain ⟨rfl, rfl⟩ := Prod.mk.inj hd
      exact ⟨ds, d, later, hds, rfl, fun e he => hafter _ (List.mem_map_of_mem he), rfl⟩
    · rintro ⟨before, d, after, hcut, rfl, hafter, rfl⟩
      rw [hcut, List.map_append, List.map_cons]
      refine ⟨_, _, rfl, fun e he => ?_⟩
      obtain ⟨later, hlater, rfl⟩ := List.mem_map.mp he
      exact hafter later hlater
  · intro hnames
    rw [← map_fst_namedBlocks m style] at hnames
    rw [← namedBlocks_eq]
    exact Catalog.entries_ofList_of_nodup hnames
  · intro hentries
    have hkeys : (m.catalog style).keys = m.declarationNames := by
      rw [Catalog.keys, hentries, List.map_map, ← map_name_declarations]
      rfl
    rw [← hkeys]
    exact Catalog.nodup_keys_ofList _

end RefBook
