import Mathlib.Data.List.Induction
import RefBook.Catalog.Basic

/-!
# RefBook.Proofs.Catalog.Lookup — what a catalog answers

* `Catalog.get?_ofList`: a name has the **last** entry that was put in under it.
* `Catalog.keys_ofList`, `Module.keys_catalog`: the names stand in the order in which they first
  came.
* `Module.get?_catalog_eq_none_iff`: the catalog of a module lacks exactly the names that the module
  does not declare.
* `Module.mem_namedBlocks_of_get?`: an answer is the entry of a declaration of that name.
-/

namespace RefBook

/-! ## One entry -/

theorem lookup_putEntry (name entry : Text) (es : List (Text × Text)) (n : Text) :
    (putEntry name entry es).lookup n = if n = name then some entry else es.lookup n := by
  induction es with
  | nil => exact lookup_cons_eq name entry n []
  | cons e es ih =>
    obtain ⟨k, b⟩ := e
    by_cases hk : k = name
    · subst hk
      rw [putEntry, if_pos rfl, lookup_cons_eq, lookup_cons_eq]
      split <;> rfl
    · rw [putEntry, if_neg hk]
      exact lookup_cons_of_update hk ih

namespace Catalog

@[simp] theorem get?_insert (c : Catalog) (name entry n : Text) :
    (c.insert name entry).get? n = if n = name then some entry else c.get? n :=
  lookup_putEntry name entry c.entries n

theorem get?_eq_none_iff {c : Catalog} {n : Text} : c.get? n = none ↔ n ∉ c.keys := by
  rw [get?, List.lookup_eq_none_iff, keys, List.mem_map]
  constructor
  · rintro h ⟨e, he, rfl⟩
    simpa using h e he
  · intro h e he
    have hne : n ≠ e.1 := fun hn => h ⟨e, he, hn.symm⟩
    simpa using hne

theorem exists_get?_of_mem_keys {c : Catalog} {n : Text} (h : n ∈ c.keys) :
    ∃ e, c.get? n = some e :=
  Option.ne_none_iff_exists'.mp fun hnone => get?_eq_none_iff.mp hnone h

/-- A new name goes to the end, and one that is there keeps its place. -/
theorem keys_insert (c : Catalog) (name entry : Text) :
    (c.insert name entry).keys = if name ∈ c.keys then c.keys else c.keys ++ [name] := by
  obtain ⟨es⟩ := c
  show (putEntry name entry es).map (·.1)
    = if name ∈ es.map (·.1) then es.map (·.1) else es.map (·.1) ++ [name]
  induction es with
  | nil => rfl
  | cons e es ih =>
    obtain ⟨k, b⟩ := e
    by_cases hk : k = name
    · rw [putEntry, if_pos hk, if_pos (by simp [hk])]
      rfl
    · rw [putEntry, if_neg hk]
      exact cons_of_concat_new hk ih

/-! ## All entries -/

theorem ofList_concat (es : List (Text × Text)) (e : Text × Text) :
    ofList (es ++ [e]) = (ofList es).insert e.1 e.2 := by
  simp [ofList, List.foldl_append]

/-- A name has the **last** entry that was put in under it. -/
theorem get?_ofList (es : List (Text × Text)) (n : Text) :
    (ofList es).get? n = es.reverse.lookup n := by
  induction es using List.reverseRecOn with
  | nil => rfl
  | append_singleton es e ih =>
    obtain ⟨k, b⟩ := e
    rw [ofList_concat, get?_insert, ih, List.reverse_append]
    exact (lookup_cons_eq k b n es.reverse).symm

/-- The names of a catalog are those put in, each where it first came. -/
theorem keys_ofList (es : List (Text × Text)) :
    (ofList es).keys = (es.map (·.1)).eraseDups := by
  induction es using List.reverseRecOn with
  | nil => rfl
  | append_singleton es e ih =>
    rw [ofList_concat, keys_insert, ih, List.map_append, List.map_singleton, eraseDups_concat]

theorem mem_of_get?_ofList {es : List (Text × Text)} {n b : Text}
    (h : (ofList es).get? n = some b) : (n, b) ∈ es := by
  rw [get?_ofList, List.lookup_eq_some_iff] at h
  obtain ⟨before, after, hes, -⟩ := h
  rw [← List.mem_reverse, hes]
  simp

end Catalog

/-! ## The catalog of a module -/

namespace Module

variable {m : Module} {style : OperatorStyle} {name entry : Text}

/-- Whatever the style, the names of a catalog are the declared ones, each where it first comes. -/
theorem keys_catalog : (m.catalog style).keys = m.declarationNames.eraseDups := by
  rw [catalog, Catalog.keys_ofList, map_fst_namedBlocks]

theorem get?_catalog_eq_none_iff :
    (m.catalog style).get? name = none ↔ name ∉ m.declarationNames := by
  rw [Catalog.get?_eq_none_iff, keys_catalog, List.mem_eraseDups]

theorem mem_namedBlocks_of_get? (h : (m.catalog style).get? name = some entry) :
    (name, entry) ∈ m.namedBlocks style :=
  Catalog.mem_of_get?_ofList h

end Module

end RefBook
