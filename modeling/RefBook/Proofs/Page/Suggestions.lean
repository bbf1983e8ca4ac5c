import RefBook.Proofs.Catalog.Edits
import RefBook.Proofs.Page.Resolution

/-!
# RefBook.Proofs.Page.Suggestions — the nearest name is suggested

* `IsNearest`: no key takes fewer edits to become the name, and no earlier key as few.
* `Suggests`: a suggestion is made exactly when some key is within three edits, and then it is the
  nearest one.
* `leastDistant_eq_some`, `suggests_nearest?`: the catalog answers so.
* `resolve_suggests_nearest`: a comment is refused exactly for its first missing name, with the
  nearest key.
-/

namespace RefBook

/-! ## The first of the least distant -/

section LeastDistant

variable {l : List (Text × Nat)} {key : Text} {n : Nat}

theorem leastDistant_eq_none_iff : leastDistant l = none ↔ l = [] := by
  cases l with
  | nil => simp [leastDistant]
  | cons p more =>
    rw [leastDistant]
    cases leastDistant more with
    | none => simp
    | some q =>
      dsimp only
      split <;> simp

/-- Nothing is nearer, and nothing before it is as near. -/
theorem leastDistant_eq_some (h : leastDistant l = some (key, n)) :
    ∃ before after, l = before ++ (key, n) :: after ∧ (∀ p ∈ before, n < p.2)
      ∧ ∀ p ∈ after, n ≤ p.2 := by
  induction l generalizing key n with
  | nil => contradiction
  | cons p more ih =>
    rw [leastDistant] at h
    cases hmore : leastDistant more with
    | none =>
      rw [hmore] at h
      obtain rfl : p = (key, n) := Option.some.inj h
      rw [leastDistant_eq_none_iff.mp hmore]
      exact ⟨[], [], rfl, by simp, by simp⟩
    | some q =>
      obtain ⟨before, after, rfl, hbefore, hafter⟩ := ih hmore
      rw [hmore] at h
      dsimp only at h
      split at h
      · next hless =>
        obtain rfl : q = (key, n) := Option.some.inj h
        exact ⟨p :: before, after, rfl, List.forall_mem_cons.mpr ⟨hless, hbefore⟩, hafter⟩
      · next hless =>
        obtain rfl : p = (key, n) := Option.some.inj h
        refine ⟨[], before ++ q :: after, rfl, by simp, ?_⟩
        intro r hr
        rcases List.mem_append.mp hr with hr | hr
        · have := hbefore r hr
          omega
        · rcases List.mem_cons.mp hr with rfl | hr
          · exact Nat.le_of_not_lt hless
          · have := hafter r hr
            omega

end LeastDistant

/-! ## The nearest key -/

/-- The first of the keys that take the least number of edits to become the name. -/
def IsNearest (keys : List Text) (name key : Text) : Prop :=
  ∃ before after n, keys = before ++ key :: after ∧ LeastEdits n key name
    ∧ (∀ k ∈ before, ∀ m, Edited m k name → n < m) ∧ ∀ k ∈ after, ∀ m, Edited m k name → n ≤ m

/-- What is suggested for a name where these are the keys. -/
structure Suggests (keys : List Text) (name : Text) (suggestion : Option Text) : Prop where
  /-- There is a suggestion if a key is near enough, and not otherwise. -/
  isSome_iff : suggestion.isSome = true ↔ ∃ key ∈ keys, Edited 3 key name
  /-- No key is nearer than the one suggested, and no earlier one as near. -/
  nearest : ∀ key, suggestion = some key → IsNearest keys name key

section Nearest

variable {keys : List Text} {name key : Text} {m n : Nat}

theorem LeastEdits.symm {s t : Text} (h : LeastEdits n s t) : LeastEdits n t s :=
  ⟨h.1.symm, fun m hm => h.2 m hm.symm⟩

/-- The keys within the limit, each with its distance. -/
def distances (name : Text) (keys : List Text) : List (Text × Nat) :=
  keys.filterMap fun key => (editDistance? suggestionLimit name key).map fun n => (key, n)

theorem mem_distances (h : (key, n) ∈ distances name keys) :
    key ∈ keys ∧ n ≤ 3 ∧ LeastEdits n key name := by
  obtain ⟨k, hk, hdistance⟩ := List.mem_filterMap.mp h
  obtain ⟨d, hd, hpair⟩ := Option.map_eq_some_iff.mp hdistance
  obtain ⟨rfl, rfl⟩ := Prod.mk.inj hpair
  obtain ⟨hlimit, hleast⟩ := editDistance?_eq_some_iff.mp hd
  exact ⟨hk, hlimit, hleast.symm⟩

/-- Every key within the limit has a distance. -/
theorem exists_mem_distances (hkey : key ∈ keys) (hm : m ≤ 3) (h : Edited m key name) :
    ∃ n ≤ m, (key, n) ∈ distances name keys := by
  cases hd : editDistance? suggestionLimit name key with
  | none => exact absurd (h.symm.mono hm) (editDistance?_eq_none_iff.mp hd)
  | some n =>
    refine ⟨n, (editDistance?_eq_some_iff.mp hd).2.2 m h.symm, ?_⟩
    exact List.mem_filterMap.mpr ⟨key, hkey, by rw [hd, Option.map_some]⟩

/-- A bound on the distances within the limit bounds the edits from any key. -/
theorem le_of_le_distances {bound : Nat} (hbound : bound ≤ 4)
    (h : ∀ p ∈ distances name keys, bound ≤ p.2) :
    ∀ k ∈ keys, ∀ m, Edited m k name → bound ≤ m := by
  intro k hk m hm
  by_cases hlimit : m ≤ 3
  · obtain ⟨n, hn, hmem⟩ := exists_mem_distances hk hlimit hm
    have := h (k, n) hmem
    omega
  · omega

/-- Where a distance stands, its key stands between those of the distances around it. -/
theorem distances_eq_append {near far : List (Text × Nat)}
    (h : distances name keys = near ++ (key, n) :: far) :
    ∃ before after, keys = before ++ key :: after ∧ distances name before = near
      ∧ distances name after = far := by
  obtain ⟨front, rest, rfl, hfront, hrest⟩ := List.filterMap_eq_append_iff.mp h
  obtain ⟨skipped, k, after, rfl, hskipped, hk, hafter⟩ := List.filterMap_eq_cons_iff.mp hrest
  obtain ⟨d, -, hpair⟩ := Option.map_eq_some_iff.mp hk
  obtain ⟨rfl, rfl⟩ := Prod.mk.inj hpair
  refine ⟨front ++ skipped, after, by rw [List.append_assoc], ?_, hafter⟩
  rw [distances, List.filterMap_append, hfront, List.filterMap_eq_nil_iff.mpr hskipped,
    List.append_nil]

theorem suggests_nearest? (c : Catalog) (name : Text) : Suggests c.keys name (c.nearest? name) where
  isSome_iff := by
    show ((leastDistant (distances name c.keys)).map (·.1)).isSome = true ↔ _
    rw [Option.isSome_map, ← Option.ne_none_iff_isSome, ne_eq, leastDistant_eq_none_iff]
    constructor
    · intro hne
      obtain ⟨⟨key, n⟩, hmem⟩ := List.exists_mem_of_ne_nil _ hne
      obtain ⟨hkey, hn, hleast⟩ := mem_distances hmem
      exact ⟨key, hkey, hleast.1.mono hn⟩
    · rintro ⟨key, hkey, h⟩
      obtain ⟨n, -, hmem⟩ := exists_mem_distances hkey (Nat.le_refl 3) h
      exact List.ne_nil_of_mem hmem
  nearest := by
    intro key h
    obtain ⟨⟨key, n⟩, hleast, rfl⟩ := Option.map_eq_some_iff.mp h
    change leastDistant (distances name c.keys) = _ at hleast
    obtain ⟨near, far, hdistances, hnear, hfar⟩ := leastDistant_eq_some hleast
    obtain ⟨before, after, hkeys, hbefore, hafter⟩ := distances_eq_append hdistances
    have hmem : (key, n) ∈ distances name c.keys :=
      hdistances ▸ List.mem_append_right near List.mem_cons_self
    obtain ⟨-, hn, hedits⟩ := mem_distances hmem
    exact ⟨before, after, n, hkeys, hedits,
      le_of_le_distances (Nat.succ_le_succ hn) (hbefore ▸ hnear),
      le_of_le_distances (Nat.le_succ_of_le hn) (hafter ▸ hfar)⟩

-- two keys are one edit away: the first of them is the nearest
example : (⟨[("dlof".toList, []), ("afold".toList, []), ("fodl".toList, [])]⟩ : Catalog).nearest?
    "fold".toList = some "afold".toList := by cbv

end Nearest

/-! ## Complaints -/

/-- **The nearest key is suggested.**  A comment is refused for the first name of its directives
that the catalog lacks.  Whenever it is refused for a name, a suggestion is made exactly when at
most three edits turn some key into the name, and then it is the first of the keys that take the
fewest. -/
theorem resolve_suggests_nearest (owner : Text) (c : Catalog) (comment : Text) :
    (∀ name, c.FirstMissing (documentedNames comment) name →
        ∃ suggestion, resolve owner c comment = .error ⟨owner, name, suggestion⟩)
      ∧ ∀ u, resolve owner c comment = .error u →
        u.owner = owner ∧ c.FirstMissing (documentedNames comment) u.name
          ∧ Suggests c.keys u.name u.suggestion := by
  simp only [resolve_eq, outcome_eq_error_iff, Catalog.complaint?_eq_some_iff]
  refine ⟨fun name hname => ⟨c.nearest? name, trivial, hname, rfl⟩, ?_⟩
  rintro u ⟨howner, hname, hnear⟩
  exact ⟨howner, hname, hnear ▸ suggests_nearest? c u.name⟩

end RefBook
