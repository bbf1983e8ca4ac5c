import RefBook.Name.Anchor

/-!
# RefBook.Proofs.Name.Allocation — runs of a registry

* `Registry.occurrences_allocate`: one step counts one more heading of its name and of no other.
* `Registry.occurrences_allocateAll`, `Registry.getElem?_allocateAll`: a run counts every heading,
  and numbers each by those of its name before it, in the run or before the run.
* `Registry.HasCounted`: what a registry knows of the headings so far.  A step keeps it, so a run does.
* `Registry.allocateAll_counts`: a run over a fresh registry, by its headings alone.
-/

namespace RefBook

theorem lookup_tally (name n : Text) (counts : List (Text × Nat)) :
    (tally name counts).lookup n
      = if n = name then some ((counts.lookup name).getD 0 + 1) else counts.lookup n := by
  induction counts with
  | nil => exact lookup_cons_eq name 1 n []
  | cons e counts ih =>
    obtain ⟨k, i⟩ := e
    by_cases hk : k = name
    · subst hk
      rw [tally, if_pos rfl, lookup_cons_eq, lookup_cons_eq, lookup_cons_eq, if_pos rfl]
      split <;> rfl
    · rw [tally, if_neg hk, lookup_cons_eq k i name, if_neg (Ne.symm hk)]
      exact lookup_cons_of_update hk ih

/-- A new name goes to the end, and one that is there keeps its place. -/
theorem map_fst_tally (name : Text) (counts : List (Text × Nat)) :
    (tally name counts).map (·.1) = if name ∈ counts.map (·.1) then counts.map (·.1)
      else counts.map (·.1) ++ [name] := by
  induction counts with
  | nil => rfl
  | cons e counts ih =>
    obtain ⟨k, i⟩ := e
    by_cases hk : k = name
    · rw [tally, if_pos hk, if_pos (by simp [hk])]
      rfl
    · rw [tally, if_neg hk]
      exact cons_of_concat_new hk ih

namespace Registry

/-! ## One heading -/

theorem occurrences_empty (n : Text) : ({} : Registry).occurrences n = 0 := rfl

theorem occurrences_allocate (r : Registry) (name n : Text) :
    (r.allocate name).2.occurrences n = r.occurrences n + [name].count n := by
  simp only [allocate, occurrences, lookup_tally]
  by_cases h : n = name
  · simp [h]
  · have hne : ¬ name = n := fun e => h e.symm
    simp [h, hne]

theorem total_allocate (r : Registry) (name : Text) : (r.allocate name).2.total = r.total + 1 := by
  obtain ⟨counts⟩ := r
  unfold allocate total
  induction counts with
  | nil => rfl
  | cons e counts ih =>
    obtain ⟨k, i⟩ := e
    simp only [tally] at ih ⊢
    split <;> simp only [List.foldr_cons] <;> omega

theorem names_allocate (r : Registry) (name : Text) :
    (r.allocate name).2.names = if name ∈ r.names then r.names else r.names ++ [name] :=
  map_fst_tally name r.counts

/-! ## Runs -/

theorem allocateAll_cons (r : Registry) (name : Text) (more : List Text) :
    r.allocateAll (name :: more)
      = ((r.allocate name).1 :: ((r.allocate name).2.allocateAll more).1,
          ((r.allocate name).2.allocateAll more).2) := rfl

theorem occurrences_allocateAll (r : Registry) (names : List Text) (n : Text) :
    (r.allocateAll names).2.occurrences n = r.occurrences n + names.count n := by
  induction names generalizing r with
  | nil => rfl
  | cons name more ih =>
    rw [allocateAll_cons, ih, occurrences_allocate, Nat.add_assoc, ← List.count_append]
    rfl

/-- A heading is numbered by the headings of its name before it. -/
theorem getElem?_allocateAll (r : Registry) (names : List Text) (j : Nat) :
    (r.allocateAll names).1[j]?
      = names[j]?.map fun n => anchor n (r.occurrences n + (names.take j).count n) := by
  induction names generalizing r j with
  | nil => rfl
  | cons name more ih =>
    rw [allocateAll_cons]
    cases j with
    | zero => rfl
    | succ j =>
      rw [List.getElem?_cons_succ, List.getElem?_cons_succ, ih]
      refine congrArg (Option.map · _) (funext fun n => ?_)
      rw [occurrences_allocate, Nat.add_assoc, ← List.count_append]
      rfl

/-! ## Runs from the start -/

/-- The registry has counted these headings, in this order, and no others. -/
structure HasCounted (headings : List Text) (r : Registry) : Prop where
  /-- Each name occurs in it as often as it is a heading. -/
  occurrences_eq : ∀ n, r.occurrences n = headings.count n
  /-- The headings are counted with their repetitions. -/
  total_eq : r.total = headings.length
  /-- The names stand in the order in which they first came. -/
  names_eq : r.names = headings.eraseDups

theorem hasCounted_empty : HasCounted [] {} :=
  ⟨fun _ => rfl, rfl, rfl⟩

section HasCounted

variable {before : List Text} {r : Registry}

theorem HasCounted.allocate (h : HasCounted before r) (name : Text) :
    HasCounted (before ++ [name]) (r.allocate name).2 := by
  refine ⟨?_, ?_, ?_⟩
  · intro n
    rw [occurrences_allocate, h.occurrences_eq, List.count_append]
  · rw [total_allocate, h.total_eq, List.length_append, List.length_singleton]
  · rw [names_allocate, h.names_eq, eraseDups_concat]

theorem HasCounted.allocateAll (h : HasCounted before r) (headings : List Text) :
    HasCounted (before ++ headings) (r.allocateAll headings).2 := by
  induction headings generalizing before r with
  | nil => rwa [List.append_nil]
  | cons name more ih =>
    have hrest := ih (h.allocate name)
    rwa [List.append_assoc, List.singleton_append] at hrest

end HasCounted

/-- **A run numbers each heading by the earlier ones of its name.**  Over a fresh registry, the anchor
of a heading is the slug of its name if no heading before it has the name, and else that slug with the
number of those that have it behind a hyphen.  Afterwards the registry has counted the headings of the
run: every name with its occurrences, all of them, and the different names in first-seen order. -/
theorem allocateAll_counts (headings : List Text) :
    HasCounted headings (({} : Registry).allocateAll headings).2
      ∧ (({} : Registry).allocateAll headings).1.length = headings.length
      ∧ ∀ before name after, headings = before ++ name :: after →
        (({} : Registry).allocateAll headings).1[before.length]?
          = some (if name ∈ before then slug name ++ '-' :: decimal (before.count name)
              else slug name) := by
  refine ⟨hasCounted_empty.allocateAll headings, length_allocateAll _ _, ?_⟩
  rintro before name after rfl
  have hplace : (before ++ name :: after)[before.length]? = some name := by simp
  have hearlier : (before ++ name :: after).take before.length = before := List.take_left
  rw [getElem?_allocateAll, hplace, hearlier, Option.map_some, occurrences_empty, Nat.zero_add,
    anchor]
  by_cases hname : name ∈ before
  · have hcount : before.count name ≠ 0 := Nat.ne_of_gt (List.count_pos_iff.mpr hname)
    rw [if_pos hname, if_neg hcount]
  · have hcount : before.count name = 0 := List.count_eq_zero.mpr hname
    rw [if_neg hname, if_pos hcount]

example : (({} : Registry).allocateAll ["map".toList, "Map".toList, "map".toList]).1
    = ["map".toList, "map".toList, "map-1".toList] := by decide

end Registry

end RefBook
