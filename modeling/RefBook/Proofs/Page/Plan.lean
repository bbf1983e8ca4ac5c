import RefBook.Page.Document
import RefBook.Proofs.Name.Allocation

/-!
# RefBook.Proofs.Page.Plan — outlines one after the other

* `Outline.getElem?_entries_plan`: the anchor of a documented name counts the headings of that name
  before it: those of the registry, the heading of the module, and the names before it.
* `getElem?_plan`, `occurrences_plan`: the outline of a module is planned over a registry that has
  counted the headings of all modules before it, and nothing else.
* `outlines_congr`: modules with the same headings have the same outlines, whatever else they hold.
-/

namespace RefBook

namespace Outline

/-! ## One module -/

theorem plan_eq (m : Module) (r : Registry) :
    plan m r = (⟨⟨m.name, anchor m.name (r.occurrences m.name)⟩,
        List.zipWith Link.mk (documentedNames m.comment)
          ((r.allocate m.name).2.allocateAll (documentedNames m.comment)).1⟩,
      ((r.allocate m.name).2.allocateAll (documentedNames m.comment)).2) := rfl

theorem occurrences_plan (m : Module) (r : Registry) (n : Text) :
    (plan m r).2.occurrences n = r.occurrences n + m.headings.count n := by
  rw [plan_eq, Registry.occurrences_allocateAll, Registry.occurrences_allocate, Nat.add_assoc,
    ← List.count_append]
  rfl

theorem getElem?_entries_plan (m : Module) (r : Registry) (j : Nat) :
    (plan m r).1.entries[j]? = (documentedNames m.comment)[j]?.map fun n =>
      ⟨n, anchor n (r.occurrences n + (m.headings.take (j + 1)).count n)⟩ := by
  rw [plan_eq, List.getElem?_zipWith, Registry.getElem?_allocateAll]
  cases (documentedNames m.comment)[j]? with
  | none => rfl
  | some n =>
    have hcount : (r.allocate m.name).2.occurrences n + ((documentedNames m.comment).take j).count n
        = r.occurrences n + (m.headings.take (j + 1)).count n := by
      rw [Registry.occurrences_allocate, Nat.add_assoc, ← List.count_append]
      rfl
    rw [Option.map_some, Option.map_some, hcount]

theorem map_name_entries_plan (m : Module) (r : Registry) :
    (plan m r).1.entries.map Link.name = documentedNames m.comment := by
  refine List.ext_getElem? fun j => ?_
  rw [List.getElem?_map, getElem?_entries_plan]
  cases (documentedNames m.comment)[j]? <;> rfl

/-- A section is planned from its headings. -/
theorem plan_congr {m n : Module} (h : m.headings = n.headings) (r : Registry) :
    plan m r = plan n r := by
  obtain ⟨hname, hnames⟩ :
      m.name = n.name ∧ documentedNames m.comment = documentedNames n.comment := List.cons.inj h
  rw [plan_eq, plan_eq, hname, hnames]

end Outline

/-! ## All modules -/

theorem plan_cons (r : Registry) (m : Module) (ms : List Module) :
    plan r (m :: ms)
      = ((Outline.plan m r).1 :: (plan (Outline.plan m r).2 ms).1,
          (plan (Outline.plan m r).2 ms).2) := rfl

/-- Planning counts every heading of the modules. -/
theorem occurrences_plan (r : Registry) (ms : List Module) (n : Text) :
    (plan r ms).2.occurrences n = r.occurrences n + (ms.flatMap Module.headings).count n := by
  induction ms generalizing r with
  | nil => rfl
  | cons m ms ih =>
    rw [plan_cons, ih, Outline.occurrences_plan, Nat.add_assoc, ← List.count_append,
      List.flatMap_cons]

/-- A module is planned after the modules before it. -/
theorem getElem?_plan (r : Registry) (ms : List Module) (i : Nat) :
    (plan r ms).1[i]? = ms[i]?.map fun m => (Outline.plan m (plan r (ms.take i)).2).1 := by
  induction ms generalizing r i with
  | nil => rfl
  | cons m ms ih =>
    rw [plan_cons]
    cases i with
    | zero => rfl
    | succ i => exact ih (Outline.plan m r).2 i

theorem length_plan (r : Registry) (ms : List Module) : (plan r ms).1.length = ms.length := by
  induction ms generalizing r with
  | nil => rfl
  | cons m ms ih => rw [plan_cons, List.length_cons, ih, List.length_cons]

/-- The sections are planned from their headings. -/
theorem plan_congr {ms ns : List Module} (h : ms.map Module.headings = ns.map Module.headings)
    (r : Registry) : plan r ms = plan r ns := by
  induction ms generalizing ns r with
  | nil =>
    rw [List.map_eq_nil_iff.mp h.symm]
  | cons m ms ih =>
    obtain ⟨n, ns', rfl, hn, hns⟩ := List.map_eq_cons_iff.mp h.symm
    rw [plan_cons, plan_cons, Outline.plan_congr hn.symm, ih hns.symm]

theorem outlines_congr {ms ns : List Module}
    (h : ms.map Module.headings = ns.map Module.headings) : outlines ms = outlines ns := by
  rw [outlines, plan_congr h, outlines]

theorem length_outlines (ms : List Module) : (outlines ms).length = ms.length :=
  length_plan _ ms

end RefBook
