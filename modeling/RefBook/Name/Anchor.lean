import RefBook.Text.Blank
import RefBook.Unicode.LowerCase

/-!
# RefBook.Name.Anchor — fragment identifiers of headings

* `slug`: the anchor of a heading that is the first of its name.
* `Registry`: how often each name has been a heading so far, names in first-seen order.
* `Registry.allocate`: the anchor of the next heading of a name.  The first is the bare slug; one
  with `k` headings of the same name before it is numbered `k`.

Anchors depend on what came before, so they are allocated in the order in which the headings are
written.
-/

namespace RefBook

/-- The small words of the name without dots, joined by hyphens. -/
def slug (name : Text) : Text :=
  ['-'].intercalate ((words (Unicode.lowercase name)).map fun w => w.filter (· ≠ '.'))

/-- The anchor of a heading with `earlier` headings of the same name before it. -/
def anchor (name : Text) (earlier : Nat) : Text :=
  if earlier = 0 then slug name else slug name ++ '-' :: decimal earlier

/-- Counts one more occurrence of a name; a new name goes to the end. -/
def tally (name : Text) : List (Text × Nat) → List (Text × Nat)
  | [] => [(name, 1)]
  | (n, k) :: counts => if n = name then (n, k + 1) :: counts else (n, k) :: tally name counts

/-- The headings so far: each name with the number of its occurrences. -/
structure Registry where
  /-- The names in first-seen order, each with its count. -/
  counts : List (Text × Nat) := []
deriving DecidableEq, Repr

namespace Registry

/-- How often the name has been a heading. -/
def occurrences (r : Registry) (name : Text) : Nat :=
  (r.counts.lookup name).getD 0

/-- The number of headings. -/
def total (r : Registry) : Nat :=
  r.counts.foldr (fun n sum => n.2 + sum) 0

/-- The distinct names in first-seen order. -/
def names (r : Registry) : List Text :=
  r.counts.map (·.1)

/-- The anchor of the next heading of that name, and the registry with it. -/
def allocate (r : Registry) (name : Text) : Text × Registry :=
  (anchor name (r.occurrences name), ⟨tally name r.counts⟩)

/-- The anchors of headings in their order, and the registry with all of them. -/
def allocateAll (r : Registry) : List Text → List Text × Registry
  | [] => ([], r)
  | name :: more =>
    let (a, r) := r.allocate name
    let (as, r) := r.allocateAll more
    (a :: as, r)

theorem length_allocateAll (r : Registry) (headings : List Text) :
    (r.allocateAll headings).1.length = headings.length := by
  induction headings generalizing r with
  | nil => rfl
  | cons name more ih => simp [allocateAll, ih]

end Registry

end RefBook
