import RefBook.Catalog.Basic

/-!
# RefBook.Catalog.Suggestion — the nearest name

* `withinEdits`: whether a few edits turn one text into another.  An edit inserts, deletes or
  replaces a character, or swaps two neighbours; characters between two that are to be swapped may
  be deleted before and others inserted after.
* `editDistance?`: the least number of edits, up to a limit.
* `Catalog.nearest?`: the first of the names at the least distance.
-/

namespace RefBook

/-- The distance beyond which a name is no suggestion. -/
def suggestionLimit : Nat := 3

/-- Whether at most `n` edits turn the first text into the second.

First characters that agree are kept.  Where they differ, one is deleted, inserted or replaced; or
the first of each text meets its like further on in the other, where the characters between are
paid for as deleted and inserted, and the swap as one more edit. -/
def withinEdits : Nat → Text → Text → Bool
  | n, [], t => t.length ≤ n
  | n, s, [] => s.length ≤ n
  | 0, s, t => s == t
  | n + 1, x :: s, y :: t =>
    if x = y then withinEdits (n + 1) s t
    else
      withinEdits n s (y :: t) || withinEdits n (x :: s) t || withinEdits n s t
        || (List.range (n + 1)).any fun g => s[g]? == some y
          && (List.range (n + 1 - g)).any fun h => t[h]? == some x
            && withinEdits (n - g - h) (s.drop (g + 1)) (t.drop (h + 1))
termination_by _ s t => s.length + t.length
decreasing_by
  all_goals simp only [List.length_cons, List.length_drop]; omega

/-- The least number of edits that turn the first text into the second, if it is within the
limit. -/
def editDistance? (limit : Nat) (s t : Text) : Option Nat :=
  (List.range (limit + 1)).find? fun n => withinEdits n s t

/-- The first of the candidates at the least distance. -/
def leastDistant : List (Text × Nat) → Option (Text × Nat)
  | [] => none
  | (c, n) :: more =>
    match leastDistant more with
    | some (d, m) => if m < n then some (d, m) else some (c, n)
    | none => some (c, n)

/-- The first of the names nearest to the given one, if any is near enough. -/
def Catalog.nearest? (c : Catalog) (name : Text) : Option Text :=
  (leastDistant (c.keys.filterMap fun key =>
    (editDistance? suggestionLimit name key).map fun n => (key, n))).map (·.1)

end RefBook
