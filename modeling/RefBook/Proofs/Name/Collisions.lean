import Mathlib.Data.List.Nodup
import Mathlib.Data.List.TakeWhile
import RefBook.Proofs.Name.Allocation
import RefBook.Proofs.Name.Anchors

/-!
# RefBook.Proofs.Name.Collisions — anchors that differ

An anchor is a slug, or a slug with a number behind it.  So one anchor may be had in two ways: as that of
the second heading `map` and as that of the first heading `map-1`.

* `EndsInNumber`: whether a text could be a slug with a number behind it.
* `hyphen_append_inj`: what stands before and behind the hyphen of such a text can be read back.
* `anchor_eq_anchor_iff`: where slugs do not end in numbers, an anchor tells its slug and its number.
* `Registry.nodup_anchors`: so in a run over such names, no two of which share a slug, no two headings
  have the same anchor.
-/

namespace RefBook

/-! ## Numbers behind a hyphen -/

/-- The text ends in a hyphen with digits, at least one, behind it. -/
def EndsInNumber (t : Text) : Prop :=
  ∃ front digits, t = front ++ '-' :: digits ∧ digits ≠ [] ∧ ∀ c ∈ digits, c.isDigit = true

/-- The digits that the text ends with. -/
def trailingDigits (t : Text) : Text :=
  (t.reverse.takeWhile Char.isDigit).reverse

section Digits

variable {s t d e : Text}

theorem isDigit_of_mem_trailingDigits {c : Char} (h : c ∈ trailingDigits t) : c.isDigit = true :=
  List.mem_takeWhile_imp (List.mem_reverse.mp h)

/-- A hyphen is no digit, so the digits behind it are all that the text ends with. -/
theorem trailingDigits_hyphen (hd : ∀ c ∈ d, c.isDigit = true) :
    trailingDigits (s ++ '-' :: d) = d := by
  have hreverse : (s ++ '-' :: d).reverse = d.reverse ++ '-' :: s.reverse := by simp
  have hdigits : ∀ c ∈ d.reverse, c.isDigit = true := by
    intro c hc
    exact hd c (List.mem_reverse.mp hc)
  have hhyphen : ('-' :: s.reverse).takeWhile Char.isDigit = [] :=
    List.takeWhile_cons_of_neg (by decide)
  rw [trailingDigits, hreverse, List.takeWhile_append_of_pos hdigits, hhyphen, List.append_nil,
    List.reverse_reverse]

/-- Whatever hyphens the front holds, the last one divides it from the digits. -/
theorem hyphen_append_inj (hd : ∀ c ∈ d, c.isDigit = true) (he : ∀ c ∈ e, c.isDigit = true)
    (h : s ++ '-' :: d = t ++ '-' :: e) : s = t ∧ d = e := by
  have hdigits : d = e := by
    calc d = trailingDigits (s ++ '-' :: d) := (trailingDigits_hyphen hd).symm
      _ = trailingDigits (t ++ '-' :: e) := by rw [h]
      _ = e := trailingDigits_hyphen he
  subst hdigits
  exact ⟨List.append_cancel_right h, rfl⟩

theorem endsInNumber_iff :
    EndsInNumber t ↔ trailingDigits t ≠ [] ∧ '-' :: trailingDigits t <:+ t := by
  constructor
  · rintro ⟨front, digits, rfl, hne, hdigits⟩
    rw [trailingDigits_hyphen hdigits]
    exact ⟨hne, List.suffix_append front _⟩
  · rintro ⟨hne, front, hfront⟩
    refine ⟨front, trailingDigits t, hfront.symm, hne, ?_⟩
    intro c hc
    exact isDigit_of_mem_trailingDigits hc

instance : DecidablePred EndsInNumber :=
  fun _ => decidable_of_iff _ endsInNumber_iff.symm

theorem endsInNumber_decimal (s : Text) (n : Nat) : EndsInNumber (s ++ '-' :: decimal n) :=
  ⟨s, decimal n, rfl, Nat.toDigits_ne_nil, fun _ hc => isDigit_of_mem_decimal hc⟩

end Digits

/-! ## Anchors -/

theorem anchor_eq_anchor_iff {a b : Text} {i j : Nat} (ha : ¬ EndsInNumber (slug a))
    (hb : ¬ EndsInNumber (slug b)) : anchor a i = anchor b j ↔ slug a = slug b ∧ i = j := by
  constructor
  · intro h
    unfold anchor at h
    split_ifs at h with hi hj hj
    · exact ⟨h, hi.trans hj.symm⟩
    · -- only one of the two has a number behind its slug
      exact absurd (h ▸ endsInNumber_decimal (slug b) j) ha
    · exact absurd (h ▸ endsInNumber_decimal (slug a) i) hb
    · obtain ⟨hslug, hnumber⟩ := hyphen_append_inj (fun _ => isDigit_of_mem_decimal)
        (fun _ => isDigit_of_mem_decimal) h
      exact ⟨hslug, decimal_injective hnumber⟩
  · rintro ⟨hslug, rfl⟩
    unfold anchor
    rw [hslug]

/-! ## Runs -/

/-- A name counts for every place behind it. -/
theorem count_take_lt {names : List Text} {i j : Nat} (hij : i < j) (hi : i < names.length) :
    (names.take i).count names[i] < (names.take j).count names[i] := by
  have hnext : (names.take (i + 1)).count names[i] = (names.take i).count names[i] + 1 := by
    rw [List.take_succ_eq_append_getElem hi, List.count_append, List.count_singleton_self]
  have hle : (names.take (i + 1)).count names[i] ≤ (names.take j).count names[i] :=
    (List.take_sublist_take_left hij).count_le _
  omega

/-- **No two headings of a run share an anchor** if no two names of it share a slug and no slug ends in
a number, however often each name comes and whatever comes between. -/
theorem Registry.nodup_anchors {headings : List Text}
    (hslugs : ∀ a ∈ headings, ∀ b ∈ headings, slug a = slug b → a = b)
    (hnumbers : ∀ a ∈ headings, ¬ EndsInNumber (slug a)) :
    (({} : Registry).allocateAll headings).1.Nodup := by
  rw [List.nodup_iff_getElem?_ne_getElem?]
  intro i j hij hj hsame
  rw [length_allocateAll] at hj
  have hi : i < headings.length := by omega
  have hmem_i : headings[i] ∈ headings := List.getElem_mem hi
  have hmem_j : headings[j] ∈ headings := List.getElem_mem hj
  rw [getElem?_allocateAll, getElem?_allocateAll, List.getElem?_eq_getElem hi,
    List.getElem?_eq_getElem hj, Option.map_some, Option.map_some, Option.some.injEq,
    anchor_eq_anchor_iff (hnumbers _ hmem_i) (hnumbers _ hmem_j)] at hsame
  obtain ⟨hslug, hcount⟩ := hsame
  -- so both are headings of one name, but the later one has more of them before it
  have hname : headings[i] = headings[j] := hslugs _ hmem_i _ hmem_j hslug
  have hlt := count_take_lt hij hi
  rw [← hname, occurrences_empty] at hcount
  omega

/-- Headings that come again and again, some with hyphens and digits in their slugs. -/
def hyphenated : List Text :=
  ["type alias".toList, "map".toList, [], "Map-2d".toList, "map".toList, "type alias".toList, [],
    "map2".toList, "a--b".toList, "map".toList]

theorem Registry.nodup_anchors_hyphenated :
    (∀ a ∈ hyphenated, ∀ b ∈ hyphenated, slug a = slug b → a = b)
      ∧ (∀ a ∈ hyphenated, ¬ EndsInNumber (slug a))
      ∧ (({} : Registry).allocateAll hyphenated).1.Nodup := by
  have hslugs : ∀ a ∈ hyphenated, ∀ b ∈ hyphenated, slug a = slug b → a = b := by decide +kernel
  have hnumbers : ∀ a ∈ hyphenated, ¬ EndsInNumber (slug a) := by decide +kernel
  exact ⟨hslugs, hnumbers, Registry.nodup_anchors hslugs hnumbers⟩

example : EndsInNumber (slug "map-1".toList)
    ∧ (({} : Registry).allocateAll ["map".toList, "map".toList, "map-1".toList]).1
      = ["map".toList, "map-1".toList, "map-1".toList] := by decide

end RefBook
