import Mathlib.Data.List.Forall2
import RefBook.Proofs.Json.Inversion
import RefBook.Proofs.Json.Spelling

/-!
# RefBook.Proofs.Json.Decoding — readers accept exactly the values that mean something

* `Decodes read means`: of every spelt value, after any gap and before any rest, the reader takes
  off the whole and returns what the value means, and it fails on a value without meaning.
* `IsText`, `OrNull`, `ListOf`, `PairOf`: what values mean to the readers of strings, of values that
  may be absent, of lists and of pairs.
* `ElementsAhead`: how a list goes on where its reader stands.
* `readAll_spells_iff`: whole texts.
-/

namespace RefBook.Json

variable {α β : Type}

/-! ## Meanings -/

/-- The reader accepts exactly the values that mean something. -/
def Decodes (read : Reader α) (means : Datum → α → Prop) : Prop :=
  ∀ ⦃t v w⦄, Spells t v → IsGap w → ∀ rest a r,
    read (w ++ (t ++ rest)) = .ok (a, r) ↔ means v a ∧ r = rest

/-- A string means itself. -/
inductive IsText : Datum → Text → Prop where
  /-- Its characters. -/
  | text (s : Text) : IsText (.text s) s

/-- The word for nothing means that there is none. -/
inductive OrNull (means : Datum → α → Prop) : Datum → Option α → Prop where
  /-- There is none. -/
  | null : OrNull means .null none
  /-- There is one. -/
  | some {v : Datum} {a : α} (h : means v a) : OrNull means v (some a)

/-- A list means what its elements mean. -/
inductive ListOf (means : Datum → α → Prop) : Datum → List α → Prop where
  /-- One by one. -/
  | list {vs : List Datum} {as : List α} (h : List.Forall₂ means vs as) :
      ListOf means (.list vs) as

/-- A list of exactly two elements means the pair of what they mean. -/
inductive PairOf (left : Datum → α → Prop) (right : Datum → β → Prop) : Datum → α × β → Prop where
  /-- The one and the other. -/
  | pair {v v' : Datum} {a : α} {b : β} (h : left v a) (h' : right v' b) :
      PairOf left right (.list [v, v']) (a, b)

theorem Decodes.congr {read : Reader α} {means means' : Datum → α → Prop} (h : Decodes read means)
    (hiff : ∀ v a, means v a ↔ means' v a) : Decodes read means' := by
  intro t v w ht hw rest a r
  rw [h ht hw, hiff]

/-! ## Strings and options -/

section Scalars

variable {t u w rest : Text} {v : Datum}

theorem skipSpace_spells (h : Spells t v) (hw : IsGap w) (rest : Text) :
    skipSpace (w ++ (t ++ rest)) = t ++ rest := by
  obtain ⟨c, u, rfl, hc⟩ := h.head
  exact skipSpace_gap_cons hw hc.not_isSpace (u ++ rest)

/-- The first character of a value is that of the text it begins. -/
theorem Spells.opens_of_append {c : Char} (h : Spells t v) (ht : t ++ rest = c :: u) :
    v.Opens c := by
  obtain ⟨c', t', rfl, hc⟩ := h.head
  obtain ⟨rfl, -⟩ := List.cons.inj ht
  exact hc

theorem Spells.text_of_append (h : Spells t v) (ht : t ++ rest = '"' :: u) :
    ∃ k s, v = .text s ∧ SpellsBody k s ∧ u = k ++ '"' :: rest := by
  obtain ⟨s, rfl⟩ := (h.opens_of_append ht).eq_text
  cases h with
  | @text k _ hbody =>
    rw [List.cons_append, List.append_assoc] at ht
    exact ⟨k, s, rfl, hbody, (List.cons.inj ht).2.symm⟩

theorem decodes_text : Decodes readText IsText := by
  intro t v w h hw rest a r
  rw [readText_eq_ok_iff, skipSpace_spells h hw]
  constructor
  · rintro ⟨u, hu, hread⟩
    obtain ⟨k, s, rfl, hbody, rfl⟩ := h.text_of_append hu
    rw [readBody_spells hbody] at hread
    cases hread
    exact ⟨.text _, rfl⟩
  · rintro ⟨⟨⟩, rfl⟩
    cases h with
    | @text k _ hbody =>
      refine ⟨k ++ '"' :: r, ?_, readBody_spells hbody r⟩
      rw [List.cons_append, List.append_assoc]
      rfl

theorem decodes_orNull {read : Reader α} {means : Datum → α → Prop} (hread : Decodes read means)
    (hnull : ∀ a, ¬ means .null a) : Decodes (readOptional read) (OrNull means) := by
  intro t v w h hw rest o r
  rw [readOptional_eq_ok_iff, skipSpace_spells h hw]
  constructor
  · rintro (⟨u, hu, hword, rfl⟩ | ⟨-, a, ha, rfl⟩)
    · obtain rfl := (h.opens_of_append hu).eq_null
      cases h
      cases hu
      cases hword
      exact ⟨.null, rfl⟩
    · obtain ⟨hmeans, rfl⟩ := (hread h isGap_nil rest a r).1 ha
      exact ⟨.some hmeans, rfl⟩
  · rintro ⟨⟨⟩ | ⟨hmeans⟩, rfl⟩
    · cases h
      exact .inl ⟨_, rfl, rfl, rfl⟩
    · refine .inr ⟨fun u hu => ?_, _, (hread h isGap_nil r _ r).2 ⟨hmeans, rfl⟩, rfl⟩
      obtain rfl := (h.opens_of_append hu).eq_null
      exact hnull _ hmeans

end Scalars

/-! ## Lists -/

/-- The text goes on with the elements and the end of their list, before the tail; `first` tells
that no element has been read. -/
inductive ElementsAhead : Bool → List Datum → Text → Text → Prop where
  /-- The end of the list. -/
  | close {w : Text} (gap : IsGap w) (first : Bool) (tail : Text) :
      ElementsAhead first [] (w ++ ']' :: tail) tail
  /-- The first element. -/
  | first {u : Text} {vs : List Datum} (h : SpellsElements u vs) (tail : Text) :
      ElementsAhead true vs (u ++ ']' :: tail) tail
  /-- A comma and another element. -/
  | comma {w u : Text} {vs : List Datum} (gap : IsGap w) (h : SpellsElements u vs) (tail : Text) :
      ElementsAhead false vs (w ++ ',' :: (u ++ ']' :: tail)) tail

/-- A reader that has reached the end of its brackets. -/
theorem exists_ok_and_close_iff {c : Char} {x tail r : Text} {a a' : α}
    (hclose : skipSpace x = c :: tail) :
    (∃ y, (.ok (a, x) : Except Halt (α × Text)) = .ok (a', y) ∧ skipSpace y = c :: r)
      ↔ a' = a ∧ r = tail := by
  constructor
  · rintro ⟨y, hy, hr⟩
    cases hy
    rw [hclose] at hr
    cases hr
    exact ⟨rfl, rfl⟩
  · rintro ⟨rfl, rfl⟩
    exact ⟨x, rfl, hclose⟩

section Elements

variable {first : Bool} {v : Datum} {vs : List Datum} {x tail r : Text}

theorem SpellsElements.ne_nil {u : Text} (h : SpellsElements u vs) : vs ≠ [] := by
  cases h <;> exact List.cons_ne_nil _ _

/-- An element begins with no end of a list, and what follows it is how the list goes on. -/
theorem SpellsElements.uncons {u : Text} (h : SpellsElements u (v :: vs)) (tail : Text) :
    ∃ t y, Spells t v ∧ skipSpace (u ++ ']' :: tail) = t ++ y ∧ ElementsAhead false vs y tail := by
  cases h with
  | @last w₁ t w₂ _ gap₁ ht gap₂ =>
    refine ⟨t, w₂ ++ ']' :: tail, ht, ?_, .close gap₂ false tail⟩
    rw [List.append_assoc, List.append_assoc, skipSpace_spells ht gap₁]
  | @more w₁ t w₂ u _ _ gap₁ ht gap₂ hmore =>
    refine ⟨t, w₂ ++ ',' :: (u ++ ']' :: tail), ht, ?_, .comma gap₂ hmore tail⟩
    simp only [List.append_assoc, List.cons_append]
    rw [skipSpace_spells ht gap₁]

theorem ElementsAhead.skipSpace_nil (h : ElementsAhead first [] x tail) :
    skipSpace x = ']' :: tail := by
  cases h with
  | close gap => exact skipSpace_gap_cons gap rfl tail
  | first h => exact absurd rfl h.ne_nil
  | comma _ h => exact absurd rfl h.ne_nil

theorem ElementsAhead.next (h : ElementsAhead first (v :: vs) x tail) :
    ∃ t y, Spells t v ∧ NextElement first x (t ++ y) ∧ ElementsAhead false vs y tail := by
  cases h with
  | first h =>
    obtain ⟨t, y, ht, hskip, hy⟩ := h.uncons tail
    refine ⟨t, y, ht, ?_, hy⟩
    obtain ⟨c, u, rfl, hc⟩ := ht.head
    exact .first hskip (hc.ne rfl (by decide))
  | comma gap h =>
    obtain ⟨t, y, ht, hskip, hy⟩ := h.uncons tail
    refine ⟨t, y, ht, ?_, hy⟩
    obtain ⟨c, u, rfl, hc⟩ := ht.head
    exact .comma (skipSpace_gap_cons gap rfl _) hskip (hc.ne rfl (by decide))

/-- A list with elements left does not end here. -/
theorem ElementsAhead.skipSpace_cons (h : ElementsAhead first (v :: vs) x tail) :
    skipSpace x ≠ ']' :: r := by
  obtain ⟨t, y, -, hnext, -⟩ := h.next
  intro hclose
  generalize t ++ y = z at hnext
  cases hnext with
  | first hskip hc =>
    rw [hskip] at hclose
    exact hc (List.cons.inj hclose).1
  | comma hskip =>
    rw [hskip] at hclose
    exact absurd (List.cons.inj hclose).1 (by decide)

theorem SpellsElements.length_le {u : Text} {vs : List Datum} :
    SpellsElements u vs → vs.length ≤ u.length
  | .last _ ht _ => by
    obtain ⟨c, r, rfl, -⟩ := ht.head
    simp only [List.length_append, List.length_cons, List.length_nil]
    omega
  | .more _ _ _ hmore => by
    have hlength := hmore.length_le
    simp only [List.length_append, List.length_cons]
    omega

theorem ElementsAhead.length_le (h : ElementsAhead first vs x tail) : vs.length ≤ x.length := by
  cases h with
  | close => exact Nat.zero_le _
  | first h =>
    have hlength := h.length_le
    rw [List.length_append]
    omega
  | comma gap h =>
    have hlength := h.length_le
    simp only [List.length_append, List.length_cons]
    omega

variable {read : Reader α} {means : Datum → α → Prop} {as : List α}

/-- The elements are read to the end of the list if each of them means something. -/
theorem readElements_ahead_iff (hread : Decodes read means) (hx : ElementsAhead first vs x tail)
    {n : Nat} (hn : vs.length < n) :
    (∃ y, readElements read n first x = .ok (as, y) ∧ skipSpace y = ']' :: r)
      ↔ List.Forall₂ means vs as ∧ r = tail := by
  induction vs generalizing n first x as with
  | nil =>
    obtain ⟨n, rfl⟩ := Nat.exists_eq_succ_of_ne_zero (Nat.ne_of_gt hn)
    rw [List.forall₂_nil_left_iff, readElements_succ_of_close hx.skipSpace_nil]
    exact exists_ok_and_close_iff hx.skipSpace_nil
  | cons v vs ih =>
    obtain ⟨n, rfl⟩ := Nat.exists_eq_succ_of_ne_zero (Nat.ne_zero_of_lt hn)
    obtain ⟨t, y, ht, hnext, hy⟩ := hx.next
    have helement := fun a z => hread ht isGap_nil y a z
    have hn' := Nat.lt_of_succ_lt_succ hn
    simp only [readElements_succ_eq_ok_iff hnext, List.forall₂_cons_left_iff]
    constructor
    · rintro ⟨z, ⟨a, y', ha, as', has, rfl⟩, hr⟩
      obtain ⟨hmeans, rfl⟩ := (helement a y').1 ha
      obtain ⟨hall, rfl⟩ := (ih hy hn').1 ⟨z, has, hr⟩
      exact ⟨⟨a, as', hmeans, hall, rfl⟩, rfl⟩
    · rintro ⟨⟨a, as', hmeans, hall, rfl⟩, rfl⟩
      obtain ⟨z, has, hr⟩ := (ih hy hn').2 ⟨hall, rfl⟩
      exact ⟨z, ⟨a, y, (helement a y).2 ⟨hmeans, rfl⟩, as', has, rfl⟩, hr⟩

/-- A spelt list leads its reader to what is inside. -/
theorem elementsAhead_of_spells {t : Text} (h : Spells t (.list vs)) (rest : Text) :
    ∃ x, t ++ rest = '[' :: x ∧ ElementsAhead true vs x rest := by
  cases h with
  | @emptyList w hw =>
    refine ⟨w ++ ']' :: rest, ?_, .close hw true rest⟩
    simp
  | @list u _ hu =>
    refine ⟨u ++ ']' :: rest, ?_, .first hu rest⟩
    simp

theorem elementsAhead_of_append {t u rest : Text} (h : Spells t v) (ht : t ++ rest = '[' :: u) :
    ∃ vs, v = .list vs ∧ ElementsAhead true vs u rest := by
  obtain ⟨vs, rfl⟩ := (h.opens_of_append ht).eq_list
  obtain ⟨x, hx, hahead⟩ := elementsAhead_of_spells h rest
  rw [hx] at ht
  obtain rfl := (List.cons.inj ht).2
  exact ⟨vs, rfl, hahead⟩

theorem decodes_list (hread : Decodes read means) : Decodes (readList read) (ListOf means) := by
  intro t v w h hw rest as r
  rw [readList_eq_ok_iff, skipSpace_spells h hw]
  constructor
  · rintro ⟨u, y, hu, hy, hclose⟩
    obtain ⟨vs, rfl, hahead⟩ := elementsAhead_of_append h hu
    have hlength := hahead.length_le
    obtain ⟨hall, rfl⟩ :=
      (readElements_ahead_iff hread hahead (Nat.lt_succ_of_le hlength)).1 ⟨y, hy, hclose⟩
    exact ⟨.list hall, rfl⟩
  · rintro ⟨⟨hall⟩, rfl⟩
    obtain ⟨u, hu, hahead⟩ := elementsAhead_of_spells h r
    have hlength := hahead.length_le
    obtain ⟨y, hy, hclose⟩ :=
      (readElements_ahead_iff hread hahead (Nat.lt_succ_of_le hlength)).2 ⟨hall, rfl⟩
    exact ⟨u, y, hu, hy, hclose⟩

/-! ## Pairs -/

theorem ElementsAhead.not_next {u : Text} (h : ElementsAhead first [] x tail) :
    ¬ NextElement first x u := by
  have hclose := h.skipSpace_nil
  rintro (⟨hskip, hc⟩ | ⟨hskip, -, -⟩)
  · rw [hskip] at hclose
    exact hc (List.cons.inj hclose).1
  · rw [hskip] at hclose
    exact absurd (List.cons.inj hclose).1 (by decide)

/-- One of two elements is read if it means something. -/
theorem readHalf_ahead (number : Nat) (hread : Decodes read means)
    (hx : ElementsAhead (number == 0) (v :: vs) x tail) :
    ∃ y, ElementsAhead false vs y tail
      ∧ ∀ a z, readHalf read number x = .ok (a, z) ↔ means v a ∧ z = y := by
  obtain ⟨t, y, ht, hnext, hy⟩ := hx.next
  refine ⟨y, hy, fun a z => ?_⟩
  rw [readHalf_of_next hnext]
  exact hread ht isGap_nil y a z

theorem decodes_pair {right : Reader β} {means' : Datum → β → Prop} (hread : Decodes read means)
    (hread' : Decodes right means') : Decodes (readPair read right) (PairOf means means') := by
  rintro t v w h hw rest ⟨a, b⟩ r
  rw [readPair_eq_ok_iff, skipSpace_spells h hw]
  constructor
  · rintro ⟨u, hu, y, ha, z, hb, hclose⟩
    obtain ⟨vs, rfl, hahead⟩ := elementsAhead_of_append h hu
    obtain ⟨u', hnext, -⟩ := readHalf_eq_ok_iff.1 ha
    obtain ⟨y', hnext', -⟩ := readHalf_eq_ok_iff.1 hb
    -- the list has a first element, a second, and no third
    match vs, hahead with
    | [], hahead => exact absurd hnext hahead.not_next
    | v :: vs, hahead =>
      obtain ⟨_, hy, hleft⟩ := readHalf_ahead 0 hread hahead
      obtain ⟨hva, rfl⟩ := (hleft a y).1 ha
      match vs, hy with
      | [], hy => exact absurd hnext' hy.not_next
      | v' :: vs, hy =>
        obtain ⟨_, hz, hright⟩ := readHalf_ahead 1 hread' hy
        obtain ⟨hvb, rfl⟩ := (hright b z).1 hb
        match vs, hz with
        | [], hz =>
          rw [hz.skipSpace_nil] at hclose
          cases hclose
          exact ⟨.pair hva hvb, rfl⟩
        | _ :: _, hz => exact absurd hclose hz.skipSpace_cons
  · rintro ⟨⟨hva, hvb⟩, rfl⟩
    obtain ⟨u, hu, hahead⟩ := elementsAhead_of_spells h r
    obtain ⟨y, hy, hleft⟩ := readHalf_ahead 0 hread hahead
    obtain ⟨z, hz, hright⟩ := readHalf_ahead 1 hread' hy
    exact ⟨u, hu, y, (hleft a y).2 ⟨hva, rfl⟩, z, (hright b z).2 ⟨hvb, rfl⟩, hz.skipSpace_nil⟩

end Elements

/-! ## Whole texts -/

/-- A spelt value is read off a whole text if it means something. -/
theorem readAll_spells_iff {read : Reader α} {means : Datum → α → Prop}
    (hread : Decodes read means) {t : Text} {v : Datum} (h : SpellsWhole t v) (a : α) :
    readAll read t = .ok a ↔ means v a := by
  obtain ⟨gap₁, ht, gap₂⟩ := h
  rw [readAll_eq_ok_iff]
  constructor
  · rintro ⟨r, hr, -⟩
    exact ((hread ht gap₁ _ a r).1 hr).1
  · intro hmeans
    exact ⟨_, (hread ht gap₁ _ a _).2 ⟨hmeans, rfl⟩, skipSpace_eq_nil_iff.2 gap₂⟩

end RefBook.Json
