import Mathlib.Data.List.Nodup
import RefBook.Proofs.Json.Decoding

/-!
# RefBook.Proofs.Json.Fields — records are read field by field, in whatever form

* `EntryList`: the entries that a value gives, as an object or as the list of its fields.
* `Layout`: the fields of a record, with what they mean and how they are kept in a draft.
* `Enters`: entries are taken one after the other; `Layout.enters_iff`: each field is then filled by
  the one value under its key, whatever the order and whatever stands between.
* `readEntries_ahead_iff`, `readPositions_ahead_iff`: the two forms of a record.
* `decodes_record`: the reader of a record accepts exactly the values that fill its draft.
-/

namespace RefBook.Json

/-! ## Meanings -/

/-- The values under a key. -/
def valuesAt (key : Text) (es : List (Text × Datum)) : List Datum :=
  (es.filter (·.1 = key)).map (·.2)

/-- What at most one value means. -/
inductive Given {β : Type} (means : Datum → β → Prop) : List Datum → Option β → Prop where
  /-- No value. -/
  | absent : Given means [] none
  /-- One value. -/
  | once {v : Datum} {b : β} (h : means v b) : Given means [v] (some b)

/-- The entries that a value gives to a record with these keys: those of an object, or the elements
of a list under the keys in their order.  A list may be shorter than the keys but not longer. -/
inductive EntryList (keys : List Text) : Datum → List (Text × Datum) → Prop where
  /-- Named fields. -/
  | object (es : List (Text × Datum)) : EntryList keys (.object es) es
  /-- Fields by their order. -/
  | list {vs : List Datum} (h : vs.length ≤ keys.length) :
      EntryList keys (.list vs) (keys.zip vs)

theorem valuesAt_cons_self (key : Text) (v : Datum) (es : List (Text × Datum)) :
    valuesAt key ((key, v) :: es) = v :: valuesAt key es := by
  simp [valuesAt]

theorem valuesAt_cons_of_ne {key key' : Text} (h : key' ≠ key) (v : Datum)
    (es : List (Text × Datum)) : valuesAt key ((key', v) :: es) = valuesAt key es := by
  simp [valuesAt, h]

/-! ## Fields -/

/-- A field of a record, with what its values mean. -/
structure Slot (σ : Type) where
  /-- What the field holds. -/
  Content : Type
  /-- The key that names the field. -/
  key : Text
  /-- The field of a draft. -/
  get : σ → Option Content
  /-- Puts the field into a draft. -/
  put : σ → Content → σ
  /-- Reads the field. -/
  read : Reader Content
  /-- What a value of the field means. -/
  means : Datum → Content → Prop
  /-- The field is read as what it means. -/
  decodes : Decodes read means
  /-- What is put into a draft is there. -/
  get_put : ∀ d b, get (put d b) = some b

/-- The field as its reader knows it. -/
def Slot.field {σ : Type} (s : Slot σ) : Field σ where
  key := s.key
  isSet d := (s.get d).isSome
  read d t := do
    let (b, t) ← s.read t
    return (s.put d b, t)

/-- The fields of a record, kept apart from each other in a draft that holds nothing else. -/
structure Layout (σ : Type) where
  /-- The fields in their order. -/
  slots : List (Slot σ)
  /-- The draft without any field. -/
  empty : σ
  /-- Each field has its own key. -/
  distinct : (slots.map (·.key)).Nodup
  /-- Putting one field into a draft leaves the others. -/
  get_put_of_ne : ∀ s ∈ slots, ∀ s' ∈ slots, s'.key ≠ s.key → ∀ d b, s'.get (s.put d b) = s'.get d
  /-- The empty draft has none of them. -/
  get_empty : ∀ s ∈ slots, s.get empty = none
  /-- A draft is its fields. -/
  ext : ∀ d d', (∀ s ∈ slots, s.get d = s.get d') → d = d'

/-- The keys of the fields, in their order. -/
def Layout.keys {σ : Type} (layout : Layout σ) : List Text :=
  layout.slots.map (·.key)

/-- The draft holds what the entries give for each field. -/
def Layout.Collects {σ : Type} (layout : Layout σ) (es : List (Text × Datum)) (d : σ) : Prop :=
  ∀ s ∈ layout.slots, Given s.means (valuesAt s.key es) (s.get d)

section Fields

variable {σ : Type} {layout : Layout σ} {s s' : Slot σ} {d d' : σ} {es : List (Text × Datum)}

theorem Layout.eq_of_key (hs : s ∈ layout.slots) (hs' : s' ∈ layout.slots)
    (h : s.key = s'.key) : s = s' :=
  List.inj_on_of_nodup_map layout.distinct hs hs' h

theorem Layout.find?_key (hs : s ∈ layout.slots) :
    layout.slots.find? (·.key = s.key) = some s := by
  cases hfind : layout.slots.find? (·.key = s.key) with
  | none =>
    have hnone := List.find?_eq_none.1 hfind s hs
    simp at hnone
  | some s' =>
    have hkey : s'.key = s.key := by simpa using List.find?_some hfind
    rw [Layout.eq_of_key (List.mem_of_find?_eq_some hfind) hs hkey]

/-! ## Entries one after the other -/

/-- Entries are taken into a draft one after the other.  Those with unknown keys are passed over; a
field is put once. -/
def Enters (slots : List (Slot σ)) : σ → List (Text × Datum) → σ → Prop
  | d, [], d' => d' = d
  | d, (key, v) :: es, d' =>
    match slots.find? (·.key = key) with
    | none => Enters slots d es d'
    | some s => s.get d = none ∧ ∃ b, s.means v b ∧ Enters slots (s.put d b) es d'

/-- The field of the later draft is that of the earlier one, or the one value under its key. -/
def Slot.Takes (s : Slot σ) (d : σ) (es : List (Text × Datum)) (d' : σ) : Prop :=
  valuesAt s.key es = [] ∧ s.get d' = s.get d
    ∨ s.get d = none ∧ ∃ v b, valuesAt s.key es = [v] ∧ s.means v b ∧ s.get d' = some b

theorem Slot.takes_put_iff {b : s.Content} :
    s.Takes (s.put d b) es d' ↔ valuesAt s.key es = [] ∧ s.get d' = some b := by
  rw [Slot.Takes, s.get_put]
  simp

theorem Slot.takes_cons_iff {v : Datum} :
    s.Takes d ((s.key, v) :: es) d'
      ↔ s.get d = none ∧ ∃ b, s.means v b ∧ valuesAt s.key es = [] ∧ s.get d' = some b := by
  rw [Slot.Takes, valuesAt_cons_self]
  constructor
  · rintro (⟨h, -⟩ | ⟨hnone, v', b, h, hmeans, hget⟩)
    · exact absurd h (List.cons_ne_nil _ _)
    · obtain ⟨rfl, hes⟩ := List.cons.inj h
      exact ⟨hnone, b, hmeans, hes, hget⟩
  · rintro ⟨hnone, b, hmeans, hes, hget⟩
    exact .inr ⟨hnone, v, b, by rw [hes], hmeans, hget⟩

theorem Slot.takes_cons_of_ne {key : Text} (h : key ≠ s.key) (v : Datum) :
    s.Takes d ((key, v) :: es) d' ↔ s.Takes d es d' := by
  rw [Slot.Takes, Slot.Takes, valuesAt_cons_of_ne h]

/-- Another field of the draft is not touched. -/
theorem Layout.takes_put_of_ne (hs : s ∈ layout.slots) (hs' : s' ∈ layout.slots)
    (h : s'.key ≠ s.key) (b : s.Content) : s'.Takes (s.put d b) es d' ↔ s'.Takes d es d' := by
  rw [Slot.Takes, Slot.Takes, layout.get_put_of_ne s hs s' hs' h]

/-- An entry with an unknown key fills no field. -/
theorem Layout.forall_takes_cons_of_unknown {key : Text}
    (h : layout.slots.find? (·.key = key) = none) (v : Datum) :
    (∀ s ∈ layout.slots, s.Takes d ((key, v) :: es) d') ↔ ∀ s ∈ layout.slots, s.Takes d es d' := by
  refine forall₂_congr fun s hs => Slot.takes_cons_of_ne ?_ v
  intro hkey
  have hnot := List.find?_eq_none.1 h s hs
  simp [hkey] at hnot

/-- An entry with the key of a field fills that field, and the others are left to the rest. -/
theorem Layout.forall_takes_cons_iff (hs : s ∈ layout.slots) {v : Datum} :
    (∀ s' ∈ layout.slots, s'.Takes d ((s.key, v) :: es) d')
      ↔ s.get d = none ∧ ∃ b, s.means v b ∧ ∀ s' ∈ layout.slots, s'.Takes (s.put d b) es d' := by
  constructor
  · intro htakes
    obtain ⟨hnone, b, hmeans, hes, hget⟩ := Slot.takes_cons_iff.1 (htakes s hs)
    refine ⟨hnone, b, hmeans, fun s' hs' => ?_⟩
    by_cases hkey : s'.key = s.key
    · obtain rfl := layout.eq_of_key hs' hs hkey
      exact Slot.takes_put_iff.2 ⟨hes, hget⟩
    · rw [layout.takes_put_of_ne hs hs' hkey]
      exact (Slot.takes_cons_of_ne (Ne.symm hkey) v).1 (htakes s' hs')
  · rintro ⟨hnone, b, hmeans, htakes⟩ s' hs'
    by_cases hkey : s'.key = s.key
    · obtain rfl := layout.eq_of_key hs' hs hkey
      obtain ⟨hes, hget⟩ := Slot.takes_put_iff.1 (htakes s' hs')
      exact Slot.takes_cons_iff.2 ⟨hnone, b, hmeans, hes, hget⟩
    · rw [Slot.takes_cons_of_ne (Ne.symm hkey)]
      exact (layout.takes_put_of_ne hs hs' hkey b).1 (htakes s' hs')

/-- Taking entries one after the other fills each field by itself. -/
theorem Layout.enters_iff :
    Enters layout.slots d es d' ↔ ∀ s ∈ layout.slots, s.Takes d es d' := by
  induction es generalizing d with
  | nil =>
    constructor
    · rintro rfl s -
      exact .inl ⟨rfl, rfl⟩
    · intro h
      refine layout.ext d' d fun s hs => ?_
      rcases h s hs with ⟨-, hget⟩ | ⟨-, v, b, hvalues, -⟩
      · exact hget
      · exact absurd hvalues.symm (List.cons_ne_nil _ _)
  | cons e es ih =>
    obtain ⟨key, v⟩ := e
    simp only [Enters]
    cases hfind : layout.slots.find? (·.key = key) with
    | none => rw [ih, layout.forall_takes_cons_of_unknown hfind]
    | some s =>
      obtain rfl : s.key = key := by simpa using List.find?_some hfind
      simp only [ih, layout.forall_takes_cons_iff (List.mem_of_find?_eq_some hfind)]

theorem Layout.enters_empty_iff :
    Enters layout.slots layout.empty es d ↔ layout.Collects es d := by
  rw [layout.enters_iff]
  have hslot : ∀ s ∈ layout.slots,
      (s.Takes layout.empty es d ↔ Given s.means (valuesAt s.key es) (s.get d)) := by
    intro s hs
    rw [Slot.Takes, layout.get_empty s hs]
    constructor
    · rintro (⟨hvalues, hget⟩ | ⟨-, v, b, hvalues, hmeans, hget⟩)
      · rw [hvalues, hget]
        exact .absent
      · rw [hvalues, hget]
        exact .once hmeans
    · intro h
      generalize valuesAt s.key es = vs at h
      generalize s.get d = o at h
      cases h with
      | absent => exact .inl ⟨rfl, rfl⟩
      | @once v b hmeans => exact .inr ⟨rfl, v, b, rfl, hmeans, rfl⟩
  exact forall₂_congr hslot

/-! ## Fields by their order -/

/-- Values are taken into a draft by the order of the fields, of which the last may be left out. -/
def EntersInOrder : List (Slot σ) → σ → List Datum → σ → Prop
  | _, d, [], d' => d' = d
  | [], _, _ :: _, _ => False
  | s :: slots, d, v :: vs, d' => ∃ b, s.means v b ∧ EntersInOrder slots (s.put d b) vs d'

/-- Taking values by the order of the fields is taking them under the keys of the fields. -/
theorem Layout.entersInOrder_iff {slots : List (Slot σ)} {vs : List Datum}
    (hslots : ∀ s ∈ slots, s ∈ layout.slots ∧ s.get d = none)
    (hdistinct : (slots.map (·.key)).Nodup) :
    EntersInOrder slots d vs d'
      ↔ vs.length ≤ slots.length ∧ Enters layout.slots d ((slots.map (·.key)).zip vs) d' := by
  induction vs generalizing slots d with
  | nil => simp [EntersInOrder, Enters]
  | cons v vs ih =>
    cases slots with
    | nil => simp [EntersInOrder]
    | cons s slots =>
      obtain ⟨hs, hnone⟩ := hslots s List.mem_cons_self
      obtain ⟨hkey, hdistinct⟩ := List.nodup_cons.1 hdistinct
      have hput : ∀ b, ∀ s' ∈ slots, s' ∈ layout.slots ∧ s'.get (s.put d b) = none := by
        intro b s' hs'
        obtain ⟨hmem, hnone'⟩ := hslots s' (List.mem_cons_of_mem s hs')
        have hne : s'.key ≠ s.key := by
          intro h
          exact hkey (List.mem_map.2 ⟨s', hs', h⟩)
        rw [layout.get_put_of_ne s hs s' hmem hne, hnone']
        exact ⟨hmem, rfl⟩
      simp only [EntersInOrder, List.map_cons, List.zip_cons_cons, Enters, layout.find?_key hs,
        List.length_cons, Nat.add_le_add_iff_right]
      constructor
      · rintro ⟨b, hmeans, h⟩
        obtain ⟨hlength, h⟩ := (ih (hput b) hdistinct).1 h
        exact ⟨hlength, hnone, b, hmeans, h⟩
      · rintro ⟨hlength, -, b, hmeans, h⟩
        exact ⟨b, hmeans, (ih (hput b) hdistinct).2 ⟨hlength, h⟩⟩

/-! ## Reading the fields -/

theorem Slot.field_read_eq_ok_iff {t r : Text} :
    s.field.read d t = .ok (d', r) ↔ ∃ b, s.read t = .ok (b, r) ∧ d' = s.put d b :=
  bind_made_eq_ok_iff

/-- A spelt value is read into a field if it means something there. -/
theorem Slot.field_read_spells_iff {t w : Text} {v : Datum} (h : Spells t v) (hw : IsGap w)
    (rest r : Text) :
    s.field.read d (w ++ (t ++ rest)) = .ok (d', r)
      ↔ (∃ b, s.means v b ∧ d' = s.put d b) ∧ r = rest := by
  rw [Slot.field_read_eq_ok_iff]
  constructor
  · rintro ⟨b, hb, hd⟩
    obtain ⟨hmeans, rfl⟩ := (s.decodes h hw rest b r).1 hb
    exact ⟨⟨b, hmeans, hd⟩, rfl⟩
  · rintro ⟨⟨b, hmeans, hd⟩, rfl⟩
    exact ⟨b, (s.decodes h hw r b r).2 ⟨hmeans, rfl⟩, hd⟩

/-- A spelt value is read into a field, and then what follows it is read. -/
theorem Slot.field_read_then_iff (Goes : σ → Prop) {t w y tail r : Text} {v : Datum}
    (h : Spells t v) (hw : IsGap w) {close : Char} {next : σ → Reader σ}
    (hnext : ∀ d₁, (∃ z, next d₁ y = .ok (d', z) ∧ skipSpace z = close :: r)
      ↔ Goes d₁ ∧ r = tail) :
    (∃ z, (∃ d₁ y', s.field.read d (w ++ (t ++ y)) = .ok (d₁, y') ∧ next d₁ y' = .ok (d', z))
        ∧ skipSpace z = close :: r)
      ↔ (∃ b, s.means v b ∧ Goes (s.put d b)) ∧ r = tail := by
  constructor
  · rintro ⟨z, ⟨d₁, y', hread, hz⟩, hr⟩
    obtain ⟨⟨b, hmeans, rfl⟩, rfl⟩ := (s.field_read_spells_iff h hw y y').1 hread
    obtain ⟨hgoes, rfl⟩ := (hnext (s.put d b)).1 ⟨z, hz, hr⟩
    exact ⟨⟨b, hmeans, hgoes⟩, rfl⟩
  · rintro ⟨⟨b, hmeans, hgoes⟩, rfl⟩
    obtain ⟨z, hz, hr⟩ := (hnext (s.put d b)).2 ⟨hgoes, rfl⟩
    have hread : s.field.read d (w ++ (t ++ y)) = .ok (s.put d b, y) :=
      (s.field_read_spells_iff h hw y y).2 ⟨⟨b, hmeans, rfl⟩, rfl⟩
    exact ⟨z, ⟨s.put d b, y, hread, hz⟩, hr⟩

theorem isSome_get_eq_false_iff : s.field.isSet d = false ↔ s.get d = none :=
  Option.isSome_eq_false_iff.trans Option.isNone_iff_eq_none

/-- The text goes on with the entries and the end of their object, before the tail; `first` tells
that no entry has been read. -/
inductive EntriesAhead : Bool → List (Text × Datum) → Text → Text → Prop where
  /-- The end of the object. -/
  | close {w : Text} (gap : IsGap w) (first : Bool) (tail : Text) :
      EntriesAhead first [] (w ++ '\x7d' :: tail) tail
  /-- The first entry. -/
  | first {u : Text} {es : List (Text × Datum)} (h : SpellsEntries u es) (tail : Text) :
      EntriesAhead true es (u ++ '\x7d' :: tail) tail
  /-- A comma and another entry. -/
  | comma {w u : Text} {es : List (Text × Datum)} (gap : IsGap w) (h : SpellsEntries u es)
      (tail : Text) : EntriesAhead false es (w ++ ',' :: (u ++ '\x7d' :: tail)) tail

variable {first : Bool} {x tail r : Text} {key : Text} {v : Datum}

theorem SpellsEntries.ne_nil {u : Text} (h : SpellsEntries u es) : es ≠ [] := by
  cases h <;> exact List.cons_ne_nil _ _

theorem EntriesAhead.skipSpace_nil (h : EntriesAhead first [] x tail) :
    skipSpace x = '\x7d' :: tail := by
  cases h with
  | close gap => exact skipSpace_gap_cons gap rfl tail
  | first h => exact absurd rfl h.ne_nil
  | comma _ h => exact absurd rfl h.ne_nil

/-- An entry is a key, a colon and a value; what follows is how the object goes on. -/
inductive EntryAhead (key : Text) (v : Datum) (es : List (Text × Datum)) (tail : Text) :
    Text → Prop where
  /-- The parts of the entry. -/
  | parts {k w w' t y : Text} (hkey : SpellsBody k key) (gap : IsGap w) (gap' : IsGap w')
      (h : Spells t v) (stops : Stops y) (more : EntriesAhead false es y tail) :
      EntryAhead key v es tail (k ++ '"' :: (w ++ ':' :: (w' ++ (t ++ y))))

theorem SpellsEntries.uncons {u : Text} (h : SpellsEntries u ((key, v) :: es)) (tail : Text) :
    ∃ x, skipSpace (u ++ '\x7d' :: tail) = '"' :: x ∧ EntryAhead key v es tail x := by
  cases h with
  | @last w₁ k w₂ w₃ t w₄ _ _ gap₁ hkey gap₂ gap₃ ht gap₄ =>
    simp only [List.append_assoc, List.cons_append]
    refine ⟨_, skipSpace_gap_cons gap₁ rfl _, ?_⟩
    have hstops : Stops (w₄ ++ '\x7d' :: tail) := stops_of_mark gap₄ (by decide) tail
    exact .parts hkey gap₂ gap₃ ht hstops (.close gap₄ false tail)
  | @more w₁ k w₂ w₃ t w₄ u _ _ _ gap₁ hkey gap₂ gap₃ ht gap₄ hmore =>
    simp only [List.append_assoc, List.cons_append]
    refine ⟨_, skipSpace_gap_cons gap₁ rfl _, ?_⟩
    have hstops : Stops (w₄ ++ ',' :: (u ++ '\x7d' :: tail)) := stops_of_mark gap₄ (by decide) _
    exact .parts hkey gap₂ gap₃ ht hstops (.comma gap₄ hmore tail)

theorem EntriesAhead.next (h : EntriesAhead first ((key, v) :: es) x tail) :
    ∃ z, NextKey first x z ∧ EntryAhead key v es tail z := by
  cases h with
  | first h =>
    obtain ⟨z, hz, hentry⟩ := h.uncons tail
    exact ⟨z, .first hz, hentry⟩
  | comma gap h =>
    obtain ⟨z, hz, hentry⟩ := h.uncons tail
    exact ⟨z, .comma (skipSpace_gap_cons gap rfl _) hz, hentry⟩

theorem SpellsEntries.length_le {u : Text} {es : List (Text × Datum)} :
    SpellsEntries u es → es.length ≤ u.length
  | .last _ _ _ _ _ _ => by
    simp only [List.length_append, List.length_cons, List.length_nil]
    omega
  | .more _ _ _ _ _ _ hmore => by
    have hlength := hmore.length_le
    simp only [List.length_append, List.length_cons]
    omega

theorem EntriesAhead.length_le (h : EntriesAhead first es x tail) : es.length ≤ x.length := by
  cases h with
  | close => exact Nat.zero_le _
  | first h =>
    have hlength := h.length_le
    rw [List.length_append]
    omega
  | comma gap h =>
    have hlength := h.length_le
    simp only [List.length_append, List.length_cons]
    omega

/-- The entries are read to the end of the object if they can be taken one after the other. -/
theorem readEntries_ahead_iff {slots : List (Slot σ)} (hx : EntriesAhead first es x tail) {n : Nat}
    (hn : es.length < n) :
    (∃ y, readEntries (slots.map Slot.field) n first d x = .ok (d', y)
        ∧ skipSpace y = '\x7d' :: r)
      ↔ Enters slots d es d' ∧ r = tail := by
  induction es generalizing n first x d with
  | nil =>
    obtain ⟨n, rfl⟩ := Nat.exists_eq_succ_of_ne_zero (Nat.ne_of_gt hn)
    rw [Enters, readEntries_succ_of_close hx.skipSpace_nil]
    exact exists_ok_and_close_iff hx.skipSpace_nil
  | cons e es ih =>
    obtain ⟨key, v⟩ := e
    obtain ⟨n, rfl⟩ := Nat.exists_eq_succ_of_ne_zero (Nat.ne_zero_of_lt hn)
    obtain ⟨z, hnext, @⟨k, w, w', t, y, hkey, hw, hw', ht, hstops, hy⟩⟩ := hx.next
    have hn' := Nat.lt_of_succ_lt_succ hn
    have hfind : (slots.map Slot.field).find? (·.key = key)
        = (slots.find? (·.key = key)).map Slot.field := List.find?_map
    have hbody := readBody_spells hkey (w ++ ':' :: (w' ++ (t ++ y)))
    have hcolon := skipSpace_gap_cons hw (c := ':') rfl (w' ++ (t ++ y))
    rw [Enters]
    cases hslot : slots.find? (·.key = key) with
    | none =>
      rw [hslot, Option.map_none] at hfind
      rw [readEntries_of_unknown hnext hbody hcolon hfind, skipValue_spells ht hw' hstops]
      exact ih hy hn'
    | some s =>
      rw [hslot, Option.map_some] at hfind
      by_cases hset : s.get d = none
      · rw [readEntries_of_field hnext hbody hcolon hfind (isSome_get_eq_false_iff.2 hset)]
        simp only [bind_eq_ok_iff, Prod.exists, hset, true_and]
        exact s.field_read_then_iff (Enters slots · es d') ht hw' fun d₁ => ih hy hn'
      · have hisSet : s.field.isSet d = true := Option.isSome_iff_ne_none.2 hset
        rw [readEntries_of_duplicate hnext hbody hfind hisSet]
        constructor
        · rintro ⟨z, hz, -⟩
          contradiction
        · rintro ⟨⟨hnone, -⟩, -⟩
          exact absurd hnone hset

/-- The elements are read to the end of the list if they can be taken by the order of the fields. -/
theorem readPositions_ahead_iff {slots : List (Slot σ)} {vs : List Datum}
    (hx : ElementsAhead first vs x tail) :
    (∃ y, readPositions (slots.map Slot.field) first d x = .ok (d', y) ∧ skipSpace y = ']' :: r)
      ↔ EntersInOrder slots d vs d' ∧ r = tail := by
  induction slots generalizing vs first x d with
  | nil =>
    have hstep : readPositions (([] : List (Slot σ)).map Slot.field) first d x = .ok (d, x) := rfl
    rw [hstep]
    cases vs with
    | nil =>
      rw [EntersInOrder]
      exact exists_ok_and_close_iff hx.skipSpace_nil
    | cons v vs =>
      rw [EntersInOrder]
      constructor
      · rintro ⟨y, hy, hr⟩
        cases hy
        exact absurd hr hx.skipSpace_cons
      · rintro ⟨⟨⟩, -⟩
  | cons s slots ih =>
    rw [List.map_cons]
    cases vs with
    | nil =>
      rw [EntersInOrder, readPositions_cons_of_close hx.skipSpace_nil]
      exact exists_ok_and_close_iff hx.skipSpace_nil
    | cons v vs =>
      obtain ⟨t, y, ht, hnext, hy⟩ := hx.next
      simp only [readPositions_cons_eq_ok_iff hnext, EntersInOrder]
      exact s.field_read_then_iff (EntersInOrder slots · vs d') ht isGap_nil fun d₁ => ih hy

/-! ## Records -/

/-- A spelt object leads its reader to what is inside. -/
theorem entriesAhead_of_spells {t : Text} (h : Spells t (.object es)) (rest : Text) :
    ∃ x, t ++ rest = '\x7b' :: x ∧ EntriesAhead true es x rest := by
  cases h with
  | @emptyObject w hw =>
    refine ⟨w ++ '\x7d' :: rest, ?_, .close hw true rest⟩
    simp
  | @object u _ hu =>
    refine ⟨u ++ '\x7d' :: rest, ?_, .first hu rest⟩
    simp

theorem entriesAhead_of_append {t u rest : Text} (h : Spells t v) (ht : t ++ rest = '\x7b' :: u) :
    ∃ es, v = .object es ∧ EntriesAhead true es u rest := by
  obtain ⟨es, rfl⟩ := (h.opens_of_append ht).eq_object
  obtain ⟨x, hx, hahead⟩ := entriesAhead_of_spells h rest
  rw [hx] at ht
  obtain rfl := (List.cons.inj ht).2
  exact ⟨es, rfl, hahead⟩

variable {α : Type} {shape : Shape σ α} {a : α}

/-- Entries make a record: they fill a draft, and the draft makes the record. -/
def Layout.Makes (layout : Layout σ) (shape : Shape σ α) (es : List (Text × Datum)) (a : α) :
    Prop :=
  ∃ d, layout.Collects es d ∧ shape.finish d = .ok a

/-- Values in the order of the fields fill a draft as entries under their keys do. -/
theorem Layout.entersInOrder_empty_iff {vs : List Datum} :
    EntersInOrder layout.slots layout.empty vs d
      ↔ vs.length ≤ layout.keys.length ∧ layout.Collects (layout.keys.zip vs) d := by
  have hslots : ∀ s ∈ layout.slots, s ∈ layout.slots ∧ s.get layout.empty = none :=
    fun s hs => ⟨hs, layout.get_empty s hs⟩
  rw [layout.entersInOrder_iff hslots layout.distinct, layout.enters_empty_iff, Layout.keys,
    List.length_map]

/-- The reader of a record accepts exactly the values whose entries make one. -/
theorem decodes_record (layout : Layout σ) (hfields : shape.fields = layout.slots.map Slot.field)
    (hempty : shape.empty = layout.empty) :
    Decodes (readRecord shape)
      fun v a => ∃ es, EntryList layout.keys v es ∧ layout.Makes shape es a := by
  intro t v w h hw rest a r
  rw [readRecord_eq_ok_iff, skipSpace_spells h hw, hfields, hempty]
  constructor
  · rintro ⟨d, hfinish, ⟨u, y, hu, hread, hclose⟩ | ⟨u, y, hu, hread, hclose⟩⟩
    · obtain ⟨vs, rfl, hahead⟩ := elementsAhead_of_append h hu
      obtain ⟨horder, rfl⟩ := (readPositions_ahead_iff hahead).1 ⟨y, hread, hclose⟩
      obtain ⟨hlength, hcollects⟩ := layout.entersInOrder_empty_iff.1 horder
      exact ⟨⟨_, .list hlength, d, hcollects, hfinish⟩, rfl⟩
    · obtain ⟨es, rfl, hahead⟩ := entriesAhead_of_append h hu
      have hlength := hahead.length_le
      obtain ⟨henters, rfl⟩ :=
        (readEntries_ahead_iff hahead (Nat.lt_succ_of_le hlength)).1 ⟨y, hread, hclose⟩
      exact ⟨⟨es, .object es, d, layout.enters_empty_iff.1 henters, hfinish⟩, rfl⟩
  · rintro ⟨⟨es, hes, d, hcollects, hfinish⟩, rfl⟩
    refine ⟨d, hfinish, ?_⟩
    cases hes with
    | list hlength =>
      obtain ⟨u, hu, hahead⟩ := elementsAhead_of_spells h r
      have horder := layout.entersInOrder_empty_iff.2 ⟨hlength, hcollects⟩
      obtain ⟨y, hread, hclose⟩ := (readPositions_ahead_iff hahead).2 ⟨horder, rfl⟩
      exact .inl ⟨u, y, hu, hread, hclose⟩
    | object =>
      obtain ⟨u, hu, hahead⟩ := entriesAhead_of_spells h r
      have hlength := hahead.length_le
      obtain ⟨y, hread, hclose⟩ := (readEntries_ahead_iff hahead (Nat.lt_succ_of_le hlength)).2
        ⟨layout.enters_empty_iff.2 hcollects, rfl⟩
      exact .inr ⟨u, y, hu, hread, hclose⟩

end Fields

end RefBook.Json
