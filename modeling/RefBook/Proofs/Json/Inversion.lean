import RefBook.Json.Reader
import RefBook.Proofs.Outcomes

/-!
# RefBook.Proofs.Json.Inversion — what a reader has seen when it succeeds

One lemma for each reader, in terms of the next tokens (`skipSpace`) and of the readers inside it.

* `NextElement`, `NextKey`: the way from one element or entry to the next.
* `readElements_succ_eq_ok_iff`, `readEntries_succ_eq_ok_iff`: one step of a list and of an object.
* `readText_eq_ok_iff` and its kin: values; `readAll_eq_ok_iff`: whole texts.
-/

namespace RefBook.Json

variable {α β : Type} {t u r : Text}

/-- What is made of a value that was read leaves the rest. -/
theorem bind_made_eq_ok_iff {x : Except Halt (α × Text)} {made : α → β} {b : β} :
    (x >>= fun p => .ok (made p.1, p.2)) = .ok (b, r) ↔ ∃ a, x = .ok (a, r) ∧ b = made a := by
  simp only [bind_eq_ok_iff, Prod.exists, Except.ok.injEq, Prod.mk.injEq]
  constructor
  · rintro ⟨a, y, ha, rfl, rfl⟩
    exact ⟨a, ha, rfl⟩
  · rintro ⟨a, ha, rfl⟩
    exact ⟨a, r, ha, rfl, rfl⟩

/-! ## Tokens -/

theorem readColon_eq_ok_iff : readColon t = .ok r ↔ skipSpace t = ':' :: r := by
  unfold readColon
  cases skipSpace t with
  | nil => simp [halt]
  | cons c u =>
    by_cases hc : c = ':'
    · simp [hc]
    · simp [hc, haltNext]

theorem closeList_eq_none_iff : closeList t = (r, none) ↔ skipSpace t = ']' :: r := by
  unfold closeList
  cases skipSpace t with
  | nil => simp
  | cons c u =>
    by_cases hclose : c = ']'
    · simp [hclose]
    · by_cases hcomma : c = ','
      · subst hcomma
        simp only [List.cons.injEq, hclose, false_and, iff_false]
        split <;> simp
      · simp [hclose, hcomma]

theorem closeObject_eq_none_iff : closeObject t = (r, none) ↔ skipSpace t = '\x7d' :: r := by
  unfold closeObject
  cases skipSpace t with
  | nil => simp
  | cons c u =>
    by_cases hclose : c = '\x7d'
    · simp [hclose]
    · by_cases hcomma : c = ','
      · simp [hcomma]
      · simp [hclose, hcomma]

/-- The next element of a list begins here: behind a comma, unless it is the first. -/
inductive NextElement : Bool → Text → Text → Prop where
  /-- The first element. -/
  | first {t r : Text} {c : Char} (h : skipSpace t = c :: r) (hc : c ≠ ']') :
      NextElement true t (c :: r)
  /-- Another element. -/
  | comma {t u r : Text} {c : Char} (h : skipSpace t = ',' :: u) (h' : skipSpace u = c :: r)
      (hc : c ≠ ']') : NextElement false t (c :: r)

theorem nextElement_eq_none_iff {first : Bool} :
    nextElement first t = .ok none ↔ ∃ r, skipSpace t = ']' :: r := by
  unfold nextElement
  cases skipSpace t with
  | nil => simp [halt]
  | cons c u =>
    by_cases hclose : c = ']'
    · simp [hclose]
    · cases first with
      | true => simp [hclose]
      | false =>
        by_cases hcomma : c = ','
        · subst hcomma
          simp only [Bool.false_eq_true, if_false, if_true, List.cons.injEq, hclose, false_and,
            exists_false, iff_false]
          split <;> simp [halt, haltNext]
        · simp [hclose, hcomma, haltNext]

theorem nextElement_eq_some_iff {first : Bool} :
    nextElement first t = .ok (some u) ↔ NextElement first t u := by
  constructor
  · intro h
    unfold nextElement at h
    cases hskip : skipSpace t with
    | nil => simp [hskip, halt] at h
    | cons c r =>
      by_cases hclose : c = ']'
      · simp [hskip, hclose] at h
      · cases first with
        | true =>
          obtain rfl : c :: r = u := by simpa [hskip, hclose] using h
          exact .first hskip hclose
        | false =>
          by_cases hcomma : c = ','
          · subst hcomma
            cases hskip' : skipSpace r with
            | nil => simp [hskip, hskip', halt] at h
            | cons c' r' =>
              by_cases hclose' : c' = ']'
              · simp [hskip, hskip', hclose', haltNext] at h
              · obtain rfl : c' :: r' = u := by simpa [hskip, hskip', hclose'] using h
                exact .comma hskip hskip' hclose'
          · simp [hskip, hcomma, haltNext] at h
  · rintro (⟨h, hc⟩ | ⟨h, h', hc⟩)
    · simp [nextElement, h]
    · simp [nextElement, h, h', hc]

/-- The next key of an object begins here, its quote gone: behind a comma, unless it is the first
one. -/
inductive NextKey : Bool → Text → Text → Prop where
  /-- The first key. -/
  | first {t r : Text} (h : skipSpace t = '"' :: r) : NextKey true t r
  /-- Another key. -/
  | comma {t u r : Text} (h : skipSpace t = ',' :: u) (h' : skipSpace u = '"' :: r) :
      NextKey false t r

theorem nextKey_eq_none_iff {first : Bool} :
    nextKey first t = .ok none ↔ ∃ r, skipSpace t = '\x7d' :: r := by
  unfold nextKey
  cases skipSpace t with
  | nil => simp [halt]
  | cons c u =>
    by_cases hclose : c = '\x7d'
    · simp [hclose]
    · cases first with
      | true => by_cases hquote : c = '"' <;> simp [hclose, hquote, haltNext]
      | false =>
        by_cases hcomma : c = ','
        · subst hcomma
          simp only [Bool.false_eq_true, if_false, if_true, List.cons.injEq, hclose, false_and,
            exists_false, iff_false]
          split
          · simp [haltNext]
          · split <;> simp [halt, haltNext]
        · simp [hclose, hcomma, haltNext]

theorem nextKey_eq_some_iff {first : Bool} :
    nextKey first t = .ok (some u) ↔ NextKey first t u := by
  constructor
  · intro h
    unfold nextKey at h
    cases hskip : skipSpace t with
    | nil => simp [hskip, halt] at h
    | cons c r =>
      by_cases hclose : c = '\x7d'
      · simp [hskip, hclose] at h
      · cases first with
        | true =>
          by_cases hquote : c = '"'
          · obtain rfl : r = u := by simpa [hskip, hquote] using h
            exact .first (hquote ▸ hskip)
          · simp [hskip, haltNext] at h
        | false =>
          by_cases hcomma : c = ','
          · subst hcomma
            cases hskip' : skipSpace r with
            | nil => simp [hskip, hskip', halt] at h
            | cons c' r' =>
              by_cases hquote : c' = '"'
              · obtain rfl : r' = u := by simpa [hskip, hskip', hquote] using h
                exact .comma hskip (hquote ▸ hskip')
              · by_cases hclose' : c' = '\x7d'
                · simp [hskip, hskip', hclose', haltNext] at h
                · simp [hskip, hskip', hclose', haltNext] at h
          · simp [hskip, hcomma, haltNext] at h
  · rintro (⟨h⟩ | ⟨h, h'⟩)
    · simp [nextKey, h]
    · simp [nextKey, h, h']

/-! ## Brackets -/

theorem closing_eq_ok_iff {close : Text → Text × Option Cause} {inside : Except Halt (α × Text)}
    {a : α} :
    closing close inside = .ok (a, r) ↔ ∃ y, inside = .ok (a, y) ∧ close y = (r, none) := by
  cases inside with
  | error e =>
    simp only [closing]
    split <;> simp
  | ok p =>
    obtain ⟨b, y⟩ := p
    simp only [closing, Except.ok.injEq, Prod.mk.injEq]
    cases hclose : close y with
    | mk z cause =>
      cases cause with
      | none =>
        simp only [Except.ok.injEq, Prod.mk.injEq]
        constructor
        · rintro ⟨rfl, rfl⟩
          exact ⟨y, ⟨rfl, rfl⟩, hclose⟩
        · rintro ⟨_, ⟨rfl, rfl⟩, h⟩
          rw [hclose] at h
          cases h
          exact ⟨rfl, rfl⟩
      | some cause =>
        simp only [haltNext, reduceCtorEq, false_iff]
        rintro ⟨_, ⟨rfl, rfl⟩, h⟩
        rw [hclose] at h
        cases h

theorem readElements_succ {read : Reader α} {n : Nat} {first : Bool} :
    readElements read (n + 1) first t = nextElement first t >>= fun
      | none => .ok ([], t)
      | some u => read u >>= fun p => readElements read n false p.2 >>= fun q =>
        .ok (p.1 :: q.1, q.2) := rfl

/-- One more element is read and put in front of the others. -/
theorem readElements_succ_eq_ok_iff {read : Reader α} {n : Nat} {first : Bool} {as : List α}
    (hnext : NextElement first t u) :
    readElements read (n + 1) first t = .ok (as, r)
      ↔ ∃ a y, read u = .ok (a, y) ∧ ∃ as', readElements read n false y = .ok (as', r)
        ∧ as = a :: as' := by
  rw [readElements_succ, nextElement_eq_some_iff.2 hnext]
  show (read u >>= fun p => readElements read n false p.2 >>= fun q => .ok (p.1 :: q.1, q.2))
    = .ok (as, r) ↔ _
  rw [bind_eq_ok_iff]
  simp only [bind_made_eq_ok_iff, Prod.exists]

theorem readElements_succ_of_close {read : Reader α} {n : Nat} {first : Bool}
    (hclose : skipSpace t = ']' :: r) : readElements read (n + 1) first t = .ok ([], t) := by
  rw [readElements_succ, nextElement_eq_none_iff.2 ⟨r, hclose⟩]
  rfl

/-- A step that succeeds has found the end of the list or another element. -/
theorem readElements_succ_cases {read : Reader α} {n : Nat} {first : Bool} {as : List α}
    (h : readElements read (n + 1) first t = .ok (as, r)) :
    (∃ y, skipSpace t = ']' :: y) ∨ ∃ u, NextElement first t u := by
  obtain ⟨o, ho, -⟩ := bind_eq_ok_iff.1 h
  cases o with
  | none => exact .inl (nextElement_eq_none_iff.1 ho)
  | some u => exact .inr ⟨u, nextElement_eq_some_iff.1 ho⟩

section Records

variable {σ : Type} {fields : List (Field σ)} {field : Field σ} {d d' : σ} {n : Nat} {first : Bool}

theorem readEntries_succ :
    readEntries fields (n + 1) first d t = nextKey first t >>= fun
      | none => .ok (d, t)
      | some u => readBody u >>= fun p =>
        match fields.find? (·.key = p.1) with
        | some field =>
          if field.isSet d then haltAtClose (.duplicateField p.1) p.2
          else readColon p.2 >>= fun x => field.read d x >>= fun q =>
            readEntries fields n false q.1 q.2
        | none => readColon p.2 >>= fun x => skipValue x >>= fun z =>
          readEntries fields n false d z := rfl

theorem readEntries_succ_of_close (hclose : skipSpace t = '\x7d' :: r) :
    readEntries fields (n + 1) first d t = .ok (d, t) := by
  rw [readEntries_succ, nextKey_eq_none_iff.2 ⟨r, hclose⟩]
  rfl

section Entry

variable {key y x : Text} (hnext : NextKey first t u) (hbody : readBody u = .ok (key, y))
  (hcolon : skipSpace y = ':' :: x)
include hnext hbody

theorem readEntries_of_duplicate (hfind : fields.find? (·.key = key) = some field)
    (hset : field.isSet d = true) :
    readEntries fields (n + 1) first d t = haltAtClose (.duplicateField key) y := by
  simp only [readEntries_succ, nextKey_eq_some_iff.2 hnext, hbody, hfind, hset, bind, Except.bind,
    if_true]

theorem readEntries_of_known (hfind : fields.find? (·.key = key) = some field)
    (hset : field.isSet d = false) :
    readEntries fields (n + 1) first d t = readColon y >>= fun x =>
      field.read d x >>= fun p => readEntries fields n false p.1 p.2 := by
  simp only [readEntries_succ, nextKey_eq_some_iff.2 hnext, hbody, hfind, hset, bind, Except.bind,
    Bool.false_eq_true, if_false]

include hcolon

theorem readEntries_of_field (hfind : fields.find? (·.key = key) = some field)
    (hset : field.isSet d = false) :
    readEntries fields (n + 1) first d t
      = field.read d x >>= fun p => readEntries fields n false p.1 p.2 := by
  rw [readEntries_of_known hnext hbody hfind hset, readColon_eq_ok_iff.2 hcolon]
  rfl

theorem readEntries_of_unknown (hfind : fields.find? (·.key = key) = none) :
    readEntries fields (n + 1) first d t
      = skipValue x >>= fun z => readEntries fields n false d z := by
  simp only [readEntries_succ, nextKey_eq_some_iff.2 hnext, hbody, hfind, readColon_eq_ok_iff.2 hcolon,
    bind, Except.bind]

end Entry

/-- One more entry: its value goes into the field, or is read past if there is no such field. -/
theorem readEntries_succ_eq_ok_iff (hnext : NextKey first t u) :
    readEntries fields (n + 1) first d t = .ok (d', r)
      ↔ ∃ key y, readBody u = .ok (key, y) ∧ ∃ x, skipSpace y = ':' :: x
        ∧ ((∃ field, fields.find? (·.key = key) = some field ∧ field.isSet d = false
            ∧ ∃ d₁ z, field.read d x = .ok (d₁, z) ∧ readEntries fields n false d₁ z = .ok (d', r))
          ∨ (fields.find? (·.key = key) = none
            ∧ ∃ z, skipValue x = .ok z ∧ readEntries fields n false d z = .ok (d', r))) := by
  rw [readEntries_succ, nextKey_eq_some_iff.2 hnext]
  show (readBody u >>= fun p => _) = .ok (d', r) ↔ _
  rw [bind_eq_ok_iff, Prod.exists]
  refine exists_congr fun key => exists_congr fun y => and_congr_right fun _ => ?_
  simp only []
  cases hfind : fields.find? (·.key = key) with
  | none =>
    simp [bind_eq_ok_iff, readColon_eq_ok_iff]
  | some field =>
    cases hset : field.isSet d with
    | true => simp [hset, haltAtClose]
    | false =>
      simp [hset, bind_eq_ok_iff, readColon_eq_ok_iff]

/-- A step that succeeds has found the end of the object or another key. -/
theorem readEntries_succ_cases (h : readEntries fields (n + 1) first d t = .ok (d', r)) :
    (∃ y, skipSpace t = '\x7d' :: y) ∨ ∃ u, NextKey first t u := by
  obtain ⟨o, ho, -⟩ := bind_eq_ok_iff.1 h
  cases o with
  | none => exact .inl (nextKey_eq_none_iff.1 ho)
  | some u => exact .inr ⟨u, nextKey_eq_some_iff.1 ho⟩

theorem readPositions_cons :
    readPositions (field :: fields) first d t = nextElement first t >>= fun
      | none => .ok (d, t)
      | some u => field.read d u >>= fun p => readPositions fields false p.1 p.2 := rfl

theorem readPositions_cons_of_close (hclose : skipSpace t = ']' :: r) :
    readPositions (field :: fields) first d t = .ok (d, t) := by
  rw [readPositions_cons, nextElement_eq_none_iff.2 ⟨r, hclose⟩]
  rfl

/-- One more element goes into the next field. -/
theorem readPositions_cons_eq_ok_iff (hnext : NextElement first t u) :
    readPositions (field :: fields) first d t = .ok (d', r)
      ↔ ∃ d₁ y, field.read d u = .ok (d₁, y) ∧ readPositions fields false d₁ y = .ok (d', r) := by
  rw [readPositions_cons, nextElement_eq_some_iff.2 hnext]
  show (field.read d u >>= fun p => readPositions fields false p.1 p.2) = .ok (d', r) ↔ _
  simp only [bind_eq_ok_iff, Prod.exists]

theorem readPositions_cons_cases (h : readPositions (field :: fields) first d t = .ok (d', r)) :
    (∃ y, skipSpace t = ']' :: y) ∨ ∃ u, NextElement first t u := by
  obtain ⟨o, ho, -⟩ := bind_eq_ok_iff.1 h
  cases o with
  | none => exact .inl (nextElement_eq_none_iff.1 ho)
  | some u => exact .inr ⟨u, nextElement_eq_some_iff.1 ho⟩

end Records

/-! ## Values -/

theorem readText_eq_ok_iff {s : Text} :
    readText t = .ok (s, r) ↔ ∃ u, skipSpace t = '"' :: u ∧ readBody u = .ok (s, r) := by
  unfold readText
  cases skipSpace t with
  | nil => simp [halt]
  | cons c u =>
    by_cases hquote : c = '"'
    · simp [hquote]
    · simp [hquote]

theorem readOptional_eq_ok_iff {read : Reader α} {o : Option α} :
    readOptional read t = .ok (o, r)
      ↔ (∃ u, skipSpace t = 'n' :: u ∧ readWord "ull".toList u = .ok r ∧ o = none)
        ∨ (∀ u, skipSpace t ≠ 'n' :: u) ∧ ∃ a, read (skipSpace t) = .ok (a, r) ∧ o = some a := by
  unfold readOptional
  split
  · next u hskip =>
    rw [hskip]
    show (readWord "ull".toList u >>= fun y => .ok (none, y)) = .ok (o, r) ↔ _
    simp only [bind_eq_ok_iff, Except.ok.injEq, Prod.mk.injEq, List.cons.injEq, true_and]
    constructor
    · rintro ⟨y, hword, rfl, rfl⟩
      exact .inl ⟨u, rfl, hword, rfl⟩
    · rintro (⟨_, rfl, hword, rfl⟩ | ⟨hne, -⟩)
      · exact ⟨r, hword, rfl, rfl⟩
      · exact absurd rfl (hne u)
  · next hne =>
    refine bind_made_eq_ok_iff.trans ?_
    constructor
    · rintro ⟨a, ha, rfl⟩
      exact .inr ⟨fun u hu => hne u hu, a, ha, rfl⟩
    · rintro (⟨u, hu, -⟩ | ⟨-, h⟩)
      · exact absurd hu (hne u)
      · exact h

theorem readList_eq_ok_iff {read : Reader α} {as : List α} :
    readList read t = .ok (as, r) ↔ ∃ u y, skipSpace t = '[' :: u
      ∧ readElements read (u.length + 1) true u = .ok (as, y) ∧ skipSpace y = ']' :: r := by
  unfold readList
  cases skipSpace t with
  | nil => simp [halt]
  | cons c u =>
    by_cases hopen : c = '['
    · subst hopen
      simp [closing_eq_ok_iff, closeList_eq_none_iff]
    · simp [hopen]

theorem readHalf_of_next {read : Reader α} {number : Nat} (hnext : NextElement (number == 0) t u) :
    readHalf read number t = read u := by
  rw [readHalf, nextElement_eq_some_iff.2 hnext]
  rfl

/-- One of two elements is read where it begins. -/
theorem readHalf_eq_ok_iff {read : Reader α} {number : Nat} {a : α} :
    readHalf read number t = .ok (a, r)
      ↔ ∃ u, NextElement (number == 0) t u ∧ read u = .ok (a, r) := by
  constructor
  · intro h
    obtain ⟨o, ho, h⟩ := bind_eq_ok_iff.1 h
    cases o with
    | none => contradiction
    | some u => exact ⟨u, nextElement_eq_some_iff.1 ho, h⟩
  · rintro ⟨u, hnext, h⟩
    rw [readHalf_of_next hnext, h]

theorem readPair_eq_ok_iff {left : Reader α} {right : Reader β} {a : α} {b : β} :
    readPair left right t = .ok ((a, b), r) ↔ ∃ u, skipSpace t = '[' :: u
      ∧ ∃ y, readHalf left 0 u = .ok (a, y)
      ∧ ∃ z, readHalf right 1 y = .ok (b, z) ∧ skipSpace z = ']' :: r := by
  unfold readPair
  cases skipSpace t with
  | nil => simp [halt]
  | cons c u =>
    by_cases hopen : c = '['
    · subst hopen
      show closing closeList (readHalf left 0 u >>= fun p => readHalf right 1 p.2 >>= fun q =>
        .ok ((p.1, q.1), q.2)) = .ok ((a, b), r) ↔ _
      simp only [closing_eq_ok_iff, closeList_eq_none_iff, bind_eq_ok_iff, Prod.exists,
        Except.ok.injEq, Prod.mk.injEq, List.cons.injEq, true_and]
      constructor
      · rintro ⟨_, ⟨_, y, ha, _, z, hb, ⟨rfl, rfl⟩, rfl⟩, hclose⟩
        exact ⟨u, rfl, y, ha, z, hb, hclose⟩
      · rintro ⟨_, rfl, y, ha, z, hb, hclose⟩
        exact ⟨z, ⟨a, y, ha, b, z, hb, ⟨rfl, rfl⟩, rfl⟩, hclose⟩
    · simp [hopen]

section Records

variable {σ : Type} {shape : Shape σ α} {a : α}

theorem Shape.finishAt_eq_ok_iff {lacking : Nat → Cause} {d : σ} {y : Text} :
    shape.finishAt lacking (d, y) = .ok (a, r) ↔ shape.finish d = .ok a ∧ y = r := by
  cases hfinish : shape.finish d with
  | ok b => simp [Shape.finishAt, hfinish]
  | error number => simp [Shape.finishAt, hfinish, haltAtClose]

/-- The fields are read into a draft by the list of fields or by their keys. -/
theorem readRecord_eq_ok_iff :
    readRecord shape t = .ok (a, r) ↔ ∃ d, shape.finish d = .ok a
      ∧ ((∃ u y, skipSpace t = '[' :: u
            ∧ readPositions shape.fields true shape.empty u = .ok (d, y) ∧ skipSpace y = ']' :: r)
          ∨ ∃ u y, skipSpace t = '\x7b' :: u
            ∧ readEntries shape.fields (u.length + 1) true shape.empty u = .ok (d, y)
            ∧ skipSpace y = '\x7d' :: r) := by
  unfold readRecord
  cases skipSpace t with
  | nil => simp [halt]
  | cons c u =>
    by_cases hlist : c = '['
    · subst hlist
      simp only [closing_eq_ok_iff, closeList_eq_none_iff, bind_eq_ok_iff, Prod.exists,
        Shape.finishAt_eq_ok_iff]
      constructor
      · rintro ⟨_, ⟨d, y, hread, hfinish, rfl⟩, hclose⟩
        exact ⟨d, hfinish, .inl ⟨u, _, rfl, hread, hclose⟩⟩
      · rintro ⟨d, hfinish, ⟨_, y, ⟨⟩, hread, hclose⟩ | ⟨_, y, ⟨⟩, -⟩⟩
        exact ⟨y, ⟨d, y, hread, hfinish, rfl⟩, hclose⟩
    · by_cases hobject : c = '\x7b'
      · subst hobject
        simp only [closing_eq_ok_iff, closeObject_eq_none_iff, bind_eq_ok_iff, Prod.exists,
          Shape.finishAt_eq_ok_iff]
        constructor
        · rintro ⟨_, ⟨d, y, hread, hfinish, rfl⟩, hclose⟩
          exact ⟨d, hfinish, .inr ⟨u, _, rfl, hread, hclose⟩⟩
        · rintro ⟨d, hfinish, ⟨_, y, ⟨⟩, -⟩ | ⟨_, y, ⟨⟩, hread, hclose⟩⟩
          exact ⟨y, ⟨d, y, hread, hfinish, rfl⟩, hclose⟩
      · simp [hlist, hobject]

end Records

/-! ## Whole texts -/

/-- A value is read off a whole text if no token is left. -/
theorem readAll_eq_ok_iff {read : Reader α} {a : α} :
    readAll read t = .ok a ↔ ∃ r, read t = .ok (a, r) ∧ skipSpace r = [] := by
  have hwhole : readAll read t = .ok a ↔ readWhole? read t = .ok a := by
    unfold readAll
    cases readWhole? read t <;> simp
  rw [hwhole, readWhole?, bind_eq_ok_iff, Prod.exists]
  constructor
  · rintro ⟨b, r, hread, hrest⟩
    cases hskip : skipSpace r with
    | nil =>
      simp only [hskip] at hrest
      cases hrest
      exact ⟨r, hread, hskip⟩
    | cons c y =>
      simp only [hskip] at hrest
      contradiction
  · rintro ⟨r, hread, hskip⟩
    refine ⟨a, r, hread, ?_⟩
    simp only [hskip]
    rfl

end RefBook.Json
