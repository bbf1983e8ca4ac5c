import Mathlib.Data.List.DropRight
import Mathlib.Data.List.TakeDrop
import RefBook.Json.Skip
import RefBook.Proofs.Json.Grammar
import RefBook.Proofs.Json.StringBody

/-!
# RefBook.Proofs.Json.Spelling — spelt strings, numerals and values are read to their end

* `readBody_spells`, `skipBody_spells`: the characters of a string, however they are spelt.
* `readNumeral_isNumber`: a numeral, as long as what follows does not carry it on (`Stops`).
* `skipFrom_before` and its kin: what a step does, by the place it starts from.
* `SkipsIn`: so many steps lead past a value; `Spells.skipsIn` counts them along its spelling, no
  more than two for a character.
* `skipValue_spells`: any value is skipped.
-/

namespace RefBook.Json

theorem skipSpace_eq_nil_iff {x : Text} : skipSpace x = [] ↔ IsGap x := by
  simp only [skipSpace, List.dropWhile_eq_nil_iff, isSpace_eq_true_iff, IsGap]

/-! ## Strings -/

theorem hexDigit?_of_isHexDigit {c : Char} {d : Nat} (h : IsHexDigit c d) :
    hexDigit? c = some d := by
  obtain ⟨hd, hc⟩ := h
  have hsmall : ∀ d < 16, hexDigit? (Nat.digitChar d) = some d := by decide
  have hcapital : ∀ d < 16, hexDigit? (Nat.digitChar d).toUpper = some d := by decide
  rcases hc with rfl | rfl
  · exact hsmall d hd
  · exact hcapital d hd

theorem readHex_spellsUnit {u : Text} {n : Nat} (h : SpellsUnit u n) (r : Text) :
    readHex (u ++ r) = .ok (n, r) := by
  obtain ⟨ha, hb, hc, hd⟩ := h
  refine readHex_of_hexDigits? ?_ r
  simp only [hexDigits?, hexDigit?_of_isHexDigit ha, hexDigit?_of_isHexDigit hb,
    hexDigit?_of_isHexDigit hc, hexDigit?_of_isHexDigit hd, Option.bind_eq_bind, Option.bind_some,
    Option.pure_def]

theorem letterEscape?_of_mem {e c : Char} (h : (e, c) ∈ escapeLetters) :
    letterEscape? e = some c := by
  have hall : ∀ p ∈ escapeLetters, letterEscape? p.1 = some p.2 := by decide
  exact hall (e, c) h

/-- A character is no half of a surrogate pair. -/
theorem toNat_not_surrogate (c : Char) : c.toNat < 0xD800 ∨ 0xDFFF < c.toNat := by
  rcases c.valid with h | h
  · exact .inl h
  · exact .inr h.1

theorem readUnit_spellsUnit {u : Text} {c : Char} (h : SpellsUnit u c.toNat) (r : Text) :
    readUnit (u ++ r) = .ok (c, r) := by
  have hsurrogate := toNat_not_surrogate c
  have hlow : ¬ (0xDC00 ≤ c.toNat ∧ c.toNat ≤ 0xDFFF) := by omega
  have hhigh : ¬ (0xD800 ≤ c.toNat ∧ c.toNat ≤ 0xDBFF) := by omega
  simp only [readUnit, readHex_spellsUnit h, bind, Except.bind, if_neg hlow, if_neg hhigh,
    Char.ofNat_toNat]

theorem readUnit_pair {u u' : Text} {high low : Nat} {c : Char} (h : SpellsUnit u high)
    (h' : SpellsUnit u' low) (hhigh : 0xD800 ≤ high ∧ high ≤ 0xDBFF)
    (hlow : 0xDC00 ≤ low ∧ low ≤ 0xDFFF)
    (hc : c.toNat = (high - 0xD800) * 0x400 + (low - 0xDC00) + 0x10000) (r : Text) :
    readUnit (u ++ '\\' :: 'u' :: (u' ++ r)) = .ok (c, r) := by
  have hnot : ¬ (0xDC00 ≤ high ∧ high ≤ 0xDFFF) := by omega
  have hslash : readPairMark '\\' ('\\' :: 'u' :: (u' ++ r)) = .ok ('u' :: (u' ++ r)) := rfl
  have hmark : readPairMark 'u' ('u' :: (u' ++ r)) = .ok (u' ++ r) := rfl
  simp only [readUnit, readHex_spellsUnit h, bind, Except.bind, if_neg hnot, if_pos hhigh, hslash,
    hmark, readHex_spellsUnit h', if_pos hlow, ← hc, Char.ofNat_toNat]

/-- One spelt character is read as itself, whatever follows. -/
theorem readBodyFrom_spellsChar {t : Text} {c : Char} (h : SpellsChar t c) (taken r : Text) :
    readBodyFrom taken (t ++ r) = readBodyFrom (c :: taken) r := by
  have hu : letterEscape? 'u' = none := rfl
  cases h with
  | plain hquote hslash hcontrol =>
    exact readBodyFrom_plain hquote hslash (Nat.not_lt.2 hcontrol) taken r
  | letter hletter =>
    exact readBodyFrom_escape (readEscape_of_letterEscape? (letterEscape?_of_mem hletter) r) taken
  | @unit u _ hunit =>
    refine readBodyFrom_escape (r := 'u' :: (u ++ r)) ?_ taken
    simp only [readEscape, hu, if_true, readUnit_spellsUnit hunit]
  | @pair u u' high low _ hhigh' hlow' hhigh hlow hc =>
    rw [List.cons_append, List.cons_append, List.append_assoc]
    refine readBodyFrom_escape ?_ taken
    simp only [readEscape, hu, if_true, List.cons_append,
      readUnit_pair hhigh' hlow' hhigh hlow hc]

theorem readBodyFrom_spells {t s : Text} (h : SpellsBody t s) (taken r : Text) :
    readBodyFrom taken (t ++ '"' :: r) = .ok (taken.reverse ++ s, r) := by
  induction h generalizing taken with
  | nil => rw [List.nil_append, readBodyFrom_quote, List.append_nil]
  | cons hchar _ ih =>
    rw [List.append_assoc, readBodyFrom_spellsChar hchar, ih, List.reverse_cons, List.append_assoc]
    rfl

theorem readBody_spells {t s : Text} (h : SpellsBody t s) (r : Text) :
    readBody (t ++ '"' :: r) = .ok (s, r) :=
  readBodyFrom_spells h [] r

theorem skipBody_quote (r : Text) : skipBody ('"' :: r) = .ok r := by
  rw [skipBody, if_pos rfl]

theorem skipBody_plain {c : Char} (hquote : c ≠ '"') (hslash : c ≠ '\\')
    (hcontrol : ¬ c.toNat < 0x20) (r : Text) : skipBody (c :: r) = skipBody r := by
  rw [skipBody, if_neg hquote, if_neg hslash, if_neg hcontrol]

theorem skipBody_escape {r r' : Text} (h : skipEscape r = .ok r') :
    skipBody ('\\' :: r) = skipBody r' := by
  rw [skipBody, if_neg (by decide), if_pos rfl]
  split
  · next s hs =>
    rw [h] at hs
    cases hs
    rfl
  · next e he =>
    rw [h] at he
    contradiction

/-- An escaped code unit is skipped, be it a character or half of one. -/
theorem skipBody_unit {u : Text} {n : Nat} (h : SpellsUnit u n) (r : Text) :
    skipBody ('\\' :: 'u' :: (u ++ r)) = skipBody r := by
  have hu : letterEscape? 'u' = none := rfl
  refine skipBody_escape ?_
  simp only [skipEscape, hu, Option.isSome_none, Bool.false_eq_true, if_false, if_true,
    readHex_spellsUnit h]
  rfl

theorem skipBody_spellsChar {t : Text} {c : Char} (h : SpellsChar t c) (r : Text) :
    skipBody (t ++ r) = skipBody r := by
  cases h with
  | plain hquote hslash hcontrol =>
    exact skipBody_plain hquote hslash (Nat.not_lt.2 hcontrol) r
  | letter hletter =>
    rw [List.cons_append, List.cons_append, List.nil_append]
    refine skipBody_escape ?_
    simp only [skipEscape, letterEscape?_of_mem hletter, Option.isSome_some, if_true]
  | unit hunit => exact skipBody_unit hunit r
  | pair hhigh hlow =>
    simp only [List.cons_append, List.append_assoc]
    rw [skipBody_unit hhigh, skipBody_unit hlow]

theorem skipBody_spells {t s : Text} (h : SpellsBody t s) (r : Text) :
    skipBody (t ++ '"' :: r) = .ok r := by
  induction h with
  | nil => exact skipBody_quote r
  | cons hchar _ ih => rw [List.append_assoc, skipBody_spellsChar hchar, ih]

/-! ## Numerals -/

/-- The text does not carry a numeral on. -/
def Stops (r : Text) : Prop :=
  ∀ c ∈ r.head?, c.isDigit = false ∧ c ≠ '.' ∧ c ≠ 'e' ∧ c ≠ 'E'

/-- The text does not carry a run of digits on. -/
def StopsDigits (r : Text) : Prop :=
  ∀ c ∈ r.head?, c.isDigit = false

theorem span_isDigits {ds r : Text} (hds : ∀ d ∈ ds, d.isDigit = true) (hr : StopsDigits r) :
    (ds ++ r).span Char.isDigit = (ds, r) := by
  have htake : r.takeWhile Char.isDigit = [] := by
    cases r with
    | nil => rfl
    | cons c r => simp [hr c rfl]
  have hdrop : r.dropWhile Char.isDigit = r := by
    cases r with
    | nil => rfl
    | cons c r => simp [hr c rfl]
  rw [List.span_eq_takeWhile_dropWhile, List.takeWhile_append_of_pos hds,
    List.dropWhile_append_of_pos hds, htake, hdrop, List.append_nil]

variable (cut : Cause) {t r : Text}

theorem readWhole_isWhole (h : IsWhole t) (hr : StopsDigits r) :
    readWhole cut (t ++ r) = .ok (t, r) := by
  cases h with
  | zero =>
    cases r with
    | nil => rfl
    | cons c r => simp [readWhole, hr c rfl]
  | digits hds hzero =>
    simp only [List.cons_append, readWhole, hds.2 _ List.mem_cons_self, if_true]
    rw [← List.cons_append, span_isDigits hds.2 hr]

theorem readFraction_isFraction (h : IsFraction t) (hr : StopsDigits r)
    (hpoint : ∀ c ∈ r.head?, c ≠ '.') : ∃ ds, readFraction cut (t ++ r) = .ok (ds, r) := by
  cases h with
  | none =>
    cases r with
    | nil => exact ⟨[], rfl⟩
    | cons c r =>
      have hc : c ≠ '.' := hpoint c rfl
      exact ⟨[], by simp [readFraction, hc]⟩
  | @digits ds hds =>
    refine ⟨ds, ?_⟩
    obtain ⟨d, ds, rfl⟩ := List.exists_cons_of_ne_nil hds.1
    simp only [List.cons_append, readFraction]
    rw [← List.cons_append, span_isDigits hds.2 hr]

theorem readSign_append {sign ds : Text} (hsign : sign = [] ∨ sign = ['+'] ∨ sign = ['-'])
    (hds : IsDigits ds) (r : Text) : ∃ b, readSign (sign ++ ds ++ r) = (b, ds ++ r) := by
  obtain ⟨d, ds, rfl⟩ := List.exists_cons_of_ne_nil hds.1
  have hd := hds.2 d List.mem_cons_self
  have hminus : d ≠ '-' := by rintro rfl; exact absurd hd (by decide)
  have hplus : d ≠ '+' := by rintro rfl; exact absurd hd (by decide)
  rcases hsign with rfl | rfl | rfl
  · exact ⟨false, by simp [readSign, hminus, hplus]⟩
  · exact ⟨false, rfl⟩
  · exact ⟨true, rfl⟩

theorem readExponent_isExponent (h : IsExponent t) (hr : Stops r) :
    ∃ e, readExponent cut (t ++ r) = .ok (e, r) := by
  cases h with
  | none =>
    cases r with
    | nil => exact ⟨none, rfl⟩
    | cons c r =>
      obtain ⟨-, -, hsmall, hcapital⟩ := hr c rfl
      exact ⟨none, by simp [readExponent, hsmall, hcapital]⟩
  | @digits e sign ds he hsign hds =>
    obtain ⟨b, hreadSign⟩ := readSign_append hsign hds r
    have hspan := span_isDigits (r := r) hds.2 fun c hc => (hr c hc).1
    obtain ⟨d, ds, rfl⟩ := List.exists_cons_of_ne_nil hds.1
    refine ⟨some ⟨b, d :: ds⟩, ?_⟩
    rw [List.cons_append] at hreadSign hspan
    simp only [List.cons_append, readExponent, if_pos he, hreadSign, hspan]

/-- A power of ten, or what follows if there is none, carries on neither digits nor a point. -/
theorem IsExponent.stops_append (h : IsExponent t) (hr : Stops r) :
    StopsDigits (t ++ r) ∧ ∀ c ∈ (t ++ r).head?, c ≠ '.' := by
  cases h with
  | none => exact ⟨fun c hc => (hr c hc).1, fun c hc => (hr c hc).2.1⟩
  | digits he => rcases he with rfl | rfl <;> simp [StopsDigits]

theorem IsFraction.stopsDigits_append (h : IsFraction t) (hr : StopsDigits r) :
    StopsDigits (t ++ r) := by
  cases h with
  | none => exact hr
  | digits => simp [StopsDigits]

/-- A spelt numeral is read to its end. -/
theorem readNumeral_isNumber (h : IsNumber t) (hr : Stops r) :
    ∃ n, readNumeral cut (t ++ r) = .ok (n, r) := by
  obtain ⟨hminus, hwhole, hfraction, hexponent⟩ := h
  rename_i minus whole fraction exponent
  obtain ⟨hdigits, hpoint⟩ := hexponent.stops_append hr
  obtain ⟨ds, hreadFraction⟩ := readFraction_isFraction cut hfraction hdigits hpoint
  obtain ⟨e, hreadExponent⟩ := readExponent_isExponent cut hexponent hr
  have hreadWhole := readWhole_isWhole cut hwhole (hfraction.stopsDigits_append hdigits)
  obtain ⟨c, w, rfl, hc⟩ := hwhole.head
  have hne : c ≠ '-' := by
    rintro rfl
    exact absurd hc (by decide)
  simp only [List.append_assoc, List.cons_append] at hreadWhole ⊢
  rcases hminus with rfl | rfl
  · refine ⟨⟨false, c :: w, ds, e⟩, ?_⟩
    simp [readNumeral, hne, hreadWhole, hreadFraction, hreadExponent, bind, Except.bind]
  · refine ⟨⟨true, c :: w, ds, e⟩, ?_⟩
    simp [readNumeral, hreadWhole, hreadFraction, hreadExponent, bind, Except.bind]

/-! ## Values that are skipped -/

theorem ne_of_opens_number {c m : Char} (h : (Datum.number t).Opens c) (hdigit : m.isDigit = false)
    (hminus : m ≠ '-') : c ≠ m := by
  rintro rfl
  rcases h with h | h
  · exact hminus h
  · rw [hdigit] at h
    contradiction

theorem skipScalar_isNumber (h : IsNumber t) (hr : Stops r) : skipScalar (t ++ r) = .ok r := by
  obtain ⟨n, hread⟩ := readNumeral_isNumber .invalidNumber h hr
  obtain ⟨c, u, rfl, hopens⟩ := (Spells.number h).head
  have hc : c = '-' ∨ c.isDigit = true := hopens
  have hn : c ≠ 'n' := ne_of_opens_number hopens rfl (by decide)
  have ht : c ≠ 't' := ne_of_opens_number hopens rfl (by decide)
  have hf : c ≠ 'f' := ne_of_opens_number hopens rfl (by decide)
  have hquote : c ≠ '"' := ne_of_opens_number hopens rfl (by decide)
  rw [List.cons_append] at hread ⊢
  simp only [skipScalar, hread]
  rw [if_pos hc]
  rfl

section Steps

variable {n : Nat} {opened : List Bracket} {b : Bracket} {c : Char} {x : Text}

/-! What a step does, by the place it starts from. -/

theorem skipFrom_before (n : Nat) (opened : List Bracket) (x : Text) :
    skipFrom (n + 1) opened .before x =
      match skipSpace x with
      | '[' :: r => skipFrom n (.list :: opened) .inside r
      | '\x7b' :: r => skipFrom n (.object :: opened) .inside r
      | x => skipScalar x >>= fun y => skipFrom n opened .after y := by
  cases opened <;> rfl

theorem skipFrom_inside_nil (n : Nat) (x : Text) :
    skipFrom (n + 1) [] .inside x = skipFrom n [] .before x := rfl

theorem skipFrom_inside_cons (n : Nat) (b : Bracket) (opened : List Bracket) (x : Text) :
    skipFrom (n + 1) (b :: opened) .inside x =
      match skipSpace x with
      | [] => halt b.cut []
      | c :: r =>
        if c = b.close then skipFrom n opened .after r
        else b.skipKey (c :: r) >>= fun y => skipFrom n (b :: opened) .before y := rfl

theorem skipFrom_after_cons (n : Nat) (b : Bracket) (opened : List Bracket) (x : Text) :
    skipFrom (n + 1) (b :: opened) .after x =
      match skipSpace x with
      | [] => halt b.cut []
      | c :: r =>
        if c = b.close then skipFrom n opened .after r
        else if c = ',' then b.skipKey r >>= fun y => skipFrom n (b :: opened) .before y
        else haltNext b.separator (c :: r) := rfl

theorem skipFrom_scalar (hspace : skipSpace x = c :: r) (hlist : c ≠ '[') (hobject : c ≠ '\x7b') :
    skipFrom (n + 1) opened .before x
      = skipScalar (c :: r) >>= fun y => skipFrom n opened .after y := by
  rw [skipFrom_before, hspace]
  split
  · next h => exact absurd (List.cons.inj h).1 hlist
  · next h => exact absurd (List.cons.inj h).1 hobject
  · rfl

theorem skipFrom_list (hspace : skipSpace x = '[' :: r) :
    skipFrom (n + 1) opened .before x = skipFrom n (.list :: opened) .inside r := by
  rw [skipFrom_before, hspace]
  rfl

theorem skipFrom_object (hspace : skipSpace x = '\x7b' :: r) :
    skipFrom (n + 1) opened .before x = skipFrom n (.object :: opened) .inside r := by
  rw [skipFrom_before, hspace]
  rfl

theorem skipFrom_inside_close (hspace : skipSpace x = b.close :: r) :
    skipFrom (n + 1) (b :: opened) .inside x = skipFrom n opened .after r := by
  rw [skipFrom_inside_cons, hspace]
  exact if_pos rfl

theorem skipFrom_inside (hspace : skipSpace x = c :: r) (hc : c ≠ b.close) :
    skipFrom (n + 1) (b :: opened) .inside x
      = b.skipKey (c :: r) >>= fun y => skipFrom n (b :: opened) .before y := by
  rw [skipFrom_inside_cons, hspace]
  exact if_neg hc

theorem skipFrom_after_close (hspace : skipSpace x = b.close :: r) :
    skipFrom (n + 1) (b :: opened) .after x = skipFrom n opened .after r := by
  rw [skipFrom_after_cons, hspace]
  exact if_pos rfl

theorem skipFrom_after_comma (hspace : skipSpace x = ',' :: r) :
    skipFrom (n + 1) (b :: opened) .after x
      = b.skipKey r >>= fun y => skipFrom n (b :: opened) .before y := by
  have hcomma : ',' ≠ b.close := by cases b <;> decide
  rw [skipFrom_after_cons, hspace]
  exact (if_neg hcomma).trans (if_pos rfl)

theorem skipSpace_skipSpace (x : Text) : skipSpace (skipSpace x) = skipSpace x :=
  List.dropWhile_idempotent isSpace x

theorem skipFrom_before_skipSpace (x : Text) :
    skipFrom (n + 1) opened .before (skipSpace x) = skipFrom (n + 1) opened .before x := by
  rw [skipFrom_before, skipFrom_before, skipSpace_skipSpace]

end Steps

/-! The brackets that are open when a value begins are open when it ends. -/

/-- From before the text, with any gap in front, to behind it in so many steps. -/
def SkipsIn (steps : Nat) (t : Text) : Prop :=
  ∀ n opened w r, IsGap w → Stops r →
    skipFrom (n + steps) opened .before (w ++ (t ++ r)) = skipFrom n opened .after r

theorem stops_of_mark {w : Text} {c : Char} (hw : IsGap w) (hc : c ∈ [',', ']', '\x7d'])
    (r : Text) : Stops (w ++ c :: r) := by
  intro d hd
  cases w with
  | nil =>
    cases hd
    simp only [List.mem_cons, List.not_mem_nil, or_false] at hc
    rcases hc with rfl | rfl | rfl <;> decide
  | cons e w =>
    cases hd
    rcases hw d List.mem_cons_self with rfl | rfl | rfl | rfl <;> decide

theorem skipsIn_scalar {v : Datum} (h : Spells t v)
    (hmark : ∀ c, v.Opens c → c ≠ '[' ∧ c ≠ '\x7b')
    (hscalar : ∀ r, Stops r → skipScalar (t ++ r) = .ok r) : SkipsIn 1 t := by
  intro n opened w r hw hr
  obtain ⟨c, u, rfl, hc⟩ := h.head
  obtain ⟨hlist, hobject⟩ := hmark c hc
  have hspace := skipSpace_gap_cons hw hc.not_isSpace (u ++ r)
  have hskip : skipScalar (c :: (u ++ r)) = .ok r := hscalar r hr
  rw [List.cons_append, skipFrom_scalar hspace hlist hobject, hskip]
  rfl

theorem skipKey_skipSpace (x : Text) :
    Bracket.object.skipKey (skipSpace x) = Bracket.object.skipKey x := by
  simp only [Bracket.skipKey, skipSpace_skipSpace]

theorem skipKey_entry {k w key : Text} (hkey : SpellsBody k key) (hw : IsGap w) (z : Text) :
    Bracket.object.skipKey ('"' :: (k ++ '"' :: (w ++ ':' :: z))) = .ok z := by
  have hquote := skipSpace_cons_of_not_isSpace (c := '"') rfl (k ++ '"' :: (w ++ ':' :: z))
  have hcolon := skipSpace_gap_cons hw (c := ':') rfl z
  simp only [Bracket.skipKey, hquote, skipBody_spells hkey, bind, Except.bind, readColon, hcolon]

/-- The first token of elements is no end of a list. -/
theorem SpellsElements.skipSpace_append {u : Text} {vs : List Datum} (h : SpellsElements u vs)
    (r : Text) : ∃ c x, skipSpace (u ++ r) = c :: x ∧ c ≠ ']' := by
  have hfirst : ∀ {w t z : Text} {v : Datum}, IsGap w → Spells t v →
      ∃ c x, skipSpace (w ++ (t ++ z)) = c :: x ∧ c ≠ ']' := by
    intro w t z v hw ht
    obtain ⟨c, x, rfl, hc⟩ := ht.head
    exact ⟨c, x ++ z, skipSpace_gap_cons hw hc.not_isSpace _, hc.ne rfl (by decide)⟩
  cases h with
  | last gap₁ ht =>
    simp only [List.append_assoc]
    exact hfirst gap₁ ht
  | more gap₁ ht =>
    simp only [List.append_assoc]
    exact hfirst gap₁ ht

mutual

theorem Spells.skipsIn {t : Text} {v : Datum} (h : Spells t v) :
    ∃ k, k < 2 * t.length ∧ SkipsIn (k + 1) t := by
  cases h with
  | null =>
    exact ⟨0, by decide, skipsIn_scalar .null (by rintro c rfl; decide) fun r _ => rfl⟩
  | true =>
    exact ⟨0, by decide,
      skipsIn_scalar .true (by rintro c (rfl | rfl) <;> decide) fun r _ => rfl⟩
  | false =>
    exact ⟨0, by decide,
      skipsIn_scalar .false (by rintro c (rfl | rfl) <;> decide) fun r _ => rfl⟩
  | number h =>
    refine ⟨0, ?_, skipsIn_scalar (.number h) ?_ fun r hr => skipScalar_isNumber h hr⟩
    · obtain ⟨c, u, rfl, -⟩ := (Spells.number h).head
      simp
    · intro c hc
      exact ⟨ne_of_opens_number hc rfl (by decide), ne_of_opens_number hc rfl (by decide)⟩
  | text h =>
    refine ⟨0, by simp, skipsIn_scalar (.text h) (by rintro c rfl; decide) fun r _ => ?_⟩
    rw [List.cons_append, List.append_assoc]
    exact skipBody_spells h r
  | emptyList hw =>
    refine ⟨1, by simp; omega, fun n opened w r hgap _ => ?_⟩
    simp only [List.cons_append, List.append_assoc, List.nil_append]
    rw [← Nat.add_assoc, skipFrom_list (skipSpace_gap_cons hgap rfl _)]
    exact skipFrom_inside_close (skipSpace_gap_cons hw rfl r)
  | @list u vs h =>
    obtain ⟨k, hk, hskip⟩ := h.skipsIn
    refine ⟨k + 2, by simp; omega, fun n opened w r hgap _ => ?_⟩
    simp only [List.cons_append, List.append_assoc, List.nil_append]
    obtain ⟨c, x, hfirst, hclose⟩ := h.skipSpace_append (']' :: r)
    -- past the bracket, to the first element, and past the elements
    have hinside : skipFrom (n + (k + 1) + 1) (.list :: opened) .inside (u ++ ']' :: r)
        = skipFrom (n + (k + 1)) (.list :: opened) .before (skipSpace (u ++ ']' :: r)) := by
      rw [hfirst]
      exact skipFrom_inside hfirst hclose
    rw [← Nat.add_assoc n (k + 2), skipFrom_list (skipSpace_gap_cons hgap rfl _)]
    exact hinside.trans ((skipFrom_before_skipSpace _).trans (hskip n opened r))
  | emptyObject hw =>
    refine ⟨1, by simp; omega, fun n opened w r hgap _ => ?_⟩
    simp only [List.cons_append, List.append_assoc, List.nil_append]
    rw [← Nat.add_assoc, skipFrom_object (skipSpace_gap_cons hgap rfl _)]
    exact skipFrom_inside_close (skipSpace_gap_cons hw rfl r)
  | object h =>
    obtain ⟨k, hk, hskip⟩ := h.skipsIn
    refine ⟨k + 2, by simp; omega, fun n opened w r hgap _ => ?_⟩
    simp only [List.cons_append, List.append_assoc, List.nil_append]
    obtain ⟨z, y, hquote, hkey, hentries⟩ := hskip r
    have hclose : '"' ≠ Bracket.object.close := by decide
    rw [show n + (k + 2 + 1) = n + (k + 1) + 1 + 1 by omega,
      skipFrom_object (skipSpace_gap_cons hgap rfl _), skipFrom_inside hquote hclose, hkey]
    exact hentries n opened

theorem SpellsElements.skipsIn {u : Text} {vs : List Datum} (h : SpellsElements u vs) :
    ∃ k, k ≤ 2 * u.length ∧ ∀ n opened r,
      skipFrom (n + (k + 1)) (.list :: opened) .before (u ++ ']' :: r)
        = skipFrom n opened .after r := by
  cases h with
  | last gap₁ ht gap₂ =>
    obtain ⟨k, hk, hskip⟩ := ht.skipsIn
    refine ⟨k + 1, by simp; omega, fun n opened r => ?_⟩
    simp only [List.append_assoc]
    rw [show n + (k + 1 + 1) = n + 1 + (k + 1) by omega,
      hskip (n + 1) _ _ _ gap₁ (stops_of_mark gap₂ (by decide) r)]
    exact skipFrom_after_close (skipSpace_gap_cons gap₂ rfl r)
  | @more w₁ t w₂ u' v vs gap₁ ht gap₂ hmore =>
    obtain ⟨k, hk, hskip⟩ := ht.skipsIn
    obtain ⟨k', hk', hskip'⟩ := hmore.skipsIn
    refine ⟨k + 1 + (k' + 1), by simp; omega, fun n opened r => ?_⟩
    simp only [List.append_assoc, List.cons_append]
    rw [show n + (k + 1 + (k' + 1) + 1) = n + (k' + 1) + 1 + (k + 1) by omega,
      hskip _ _ _ _ gap₁ (stops_of_mark gap₂ (by decide) _),
      skipFrom_after_comma (skipSpace_gap_cons gap₂ rfl _)]
    exact hskip' n opened r

theorem SpellsEntries.skipsIn {u : Text} {es : List (Text × Datum)} (h : SpellsEntries u es) :
    ∃ k, k ≤ 2 * u.length ∧ ∀ r, ∃ z y, skipSpace (u ++ '\x7d' :: r) = '"' :: z
      ∧ Bracket.object.skipKey ('"' :: z) = .ok y ∧ ∀ n opened,
        skipFrom (n + (k + 1)) (.object :: opened) .before y = skipFrom n opened .after r := by
  cases h with
  | @last w₁ key w₂ w₃ t w₄ _ v gap₁ hkey gap₂ gap₃ ht gap₄ =>
    obtain ⟨k, hk, hskip⟩ := ht.skipsIn
    refine ⟨k + 1, by simp; omega, fun r => ?_⟩
    simp only [List.append_assoc, List.cons_append]
    refine ⟨_, _, skipSpace_gap_cons gap₁ rfl _, skipKey_entry hkey gap₂ _, fun n opened => ?_⟩
    rw [show n + (k + 1 + 1) = n + 1 + (k + 1) by omega,
      hskip (n + 1) _ _ _ gap₃ (stops_of_mark gap₄ (by decide) r)]
    exact skipFrom_after_close (skipSpace_gap_cons gap₄ rfl r)
  | more gap₁ hkey gap₂ gap₃ ht gap₄ hmore =>
    obtain ⟨k, hk, hskip⟩ := ht.skipsIn
    obtain ⟨k', hk', hskip'⟩ := hmore.skipsIn
    refine ⟨k + 1 + (k' + 1), by simp; omega, fun r => ?_⟩
    obtain ⟨z, y, hquote, hkey', hentries⟩ := hskip' r
    simp only [List.append_assoc, List.cons_append]
    refine ⟨_, _, skipSpace_gap_cons gap₁ rfl _, skipKey_entry hkey gap₂ _, fun n opened => ?_⟩
    rw [show n + (k + 1 + (k' + 1) + 1) = n + (k' + 1) + 1 + (k + 1) by omega,
      hskip _ _ _ _ gap₃ (stops_of_mark gap₄ (by decide) _),
      skipFrom_after_comma (skipSpace_gap_cons gap₄ rfl _), ← skipKey_skipSpace, hquote, hkey']
    exact hentries n opened

end

/-- Any value is skipped, however deep it is nested, whatever gap leads to it. -/
theorem skipValue_spells {v : Datum} {w : Text} (h : Spells t v) (hw : IsGap w) (hr : Stops r) :
    skipValue (w ++ (t ++ r)) = .ok r := by
  obtain ⟨k, hk, hskip⟩ := h.skipsIn
  have hlength : k + 1 < 2 * (w ++ (t ++ r)).length + 2 := by
    simp only [List.length_append]
    omega
  obtain ⟨n, hn⟩ := Nat.exists_eq_add_of_lt hlength
  rw [skipValue, show 2 * (w ++ (t ++ r)).length + 2 = n + 1 + (k + 1) by omega,
    hskip (n + 1) [] w r hw hr]
  rfl

end RefBook.Json
