import RefBook.Proofs.Json.Inversion
import RefBook.Proofs.Json.Spelling

/-!
# RefBook.Proofs.Json.Extension — what a reader takes off a text does not depend on what follows

* `Extends`: what the reader takes off a text it takes off every longer text, and leaves the rest
  that much longer.  Strings, options, lists, pairs and records are read so.
* `ExtendsPast`: the same for functions that only read past something.
* `skipValue_append`: a value that is read past may be a numeral, which a digit would carry on; it
  has to be followed by something.
* `readAll_append_gap`, `readAll_append_of_not_gap`: what may follow an accepted text.
-/

namespace RefBook.Json

variable {α β : Type}

/-- Whatever the reader takes off a text it takes off every longer text. -/
def Extends (read : Reader α) : Prop :=
  ∀ ⦃t a r⦄, read t = .ok (a, r) → ∀ s, read (t ++ s) = .ok (a, r ++ s)

/-- Whatever is read past in a text is read past in every longer text. -/
def ExtendsPast (skip : Text → Except Halt Text) : Prop :=
  ∀ ⦃t r⦄, skip t = .ok r → ∀ s, skip (t ++ s) = .ok (r ++ s)

theorem skipSpace_append_of_cons {t r : Text} {c : Char} (h : skipSpace t = c :: r) (s : Text) :
    skipSpace (t ++ s) = c :: (r ++ s) := by
  have hdrop : t.dropWhile isSpace = c :: r := h
  rw [skipSpace, List.dropWhile_append, hdrop]
  rfl

/-! ## Strings -/

theorem extends_readHex : Extends readHex := by
  intro t n r h s
  unfold readHex at h
  split at h
  · split at h
    · split at h
      · next hm =>
        cases h
        exact readHex_of_hexDigits? hm _
      · contradiction
    · contradiction
  · contradiction

theorem extendsPast_readPairMark (mark : Char) : ExtendsPast (readPairMark mark) := by
  intro t r h s
  cases t with
  | nil => contradiction
  | cons c t =>
    simp only [readPairMark, List.cons_append] at h ⊢
    by_cases hc : c = mark
    · rw [if_pos hc] at h ⊢
      cases h
      rfl
    · rw [if_neg hc] at h
      contradiction

theorem extends_readUnit : Extends readUnit := by
  intro t c r h s
  obtain ⟨⟨n, t₁⟩, hn, h⟩ := bind_eq_ok_iff.1 h
  simp only [readUnit, extends_readHex hn s, bind, Except.bind]
  by_cases hlow : 0xDC00 ≤ n ∧ n ≤ 0xDFFF
  · simp only [if_pos hlow] at h
    contradiction
  · simp only [if_neg hlow] at h ⊢
    by_cases hhigh : 0xD800 ≤ n ∧ n ≤ 0xDBFF
    · simp only [if_pos hhigh] at h ⊢
      obtain ⟨t₂, hslash, h⟩ := bind_eq_ok_iff.1 h
      obtain ⟨t₃, hmark, h⟩ := bind_eq_ok_iff.1 h
      obtain ⟨⟨m, t₄⟩, hm, h⟩ := bind_eq_ok_iff.1 h
      simp only [extendsPast_readPairMark '\\' hslash s, extendsPast_readPairMark 'u' hmark s,
        extends_readHex hm s]
      by_cases hpair : 0xDC00 ≤ m ∧ m ≤ 0xDFFF
      · simp only [if_pos hpair] at h ⊢
        obtain ⟨hc, hr⟩ := Prod.mk.inj (Except.ok.inj h)
        rw [← hc, ← hr]
      · simp only [if_neg hpair] at h
        contradiction
    · simp only [if_neg hhigh] at h ⊢
      cases h
      rfl

theorem extends_readEscape : Extends readEscape := by
  intro t c r h s
  cases t with
  | nil => contradiction
  | cons a t =>
    simp only [readEscape, List.cons_append] at h ⊢
    cases hletter : letterEscape? a with
    | some x =>
      simp only [hletter] at h ⊢
      cases h
      rfl
    | none =>
      simp only [hletter] at h ⊢
      by_cases hu : a = 'u'
      · rw [if_pos hu] at h ⊢
        exact extends_readUnit h s
      · rw [if_neg hu] at h
        contradiction

theorem extendsPast_skipEscape : ExtendsPast skipEscape := by
  intro t r h s
  cases t with
  | nil => contradiction
  | cons a t =>
    simp only [skipEscape, List.cons_append] at h ⊢
    by_cases hletter : (letterEscape? a).isSome
    · rw [if_pos hletter] at h ⊢
      cases h
      rfl
    · rw [if_neg hletter] at h ⊢
      by_cases hu : a = 'u'
      · rw [if_pos hu] at h ⊢
        cases hhex : readHex t with
        | error e =>
          rw [hhex] at h
          contradiction
        | ok p =>
          rw [hhex] at h
          cases h
          rw [extends_readHex hhex s]
          rfl
      · rw [if_neg hu] at h
        contradiction

theorem extends_readBodyFrom (taken : Text) : Extends (readBodyFrom taken) := by
  intro t b r h s
  fun_induction readBodyFrom taken t with
  | case1 => contradiction
  | case2 taken t =>
    cases h
    rw [List.cons_append, readBodyFrom_quote]
  | case3 taken t x t' hescape hquote ih =>
    rw [List.cons_append, readBodyFrom_escape (extends_readEscape hescape s)]
    exact ih h
  | case4 => contradiction
  | case5 => contradiction
  | case6 taken c t hquote hslash hcontrol ih =>
    rw [List.cons_append, readBodyFrom_plain hquote hslash hcontrol]
    exact ih h

theorem extendsPast_skipBody : ExtendsPast skipBody := by
  intro t r h s
  fun_induction skipBody t with
  | case1 => contradiction
  | case2 t =>
    cases h
    rw [List.cons_append, skipBody_quote]
  | case3 t t' hescape hquote ih =>
    rw [List.cons_append, skipBody_escape (extendsPast_skipEscape hescape s)]
    exact ih h
  | case4 => contradiction
  | case5 => contradiction
  | case6 c t hquote hslash hcontrol ih =>
    rw [List.cons_append, skipBody_plain hquote hslash hcontrol]
    exact ih h

theorem extends_readText : Extends readText := by
  intro t b r h s
  obtain ⟨u, hskip, hbody⟩ := readText_eq_ok_iff.1 h
  have hbody' := extends_readBodyFrom [] hbody s
  exact readText_eq_ok_iff.2 ⟨u ++ s, skipSpace_append_of_cons hskip s, hbody'⟩

theorem extendsPast_readWord (letters : Text) : ExtendsPast (readWord letters) := by
  intro t r h s
  induction letters generalizing t with
  | nil =>
    cases h
    rfl
  | cons a letters ih =>
    cases t with
    | nil => contradiction
    | cons c t =>
      simp only [readWord, List.cons_append] at h ⊢
      by_cases hc : a = c
      · rw [if_pos hc] at h ⊢
        exact ih h
      · rw [if_neg hc] at h
        contradiction

/-- The reader must not make something of an empty text. -/
theorem extends_readOptional {read : Reader α} (hread : Extends read)
    (hnil : ∀ p, read [] ≠ .ok p) : Extends (readOptional read) := by
  intro t o r h s
  rw [readOptional_eq_ok_iff] at h ⊢
  rcases h with ⟨u, hskip, hword, rfl⟩ | ⟨hne, a, ha, rfl⟩
  · have hword' := extendsPast_readWord _ hword s
    exact .inl ⟨u ++ s, skipSpace_append_of_cons hskip s, hword', rfl⟩
  · cases hskip : skipSpace t with
    | nil =>
      rw [hskip] at ha
      exact absurd ha (hnil _)
    | cons c u =>
      rw [hskip] at ha hne
      rw [skipSpace_append_of_cons hskip s]
      refine .inr ⟨fun y hy => ?_, a, hread ha s, rfl⟩
      rw [(List.cons.inj hy).1] at hne
      exact hne u rfl

/-! ## Lists and pairs -/

theorem NextElement.append {first : Bool} {t u : Text} (h : NextElement first t u) (s : Text) :
    NextElement first (t ++ s) (u ++ s) := by
  cases h with
  | first hskip hc => exact .first (skipSpace_append_of_cons hskip s) hc
  | comma hskip hskip' hc =>
    exact .comma (skipSpace_append_of_cons hskip s) (skipSpace_append_of_cons hskip' s) hc

/-- More steps do no harm. -/
theorem readElements_append {read : Reader α} (hread : Extends read) {n m : Nat} {first : Bool}
    {t r : Text} {as : List α} (h : readElements read n first t = .ok (as, r)) (hnm : n ≤ m)
    (s : Text) : readElements read m first (t ++ s) = .ok (as, r ++ s) := by
  induction n generalizing m first t as with
  | zero => contradiction
  | succ n ih =>
    obtain ⟨m, rfl⟩ := Nat.exists_eq_add_of_le' (Nat.le_trans (Nat.le_add_left 1 n) hnm)
    have hnm' : n ≤ m := Nat.le_of_succ_le_succ hnm
    rcases readElements_succ_cases h with ⟨y, hclose⟩ | ⟨u, hnext⟩
    · rw [readElements_succ_of_close hclose] at h
      cases h
      exact readElements_succ_of_close (skipSpace_append_of_cons hclose s)
    · obtain ⟨a, y, ha, as', has, rfl⟩ := (readElements_succ_eq_ok_iff hnext).1 h
      exact (readElements_succ_eq_ok_iff (hnext.append s)).2
        ⟨a, y ++ s, hread ha s, as', ih has hnm', rfl⟩

theorem extends_readList {read : Reader α} (hread : Extends read) : Extends (readList read) := by
  intro t as r h s
  obtain ⟨u, y, hopen, hread', hclose⟩ := readList_eq_ok_iff.1 h
  have hlength : u.length + 1 ≤ (u ++ s).length + 1 := by
    rw [List.length_append]
    omega
  exact readList_eq_ok_iff.2 ⟨u ++ s, y ++ s, skipSpace_append_of_cons hopen s,
    readElements_append hread hread' hlength s, skipSpace_append_of_cons hclose s⟩

theorem extends_readHalf {read : Reader α} (hread : Extends read) (number : Nat) :
    Extends (readHalf read number) := by
  intro t a r h s
  obtain ⟨u, hnext, ha⟩ := readHalf_eq_ok_iff.1 h
  exact readHalf_eq_ok_iff.2 ⟨u ++ s, hnext.append s, hread ha s⟩

theorem extends_readPair {left : Reader α} {right : Reader β} (hleft : Extends left)
    (hright : Extends right) : Extends (readPair left right) := by
  rintro t ⟨a, b⟩ r h s
  obtain ⟨u, hopen, y, ha, z, hb, hclose⟩ := readPair_eq_ok_iff.1 h
  exact readPair_eq_ok_iff.2 ⟨u ++ s, skipSpace_append_of_cons hopen s,
    y ++ s, extends_readHalf hleft 0 ha s, z ++ s, extends_readHalf hright 1 hb s,
    skipSpace_append_of_cons hclose s⟩

/-! ## Numerals

A numeral ends where a character does not carry it on, so it must not end with the text. -/

section Numerals

variable {cut : Cause} {t r : Text}

theorem span_append {p : Char → Bool} {ds : Text} (h : t.span p = (ds, r)) (hr : r ≠ [])
    (s : Text) : (t ++ s).span p = (ds, r ++ s) := by
  rw [List.span_eq_takeWhile_dropWhile] at h ⊢
  obtain ⟨rfl, rfl⟩ := Prod.mk.inj h
  have hlength : (t.takeWhile p).length ≠ t.length := by
    intro hlength
    have happend := congrArg List.length (List.takeWhile_append_dropWhile (p := p) (l := t))
    rw [List.length_append, hlength] at happend
    exact hr (List.length_eq_zero_iff.1 (by omega))
  rw [List.takeWhile_append, if_neg hlength, List.dropWhile_append, if_neg (by simpa using hr)]

theorem readWhole_append {ds : Text} (h : readWhole cut t = .ok (ds, r)) (hr : r ≠ []) (s : Text) :
    readWhole cut (t ++ s) = .ok (ds, r ++ s) := by
  cases t with
  | nil => contradiction
  | cons c t =>
    by_cases hzero : c = '0'
    · subst hzero
      cases t with
      | nil =>
        cases h
        exact absurd rfl hr
      | cons d t =>
        simp only [readWhole, List.cons_append] at h ⊢
        by_cases hd : d.isDigit = true
        · rw [if_pos hd] at h
          contradiction
        · rw [if_neg hd] at h ⊢
          cases h
          rfl
    · simp only [readWhole, List.cons_append] at h ⊢
      by_cases hc : c.isDigit = true
      · rw [if_pos hc] at h ⊢
        rw [← List.cons_append, span_append (Except.ok.inj h) hr]
      · rw [if_neg hc] at h
        contradiction

theorem ne_nil_of_span {p : Char → Bool} {ds : Text} (h : t.span p = (ds, r)) (hr : r ≠ []) :
    t ≠ [] := by
  rintro rfl
  cases h
  exact hr rfl

theorem readFraction_append {ds : Text} (h : readFraction cut t = .ok (ds, r)) (hr : r ≠ [])
    (s : Text) : readFraction cut (t ++ s) = .ok (ds, r ++ s) := by
  cases t with
  | nil =>
    cases h
    exact absurd rfl hr
  | cons c t =>
    by_cases hpoint : c = '.'
    · subst hpoint
      simp only [readFraction, List.cons_append] at h ⊢
      obtain ⟨digits, rest, hspan⟩ : ∃ digits rest, t.span Char.isDigit = (digits, rest) :=
        ⟨_, _, rfl⟩
      rw [hspan] at h
      cases digits with
      | nil => cases rest <;> contradiction
      | cons d digits =>
        cases h
        rw [span_append hspan hr]
    · have hnone : ∀ u, readFraction cut (c :: u) = .ok ([], c :: u) := by
        intro u
        simp [readFraction, hpoint]
      rw [hnone] at h
      cases h
      exact hnone (t ++ s)

/-- A sign that is not all of the text stays the same sign. -/
theorem readSign_append_of_ne_nil {b : Bool} (h : readSign t = (b, r)) (hr : r ≠ []) (s : Text) :
    readSign (t ++ s) = (b, r ++ s) := by
  cases t with
  | nil =>
    cases h
    exact absurd rfl hr
  | cons c t =>
    by_cases hminus : c = '-'
    · subst hminus
      cases h
      rfl
    · by_cases hplus : c = '+'
      · subst hplus
        cases h
        rfl
      · have hnone : ∀ u, readSign (c :: u) = (false, c :: u) := by
          intro u
          simp [readSign, hminus, hplus]
        rw [hnone] at h
        cases h
        exact hnone (t ++ s)

theorem readExponent_append {e : Option Exponent} (h : readExponent cut t = .ok (e, r))
    (hr : r ≠ []) (s : Text) : readExponent cut (t ++ s) = .ok (e, r ++ s) := by
  cases t with
  | nil =>
    cases h
    exact absurd rfl hr
  | cons c t =>
    simp only [readExponent, List.cons_append] at h ⊢
    by_cases he : c = 'e' ∨ c = 'E'
    · rw [if_pos he] at h ⊢
      obtain ⟨negative, u, hsign⟩ : ∃ negative u, readSign t = (negative, u) := ⟨_, _, rfl⟩
      obtain ⟨digits, rest, hspan⟩ : ∃ digits rest, u.span Char.isDigit = (digits, rest) :=
        ⟨_, _, rfl⟩
      simp only [hsign, hspan] at h
      cases digits with
      | nil => cases rest <;> contradiction
      | cons d digits =>
        cases h
        simp only [readSign_append_of_ne_nil hsign (ne_nil_of_span hspan hr), span_append hspan hr]
    · rw [if_neg he] at h ⊢
      cases h
      rfl

theorem ne_nil_of_readExponent {e : Option Exponent} (h : readExponent cut t = .ok (e, r))
    (hr : r ≠ []) : t ≠ [] := by
  rintro rfl
  cases h
  exact hr rfl

theorem ne_nil_of_readFraction {ds : Text} (h : readFraction cut t = .ok (ds, r)) (hr : r ≠ []) :
    t ≠ [] := by
  rintro rfl
  cases h
  exact hr rfl

/-- Reads the parts of a number behind its sign. -/
def readParts (cut : Cause) (negative : Bool) (t : Text) : Except Halt (Numeral × Text) := do
  let (whole, t) ← readWhole cut t
  let (fraction, t) ← readFraction cut t
  let (exponent, t) ← readExponent cut t
  .ok (⟨negative, whole, fraction, exponent⟩, t)

theorem readNumeral_minus (cut : Cause) (t : Text) :
    readNumeral cut ('-' :: t) = readParts cut true t := rfl

theorem readNumeral_of_ne {c : Char} (hc : c ≠ '-') (cut : Cause) (t : Text) :
    readNumeral cut (c :: t) = readParts cut false (c :: t) := by
  simp [readNumeral, readParts, hc]

theorem readParts_append {negative : Bool} {n : Numeral}
    (h : readParts cut negative t = .ok (n, r)) (hr : r ≠ []) (s : Text) :
    readParts cut negative (t ++ s) = .ok (n, r ++ s) := by
  obtain ⟨⟨whole, t₁⟩, hwhole, h⟩ := bind_eq_ok_iff.1 h
  obtain ⟨⟨fraction, t₂⟩, hfraction, h⟩ := bind_eq_ok_iff.1 h
  obtain ⟨⟨exponent, t₃⟩, hexponent, h⟩ := bind_eq_ok_iff.1 h
  cases h
  have h₂ := ne_nil_of_readExponent hexponent hr
  have h₁ := ne_nil_of_readFraction hfraction h₂
  simp only [readParts, readWhole_append hwhole h₁, readFraction_append hfraction h₂,
    readExponent_append hexponent hr, bind, Except.bind]

theorem readNumeral_append {n : Numeral} (h : readNumeral cut t = .ok (n, r)) (hr : r ≠ [])
    (s : Text) : readNumeral cut (t ++ s) = .ok (n, r ++ s) := by
  cases t with
  | nil => contradiction
  | cons c t =>
    rw [List.cons_append]
    by_cases hminus : c = '-'
    · subst hminus
      rw [readNumeral_minus] at h ⊢
      exact readParts_append h hr s
    · rw [readNumeral_of_ne hminus] at h ⊢
      exact readParts_append h hr s

end Numerals

/-! ## Values that are skipped -/

theorem skipScalar_append {t r : Text} (h : skipScalar t = .ok r) (hr : r ≠ []) (s : Text) :
    skipScalar (t ++ s) = .ok (r ++ s) := by
  cases t with
  | nil => contradiction
  | cons c u =>
    by_cases hword : c ∈ ['n', 't', 'f', '"']
    · simp only [List.mem_cons, List.not_mem_nil, or_false] at hword
      rcases hword with rfl | rfl | rfl | rfl
      · exact extendsPast_readWord _ h s
      · exact extendsPast_readWord _ h s
      · exact extendsPast_readWord _ h s
      · exact extendsPast_skipBody h s
    · have hnumber : ∀ u, skipScalar (c :: u)
          = if c = '-' ∨ c.isDigit then (·.2) <$> readNumeral .invalidNumber (c :: u)
            else haltNext .valueExpected (c :: u) := by
        simp only [List.mem_cons, List.not_mem_nil, or_false, not_or] at hword
        obtain ⟨hn, ht, hf, hquote⟩ := hword
        intro u
        simp [skipScalar]
      rw [hnumber] at h
      rw [List.cons_append, hnumber]
      by_cases hc : c = '-' ∨ c.isDigit = true
      · rw [if_pos hc] at h ⊢
        cases hread : readNumeral .invalidNumber (c :: u) with
        | error e =>
          rw [hread] at h
          contradiction
        | ok p =>
          rw [hread] at h
          cases h
          rw [← List.cons_append, readNumeral_append hread hr]
          rfl
      · rw [if_neg hc] at h
        contradiction

theorem skipKey_object_eq_ok_iff {t r : Text} :
    Bracket.object.skipKey t = .ok r
      ↔ ∃ u, skipSpace t = '"' :: u ∧ ∃ y, skipBody u = .ok y ∧ skipSpace y = ':' :: r := by
  cases hskip : skipSpace t with
  | nil => simp [Bracket.skipKey, hskip, halt]
  | cons c u =>
    by_cases hquote : c = '"'
    · subst hquote
      simp [Bracket.skipKey, hskip, bind_eq_ok_iff, readColon_eq_ok_iff]
    · simp [Bracket.skipKey, hskip, hquote, haltNext]

theorem extendsPast_skipKey (b : Bracket) : ExtendsPast b.skipKey := by
  intro t r h s
  cases b with
  | list =>
    cases h
    rfl
  | object =>
    obtain ⟨u, hquote, y, hbody, hcolon⟩ := skipKey_object_eq_ok_iff.1 h
    exact skipKey_object_eq_ok_iff.2 ⟨u ++ s, skipSpace_append_of_cons hquote s, y ++ s,
      extendsPast_skipBody hbody s, skipSpace_append_of_cons hcolon s⟩

theorem ne_nil_of_skipFrom_after {n : Nat} {opened : List Bracket} {t r : Text}
    (h : skipFrom n opened .after t = .ok r) (hr : r ≠ []) : t ≠ [] := by
  rintro rfl
  cases n with
  | zero => contradiction
  | succ n =>
    cases opened with
    | nil =>
      cases h
      exact hr rfl
    | cons b opened => contradiction

/-! One step on the longer text does what it does on the shorter one. -/

section Steps

variable {n m : Nat} {opened : List Bracket} {t r s : Text}
  (ih : ∀ {opened place t}, skipFrom n opened place t = .ok r →
    skipFrom m opened place (t ++ s) = .ok (r ++ s))
include ih

theorem skipFrom_before_append (h : skipFrom (n + 1) opened .before t = .ok r) (hr : r ≠ []) :
    skipFrom (m + 1) opened .before (t ++ s) = .ok (r ++ s) := by
  cases hskip : skipSpace t with
  | nil =>
    rw [skipFrom_before, hskip] at h
    cases h
  | cons c u =>
    have hskip' := skipSpace_append_of_cons hskip s
    by_cases hlist : c = '['
    · subst hlist
      rw [skipFrom_list hskip] at h
      rw [skipFrom_list hskip']
      exact ih h
    · by_cases hobject : c = '\x7b'
      · subst hobject
        rw [skipFrom_object hskip] at h
        rw [skipFrom_object hskip']
        exact ih h
      · rw [skipFrom_scalar hskip hlist hobject] at h
        obtain ⟨y, hscalar, h⟩ := bind_eq_ok_iff.1 h
        have hscalar' := skipScalar_append hscalar (ne_nil_of_skipFrom_after h hr) s
        rw [skipFrom_scalar hskip' hlist hobject, ← List.cons_append, hscalar']
        exact ih h

theorem skipFrom_inside_append (h : skipFrom (n + 1) opened .inside t = .ok r) :
    skipFrom (m + 1) opened .inside (t ++ s) = .ok (r ++ s) := by
  cases opened with
  | nil =>
    rw [skipFrom_inside_nil] at h ⊢
    exact ih h
  | cons b opened =>
    cases hskip : skipSpace t with
    | nil =>
      rw [skipFrom_inside_cons, hskip] at h
      cases h
    | cons c u =>
      have hskip' := skipSpace_append_of_cons hskip s
      by_cases hclose : c = b.close
      · subst hclose
        rw [skipFrom_inside_close hskip] at h
        rw [skipFrom_inside_close hskip']
        exact ih h
      · rw [skipFrom_inside hskip hclose] at h
        obtain ⟨y, hkey, h⟩ := bind_eq_ok_iff.1 h
        rw [skipFrom_inside hskip' hclose, ← List.cons_append, extendsPast_skipKey b hkey s]
        exact ih h

theorem skipFrom_after_append (h : skipFrom (n + 1) opened .after t = .ok r) :
    skipFrom (m + 1) opened .after (t ++ s) = .ok (r ++ s) := by
  cases opened with
  | nil =>
    cases h
    rfl
  | cons b opened =>
    cases hskip : skipSpace t with
    | nil =>
      rw [skipFrom_after_cons, hskip] at h
      cases h
    | cons c u =>
      have hskip' := skipSpace_append_of_cons hskip s
      by_cases hclose : c = b.close
      · subst hclose
        rw [skipFrom_after_close hskip] at h
        rw [skipFrom_after_close hskip']
        exact ih h
      · by_cases hcomma : c = ','
        · subst hcomma
          rw [skipFrom_after_comma hskip] at h
          obtain ⟨y, hkey, h⟩ := bind_eq_ok_iff.1 h
          rw [skipFrom_after_comma hskip', extendsPast_skipKey b hkey s]
          exact ih h
        · rw [skipFrom_after_cons, hskip] at h
          simp only [if_neg hclose, if_neg hcomma, haltNext] at h
          cases h

end Steps

theorem skipFrom_append {n m : Nat} {opened : List Bracket} {place : Place} {t r : Text}
    (h : skipFrom n opened place t = .ok r) (hr : r ≠ []) (hnm : n ≤ m) (s : Text) :
    skipFrom m opened place (t ++ s) = .ok (r ++ s) := by
  induction n generalizing m opened place t with
  | zero => contradiction
  | succ n ih =>
    obtain ⟨m, rfl⟩ := Nat.exists_eq_add_of_le' (Nat.le_trans (Nat.le_add_left 1 n) hnm)
    have hnm' : n ≤ m := Nat.le_of_succ_le_succ hnm
    cases place with
    | before => exact skipFrom_before_append (fun h => ih h hnm') h hr
    | inside => exact skipFrom_inside_append (fun h => ih h hnm') h
    | after => exact skipFrom_after_append (fun h => ih h hnm') h

theorem skipValue_append {t r : Text} (h : skipValue t = .ok r) (hr : r ≠ []) (s : Text) :
    skipValue (t ++ s) = .ok (r ++ s) := by
  refine skipFrom_append h hr ?_ s
  rw [List.length_append]
  omega

/-! ## Records -/

section Records

variable {σ : Type} {fields : List (Field σ)}

/-- Each field is read independently of what follows it. -/
def FieldsExtend (fields : List (Field σ)) : Prop :=
  ∀ f ∈ fields, ∀ d, Extends (f.read d)

theorem NextKey.append {first : Bool} {t u : Text} (h : NextKey first t u) (s : Text) :
    NextKey first (t ++ s) (u ++ s) := by
  cases h with
  | first hskip => exact .first (skipSpace_append_of_cons hskip s)
  | comma hskip hskip' =>
    exact .comma (skipSpace_append_of_cons hskip s) (skipSpace_append_of_cons hskip' s)

/-- An object whose entries have been read has not ended with the text. -/
theorem ne_nil_of_readEntries {n : Nat} {first : Bool} {d d' : σ} {t r : Text}
    (h : readEntries fields n first d t = .ok (d', r)) : t ≠ [] := by
  rintro rfl
  cases n with
  | zero => contradiction
  | succ n =>
    rcases readEntries_succ_cases h with ⟨y, hclose⟩ | ⟨u, hnext⟩
    · contradiction
    · cases hnext <;> contradiction

theorem readEntries_append (hfields : FieldsExtend fields) {n m : Nat}
    {first : Bool} {d d' : σ} {t r : Text} (h : readEntries fields n first d t = .ok (d', r))
    (hnm : n ≤ m) (s : Text) : readEntries fields m first d (t ++ s) = .ok (d', r ++ s) := by
  induction n generalizing m first d t with
  | zero => contradiction
  | succ n ih =>
    obtain ⟨m, rfl⟩ := Nat.exists_eq_add_of_le' (Nat.le_trans (Nat.le_add_left 1 n) hnm)
    have hnm' : n ≤ m := Nat.le_of_succ_le_succ hnm
    rcases readEntries_succ_cases h with ⟨y, hclose⟩ | ⟨u, hnext⟩
    · rw [readEntries_succ_of_close hclose] at h
      cases h
      exact readEntries_succ_of_close (skipSpace_append_of_cons hclose s)
    · obtain ⟨key, y, hbody, x, hcolon, hentry⟩ := (readEntries_succ_eq_ok_iff hnext).1 h
      refine (readEntries_succ_eq_ok_iff (hnext.append s)).2 ⟨key, y ++ s,
        extends_readBodyFrom [] hbody s, x ++ s, skipSpace_append_of_cons hcolon s, ?_⟩
      rcases hentry with ⟨f, hfind, hset, d₁, z, hread, hmore⟩ | ⟨hfind, z, hskip, hmore⟩
      · have hf := hfields f (List.mem_of_find?_eq_some hfind) d
        exact .inl ⟨f, hfind, hset, d₁, z ++ s, hf hread s, ih hmore hnm'⟩
      · have hz := ne_nil_of_readEntries hmore
        exact .inr ⟨hfind, z ++ s, skipValue_append hskip hz s, ih hmore hnm'⟩

theorem readPositions_append (hfields : FieldsExtend fields) {first : Bool}
    {d d' : σ} {t r : Text} (h : readPositions fields first d t = .ok (d', r)) (s : Text) :
    readPositions fields first d (t ++ s) = .ok (d', r ++ s) := by
  induction fields generalizing first d t with
  | nil =>
    cases h
    rfl
  | cons f fields ih =>
    rcases readPositions_cons_cases h with ⟨y, hclose⟩ | ⟨u, hnext⟩
    · rw [readPositions_cons_of_close hclose] at h
      cases h
      exact readPositions_cons_of_close (skipSpace_append_of_cons hclose s)
    · obtain ⟨d₁, y, hread, hmore⟩ := (readPositions_cons_eq_ok_iff hnext).1 h
      have hf := hfields f List.mem_cons_self d
      have hmore' := ih (fun f hf => hfields f (List.mem_cons_of_mem _ hf)) hmore
      exact (readPositions_cons_eq_ok_iff (hnext.append s)).2 ⟨d₁, y ++ s, hf hread s, hmore'⟩

theorem extends_readRecord {shape : Shape σ α}
    (hfields : FieldsExtend shape.fields) : Extends (readRecord shape) := by
  intro t a r h s
  obtain ⟨d, hfinish, hread⟩ := readRecord_eq_ok_iff.1 h
  refine readRecord_eq_ok_iff.2 ⟨d, hfinish, ?_⟩
  rcases hread with ⟨u, y, hopen, hread, hclose⟩ | ⟨u, y, hopen, hread, hclose⟩
  · exact .inl ⟨u ++ s, y ++ s, skipSpace_append_of_cons hopen s,
      readPositions_append hfields hread s, skipSpace_append_of_cons hclose s⟩
  · have hlength : u.length + 1 ≤ (u ++ s).length + 1 := by
      rw [List.length_append]
      omega
    exact .inr ⟨u ++ s, y ++ s, skipSpace_append_of_cons hopen s,
      readEntries_append hfields hread hlength s, skipSpace_append_of_cons hclose s⟩

end Records

/-! ## Whole texts -/

section Whole

variable {read : Reader α} {t s : Text} {a : α}

theorem readAll_append_gap (hread : Extends read) (h : readAll read t = .ok a) (hs : IsGap s) :
    readAll read (t ++ s) = .ok a := by
  obtain ⟨r, hr, hend⟩ := readAll_eq_ok_iff.1 h
  have hgap : IsGap r := skipSpace_eq_nil_iff.1 hend
  refine readAll_eq_ok_iff.2 ⟨r ++ s, hread hr s, ?_⟩
  rw [skipSpace_gap_append hgap]
  exact skipSpace_eq_nil_iff.2 hs

/-- Behind an accepted text nothing but a gap may follow. -/
theorem readAll_append_of_not_gap (hread : Extends read) (h : readAll read t = .ok a)
    (hs : ¬ IsGap s) : ∃ f, readAll read (t ++ s) = .error f ∧ f.cause = .trailingCharacters := by
  obtain ⟨r, hr, hend⟩ := readAll_eq_ok_iff.1 h
  have hskip : skipSpace (r ++ s) = skipSpace s :=
    skipSpace_gap_append (skipSpace_eq_nil_iff.1 hend) s
  obtain ⟨c, u, hcu⟩ := List.exists_cons_of_ne_nil fun h => hs (skipSpace_eq_nil_iff.1 h)
  have hwhole : readWhole? read (t ++ s) = haltNext .trailingCharacters (c :: u) := by
    simp only [readWhole?, hread hr s, hskip, hcu, bind, Except.bind]
  rw [readAll, hwhole]
  exact ⟨_, rfl, rfl⟩

end Whole

end RefBook.Json
