import RefBook.Json.Fault

/-!
# RefBook.Proofs.Json.Grammar — which texts spell which JSON values

The grammar of JSON as relations between texts and values, apart from any reader.

* `Datum`: a JSON value.  Objects keep their entries in order, and a key may occur twice.
* `SpellsChar`, `SpellsBody`: characters of a string, which stand for themselves or are escaped by a
  letter, by a code unit, or by a surrogate pair.
* `IsNumber`: the numerals.  A number is its numeral, since no reader here looks at its value.
* `Spells`, `SpellsElements`, `SpellsEntries`: values, with any gap between two tokens.
* `SpellsWhole`: a text that spells one value.
* `Spells.head`: the first character of a value tells its kind.
-/

namespace RefBook.Json

/-- A JSON value. -/
inductive Datum where
  /-- Nothing. -/
  | null
  /-- A truth value. -/
  | boolean (value : Bool)
  /-- A number, as it is written. -/
  | number (numeral : Text)
  /-- A string. -/
  | text (value : Text)
  /-- A list. -/
  | list (elements : List Datum)
  /-- An object. -/
  | object (entries : List (Text × Datum))

/-- What may stand between two tokens. -/
def IsGap (w : Text) : Prop :=
  ∀ c ∈ w, c = ' ' ∨ c = '\t' ∨ c = '\n' ∨ c = '\r'

/-! ## Strings -/

/-- A hexadecimal digit, small or capital, and its value. -/
def IsHexDigit (c : Char) (d : Nat) : Prop :=
  d < 16 ∧ (c = Nat.digitChar d ∨ c = (Nat.digitChar d).toUpper)

/-- Four hexadecimal digits spell a code unit. -/
inductive SpellsUnit : Text → Nat → Prop where
  /-- The first digit counts most. -/
  | digits {a b c d : Char} {w x y z : Nat} (ha : IsHexDigit a w) (hb : IsHexDigit b x)
      (hc : IsHexDigit c y) (hd : IsHexDigit d z) :
      SpellsUnit [a, b, c, d] (((w * 16 + x) * 16 + y) * 16 + z)

/-- The letters that may follow a backslash, with what they spell. -/
def escapeLetters : List (Char × Char) :=
  [('"', '"'), ('\\', '\\'), ('/', '/'), ('b', '\x08'), ('f', '\x0c'), ('n', '\n'), ('r', '\r'),
    ('t', '\t')]

/-- The text spells the character inside a string. -/
inductive SpellsChar : Text → Char → Prop where
  /-- It stands for itself. -/
  | plain {c : Char} (hquote : c ≠ '"') (hslash : c ≠ '\\') (hcontrol : 0x20 ≤ c.toNat) :
      SpellsChar [c] c
  /-- It has a letter. -/
  | letter {e c : Char} (h : (e, c) ∈ escapeLetters) : SpellsChar ['\\', e] c
  /-- It is given by its number. -/
  | unit {u : Text} {c : Char} (h : SpellsUnit u c.toNat) : SpellsChar ('\\' :: 'u' :: u) c
  /-- It is given by the two halves of its number, less 2^16. -/
  | pair {u u' : Text} {high low : Nat} {c : Char} (h : SpellsUnit u high)
      (h' : SpellsUnit u' low) (hhigh : 0xD800 ≤ high ∧ high ≤ 0xDBFF)
      (hlow : 0xDC00 ≤ low ∧ low ≤ 0xDFFF)
      (hc : c.toNat = (high - 0xD800) * 0x400 + (low - 0xDC00) + 0x10000) :
      SpellsChar ('\\' :: 'u' :: (u ++ '\\' :: 'u' :: u')) c

/-- The text between the quotes of a string. -/
inductive SpellsBody : Text → Text → Prop where
  /-- No characters. -/
  | nil : SpellsBody [] []
  /-- One more character in front. -/
  | cons {t u s : Text} {c : Char} (h : SpellsChar t c) (more : SpellsBody u s) :
      SpellsBody (t ++ u) (c :: s)

/-! ## Numbers -/

/-- At least one digit. -/
def IsDigits (ds : Text) : Prop :=
  ds ≠ [] ∧ ∀ d ∈ ds, d.isDigit = true

/-- The digits before the point: no zero leads but a lone one. -/
inductive IsWhole : Text → Prop where
  /-- Zero. -/
  | zero : IsWhole ['0']
  /-- Any other number. -/
  | digits {c : Char} {ds : Text} (h : IsDigits (c :: ds)) (hzero : c ≠ '0') : IsWhole (c :: ds)

/-- The point and the digits after it. -/
inductive IsFraction : Text → Prop where
  /-- There is none. -/
  | none : IsFraction []
  /-- At least one digit. -/
  | digits {ds : Text} (h : IsDigits ds) : IsFraction ('.' :: ds)

/-- The power of ten. -/
inductive IsExponent : Text → Prop where
  /-- There is none. -/
  | none : IsExponent []
  /-- At least one digit, with or without a sign. -/
  | digits {e : Char} {sign ds : Text} (he : e = 'e' ∨ e = 'E')
      (hsign : sign = [] ∨ sign = ['+'] ∨ sign = ['-']) (h : IsDigits ds) :
      IsExponent (e :: (sign ++ ds))

/-- A numeral. -/
inductive IsNumber : Text → Prop where
  /-- Its parts one after the other. -/
  | parts {minus whole fraction exponent : Text} (hminus : minus = [] ∨ minus = ['-'])
      (hwhole : IsWhole whole) (hfraction : IsFraction fraction)
      (hexponent : IsExponent exponent) :
      IsNumber (minus ++ (whole ++ (fraction ++ exponent)))

/-! ## Values -/

mutual

/-- The text spells the value, from its first character to its last. -/
inductive Spells : Text → Datum → Prop where
  /-- The word for nothing. -/
  | null : Spells ['n', 'u', 'l', 'l'] .null
  /-- The word for what is so. -/
  | true : Spells ['t', 'r', 'u', 'e'] (.boolean true)
  /-- The word for what is not so. -/
  | false : Spells ['f', 'a', 'l', 's', 'e'] (.boolean false)
  /-- A number. -/
  | number {t : Text} (h : IsNumber t) : Spells t (.number t)
  /-- A string. -/
  | text {t s : Text} (h : SpellsBody t s) : Spells ('"' :: (t ++ ['"'])) (.text s)
  /-- A list without elements. -/
  | emptyList {w : Text} (h : IsGap w) : Spells ('[' :: (w ++ [']'])) (.list [])
  /-- A list with elements. -/
  | list {t : Text} {vs : List Datum} (h : SpellsElements t vs) :
      Spells ('[' :: (t ++ [']'])) (.list vs)
  /-- An object without entries. -/
  | emptyObject {w : Text} (h : IsGap w) : Spells ('\x7b' :: (w ++ ['\x7d'])) (.object [])
  /-- An object with entries. -/
  | object {t : Text} {es : List (Text × Datum)} (h : SpellsEntries t es) :
      Spells ('\x7b' :: (t ++ ['\x7d'])) (.object es)

/-- The text between the brackets of a list with elements. -/
inductive SpellsElements : Text → List Datum → Prop where
  /-- The last element. -/
  | last {w₁ t w₂ : Text} {v : Datum} (gap₁ : IsGap w₁) (h : Spells t v) (gap₂ : IsGap w₂) :
      SpellsElements (w₁ ++ (t ++ w₂)) [v]
  /-- An element, a comma, and more. -/
  | more {w₁ t w₂ u : Text} {v : Datum} {vs : List Datum} (gap₁ : IsGap w₁) (h : Spells t v)
      (gap₂ : IsGap w₂) (more : SpellsElements u vs) :
      SpellsElements (w₁ ++ (t ++ (w₂ ++ ',' :: u))) (v :: vs)

/-- The text between the brackets of an object with entries. -/
inductive SpellsEntries : Text → List (Text × Datum) → Prop where
  /-- The last entry. -/
  | last {w₁ k w₂ w₃ t w₄ key : Text} {v : Datum} (gap₁ : IsGap w₁) (hkey : SpellsBody k key)
      (gap₂ : IsGap w₂) (gap₃ : IsGap w₃) (h : Spells t v) (gap₄ : IsGap w₄) :
      SpellsEntries (w₁ ++ '"' :: (k ++ '"' :: (w₂ ++ ':' :: (w₃ ++ (t ++ w₄))))) [(key, v)]
  /-- An entry, a comma, and more. -/
  | more {w₁ k w₂ w₃ t w₄ u key : Text} {v : Datum} {es : List (Text × Datum)} (gap₁ : IsGap w₁)
      (hkey : SpellsBody k key) (gap₂ : IsGap w₂) (gap₃ : IsGap w₃) (h : Spells t v)
      (gap₄ : IsGap w₄) (more : SpellsEntries u es) :
      SpellsEntries (w₁ ++ '"' :: (k ++ '"' :: (w₂ ++ ':' :: (w₃ ++ (t ++ (w₄ ++ ',' :: u))))))
        ((key, v) :: es)

end

/-- The text spells the value, with nothing but gaps around it. -/
inductive SpellsWhole : Text → Datum → Prop where
  /-- A gap may come before the value and after it. -/
  | mk {w₁ t w₂ : Text} {v : Datum} (gap₁ : IsGap w₁) (h : Spells t v) (gap₂ : IsGap w₂) :
      SpellsWhole (w₁ ++ (t ++ w₂)) v

/-! ## Gaps -/

theorem isSpace_eq_true_iff {c : Char} :
    isSpace c = true ↔ c = ' ' ∨ c = '\t' ∨ c = '\n' ∨ c = '\r' := by
  simp only [isSpace, Bool.or_eq_true, decide_eq_true_eq]
  constructor
  · rintro (((h | h) | h) | h) <;> simp [h]
  · rintro (h | h | h | h) <;> simp [h]

theorem isGap_nil : IsGap [] := by
  intro c hc
  contradiction

theorem skipSpace_gap_append {w : Text} (hw : IsGap w) (t : Text) :
    skipSpace (w ++ t) = skipSpace t := by
  refine List.dropWhile_append_of_pos fun c hc => ?_
  exact isSpace_eq_true_iff.2 (hw c hc)

/-- A gap is skipped up to the next token. -/
theorem skipSpace_gap_cons {w : Text} (hw : IsGap w) {c : Char} (hc : isSpace c = false)
    (r : Text) : skipSpace (w ++ c :: r) = c :: r := by
  rw [skipSpace_gap_append hw, skipSpace_cons_of_not_isSpace hc]

/-! ## First characters -/

/-- The first character of a value of its kind. -/
def Datum.Opens : Datum → Char → Prop
  | null, c => c = 'n'
  | boolean _, c => c = 't' ∨ c = 'f'
  | number _, c => c = '-' ∨ c.isDigit = true
  | text _, c => c = '"'
  | list _, c => c = '['
  | object _, c => c = '\x7b'

theorem IsWhole.head {t : Text} (h : IsWhole t) : ∃ c r, t = c :: r ∧ c.isDigit = true := by
  cases h with
  | zero => exact ⟨'0', [], rfl, rfl⟩
  | @digits c ds h => exact ⟨c, ds, rfl, h.2 c List.mem_cons_self⟩

theorem Spells.head {t : Text} {v : Datum} (h : Spells t v) :
    ∃ c r, t = c :: r ∧ v.Opens c := by
  cases h with
  | null => exact ⟨'n', _, rfl, rfl⟩
  | true => exact ⟨'t', _, rfl, .inl rfl⟩
  | false => exact ⟨'f', _, rfl, .inr rfl⟩
  | number h =>
    obtain ⟨hminus, hwhole, -, -⟩ := h
    obtain ⟨c, r, rfl, hc⟩ := hwhole.head
    rcases hminus with rfl | rfl
    · exact ⟨c, _, rfl, .inr hc⟩
    · exact ⟨'-', _, rfl, .inl rfl⟩
  | text => exact ⟨'"', _, rfl, rfl⟩
  | emptyList => exact ⟨'[', _, rfl, rfl⟩
  | list => exact ⟨'[', _, rfl, rfl⟩
  | emptyObject => exact ⟨'\x7b', _, rfl, rfl⟩
  | object => exact ⟨'\x7b', _, rfl, rfl⟩

section Opens

variable {v : Datum} {c : Char}

/-- A mark that no datum begins with is not the first one of this datum. -/
theorem Datum.Opens.ne {m : Char} (h : v.Opens c) (hdigit : m.isDigit = false)
    (hnot : m ∉ ['n', 't', 'f', '-', '"', '[', '\x7b']) : c ≠ m := by
  rintro rfl
  cases v with
  | boolean b => rcases h with rfl | rfl <;> simp at hnot
  | number => rcases h with rfl | h <;> simp_all
  | _ => simp_all [Opens]

theorem Datum.Opens.not_isSpace (h : v.Opens c) : isSpace c = false := by
  rw [← Bool.not_eq_true, isSpace_eq_true_iff]
  simp only [not_or]
  exact ⟨h.ne rfl (by decide), h.ne rfl (by decide), h.ne rfl (by decide), h.ne rfl (by decide)⟩

theorem Datum.Opens.eq_null (h : v.Opens 'n') : v = .null := by
  cases v with
  | null => rfl
  | _ => exact absurd h (by simp [Opens])

theorem Datum.Opens.eq_text (h : v.Opens '"') : ∃ s, v = .text s := by
  cases v with
  | text s => exact ⟨s, rfl⟩
  | _ => exact absurd h (by simp [Opens])

theorem Datum.Opens.eq_list (h : v.Opens '[') : ∃ vs, v = .list vs := by
  cases v with
  | list vs => exact ⟨vs, rfl⟩
  | _ => exact absurd h (by simp [Opens])

theorem Datum.Opens.eq_object (h : v.Opens '\x7b') : ∃ es, v = .object es := by
  cases v with
  | object es => exact ⟨es, rfl⟩
  | _ => exact absurd h (by simp [Opens])

end Opens

end RefBook.Json
