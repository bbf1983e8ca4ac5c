import RefBook.Json.Fault

/-!
# RefBook.Json.StringBody — the inside of a JSON string

* `readBody`: the characters up to the closing quote, with every escape replaced by what it spells.
* `skipBody`: reads past the same without looking at surrogates.
* `length_lt_of_readUnit` and its kin: a reader that succeeds has taken something off its text.
-/

namespace RefBook.Json

/-! ## Escapes -/

/-- The value of a hexadecimal digit. -/
def hexDigit? (c : Char) : Option Nat :=
  if '0' ≤ c ∧ c ≤ '9' then some (c.toNat - '0'.toNat)
  else if 'a' ≤ c ∧ c ≤ 'f' then some (c.toNat - 'a'.toNat + 10)
  else if 'A' ≤ c ∧ c ≤ 'F' then some (c.toNat - 'A'.toNat + 10)
  else none

/-- The value of four hexadecimal digits. -/
def hexDigits? (a b c d : Char) : Option Nat := do
  return (((← hexDigit? a) * 16 + (← hexDigit? b)) * 16 + (← hexDigit? c)) * 16 + (← hexDigit? d)

/-- Whether at least four bytes follow. -/
def hasFourBytes (t : Text) : Bool :=
  4 ≤ byteLength (t.take 4)

/-- Reads four hexadecimal digits.  Where fewer than four bytes are left, the text counts as read. -/
def readHex (t : Text) : Except Halt (Nat × Text) :=
  if hasFourBytes t then
    match t with
    | a :: b :: c :: d :: r =>
      match hexDigits? a b c d with
      | some n => .ok (n, r)
      | none => .error { cause := .invalidEscape, rest := t, ahead := 4 }
    | _ => .error { cause := .invalidEscape, rest := t, ahead := 4 }
  else halt .endInString []

/-- Reads one given character inside an escape pair. -/
def readPairMark (mark : Char) : Text → Except Halt Text
  | [] => halt .endInString []
  | c :: r => if c = mark then .ok r else haltNext .pairExpected (c :: r)

/-- Reads what follows the `u` of an escape: a code unit, or two that form a surrogate pair. -/
def readUnit (t : Text) : Except Halt (Char × Text) := do
  let (n, t) ← readHex t
  if 0xDC00 ≤ n ∧ n ≤ 0xDFFF then halt .loneSurrogate t
  else if 0xD800 ≤ n ∧ n ≤ 0xDBFF then
    let t ← readPairMark '\\' t
    let t ← readPairMark 'u' t
    let (m, t) ← readHex t
    if 0xDC00 ≤ m ∧ m ≤ 0xDFFF then
      .ok (Char.ofNat ((n - 0xD800) * 0x400 + (m - 0xDC00) + 0x10000), t)
    else halt .loneSurrogate t
  else .ok (Char.ofNat n, t)

/-- The character that a one-letter escape spells. -/
def letterEscape? (c : Char) : Option Char :=
  match c with
  | '"' => some '"'
  | '\\' => some '\\'
  | '/' => some '/'
  | 'b' => some '\x08'
  | 'f' => some '\x0c'
  | 'n' => some '\n'
  | 'r' => some '\r'
  | 't' => some '\t'
  | _ => none

/-- Reads what follows a backslash. -/
def readEscape : Text → Except Halt (Char × Text)
  | [] => halt .endInString []
  | c :: r =>
    match letterEscape? c with
    | some x => .ok (x, r)
    | none => if c = 'u' then readUnit r else haltNext .invalidEscape (c :: r)

/-- Reads past what follows a backslash, whatever code units it spells. -/
def skipEscape : Text → Except Halt Text
  | [] => halt .endInString []
  | c :: r =>
    if (letterEscape? c).isSome then .ok r
    else if c = 'u' then (·.2) <$> readHex r
    else haltNext .invalidEscape (c :: r)

/-! ## Readers take something off -/

theorem length_lt_of_readHex {t r : Text} {n : Nat} (h : readHex t = .ok (n, r)) :
    r.length < t.length := by
  unfold readHex at h
  split at h
  · split at h
    · split at h
      · simp only [Except.ok.injEq, Prod.mk.injEq] at h
        simp [← h.2]
        omega
      · contradiction
    · contradiction
  · contradiction

theorem length_lt_of_readPairMark {mark : Char} {t r : Text} (h : readPairMark mark t = .ok r) :
    r.length < t.length := by
  cases t with
  | nil => contradiction
  | cons c t =>
    simp only [readPairMark] at h
    split at h
    · cases h
      simp
    · contradiction

theorem length_lt_of_readUnit {t r : Text} {c : Char} (h : readUnit t = .ok (c, r)) :
    r.length < t.length := by
  unfold readUnit at h
  cases h1 : readHex t with
  | error e => rw [h1] at h; contradiction
  | ok p =>
    obtain ⟨n, t1⟩ := p
    have l1 := length_lt_of_readHex h1
    simp only [h1, bind, Except.bind] at h
    split at h
    · contradiction
    · split at h
      · cases h2 : readPairMark '\\' t1 with
        | error e => rw [h2] at h; contradiction
        | ok t2 =>
          have l2 := length_lt_of_readPairMark h2
          simp only [h2] at h
          cases h3 : readPairMark 'u' t2 with
          | error e => rw [h3] at h; contradiction
          | ok t3 =>
            have l3 := length_lt_of_readPairMark h3
            simp only [h3] at h
            cases h4 : readHex t3 with
            | error e => rw [h4] at h; contradiction
            | ok q =>
              obtain ⟨m, t4⟩ := q
              have l4 := length_lt_of_readHex h4
              simp only [h4] at h
              split at h
              · simp only [Except.ok.injEq, Prod.mk.injEq] at h
                rw [← h.2]
                omega
              · contradiction
      · simp only [Except.ok.injEq, Prod.mk.injEq] at h
        rw [← h.2]
        omega

theorem length_lt_of_readEscape {t r : Text} {c : Char} (h : readEscape t = .ok (c, r)) :
    r.length < t.length := by
  cases t with
  | nil => contradiction
  | cons a t =>
    simp only [readEscape] at h
    split at h
    · cases h
      simp
    · split at h
      · have := length_lt_of_readUnit h
        simp only [List.length_cons]
        omega
      · contradiction

theorem length_lt_of_skipEscape {t r : Text} (h : skipEscape t = .ok r) :
    r.length < t.length := by
  cases t with
  | nil => contradiction
  | cons a t =>
    simp only [skipEscape] at h
    split at h
    · cases h
      simp
    · split at h
      · cases h1 : readHex t with
        | error e => rw [h1] at h; contradiction
        | ok p =>
          have := length_lt_of_readHex h1
          rw [h1] at h
          cases h
          simp only [List.length_cons]
          omega
      · contradiction

/-! ## Bodies -/

/-- Reads up to the closing quote; `taken` holds what was read before, latest first. -/
def readBodyFrom (taken : Text) : Reader Text
  | [] => halt .endInString []
  | c :: r =>
    if c = '"' then .ok (taken.reverse, r)
    else if c = '\\' then
      match _h : readEscape r with
      | .ok (x, r') => readBodyFrom (x :: taken) r'
      | .error e => .error e
    else if c.toNat < 0x20 then haltNext .controlCharacter (c :: r)
    else readBodyFrom (c :: taken) r
termination_by t => t.length
decreasing_by
  · have := length_lt_of_readEscape _h
    simp only [List.length_cons]
    omega
  · simp

/-- Reads the characters of a string whose opening quote has been read. -/
def readBody : Reader Text :=
  readBodyFrom []

/-- Reads past the characters of a string whose opening quote has been read. -/
def skipBody : Text → Except Halt Text
  | [] => halt .endInString []
  | c :: r =>
    if c = '"' then .ok r
    else if c = '\\' then
      match _h : skipEscape r with
      | .ok r' => skipBody r'
      | .error e => .error e
    else if c.toNat < 0x20 then halt .controlCharacter (c :: r)
    else skipBody r
termination_by t => t.length
decreasing_by
  · have := length_lt_of_skipEscape _h
    simp only [List.length_cons]
    omega
  · simp

end RefBook.Json
