import RefBook.Text.Basic

/-!
# RefBook.Text.Utf8 — texts as bytes

* `decodePieces` reads bytes as UTF-8: a character for each well-formed sequence, and `none` for
  each longest run of bytes that begins like one and breaks off.
* `decode?` accepts well-formed bytes only; `decodeLossy` shows each broken run as U+FFFD.
* `encode` writes a text as UTF-8.
-/

namespace RefBook.Utf8

/-- Bytes of a file or of an output. -/
abbrev Bytes := List UInt8

/-- What the first byte of a sequence of several bytes says. -/
structure Lead where
  /-- The bits it contributes. -/
  bits : Nat
  /-- How many bytes follow. -/
  more : Nat
  /-- The least second byte. -/
  low : Nat
  /-- The greatest second byte. -/
  high : Nat

/-- The first bytes of sequences.  The bounds of the second byte keep out overlong forms,
surrogates, and what lies beyond the last code point. -/
def lead? (b : Nat) : Option Lead :=
  if b < 0x80 then some ⟨b, 0, 0, 0⟩
  else if 0xC2 ≤ b ∧ b ≤ 0xDF then some ⟨b - 0xC0, 1, 0x80, 0xBF⟩
  else if b = 0xE0 then some ⟨0, 2, 0xA0, 0xBF⟩
  else if b = 0xED then some ⟨0xD, 2, 0x80, 0x9F⟩
  else if 0xE1 ≤ b ∧ b ≤ 0xEF then some ⟨b - 0xE0, 2, 0x80, 0xBF⟩
  else if b = 0xF0 then some ⟨0, 3, 0x90, 0xBF⟩
  else if 0xF1 ≤ b ∧ b ≤ 0xF3 then some ⟨b - 0xF0, 3, 0x80, 0xBF⟩
  else if b = 0xF4 then some ⟨4, 3, 0x80, 0x8F⟩
  else none

/-- Reads the bytes that follow the first one; the bounds are those of the next byte. -/
def readMore : Nat → Nat → Nat → Nat → Bytes → Option Char × Bytes
  | 0, _, _, bits, r => (some (Char.ofNat bits), r)
  | _ + 1, _, _, _, [] => (none, [])
  | n + 1, low, high, bits, b :: r =>
    if low ≤ b.toNat ∧ b.toNat ≤ high then readMore n 0x80 0xBF (bits * 64 + (b.toNat - 0x80)) r
    else (none, b :: r)

theorem length_readMore_le (n low high bits : Nat) (r : Bytes) :
    (readMore n low high bits r).2.length ≤ r.length := by
  induction n generalizing low high bits r with
  | zero => simp [readMore]
  | succ n ih =>
    cases r with
    | nil => simp [readMore]
    | cons b r =>
      simp only [readMore]
      split
      · exact Nat.le_succ_of_le (ih ..)
      · simp

/-- The characters that bytes spell, with `none` for each broken run. -/
def decodePieces : Bytes → List (Option Char)
  | [] => []
  | b :: r =>
    match lead? b.toNat with
    | none => none :: decodePieces r
    | some l =>
      (readMore l.more l.low l.high l.bits r).1
        :: decodePieces (readMore l.more l.low l.high l.bits r).2
termination_by bs => bs.length
decreasing_by
  · simp
  · have := length_readMore_le l.more l.low l.high l.bits r
    simp only [List.length_cons]
    omega

/-- The text that well-formed bytes spell. -/
def decode? (bs : Bytes) : Option Text :=
  (decodePieces bs).mapM id

/-- The text that bytes spell, with a replacement character for each broken run. -/
def decodeLossy (bs : Bytes) : Text :=
  (decodePieces bs).map (·.getD '\ufffd')

/-- The bytes of a text. -/
def encode (t : Text) : Bytes :=
  t.flatMap String.utf8EncodeChar

end RefBook.Utf8
