import RefBook.Json.StringBody
import RefBook.Json.Writer

/-!
# RefBook.Proofs.Json.StringBody — escaped characters read back

* `readBodyFrom_writeChar`: a written character, whether it stands for itself or is escaped, is read
  as itself, whatever follows.
* `readBody_written`: so are all characters up to the closing quote.
-/

namespace RefBook.Json

/-! ## Escapes -/

theorem hexDigit?_digitChar : ∀ d < 16, hexDigit? (Nat.digitChar d) = some d := by decide

theorem readHex_of_hexDigits? {a b c d : Char} {n : Nat} (h : hexDigits? a b c d = some n)
    (r : Text) : readHex (a :: b :: c :: d :: r) = .ok (n, r) := by
  have hfour : hasFourBytes (a :: b :: c :: d :: r) = true := by
    have ha := a.utf8Size_pos
    have hb := b.utf8Size_pos
    have hc := c.utf8Size_pos
    have hd := d.utf8Size_pos
    simp only [hasFourBytes, List.take_succ_cons, List.take_zero, byteLength, decide_eq_true_eq]
    omega
  simp only [readHex, hfour, if_true, h]

/-- The two digits of a control character spell it. -/
theorem hexDigits?_of_lt {n : Nat} (h : n < 0x20) :
    hexDigits? '0' '0' (Nat.digitChar (n / 16)) (Nat.digitChar (n % 16)) = some n := by
  have h0 : hexDigit? '0' = some 0 := by decide
  have hhigh := hexDigit?_digitChar (n / 16) (by omega)
  have hlow := hexDigit?_digitChar (n % 16) (by omega)
  simp only [hexDigits?, h0, hhigh, hlow, Option.bind_eq_bind, Option.bind_some, Option.pure_def,
    Option.some.injEq]
  omega

theorem readEscape_of_letterEscape? {c x : Char} (h : letterEscape? c = some x) (r : Text) :
    readEscape (c :: r) = .ok (x, r) := by
  simp only [readEscape, h]

theorem readEscape_control {c : Char} (h : c.toNat < 0x20) (r : Text) :
    readEscape ("u00".toList
      ++ Nat.digitChar (c.toNat / 16) :: Nat.digitChar (c.toNat % 16) :: r) = .ok (c, r) := by
  have hhex := readHex_of_hexDigits? (hexDigits?_of_lt h) r
  have hlow : ¬ (0xDC00 ≤ c.toNat ∧ c.toNat ≤ 0xDFFF) := by omega
  have hhigh : ¬ (0xD800 ≤ c.toNat ∧ c.toNat ≤ 0xDBFF) := by omega
  show readUnit ('0' :: '0' :: _ :: _ :: r) = _
  simp only [readUnit, hhex, bind, Except.bind, if_neg hlow, if_neg hhigh, Char.ofNat_toNat]

/-! ## Characters -/

theorem readBodyFrom_quote (taken r : Text) :
    readBodyFrom taken ('"' :: r) = .ok (taken.reverse, r) := by
  rw [readBodyFrom, if_pos rfl]

theorem readBodyFrom_escape {r r' : Text} {x : Char} (h : readEscape r = .ok (x, r'))
    (taken : Text) : readBodyFrom taken ('\\' :: r) = readBodyFrom (x :: taken) r' := by
  rw [readBodyFrom, if_neg (by decide), if_pos rfl]
  split
  · next y s hy =>
    rw [h] at hy
    cases hy
    rfl
  · next e he =>
    rw [h] at he
    contradiction

theorem readBodyFrom_plain {c : Char} (hquote : c ≠ '"') (hslash : c ≠ '\\')
    (hcontrol : ¬ c.toNat < 0x20) (taken r : Text) :
    readBodyFrom taken (c :: r) = readBodyFrom (c :: taken) r := by
  rw [readBodyFrom, if_neg hquote, if_neg hslash, if_neg hcontrol]

/-- A written character is read as itself. -/
theorem readBodyFrom_writeChar (taken : Text) (c : Char) (rest : Text) :
    readBodyFrom taken (writeChar c ++ rest) = readBodyFrom (c :: taken) rest := by
  unfold writeChar
  split
  -- the seven characters with a letter of their own
  iterate 7 exact readBodyFrom_escape (readEscape_of_letterEscape? rfl rest) taken
  next hquote hslash _ _ _ _ _ =>
    split
    · next hcontrol => exact readBodyFrom_escape (readEscape_control hcontrol rest) taken
    · next hcontrol => exact readBodyFrom_plain hquote hslash hcontrol taken rest

/-! ## Strings -/

theorem readBodyFrom_written (taken t rest : Text) :
    readBodyFrom taken (t.flatMap writeChar ++ '"' :: rest) = .ok (taken.reverse ++ t, rest) := by
  induction t generalizing taken with
  | nil => rw [List.flatMap_nil, List.nil_append, readBodyFrom_quote, List.append_nil]
  | cons c t ih =>
    rw [List.flatMap_cons, List.append_assoc, readBodyFrom_writeChar, ih, List.reverse_cons,
      List.append_assoc]
    rfl

theorem readBody_written (t rest : Text) :
    readBody (t.flatMap writeChar ++ '"' :: rest) = .ok (t, rest) :=
  readBodyFrom_written [] t rest

end RefBook.Json
