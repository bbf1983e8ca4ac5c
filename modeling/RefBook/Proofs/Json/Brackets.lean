import RefBook.Json.Reader
import RefBook.Proofs.Json.StringBody

/-!
# RefBook.Proofs.Json.Brackets — written values read back

* `ReadsBack read written a`: the reader takes the written form of `a` off the front of any text.
  It is kept by strings, options, lists and pairs.
* `Fills`: how entries fill a draft one after the other; `readEntries_written` reads them off an
  object, and `readRecord_written` the whole record.
-/

namespace RefBook.Json

/-! ## Written values -/

/-- The reader takes the written value off any text.  A written value begins with a token, and not
with the end of a list or the word for nothing. -/
structure ReadsBack {α : Type} (read : Reader α) (written : Text) (a : α) : Prop where
  /-- How a written value begins. -/
  opens : ∃ c r, written = c :: r ∧ isSpace c = false ∧ c ≠ ']' ∧ c ≠ 'n'
  /-- What the reader makes of it. -/
  reads : ∀ rest, read (written ++ rest) = .ok (a, rest)

theorem readsBack_text (t : Text) : ReadsBack readText (writeText t) t := by
  refine ⟨⟨'"', _, rfl, by decide, by decide, by decide⟩, fun rest => ?_⟩
  rw [← readBody_written t rest, writeText, List.append_assoc]
  rfl

theorem readsBack_some {α : Type} {read : Reader α} {written : Text} {a : α}
    (h : ReadsBack read written a) : ReadsBack (readOptional read) written (some a) := by
  refine ⟨h.opens, fun rest => ?_⟩
  obtain ⟨c, r, rfl, hspace, -, hword⟩ := h.opens
  have hread := h.reads rest
  simp only [readOptional, List.cons_append, skipSpace_cons_of_not_isSpace hspace]
  split
  · next r' heq =>
    cases heq
    contradiction
  · rw [← List.cons_append, hread]
    rfl

/-! ## Elements -/

section Elements

variable {α β : Type} {read : Reader α} {written : Text} {a : α}

theorem nextElement_first (h : ReadsBack read written a) (rest : Text) :
    nextElement true (written ++ rest) = .ok (some (written ++ rest)) := by
  -- the element does not begin with the end of the list: `hclose`
  obtain ⟨c, r, rfl, hspace, hclose, -⟩ := h.opens
  simp [nextElement, skipSpace_cons_of_not_isSpace hspace]

theorem nextElement_comma (h : ReadsBack read written a) (rest : Text) :
    nextElement false (',' :: (written ++ rest)) = .ok (some (written ++ rest)) := by
  obtain ⟨c, r, rfl, hspace, hclose, -⟩ := h.opens
  have hcomma : isSpace ',' = false := by decide
  simp [nextElement, skipSpace_cons_of_not_isSpace hcomma, skipSpace_cons_of_not_isSpace hspace,
    hclose]

theorem closing_ok {close : Text → Text × Option Cause} {inside : Except Halt (α × Text)}
    {t rest : Text} (h : inside = .ok (a, t)) (hclose : close t = (rest, none)) :
    closing close inside = .ok (a, rest) := by
  rw [h]
  simp only [closing, hclose]

theorem readElements_cons {first : Bool} {t rest : Text} (h : ReadsBack read written a)
    (hnext : nextElement first t = .ok (some (written ++ rest))) (n : Nat) :
    readElements read (n + 1) first t = (do
      let (as, t) ← readElements read n false rest
      return (a :: as, t)) := by
  simp only [readElements, hnext, h.reads, bind, Except.bind]

variable {write : α → Text} {as : List α}

/-- The elements after the first: a comma stands in front of each. -/
theorem readElements_written (h : ∀ a ∈ as, ReadsBack read (write a) a) {n : Nat}
    (hn : as.length < n) (rest : Text) :
    readElements read n false ((as.map write).flatMap (',' :: ·) ++ ']' :: rest)
      = .ok (as, ']' :: rest) := by
  induction as generalizing n with
  | nil =>
    cases n with
    | zero => exact absurd hn (Nat.not_lt_zero _)
    | succ n => rfl
  | cons a as ih =>
    cases n with
    | zero => exact absurd hn (Nat.not_lt_zero _)
    | succ n =>
      have ha := h a List.mem_cons_self
      simp only [List.map_cons, List.flatMap_cons, List.cons_append, List.append_assoc]
      rw [readElements_cons ha (nextElement_comma ha _),
        ih (fun b hb => h b (List.mem_cons_of_mem a hb)) (Nat.lt_of_succ_lt_succ hn)]
      rfl

theorem length_le_length_flatMap_cons (c : Char) (ts : List Text) :
    ts.length ≤ (ts.flatMap (c :: ·)).length := by
  induction ts with
  | nil => exact Nat.le_refl 0
  | cons t ts ih =>
    simp only [List.length_cons, List.flatMap_cons, List.cons_append, List.length_append]
    omega

theorem readsBack_list (h : ∀ a ∈ as, ReadsBack read (write a) a) :
    ReadsBack (readList read) (writeList (as.map write)) as := by
  refine ⟨⟨'[', _, rfl, by decide, by decide, by decide⟩, fun rest => ?_⟩
  have hinside : readElements read
      (([','].intercalate (as.map write) ++ ']' :: rest).length + 1) true
      ([','].intercalate (as.map write) ++ ']' :: rest) = .ok (as, ']' :: rest) := by
    cases as with
    | nil => rfl
    | cons a as =>
      have ha := h a List.mem_cons_self
      have hlen := length_le_length_flatMap_cons ',' (as.map write)
      rw [List.length_map] at hlen
      rw [List.map_cons, intercalate_cons, List.append_assoc,
        readElements_cons ha (nextElement_first ha _),
        readElements_written (fun b hb => h b (List.mem_cons_of_mem a hb))]
      · rfl
      · simp only [List.length_append, List.length_cons]
        omega
  rw [writeList, List.cons_append, List.cons_append, List.append_assoc]
  exact closing_ok hinside rfl

theorem readsBack_pair {right : Reader β} {written' : Text} {b : β}
    (ha : ReadsBack read written a) (hb : ReadsBack right written' b) :
    ReadsBack (readPair read right) (writeList [written, written']) (a, b) := by
  refine ⟨⟨'[', _, rfl, by decide, by decide, by decide⟩, fun rest => ?_⟩
  rw [writeList, intercalate_cons]
  simp only [List.flatMap_cons, List.flatMap_nil, List.append_nil, List.cons_append,
    List.append_assoc]
  refine closing_ok (t := ']' :: rest) ?_ rfl
  simp only [readHalf, beq_self_eq_true, nextElement_first ha, ha.reads, bind, Except.bind]
  have hone : ((1 : Nat) == 0) = false := rfl
  simp only [hone, nextElement_comma hb, hb.reads]
  rfl

end Elements

/-! ## Records -/

section Records

variable {σ α : Type} {fields : List (Field σ)} {field : Field σ} {d d' d'' : σ}
  {key written : Text} {es : List (Text × Text)}

/-- Reading the entries one after the other takes one draft to the other: each has the key of a
field that is not set yet, and its value reads back into the draft. -/
inductive Fills (fields : List (Field σ)) : σ → List (Text × Text) → σ → Prop where
  /-- No entries. -/
  | nil (d : σ) : Fills fields d [] d
  /-- One more entry in front. -/
  | cons {field : Field σ} {d d' d'' : σ} {key written : Text} {es : List (Text × Text)}
      (hfind : fields.find? (·.key = key) = some field) (hset : field.isSet d = false)
      (hread : ∀ rest, field.read d (written ++ rest) = .ok (d', rest))
      (more : Fills fields d' es d'') : Fills fields d ((key, written) :: es) d''

theorem nextKey_first (r : Text) : nextKey true ('"' :: r) = .ok (some r) := rfl

theorem nextKey_comma (r : Text) : nextKey false (',' :: '"' :: r) = .ok (some r) := rfl

theorem writeEntry_append (key written rest : Text) :
    writeEntry (key, written) ++ rest
      = '"' :: (key.flatMap writeChar ++ '"' :: ':' :: (written ++ rest)) := by
  simp [writeEntry, writeText]

theorem readEntries_cons {first : Bool} {t rest : Text}
    (hnext : nextKey first t
      = .ok (some (key.flatMap writeChar ++ '"' :: ':' :: (written ++ rest))))
    (hfind : fields.find? (·.key = key) = some field) (hset : field.isSet d = false)
    (hread : field.read d (written ++ rest) = .ok (d', rest)) (n : Nat) :
    readEntries fields (n + 1) first d t = readEntries fields n false d' rest := by
  have hcolon : readColon (':' :: (written ++ rest)) = .ok (written ++ rest) := rfl
  simp only [readEntries, hnext, readBody_written, hfind, hset, hcolon, hread, bind, Except.bind,
    Bool.false_eq_true, if_false]

/-- The entries after the first: a comma stands in front of each. -/
theorem readEntries_written (h : Fills fields d es d') {n : Nat} (hn : es.length < n)
    (rest : Text) :
    readEntries fields n false d ((es.map writeEntry).flatMap (',' :: ·) ++ '\x7d' :: rest)
      = .ok (d', '\x7d' :: rest) := by
  induction h generalizing n with
  | nil =>
    cases n with
    | zero => exact absurd hn (Nat.not_lt_zero _)
    | succ n => rfl
  | cons hfind hset hread _ ih =>
    cases n with
    | zero => exact absurd hn (Nat.not_lt_zero _)
    | succ n =>
      simp only [List.map_cons, List.flatMap_cons, List.cons_append, List.append_assoc,
        writeEntry_append]
      rw [readEntries_cons (nextKey_comma _) hfind hset (hread _), ih (Nat.lt_of_succ_lt_succ hn)]

theorem readRecord_written {shape : Shape σ α} {a : α} (h : Fills shape.fields shape.empty es d)
    (hfinish : shape.finish d = .ok a) (rest : Text) :
    readRecord shape (writeObject es ++ rest) = .ok (a, rest) := by
  have hinside : readEntries shape.fields
      (([','].intercalate (es.map writeEntry) ++ '\x7d' :: rest).length + 1) true shape.empty
      ([','].intercalate (es.map writeEntry) ++ '\x7d' :: rest) = .ok (d, '\x7d' :: rest) := by
    cases h with
    | nil => rfl
    | @cons _ _ _ _ key written es hfind hset hread more =>
      have hlen := length_le_length_flatMap_cons ',' (es.map writeEntry)
      rw [List.length_map] at hlen
      rw [List.map_cons, intercalate_cons, List.append_assoc, writeEntry_append,
        readEntries_cons (nextKey_first _) hfind hset (hread _), readEntries_written more]
      simp only [List.length_append, List.length_cons]
      omega
  rw [writeObject, List.cons_append, List.cons_append, List.append_assoc]
  refine closing_ok (t := '\x7d' :: rest) ?_ rfl
  simp only [List.cons_append, List.nil_append, hinside, bind, Except.bind, Shape.finishAt, hfinish]

theorem readsBack_record {shape : Shape σ α} {a : α} (h : Fills shape.fields shape.empty es d)
    (hfinish : shape.finish d = .ok a) :
    ReadsBack (readRecord shape) (writeObject es) a :=
  ⟨⟨'\x7b', _, rfl, by decide, by decide, by decide⟩, readRecord_written h hfinish⟩

end Records

/-! ## Whole texts -/

theorem readAll_written {α : Type} {read : Reader α} {written : Text} {a : α}
    (h : ReadsBack read written a) : readAll read written = .ok a := by
  have hread := h.reads []
  rw [List.append_nil] at hread
  simp only [readAll, readWhole?, hread, bind, Except.bind]
  rfl

end RefBook.Json
