import RefBook.Proofs.Json.Brackets
import RefBook.Proofs.Json.Inversion

/-!
# RefBook.Proofs.Json.Truncation — no part of a written value is taken for a value

* `Cut`: a text that breaks off before its end.
* `EndsEarly`, `StopsEarly`: the complaint that a text ends too early, and a reader that makes it of
  every text that breaks off inside a written value.
* `stopsEarly_text`, `stopsEarly_some`, `stopsEarly_list`, `stopsEarly_pair`, `stopsEarly_record`: a
  reader stops early if the readers inside it do.
-/

namespace RefBook.Json

variable {α β : Type}

/-! ## Texts that break off -/

/-- The text is the beginning of the other, and not all of it. -/
def Cut (p w : Text) : Prop :=
  p <+: w ∧ p ≠ w

theorem cut_cons {p w : Text} {c : Char} (h : Cut p (c :: w)) :
    p = [] ∨ ∃ q, p = c :: q ∧ Cut q w := by
  obtain ⟨hbegins, hne⟩ := h
  cases p with
  | nil => exact .inl rfl
  | cons a q =>
    obtain ⟨rfl, hq⟩ := List.cons_prefix_cons.1 hbegins
    exact .inr ⟨q, rfl, hq, fun h => hne (congrArg (a :: ·) h)⟩

theorem not_cut_nil (p : Text) : ¬ Cut p [] :=
  fun h => h.2 (List.prefix_nil.1 h.1)

theorem eq_nil_of_cut_singleton {p : Text} {c : Char} (h : Cut p [c]) : p = [] := by
  rcases cut_cons h with rfl | ⟨q, -, hq⟩
  · rfl
  · exact absurd hq (not_cut_nil q)

/-- A text breaks off in the first part or in the second. -/
theorem cut_append {p u w : Text} (h : Cut p (u ++ w)) :
    Cut p u ∨ ∃ q, p = u ++ q ∧ Cut q w := by
  induction u generalizing p with
  | nil => exact .inr ⟨p, rfl, h⟩
  | cons c u ih =>
    rcases cut_cons h with rfl | ⟨q, rfl, hq⟩
    · exact .inl ⟨List.nil_prefix, (List.cons_ne_nil c u).symm⟩
    · rcases ih hq with ⟨hbegins, hne⟩ | ⟨q', rfl, hq'⟩
      · exact .inl ⟨List.cons_prefix_cons.2 ⟨rfl, hbegins⟩, fun h => hne (List.cons.inj h).2⟩
      · exact .inr ⟨q', rfl, hq'⟩

/-! ## Readers that stop -/

/-- The complaint is that the text ends too early. -/
def EndsEarly (x : Except Halt α) : Prop :=
  ∃ h, x = .error h ∧ h.cause.category = .early

/-- Of a text that breaks off inside the written value the reader says that it ends too early. -/
def StopsEarly (read : Reader α) (written : Text) : Prop :=
  ∀ p, Cut p written → EndsEarly (read p)

theorem endsEarly_halt {cause : Cause} (h : cause.category = .early) (rest : Text) :
    EndsEarly (halt cause rest : Except Halt α) :=
  ⟨_, rfl, h⟩

theorem EndsEarly.bind {x : Except Halt α} (h : EndsEarly x) (f : α → Except Halt β) :
    EndsEarly (x >>= f) := by
  obtain ⟨e, rfl, he⟩ := h
  exact ⟨e, rfl, he⟩

theorem EndsEarly.closing {close : Text → Text × Option Cause} {inside : Except Halt (α × Text)}
    (h : EndsEarly inside) : EndsEarly (closing close inside) := by
  obtain ⟨e, rfl, he⟩ := h
  simp only [Json.closing]
  split
  · exact ⟨e, rfl, he⟩
  · exact ⟨_, rfl, he⟩

/-! ## Strings -/

theorem readHex_endsEarly {t : Text} (h : hasFourBytes t = false) : EndsEarly (readHex t) := by
  have hnot : ¬ hasFourBytes t = true := by
    rw [h]
    decide
  unfold readHex
  rw [if_neg hnot]
  exact endsEarly_halt rfl []

theorem utf8Size_digitChar : ∀ d < 16, (Nat.digitChar d).utf8Size = 1 := by decide

/-- Four digits are four bytes, and fewer are not. -/
theorem readUnit_endsEarly {d d' : Nat} (hd : d < 16) {p : Text}
    (h : Cut p ['0', '0', Nat.digitChar d, Nat.digitChar d']) : EndsEarly (readUnit p) := by
  refine EndsEarly.bind (readHex_endsEarly ?_) _
  have hzero : '0'.utf8Size = 1 := by decide
  have hsize := utf8Size_digitChar d hd
  rcases cut_cons h with rfl | ⟨q, rfl, hq⟩
  · decide
  rcases cut_cons hq with rfl | ⟨q', rfl, hq'⟩
  · decide
  rcases cut_cons hq' with rfl | ⟨q'', rfl, hq''⟩
  · decide
  obtain rfl := eq_nil_of_cut_singleton hq''
  simp [hasFourBytes, byteLength, hzero, hsize]

theorem readBodyFrom_endsEarly_of_escape {t : Text} (h : EndsEarly (readEscape t)) (taken : Text) :
    EndsEarly (readBodyFrom taken ('\\' :: t)) := by
  obtain ⟨e, he, hearly⟩ := h
  refine ⟨e, ?_, hearly⟩
  rw [readBodyFrom, if_neg (by decide), if_pos rfl]
  split
  · next y s hy =>
    rw [he] at hy
    contradiction
  · next e' he' =>
    rw [he] at he'
    cases he'
    rfl

theorem readBodyFrom_cut_writeChar {c : Char} {p : Text} (h : Cut p (writeChar c)) (taken : Text) :
    EndsEarly (readBodyFrom taken p) := by
  have hnil : EndsEarly (readBodyFrom taken []) := by
    rw [readBodyFrom]
    exact endsEarly_halt rfl []
  have hletter : ∀ x, Cut p ['\\', x] → EndsEarly (readBodyFrom taken p) := by
    intro x h
    rcases cut_cons h with rfl | ⟨q, rfl, hq⟩
    · exact hnil
    · obtain rfl := eq_nil_of_cut_singleton hq
      exact readBodyFrom_endsEarly_of_escape ⟨_, rfl, rfl⟩ taken
  unfold writeChar at h
  split at h
  -- the seven characters with a letter of their own
  iterate 7 exact hletter _ h
  next =>
    split at h
    · next hcontrol =>
      have hmark : "\\u00".toList = ['\\', 'u', '0', '0'] := rfl
      rw [hmark] at h
      rcases cut_cons h with rfl | ⟨q, rfl, hq⟩
      · exact hnil
      · refine readBodyFrom_endsEarly_of_escape ?_ taken
        rcases cut_cons hq with rfl | ⟨q', rfl, hq'⟩
        · exact ⟨_, rfl, rfl⟩
        · exact readUnit_endsEarly (Nat.div_lt_of_lt_mul (by omega)) hq'
    · obtain rfl := eq_nil_of_cut_singleton h
      exact hnil

theorem readBodyFrom_cut {t p : Text} (h : Cut p (t.flatMap writeChar ++ ['"'])) (taken : Text) :
    EndsEarly (readBodyFrom taken p) := by
  induction t generalizing p taken with
  | nil =>
    obtain rfl := eq_nil_of_cut_singleton h
    rw [readBodyFrom]
    exact endsEarly_halt rfl []
  | cons c t ih =>
    rw [List.flatMap_cons, List.append_assoc] at h
    rcases cut_append h with h | ⟨q, rfl, hq⟩
    · exact readBodyFrom_cut_writeChar h taken
    · rw [readBodyFrom_writeChar]
      exact ih hq (c :: taken)

theorem stopsEarly_text (t : Text) : StopsEarly readText (writeText t) := by
  intro p h
  rcases cut_cons h with rfl | ⟨q, rfl, hq⟩
  · exact endsEarly_halt rfl []
  · exact readBodyFrom_cut hq []

theorem stopsEarly_some {read : Reader α} {written : Text} {a : α}
    (h : ReadsBack read written a) (hearly : StopsEarly read written) :
    StopsEarly (readOptional read) written := by
  intro p hp
  obtain ⟨c, r, rfl, hspace, -, hword⟩ := h.opens
  have hread := hearly p hp
  have hskip : skipSpace p = p ∧ ∀ u, p ≠ 'n' :: u := by
    rcases cut_cons hp with rfl | ⟨q, rfl, -⟩
    · exact ⟨rfl, fun u hu => absurd hu (List.cons_ne_nil _ _).symm⟩
    · exact ⟨skipSpace_cons_of_not_isSpace hspace q, fun u hu => hword (List.cons.inj hu).1⟩
  unfold readOptional
  rw [hskip.1]
  split
  · next u => exact absurd rfl (hskip.2 u)
  · exact hread.bind _

/-! ## Lists and pairs -/

section Elements

variable {read : Reader α} {written rest p t : Text} {a : α} {first : Bool}

/-- Where a list breaks off inside an element there is nothing, or the element has begun. -/
theorem ReadsBack.cut_opens (h : ReadsBack read written a) (hp : Cut p written) :
    p = [] ∨ ∃ c r, p = c :: r ∧ skipSpace p = c :: r ∧ c ≠ ']' := by
  obtain ⟨c, r, rfl, hspace, hclose, -⟩ := h.opens
  rcases cut_cons hp with rfl | ⟨q, rfl, -⟩
  · exact .inl rfl
  · exact .inr ⟨c, q, rfl, skipSpace_cons_of_not_isSpace hspace q, hclose⟩

/-- The first element is not there, or it has begun. -/
theorem nextElement_first_cut (h : ReadsBack read written a) (hp : Cut p written) :
    EndsEarly (nextElement true p) ∨ NextElement true p p := by
  rcases h.cut_opens hp with rfl | ⟨c, r, rfl, hskip, hclose⟩
  · exact .inl ⟨_, rfl, rfl⟩
  · exact .inr (.first hskip hclose)

/-- Another element is not there, or it has begun. -/
theorem nextElement_comma_cut (h : ReadsBack read written a) (hp : Cut p written) :
    EndsEarly (nextElement false (',' :: p)) ∨ NextElement false (',' :: p) p := by
  have hcomma : skipSpace (',' :: p) = ',' :: p := skipSpace_cons_of_not_isSpace rfl p
  rcases h.cut_opens hp with rfl | ⟨c, r, rfl, hskip, hclose⟩
  · exact .inl ⟨_, rfl, rfl⟩
  · exact .inr (.comma hcomma hskip hclose)

/-- A list that breaks off inside the next element. -/
theorem readElements_endsEarly (hnext : EndsEarly (nextElement first t) ∨ NextElement first t p)
    (hread : EndsEarly (read p)) (n : Nat) : EndsEarly (readElements read n first t) := by
  cases n with
  | zero => exact ⟨_, rfl, rfl⟩
  | succ n =>
    rcases hnext with hnext | hnext
    · exact hnext.bind _
    · rw [readElements_succ, nextElement_eq_some_iff.2 hnext]
      exact hread.bind _

variable {write : α → Text} {as : List α}

/-- A list that breaks off behind its first element. -/
theorem readElements_cut (h : ∀ a ∈ as, ReadsBack read (write a) a)
    (hearly : ∀ a ∈ as, StopsEarly read (write a)) (n : Nat)
    (hp : Cut p ((as.map write).flatMap (',' :: ·) ++ [']'])) :
    EndsEarly (readElements read n false p) := by
  induction as generalizing n p with
  | nil =>
    obtain rfl := eq_nil_of_cut_singleton hp
    cases n <;> exact ⟨_, rfl, rfl⟩
  | cons a as ih =>
    have ha := h a List.mem_cons_self
    simp only [List.map_cons, List.flatMap_cons, List.cons_append, List.append_assoc] at hp
    rcases cut_cons hp with rfl | ⟨q, rfl, hq⟩
    · cases n <;> exact ⟨_, rfl, rfl⟩
    · rcases cut_append hq with hq | ⟨q', rfl, hq'⟩
      · have hread := hearly a List.mem_cons_self q hq
        exact readElements_endsEarly (nextElement_comma_cut ha hq) hread n
      · cases n with
        | zero => exact ⟨_, rfl, rfl⟩
        | succ n =>
          rw [readElements_cons ha (nextElement_comma ha q')]
          refine EndsEarly.bind (ih ?_ ?_ n hq') _
          · exact fun b hb => h b (List.mem_cons_of_mem a hb)
          · exact fun b hb => hearly b (List.mem_cons_of_mem a hb)

theorem cut_writeList {ws : List Text} (hp : Cut p (writeList ws)) :
    p = [] ∨ ∃ q, p = '[' :: q ∧ Cut q ([','].intercalate ws ++ [']']) :=
  cut_cons hp

theorem stopsEarly_list (h : ∀ a ∈ as, ReadsBack read (write a) a)
    (hearly : ∀ a ∈ as, StopsEarly read (write a)) :
    StopsEarly (readList read) (writeList (as.map write)) := by
  intro p hp
  rcases cut_writeList hp with rfl | ⟨q, rfl, hq⟩
  · exact ⟨_, rfl, rfl⟩
  · show EndsEarly (closing closeList (readElements read (q.length + 1) true q))
    refine EndsEarly.closing ?_
    cases as with
    | nil =>
      obtain rfl := eq_nil_of_cut_singleton hq
      exact ⟨_, rfl, rfl⟩
    | cons a as =>
      have ha := h a List.mem_cons_self
      rw [List.map_cons, intercalate_cons, List.append_assoc] at hq
      rcases cut_append hq with hq | ⟨q', rfl, hq'⟩
      · have hread := hearly a List.mem_cons_self q hq
        exact readElements_endsEarly (nextElement_first_cut ha hq) hread _
      · rw [readElements_cons ha (nextElement_first ha q')]
        refine EndsEarly.bind (readElements_cut ?_ ?_ _ hq') _
        · exact fun b hb => h b (List.mem_cons_of_mem a hb)
        · exact fun b hb => hearly b (List.mem_cons_of_mem a hb)

theorem readHalf_endsEarly (number : Nat)
    (hnext : EndsEarly (nextElement (number == 0) t) ∨ NextElement (number == 0) t p)
    (hread : EndsEarly (read p)) : EndsEarly (readHalf read number t) := by
  rcases hnext with hnext | hnext
  · exact hnext.bind _
  · rw [readHalf_of_next hnext]
    exact hread

theorem readHalf_written (number : Nat) (h : ReadsBack read written a)
    (hnext : nextElement (number == 0) t = .ok (some (written ++ rest))) :
    readHalf read number t = .ok (a, rest) := by
  rw [readHalf_of_next (nextElement_eq_some_iff.1 hnext), h.reads]

theorem stopsEarly_pair {right : Reader β} {written' : Text} {b : β}
    (ha : ReadsBack read written a) (hb : ReadsBack right written' b)
    (hearly : StopsEarly read written) (hearly' : StopsEarly right written') :
    StopsEarly (readPair read right) (writeList [written, written']) := by
  intro p hp
  rcases cut_writeList hp with rfl | ⟨q, rfl, hq⟩
  · exact ⟨_, rfl, rfl⟩
  · rw [intercalate_cons, List.append_assoc] at hq
    show EndsEarly (closing closeList (readHalf read 0 q >>= fun p =>
      readHalf right 1 p.2 >>= fun r => .ok ((p.1, r.1), r.2)))
    rcases cut_append hq with hq | ⟨q', rfl, hq'⟩
    · have hleft := readHalf_endsEarly 0 (nextElement_first_cut ha hq) (hearly q hq)
      exact (hleft.bind _).closing
    · rw [readHalf_written 0 ha (nextElement_first ha q')]
      show EndsEarly (closing closeList (readHalf right 1 q' >>= fun r => .ok ((a, r.1), r.2)))
      simp only [List.flatMap_cons, List.flatMap_nil, List.append_nil, List.cons_append] at hq'
      rcases cut_cons hq' with rfl | ⟨u, rfl, hu⟩
      · exact ⟨_, rfl, rfl⟩
      · rcases cut_append hu with hu | ⟨u', rfl, hu'⟩
        · have hright := readHalf_endsEarly 1 (nextElement_comma_cut hb hu) (hearly' u hu)
          exact (hright.bind _).closing
        · obtain rfl := eq_nil_of_cut_singleton hu'
          rw [readHalf_written 1 hb (nextElement_comma hb [])]
          exact ⟨_, rfl, rfl⟩

end Elements

/-! ## Records -/

section Records

variable {σ : Type} {fields : List (Field σ)} {field : Field σ} {d d' d'' : σ}
  {key written rest p t : Text} {es : List (Text × Text)} {first : Bool}

theorem readEntries_endsEarly_of_key (hnext : NextKey first t p) (h : EndsEarly (readBody p))
    (n : Nat) : EndsEarly (readEntries fields (n + 1) first d t) := by
  rw [readEntries_succ, nextKey_eq_some_iff.2 hnext]
  exact h.bind _

/-- An object that breaks off inside an entry or behind it. -/
theorem readEntries_entry_cut (hnext : NextKey first t p)
    (hfind : fields.find? (·.key = key) = some field) (hset : field.isSet d = false)
    (hread : ∀ rest, field.read d (written ++ rest) = .ok (d', rest))
    (hearly : StopsEarly (field.read d) written)
    (hmore : ∀ n q, Cut q rest → EndsEarly (readEntries fields n false d' q))
    (hp : Cut p (key.flatMap writeChar ++ '"' :: ':' :: (written ++ rest))) (n : Nat) :
    EndsEarly (readEntries fields n first d t) := by
  cases n with
  | zero => exact ⟨_, rfl, rfl⟩
  | succ n =>
    have hsplit : key.flatMap writeChar ++ '"' :: ':' :: (written ++ rest)
        = (key.flatMap writeChar ++ ['"']) ++ ':' :: (written ++ rest) := by
      rw [List.append_assoc]
      rfl
    rw [hsplit] at hp
    rcases cut_append hp with hp | ⟨q, rfl, hq⟩
    · exact readEntries_endsEarly_of_key hnext (readBodyFrom_cut hp []) n
    · have hbody : readBody (key.flatMap writeChar ++ ['"'] ++ q) = .ok (key, q) := by
        rw [List.append_assoc]
        exact readBody_written key q
      rcases cut_cons hq with rfl | ⟨u, rfl, hu⟩
      · rw [readEntries_of_known hnext hbody hfind hset]
        exact ⟨_, rfl, rfl⟩
      · have hcolon : skipSpace (':' :: u) = ':' :: u := skipSpace_cons_of_not_isSpace rfl u
        rw [readEntries_of_field hnext hbody hcolon hfind hset]
        rcases cut_append hu with hu | ⟨u', rfl, hu'⟩
        · exact (hearly u hu).bind _
        · rw [hread u']
          exact hmore n u' hu'

/-- What is written for a field, wherever it is read, is not taken for a value before its end. -/
def FieldsStopEarly (fields : List (Field σ)) (es : List (Text × Text)) : Prop :=
  ∀ e ∈ es, ∀ field, fields.find? (·.key = e.1) = some field → ∀ d, StopsEarly (field.read d) e.2

theorem fieldsStopEarly_nil (fields : List (Field σ)) : FieldsStopEarly fields [] := by
  intro e he
  contradiction

theorem fieldsStopEarly_cons {e : Text × Text} (hfind : fields.find? (·.key = e.1) = some field)
    (h : ∀ d, StopsEarly (field.read d) e.2) (hmore : FieldsStopEarly fields es) :
    FieldsStopEarly fields (e :: es) := by
  intro e' he' field' hfind' d
  rcases List.mem_cons.1 he' with rfl | he'
  · rw [hfind] at hfind'
    cases hfind'
    exact h d
  · exact hmore e' he' field' hfind' d

/-- An object that breaks off behind its first entry. -/
theorem readEntries_cut (h : Fills fields d es d') (hearly : FieldsStopEarly fields es) (n : Nat)
    (hp : Cut p ((es.map writeEntry).flatMap (',' :: ·) ++ ['\x7d'])) :
    EndsEarly (readEntries fields n false d p) := by
  induction h generalizing n p with
  | nil =>
    obtain rfl := eq_nil_of_cut_singleton hp
    cases n <;> exact ⟨_, rfl, rfl⟩
  | @cons field d d' d'' key written es hfind hset hread more ih =>
    simp only [List.map_cons, List.flatMap_cons, List.cons_append, List.append_assoc,
      writeEntry_append] at hp
    rcases cut_cons hp with rfl | ⟨q, rfl, hq⟩
    · cases n <;> exact ⟨_, rfl, rfl⟩
    · rcases cut_cons hq with rfl | ⟨u, rfl, hu⟩
      · cases n <;> exact ⟨_, rfl, rfl⟩
      · have hnext : NextKey false (',' :: '"' :: u) u := nextKey_eq_some_iff.1 (nextKey_comma u)
        have hvalue := hearly (key, written) List.mem_cons_self field hfind d
        have hmore : FieldsStopEarly fields es :=
          fun e he => hearly e (List.mem_cons_of_mem _ he)
        exact readEntries_entry_cut hnext hfind hset hread hvalue (fun n q => ih hmore n) hu n

theorem stopsEarly_record {α : Type} {shape : Shape σ α} (h : Fills shape.fields shape.empty es d)
    (hearly : FieldsStopEarly shape.fields es) :
    StopsEarly (readRecord shape) (writeObject es) := by
  intro p hp
  have hcut : p = [] ∨ ∃ q, p = '\x7b' :: q
      ∧ Cut q ([','].intercalate (es.map writeEntry) ++ ['\x7d']) := cut_cons hp
  rcases hcut with rfl | ⟨q, rfl, hq⟩
  · exact ⟨_, rfl, rfl⟩
  · show EndsEarly (closing closeObject
      (readEntries shape.fields (q.length + 1) true shape.empty q >>= shape.finishAt shape.missing))
    refine (EndsEarly.bind ?_ _).closing
    generalize q.length + 1 = n
    cases h with
    | nil =>
      obtain rfl := eq_nil_of_cut_singleton hq
      cases n <;> exact ⟨_, rfl, rfl⟩
    | @cons field _ d' _ key written es hfind hset hread more =>
      rw [List.map_cons, intercalate_cons, List.append_assoc, writeEntry_append] at hq
      rcases cut_cons hq with rfl | ⟨u, rfl, hu⟩
      · cases n <;> exact ⟨_, rfl, rfl⟩
      · have hnext : NextKey true ('"' :: u) u := nextKey_eq_some_iff.1 (nextKey_first u)
        have hvalue := hearly (key, written) List.mem_cons_self field hfind shape.empty
        have hmore : FieldsStopEarly shape.fields es :=
          fun e he => hearly e (List.mem_cons_of_mem _ he)
        exact readEntries_entry_cut hnext hfind hset hread hvalue
          (fun n q => readEntries_cut more hmore n) hu n

end Records

/-! ## Whole texts -/

theorem readAll_cut {read : Reader α} {written p : Text} (h : StopsEarly read written)
    (hp : Cut p written) : ∃ f, readAll read p = .error f ∧ f.cause.category = .early := by
  obtain ⟨e, he, hearly⟩ := h p hp
  have hwhole : readWhole? read p = .error e := by
    rw [readWhole?, he]
    rfl
  rw [readAll, hwhole]
  exact ⟨_, rfl, hearly⟩

end RefBook.Json
