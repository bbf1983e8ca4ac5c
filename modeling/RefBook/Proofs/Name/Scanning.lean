import Mathlib.Data.List.TakeWhile
import RefBook.Name.Reference
import RefBook.Proofs.Text.Divisions

/-!
# RefBook.Proofs.Name.Scanning — the references of a signature, from left to right

What a scan for references finds, said without the scan: at every place the longest reference that
begins there, and a single character where none begins.

* `IsComponent`, `IsReference`: a reference is two components or more with single dots between.
* `Span`, `Span.IsNext`, `IsScan`: a scan cuts a text into references and characters outside them,
  each of which is what comes next at its place.
* `nextIsOne_span`, `isScan_iff`: every text has one scan.
* `scanInduction`: a text is empty, or a character at which no component begins stands in front of
  a text, or components with dots between end in front of one (`EndsReference`).
* `pieces_append`, `isScan_spans`: the pieces of a text are its scan.
* `stripModule_eq_scan`: shortening the references of a module is shortening them in the scan.
-/

namespace RefBook

/-! ## References -/

/-- A component of a reference: a character that may begin one, then characters that may go on. -/
def IsComponent (t : Text) : Prop :=
  ∃ c r, t = c :: r ∧ isReferenceStart c = true ∧ ∀ d ∈ r, isReferencePart d = true

/-- A dotted reference: two components or more, with single dots between. -/
def IsReference (t : Text) : Prop :=
  ∃ cs, 2 ≤ cs.length ∧ (∀ c ∈ cs, IsComponent c) ∧ t = dotted cs

section References

variable {c : Char} {d v t x y : Text} {cs ds : List Text}

theorem isReferencePart_of_isReferenceStart (h : isReferenceStart c = true) :
    isReferencePart c = true := by
  rw [isReferenceStart, Bool.or_eq_true] at h
  rcases h with h | h <;> simp [isReferencePart, Char.isAlphanum, h]

theorem IsComponent.ne_nil (h : IsComponent d) : d ≠ [] := by
  obtain ⟨c, r, rfl, -, -⟩ := h
  exact List.cons_ne_nil c r

theorem IsComponent.isReferencePart (h : IsComponent d) : ∀ c ∈ d, isReferencePart c = true := by
  obtain ⟨c, r, rfl, hc, hr⟩ := h
  exact List.forall_mem_cons.mpr ⟨isReferencePart_of_isReferenceStart hc, hr⟩

theorem IsComponent.dot_not_mem (h : IsComponent d) : '.' ∉ d := by
  intro hdot
  have hpart := h.isReferencePart '.' hdot
  contradiction

theorem dotted_cons (d : Text) (ds : List Text) :
    dotted (d :: ds) = d ++ ds.flatMap ('.' :: ·) :=
  intercalate_cons '.' d ds

/-- The components can be told from the reference. -/
theorem eq_of_dotted_eq (hcs : ∀ c ∈ cs, IsComponent c) (hds : ∀ d ∈ ds, IsComponent d)
    (hcs' : cs ≠ []) (hds' : ds ≠ []) (h : dotted cs = dotted ds) : cs = ds := by
  have hsplit := congrArg (·.splitOn '.') h
  simp only [dotted] at hsplit
  rwa [List.splitOn_intercalate '.' (fun c hc => (hcs c hc).dot_not_mem) hcs',
    List.splitOn_intercalate '.' (fun d hd => (hds d hd).dot_not_mem) hds'] at hsplit

theorem IsReference.exists_cons (h : IsReference t) :
    ∃ d ds, t = d ++ ds.flatMap ('.' :: ·) ∧ IsComponent d ∧ ds ≠ [] ∧ ∀ c ∈ ds, IsComponent c := by
  obtain ⟨cs, hlength, hcs, rfl⟩ := h
  cases cs with
  | nil => simp at hlength
  | cons d ds =>
    obtain ⟨hd, hds⟩ := List.forall_mem_cons.mp hcs
    refine ⟨d, ds, dotted_cons d ds, hd, ?_, hds⟩
    rintro rfl
    simp at hlength

/-! ## Where references end -/

/-- A component in front of the text ends there. -/
def EndsComponent (t : Text) : Prop :=
  ∀ c r, t = c :: r → isReferencePart c = false

/-- No reference in front of the text goes on into it. -/
structure EndsReference (t : Text) : Prop where
  /-- The last component ends there. -/
  part : EndsComponent t
  /-- No dot leads to a further one. -/
  dot : ∀ c r, t = '.' :: c :: r → isReferenceStart c = false

variable {rest : Text}

theorem endsComponent_dot (t : Text) : EndsComponent ('.' :: t) := by
  intro c r h
  obtain ⟨rfl, -⟩ := List.cons_eq_cons.mp h
  rfl

theorem takeWhile_append_of_ends (hd : ∀ c ∈ d, isReferencePart c = true)
    (hx : EndsComponent x) : (d ++ x).takeWhile isReferencePart = d := by
  rw [List.takeWhile_append_of_pos hd]
  cases x with
  | nil => simp
  | cons c r => simp [hx c r rfl]

theorem dropWhile_append_of_ends (hd : ∀ c ∈ d, isReferencePart c = true)
    (hx : EndsComponent x) : (d ++ x).dropWhile isReferencePart = x := by
  have hwhole := List.takeWhile_append_dropWhile (p := isReferencePart) (l := d ++ x)
  rw [takeWhile_append_of_ends hd hx] at hwhole
  exact List.append_cancel_left hwhole

/-- Of two beginnings of components the one that ends is not the shorter one. -/
theorem length_le_of_begins (hd : ∀ c ∈ d, isReferencePart c = true)
    (hv : ∀ c ∈ v, isReferencePart c = true) (hx : EndsComponent x)
    (h : d <+: v ++ x) : d.length ≤ v.length := by
  obtain ⟨z, hz⟩ := h
  have hv' : (d ++ z).takeWhile isReferencePart = v := by
    rw [hz, takeWhile_append_of_ends hv hx]
  rw [List.takeWhile_append_of_pos hd] at hv'
  rw [← hv', List.length_append]
  omega

/-- Components that end at the same place are the same. -/
theorem eq_of_begins (hd : ∀ c ∈ d, isReferencePart c = true)
    (hv : ∀ c ∈ v, isReferencePart c = true) (hx : EndsComponent x)
    (h : d ++ '.' :: y <+: v ++ x) : d = v ∧ '.' :: y <+: x := by
  obtain ⟨z, hz⟩ := h
  rw [List.append_assoc, List.cons_append] at hz
  have hdv : d = v := by
    rw [← takeWhile_append_of_ends hd (endsComponent_dot (y ++ z)), hz,
      takeWhile_append_of_ends hv hx]
  subst hdv
  exact ⟨rfl, z, List.append_cancel_left hz⟩

namespace EndsReference

theorem nil : EndsReference [] := ⟨by simp [EndsComponent], by simp⟩

/-- A component ends where further ones, each behind a dot, or the rest follow. -/
theorem endsComponent_dots (h : EndsReference rest) (cs : List Text) :
    EndsComponent (cs.flatMap ('.' :: ·) ++ rest) := by
  cases cs with
  | nil => exact h.part
  | cons d cs => exact endsComponent_dot _

/-- Behind a component, no further ones go beyond those that stand there. -/
theorem length_dots_le (h : EndsReference rest) (hcs : ∀ c ∈ cs, IsComponent c)
    (hds : ∀ d ∈ ds, IsComponent d)
    (hbegins : ds.flatMap ('.' :: ·) <+: cs.flatMap ('.' :: ·) ++ rest) :
    (ds.flatMap ('.' :: ·)).length ≤ (cs.flatMap ('.' :: ·)).length := by
  induction ds generalizing cs with
  | nil => simp
  | cons d ds ih =>
    obtain ⟨hd, hds⟩ := List.forall_mem_cons.mp hds
    rw [List.flatMap_cons, List.cons_append] at hbegins
    cases cs with
    | nil =>
      -- a dot and the first character of a component would go on into the rest
      obtain ⟨c, r, rfl, hc, -⟩ := hd
      obtain ⟨z, hz⟩ := hbegins
      have hstart := h.dot c _ hz.symm
      rw [hc] at hstart
      contradiction
    | cons v cs =>
      obtain ⟨hv, hmore⟩ := List.forall_mem_cons.mp hcs
      rw [List.flatMap_cons, List.cons_append, List.cons_append, List.append_assoc,
        List.cons_prefix_cons] at hbegins
      have hends := h.endsComponent_dots cs
      rw [List.flatMap_cons, List.flatMap_cons, List.length_append, List.length_append,
        List.length_cons, List.length_cons]
      cases ds with
      | nil =>
        rw [List.flatMap_nil, List.append_nil] at hbegins
        have hle := length_le_of_begins hd.isReferencePart hv.isReferencePart hends hbegins.2
        rw [List.flatMap_nil, List.length_nil]
        omega
      | cons d' ds =>
        obtain ⟨rfl, hrest⟩ :=
          eq_of_begins hd.isReferencePart hv.isReferencePart hends hbegins.2
        have hle := ih hmore hds hrest
        omega

/-- A reference that begins inside a component goes on to its end and behind the next dot, and no
further than the components go. -/
theorem length_le (h : EndsReference rest) (hv : ∀ c ∈ v, isReferencePart c = true)
    (hcs : ∀ c ∈ cs, IsComponent c) (ht : IsReference t)
    (hbegins : t <+: v ++ (cs.flatMap ('.' :: ·) ++ rest)) :
    cs ≠ [] ∧ t.length ≤ (v ++ cs.flatMap ('.' :: ·)).length := by
  obtain ⟨d, ds, rfl, hd, hne, hds⟩ := ht.exists_cons
  cases ds with
  | nil => exact absurd rfl hne
  | cons e ds =>
    obtain ⟨rfl, hrest⟩ := eq_of_begins hd.isReferencePart hv (h.endsComponent_dots cs) hbegins
    have hle := h.length_dots_le hcs hds hrest
    rw [List.length_append, List.length_append]
    refine ⟨?_, by omega⟩
    rintro rfl
    simp at hle

end EndsReference

end References

/-! ## Scans -/

/-- A part of a signature. -/
inductive Span where
  /-- A reference, with the components before the last apart. -/
  | reference (qualifier : List Text) (name : Text)
  /-- A character outside references. -/
  | outside (c : Char)
deriving DecidableEq, Repr

namespace Span

/-- The text of a span. -/
def text : Span → Text
  | reference qualifier name => dotted (qualifier ++ [name])
  | outside c => [c]

/-- The span is what a scan finds where it stands before the given text: the longest reference that
begins there, or a character where none begins. -/
def IsNext (rest : Text) : Span → Prop
  | reference qualifier name => qualifier ≠ [] ∧ (∀ c ∈ qualifier ++ [name], IsComponent c)
      ∧ ∀ t, IsReference t → t <+: dotted (qualifier ++ [name]) ++ rest →
        t.length ≤ (dotted (qualifier ++ [name])).length
  | outside c => ∀ t, IsReference t → ¬ t <+: c :: rest

/-- What the module `owner` shows of a span: a reference that its name qualifies exactly is cut to
its last component. -/
def seenFrom (owner : Text) : Span → Text
  | reference qualifier name =>
    if dotted qualifier = owner then name else dotted (qualifier ++ [name])
  | outside c => [c]

end Span

/-- The spans that a scan of the text finds from left to right. -/
def IsScan (t : Text) (ss : List Span) : Prop :=
  IsDivision Span.text Span.IsNext t ss

section Scans

variable {rest rest' : Text} {s s' : Span}

theorem Span.IsNext.isReference {qualifier : List Text} {name : Text}
    (h : (Span.reference qualifier name).IsNext rest) :
    IsReference (dotted (qualifier ++ [name])) := by
  refine ⟨qualifier ++ [name], ?_, h.2.1, rfl⟩
  have := List.length_pos_iff.mpr h.1
  rw [List.length_append, List.length_singleton]
  omega

theorem IsReference.ne_nil {t : Text} (h : IsReference t) : t ≠ [] := by
  obtain ⟨d, ds, rfl, hd, -⟩ := h.exists_cons
  exact List.append_ne_nil_of_left_ne_nil hd.ne_nil _

/-- One span only comes next: neither of two longest references is longer. -/
theorem nextIsOne_span : NextIsOne Span.text Span.IsNext where
  ne_nil := by
    rintro rest (⟨q, n⟩ | c) h
    · exact h.isReference.ne_nil
    · exact List.cons_ne_nil c []
  unique := by
    rintro rest rest' (⟨q, n⟩ | c) (⟨q', n'⟩ | c') hs hs' h
    · have hle := hs'.2.2 _ hs.isReference ⟨rest, h⟩
      have hge := hs.2.2 _ hs'.isReference ⟨rest', h.symm⟩
      obtain ⟨htext, hrest⟩ := List.append_inj h (Nat.le_antisymm hle hge)
      have hsame := eq_of_dotted_eq hs.2.1 hs'.2.1 (by simp) (by simp) htext
      obtain ⟨hq, hn⟩ := List.append_inj' hsame rfl
      rw [hq, List.singleton_inj.mp hn]
      exact ⟨rfl, hrest⟩
    · exact absurd ⟨rest, h⟩ (hs' _ hs.isReference)
    · exact absurd ⟨rest', h.symm⟩ (hs _ hs'.isReference)
    · obtain ⟨rfl, rfl⟩ := List.cons_eq_cons.mp h
      exact ⟨rfl, rfl⟩

end Scans

/-! ## The pieces of a text -/

section Pieces

variable {t rest w : Text} {c : Char} {cs : List Text} {ss : List Span}

theorem endsComponent_dropWhile (t : Text) : EndsComponent (t.dropWhile isReferencePart) := by
  intro c r h
  have hhead := List.head?_dropWhile_not isReferencePart t
  rw [h] at hhead
  exact hhead

theorem isComponent_takeWhile {c : Char} (h : isReferenceStart c = true) (r : Text) :
    IsComponent (c :: r.takeWhile isReferencePart) :=
  ⟨c, _, rfl, h, fun _ hd => List.mem_takeWhile_imp hd⟩

/-- The components that follow behind dots, up to where references end. -/
theorem moreComponents_spec (t : Text) : (∀ c ∈ (moreComponents t).1, IsComponent c)
    ∧ (EndsComponent t → EndsReference (moreComponents t).2) := by
  fun_induction moreComponents t with
  | case1 c r h cs rest hr ih =>
    rw [hr] at ih
    exact ⟨List.forall_mem_cons.mpr ⟨isComponent_takeWhile h r, ih.1⟩,
      fun _ => ih.2 (endsComponent_dropWhile r)⟩
  | case2 c r h =>
    refine ⟨by simp, fun hpart => ⟨hpart, ?_⟩⟩
    rintro _ _ ⟨rfl, rfl⟩
    simpa using h
  | case3 t hdot =>
    refine ⟨by simp, fun hpart => ⟨hpart, ?_⟩⟩
    rintro c r rfl
    exact absurd rfl (hdot c r)

/-- Every text is empty, or begins with a character that begins no component, or with components
that end before the rest. -/
theorem scanInduction {motive : Text → Prop} (nil : motive [])
    (outside : ∀ c r, isReferenceStart c = false → motive r → motive (c :: r))
    (components : ∀ (d : Text) (ds : List Text) (rest : Text), IsComponent d →
      (∀ c ∈ ds, IsComponent c) → EndsReference rest → motive rest →
      motive (d ++ (ds.flatMap ('.' :: ·) ++ rest))) (t : Text) : motive t := by
  fun_induction pieces t with
  | case1 => exact nil
  | case2 c r h tail ih =>
    obtain ⟨hcs, hends⟩ := moreComponents_spec (r.dropWhile isReferencePart)
    have hrest := hends (endsComponent_dropWhile r)
    have hmotive := components _ _ _ (isComponent_takeWhile h r) hcs hrest ih
    rwa [text_moreComponents, List.cons_append, List.takeWhile_append_dropWhile] at hmotive
  | case3 c r h ih => exact outside c r (by simpa using h) ih

theorem moreComponents_append (h : EndsReference rest) (hcs : ∀ c ∈ cs, IsComponent c) :
    moreComponents (cs.flatMap ('.' :: ·) ++ rest) = (cs, rest) := by
  induction cs with
  | nil =>
    rw [List.flatMap_nil, List.nil_append]
    unfold moreComponents
    split
    · next c r => rw [h.dot c r rfl, if_neg Bool.false_ne_true]
    · rfl
  | cons d cs ih =>
    obtain ⟨⟨c, r, rfl, hc, hr⟩, hmore⟩ := List.forall_mem_cons.mp hcs
    rw [List.flatMap_cons, List.cons_append, List.cons_append, List.append_assoc, List.cons_append,
      moreComponents, if_pos hc, takeWhile_append_of_ends hr (h.endsComponent_dots cs),
      dropWhile_append_of_ends hr (h.endsComponent_dots cs), ih hmore]

/-- Components that end before the rest are one piece. -/
theorem pieces_append (hw : IsComponent w) (hcs : ∀ c ∈ cs, IsComponent c)
    (h : EndsReference rest) :
    pieces (w ++ (cs.flatMap ('.' :: ·) ++ rest)) = .reference w cs :: pieces rest := by
  obtain ⟨c, r, rfl, hc, hr⟩ := hw
  rw [List.cons_append, pieces, if_pos hc]
  have hends := h.endsComponent_dots cs
  simp only [takeWhile_append_of_ends hr hends, dropWhile_append_of_ends hr hends,
    moreComponents_append h hcs]

theorem pieces_outside (h : isReferenceStart c = false) (r : Text) :
    pieces (c :: r) = .other c :: pieces r := by
  rw [pieces, if_neg (by simp [h])]

end Pieces

/-! ## The scan of a text -/

/-- The spans of a piece: a word without dots is no reference. -/
def Piece.spans : Piece → List Span
  | reference head more =>
    match more.getLast? with
    | some name => [.reference (head :: more.dropLast) name]
    | none => head.map .outside
  | other c => [.outside c]

/-- The spans of a text, piece by piece. -/
def spans (t : Text) : List Span :=
  (pieces t).flatMap Piece.spans

section Spans

variable {t rest w name : Text} {c : Char} {cs qualifier : List Text} {ss : List Span}

theorem Piece.spans_word (head : Text) : (reference head []).spans = head.map .outside := rfl

theorem Piece.spans_concat (head : Text) (more : List Text) (name : Text) :
    (reference head (more ++ [name])).spans = [.reference (head :: more) name] := by
  rw [spans, List.getLast?_concat, List.dropLast_concat]

theorem Piece.seenFrom_eq (owner : Text) (p : Piece) :
    p.seenFrom owner = p.spans.flatMap (Span.seenFrom owner) := by
  cases p with
  | other c => rfl
  | reference head more =>
    rcases List.eq_nil_or_concat more with rfl | ⟨front, name, rfl⟩
    · rw [spans_word, List.flatMap_map]
      simp [seenFrom, text, Span.seenFrom]
    · rw [List.concat_eq_append, spans_concat, List.flatMap_singleton, Span.seenFrom, seenFrom,
        List.getLast?_concat, List.dropLast_concat]
      simp only [text, List.cons_append, dotted_cons]

/-- With no character of a word a reference begins. -/
theorem isScan_word_append (hw : ∀ c ∈ w, isReferencePart c = true) (h : EndsReference rest)
    (hss : IsScan rest ss) : IsScan (w ++ rest) (w.map .outside ++ ss) := by
  induction w with
  | nil => exact hss
  | cons c w ih =>
    obtain ⟨-, hmore⟩ := List.forall_mem_cons.mp hw
    refine isDivision_cons_iff.mpr ⟨w ++ rest, rfl, ?_, ih hmore⟩
    intro t ht hbegins
    have hdots : t <+: (c :: w) ++ (([] : List Text).flatMap ('.' :: ·) ++ rest) := by
      simpa using hbegins
    exact (h.length_le hw (by simp) ht hdots).1 rfl

/-- Components that end before the rest are the longest reference. -/
theorem isScan_reference_append (hq : qualifier ≠ [])
    (hcs : ∀ c ∈ qualifier ++ [name], IsComponent c) (h : EndsReference rest)
    (hss : IsScan rest ss) :
    IsScan (dotted (qualifier ++ [name]) ++ rest) (.reference qualifier name :: ss) := by
  refine isDivision_cons_iff.mpr ⟨rest, rfl, ⟨hq, hcs, ?_⟩, hss⟩
  intro t ht hbegins
  obtain ⟨d, ds, hd⟩ := List.exists_cons_of_ne_nil (List.append_ne_nil_of_left_ne_nil hq [name])
  rw [hd] at hcs hbegins ⊢
  obtain ⟨hcomponent, hmore⟩ := List.forall_mem_cons.mp hcs
  rw [dotted_cons] at hbegins ⊢
  rw [List.append_assoc] at hbegins
  exact (h.length_le hcomponent.isReferencePart hmore ht hbegins).2

/-- The pieces of a text are its scan. -/
theorem isScan_spans (t : Text) : IsScan t (spans t) := by
  induction t using scanInduction with
  | nil =>
    rw [spans, pieces]
    exact isDivision_nil
  | outside c r hc ih =>
    rw [spans, pieces_outside hc]
    refine isDivision_cons_iff.mpr ⟨r, rfl, ?_, ih⟩
    rintro t ht ⟨z, hz⟩
    -- a reference begins with what may begin a component
    obtain ⟨d, ds, rfl, ⟨e, r', rfl, he, -⟩, -⟩ := ht.exists_cons
    obtain ⟨rfl, -⟩ := List.cons_eq_cons.mp hz
    rw [he] at hc
    contradiction
  | components d ds rest hd hds hrest ih =>
    rw [spans, pieces_append hd hds hrest, List.flatMap_cons]
    rcases List.eq_nil_or_concat ds with rfl | ⟨qualifier, name, rfl⟩
    · exact isScan_word_append hd.isReferencePart hrest ih
    · rw [List.concat_eq_append] at hds ⊢
      rw [Piece.spans_concat, ← List.append_assoc, ← dotted_cons]
      exact isScan_reference_append (List.cons_ne_nil d qualifier)
        (List.forall_mem_cons.mpr ⟨hd, hds⟩) hrest ih

theorem isScan_iff : IsScan t ss ↔ ss = spans t := by
  refine ⟨(isScan_spans t).unique nextIsOne_span, ?_⟩
  rintro rfl
  exact isScan_spans t

-- a dot with nothing to lead to is no part of a reference
example : spans "1Foo.U..T".toList = [.outside '1', .reference ["Foo".toList] "U".toList,
    .outside '.', .outside '.', .outside 'T'] := by cbv

theorem stripModule_eq_spans (owner signature : Text) :
    stripModule owner signature = (spans signature).flatMap (Span.seenFrom owner) := by
  rw [stripModule, spans, List.flatMap_assoc]
  simp only [Piece.seenFrom_eq]

/-- The qualifier of a reference in a scan is not empty, and it is spelled by components. -/
theorem IsScan.components_of_mem (h : IsScan t ss) (hmem : .reference qualifier name ∈ ss) :
    qualifier ≠ [] ∧ ∀ c ∈ qualifier ++ [name], IsComponent c := by
  obtain ⟨rest, hq, hcs, -⟩ := h.exists_next hmem
  exact ⟨hq, hcs⟩

/-- Where the module's name qualifies no reference, nothing is shortened. -/
theorem stripModule_eq_self {owner : Text}
    (h : ∀ qualifier name, .reference qualifier name ∈ spans t → dotted qualifier ≠ owner) :
    stripModule owner t = t := by
  have hsame : ∀ s ∈ spans t, s.seenFrom owner = s.text := by
    intro s hs
    cases s with
    | outside c => rfl
    | reference qualifier name => exact if_neg (h qualifier name hs)
  rw [stripModule_eq_spans, List.flatMap_def, List.map_congr_left hsame, ← List.flatMap_def]
  exact (isScan_spans t).content_eq

end Spans

/-- **Only the module's own references are shortened.**  A signature has one scan: from left to
right, the longest reference that begins at a place, or the character there where none begins.
Unqualified, it shows every reference that the module's name qualifies exactly by its last component
and all else as it is.  A module without a name changes nothing. -/
theorem stripModule_eq_scan (signature : Text) :
    ∃ ss, (∀ ss', IsScan signature ss' ↔ ss' = ss)
      ∧ (∀ owner, stripModule owner signature = ss.flatMap (Span.seenFrom owner))
      ∧ stripModule [] signature = signature := by
  refine ⟨spans signature, fun ss' => isScan_iff, fun owner => stripModule_eq_spans owner signature,
    stripModule_eq_self fun qualifier name hmem hempty => ?_⟩
  obtain ⟨hq, hcs⟩ := (isScan_spans signature).components_of_mem hmem
  obtain ⟨d, ds, rfl⟩ := List.exists_cons_of_ne_nil hq
  rw [dotted_cons, List.append_eq_nil_iff] at hempty
  exact (hcs d List.mem_cons_self).ne_nil hempty.1

end RefBook
