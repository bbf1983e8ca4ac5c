import RefBook.Comment.Fence
import RefBook.Proofs.Text.Divisions

/-!
# RefBook.Proofs.Comment.Runs — code samples in maximal runs

Fencing said without its scan: the lines of a comment are cut into runs of code samples and other
lines, each run is put between fences, and everything else stays.

* `IsSample`: a line with the indent of a code sample and something to see behind it.
* `IsRun`, `SampleAhead`, `CutInRuns`: a run begins and ends with a sample, holds samples and blank
  lines only, and no further sample is reachable from its end through such lines.
* `nextIsOne_stretch`, `exists_cutInRuns`: every list of lines is cut in one way.
* `CutInRuns.fenceLines_eq`: fencing a cut is fencing its runs.
* `fenceCode_eq_fenced_runs`: so the comment with its code fenced is that cut with its runs fenced.
-/

namespace RefBook

/-! ## Lines -/

/-- A line of a code sample: four spaces, then something that is not blank. -/
def IsSample (line : Text) : Prop :=
  ∃ code, line = codeIndent ++ code ∧ isBlank code = false

/-- A line that may stand inside a run. -/
def MayStandInRun (line : Text) : Prop :=
  IsSample line ∨ isBlank line = true

section Line

variable {line code : Text}

theorem codeSample?_eq_some_iff :
    codeSample? line = some code ↔ line = codeIndent ++ code ∧ isBlank code = false := by
  rw [codeSample?, Option.filter_eq_some_iff, dropLeading_eq_some_iff, Bool.not_eq_true']

theorem IsSample.codeSample?_eq (h : IsSample line) :
    codeSample? line = some (line.drop codeIndent.length) := by
  obtain ⟨code, rfl, hcode⟩ := h
  rw [List.drop_left, codeSample?_eq_some_iff]
  exact ⟨rfl, hcode⟩

theorem codeSample?_eq_none_iff : codeSample? line = none ↔ ¬ IsSample line := by
  constructor
  · intro hnone h
    rw [h.codeSample?_eq] at hnone
    contradiction
  · intro h
    rw [Option.eq_none_iff_forall_ne_some]
    intro code hcode
    exact h ⟨code, codeSample?_eq_some_iff.mp hcode⟩

theorem IsSample.not_blank (h : IsSample line) : isBlank line = false := by
  obtain ⟨code, rfl, hcode⟩ := h
  have hindent : isBlank codeIndent = true := by decide
  rw [isBlank] at hcode hindent ⊢
  rw [List.all_append, hindent, hcode, Bool.and_false]

end Line

/-! ## Runs -/

/-- A code sample is reachable from the front of the lines through samples and blank lines only. -/
def SampleAhead (ls : List Text) : Prop :=
  ∃ between line after, ls = between ++ line :: after ∧ IsSample line
    ∧ ∀ b ∈ between, MayStandInRun b

/-- Samples and blank lines up to a last sample. -/
structure EndsInSample (ls : List Text) : Prop where
  /-- Nothing else stands among them. -/
  all : ∀ line ∈ ls, MayStandInRun line
  /-- The last line is a sample. -/
  last : ∃ line, ls.getLast? = some line ∧ IsSample line

/-- A run: samples and blank lines, of which the first and the last are samples. -/
structure IsRun (ls : List Text) : Prop extends EndsInSample ls where
  /-- The first line is a sample. -/
  first : ∃ line, ls.head? = some line ∧ IsSample line

/-- The lines of a run without the blank ones, each without its indent. -/
def unindented (ls : List Text) : List Text :=
  (ls.filter fun line => !isBlank line).map fun line => line.drop codeIndent.length

section Runs

variable {ls rest : List Text} {line : Text}

theorem EndsInSample.ne_nil (h : EndsInSample ls) : ls ≠ [] := by
  rintro rfl
  obtain ⟨line, hline, -⟩ := h.last
  contradiction

theorem EndsInSample.cons (h : EndsInSample ls) (hline : MayStandInRun line) :
    EndsInSample (line :: ls) := by
  obtain ⟨last, hlast, hsample⟩ := h.last
  refine ⟨List.forall_mem_cons.mpr ⟨hline, h.all⟩, last, ?_, hsample⟩
  rw [List.getLast?_cons, hlast, Option.getD_some]

/-- A sample in front of a run, or of nothing, begins one. -/
theorem IsSample.endsInSample_cons (h : IsSample line) (hls : ls = [] ∨ EndsInSample ls) :
    EndsInSample (line :: ls) := by
  rcases hls with rfl | hls
  · exact ⟨by simp [MayStandInRun, h], line, rfl, h⟩
  · exact hls.cons (Or.inl h)

theorem EndsInSample.cases_cons (h : EndsInSample (line :: ls)) :
    IsSample line ∧ ls = [] ∨ EndsInSample ls := by
  obtain ⟨last, hlast, hsample⟩ := h.last
  cases ls with
  | nil =>
    obtain rfl : line = last := Option.some.inj hlast
    exact Or.inl ⟨hsample, rfl⟩
  | cons next more =>
    exact Or.inr ⟨fun l hl => h.all l (List.mem_cons_of_mem line hl), last, hlast, hsample⟩

/-- Before a run there is a sample ahead. -/
theorem EndsInSample.sampleAhead_append (h : EndsInSample ls) : SampleAhead (ls ++ rest) := by
  obtain ⟨last, hlast, hsample⟩ := h.last
  obtain ⟨front, rfl⟩ := List.getLast?_eq_some_iff.mp hlast
  refine ⟨front, last, rest, List.append_assoc .., hsample, ?_⟩
  intro b hb
  exact h.all b (List.mem_append_left _ hb)

theorem not_sampleAhead_nil : ¬ SampleAhead [] := by
  rintro ⟨between, line, after, h, -⟩
  exact List.append_ne_nil_of_right_ne_nil between (List.cons_ne_nil line after) h.symm

theorem sampleAhead_cons_iff :
    SampleAhead (line :: ls) ↔ IsSample line ∨ isBlank line = true ∧ SampleAhead ls := by
  constructor
  · rintro ⟨between, found, after, hls, hfound, hbetween⟩
    cases between with
    | nil =>
      obtain ⟨rfl, rfl⟩ := List.cons_eq_cons.mp hls
      exact Or.inl hfound
    | cons b between =>
      obtain ⟨rfl, rfl⟩ := List.cons_eq_cons.mp hls
      obtain ⟨hline, hbetween⟩ := List.forall_mem_cons.mp hbetween
      exact hline.imp_right fun hblank => ⟨hblank, between, found, after, rfl, hfound, hbetween⟩
  · rintro (hline | ⟨hblank, between, found, after, rfl, hfound, hbetween⟩)
    · exact ⟨[], line, ls, rfl, hline, by simp⟩
    · exact ⟨line :: between, found, after, rfl, hfound,
        List.forall_mem_cons.mpr ⟨Or.inr hblank, hbetween⟩⟩

theorem unindented_cons_of_isSample (h : IsSample line) :
    unindented (line :: ls) = line.drop codeIndent.length :: unindented ls := by
  simp [unindented, h.not_blank]

theorem unindented_cons_of_isBlank (h : isBlank line = true) :
    unindented (line :: ls) = unindented ls := by
  simp [unindented, h]

/-- The lines up to the last sample that is reachable, and the others. -/
theorem exists_reach (ls : List Text) :
    ∃ run rest, ls = run ++ rest ∧ (run = [] ∨ EndsInSample run) ∧ ¬ SampleAhead rest := by
  induction ls with
  | nil => exact ⟨[], [], rfl, Or.inl rfl, not_sampleAhead_nil⟩
  | cons line ls ih =>
    obtain ⟨run, rest, rfl, hrun, hrest⟩ := ih
    by_cases hsample : IsSample line
    · exact ⟨line :: run, rest, rfl, Or.inr (hsample.endsInSample_cons hrun), hrest⟩
    · rcases hrun with rfl | hrun
      · refine ⟨[], line :: rest, rfl, Or.inl rfl, ?_⟩
        rw [sampleAhead_cons_iff]
        rintro (h | ⟨-, h⟩)
        · exact hsample h
        · exact hrest h
      · by_cases hblank : isBlank line = true
        · exact ⟨line :: run, rest, rfl, Or.inr (hrun.cons (Or.inr hblank)), hrest⟩
        · refine ⟨[], line :: (run ++ rest), rfl, Or.inl rfl, ?_⟩
          rw [sampleAhead_cons_iff]
          rintro (h | ⟨h, -⟩)
          · exact hsample h
          · exact hblank h

/-- Of two runs at one place from which no further sample is reachable, neither is longer. -/
theorem EndsInSample.length_le {run run' rest' : List Text} (hrun : EndsInSample run)
    (h : run ++ rest = run' ++ rest') (hrest' : ¬ SampleAhead rest') :
    run.length ≤ run'.length := by
  by_contra hlt
  obtain ⟨more, hmore, hrest⟩ : ∃ more, run = run' ++ more ∧ rest' = more ++ rest := by
    rcases List.append_eq_append_iff.mp h with ⟨more, hrun', -⟩ | ⟨more, hrun, hrest⟩
    · have hlen := congrArg List.length hrun'
      rw [List.length_append] at hlen
      omega
    · exact ⟨more, hrun, hrest⟩
  have hne : more ≠ [] := by
    rintro rfl
    rw [hmore, List.append_nil] at hlt
    omega
  -- what the longer run has in addition leads to a sample behind the shorter one
  have hends : EndsInSample more := by
    obtain ⟨last, hlast, hsample⟩ := hrun.last
    rw [hmore, List.getLast?_append_of_ne_nil _ hne] at hlast
    exact ⟨fun line hline => hrun.all line (hmore ▸ List.mem_append_right _ hline),
      last, hlast, hsample⟩
  exact hrest' (hrest ▸ hends.sampleAhead_append)

end Runs

/-! ## The cut -/

/-- A part of the lines of a comment. -/
inductive Stretch where
  /-- A line outside runs. -/
  | other (line : Text)
  /-- A run of code samples. -/
  | run (lines : List Text)

namespace Stretch

/-- The lines of a stretch. -/
def lines : Stretch → List Text
  | other line => [line]
  | run ls => ls

/-- The stretch comes next where the lines `rest` follow: a line that is no sample, or a run from
whose end no further sample is reachable. -/
def IsNext (rest : List Text) : Stretch → Prop
  | other line => ¬ IsSample line
  | run ls => IsRun ls ∧ ¬ SampleAhead rest

/-- The lines that become of a stretch: a run is put between fences, without its indent and its
blank lines. -/
def fenced : Stretch → List Text
  | other line => [line]
  | run ls => fenceOpen :: unindented ls ++ [fenceClose]

end Stretch

/-- The lines are cut into runs, none of which could go on, and lines outside them. -/
def CutInRuns (ls : List Text) (ss : List Stretch) : Prop :=
  IsDivision Stretch.lines Stretch.IsNext ls ss

/-- A run does not begin where a line outside runs stands. -/
theorem IsRun.isSample_of_append {run rest more : List Text} {line : Text} (h : IsRun run)
    (hls : run ++ rest = line :: more) : IsSample line := by
  obtain ⟨head, hhead, hsample⟩ := h.first
  obtain ⟨tail, rfl⟩ := List.head?_eq_some_iff.mp hhead
  obtain ⟨rfl, -⟩ := List.cons_eq_cons.mp hls
  exact hsample

/-- One stretch only comes next. -/
theorem nextIsOne_stretch : NextIsOne Stretch.lines Stretch.IsNext where
  ne_nil := by
    rintro rest (line | run) h
    · exact List.cons_ne_nil line []
    · exact h.1.toEndsInSample.ne_nil
  unique := by
    rintro rest rest' (line | run) (line' | run') hs hs' h
    · obtain ⟨rfl, rfl⟩ := List.cons_eq_cons.mp h
      exact ⟨rfl, rfl⟩
    · exact absurd (hs'.1.isSample_of_append h.symm) hs
    · exact absurd (hs.1.isSample_of_append h) hs'
    · have hle := hs.1.toEndsInSample.length_le h hs'.2
      have hge := hs'.1.toEndsInSample.length_le h.symm hs.2
      obtain ⟨hrun, hrest⟩ := List.append_inj h (Nat.le_antisymm hle hge)
      exact ⟨congrArg Stretch.run hrun, hrest⟩

theorem exists_cutInRuns (ls : List Text) : ∃ ss, CutInRuns ls ss := by
  match ls with
  | [] => exact ⟨[], isDivision_nil⟩
  | line :: more =>
    by_cases hsample : IsSample line
    · obtain ⟨run, rest, hmore, hrun, hrest⟩ := exists_reach more
      have hshorter : rest.length < (line :: more).length := by
        rw [hmore, List.length_cons, List.length_append]
        omega
      obtain ⟨ss, hss⟩ := exists_cutInRuns rest
      have hwhole : IsRun (line :: run) := ⟨hsample.endsInSample_cons hrun, line, rfl, hsample⟩
      exact ⟨.run (line :: run) :: ss, isDivision_cons_iff.mpr
        ⟨rest, by rw [hmore]; rfl, ⟨hwhole, hrest⟩, hss⟩⟩
    · obtain ⟨ss, hss⟩ := exists_cutInRuns more
      exact ⟨.other line :: ss, isDivision_cons_iff.mpr ⟨more, rfl, hsample, hss⟩⟩
termination_by ls.length

/-! ## Fencing -/

section Fencing

variable {ls : List Text} {line : Text}

theorem fenceLines_none_cons (line : Text) (ls : List Text) :
    fenceLines none (line :: ls) =
      match codeSample? line with
      | some code => fenceOpen :: code :: fenceLines (some []) ls
      | none => line :: fenceLines none ls := rfl

theorem fenceLines_some_cons (held : List Text) (line : Text) (ls : List Text) :
    fenceLines (some held) (line :: ls) =
      match codeSample? line with
      | some code => code :: fenceLines (some []) ls
      | none =>
        if isBlank line then fenceLines (some (held ++ [line])) ls
        else fenceClose :: held ++ line :: fenceLines none ls := rfl

theorem fenceLines_none_of_isSample (h : IsSample line) :
    fenceLines none (line :: ls)
      = fenceOpen :: line.drop codeIndent.length :: fenceLines (some []) ls := by
  rw [fenceLines_none_cons, h.codeSample?_eq]

theorem fenceLines_none_of_not_isSample (h : ¬ IsSample line) :
    fenceLines none (line :: ls) = line :: fenceLines none ls := by
  rw [fenceLines_none_cons, codeSample?_eq_none_iff.mpr h]

theorem fenceLines_some_of_isSample (h : IsSample line) (held : List Text) :
    fenceLines (some held) (line :: ls)
      = line.drop codeIndent.length :: fenceLines (some []) ls := by
  rw [fenceLines_some_cons, h.codeSample?_eq]

theorem fenceLines_some_of_isBlank (h : isBlank line = true) (hline : ¬ IsSample line)
    (held : List Text) :
    fenceLines (some held) (line :: ls) = fenceLines (some (held ++ [line])) ls := by
  rw [fenceLines_some_cons, codeSample?_eq_none_iff.mpr hline]
  exact if_pos h

theorem fenceLines_some_of_not_mayStandInRun (h : ¬ MayStandInRun line) (held : List Text) :
    fenceLines (some held) (line :: ls) = fenceClose :: held ++ line :: fenceLines none ls := by
  rw [MayStandInRun, not_or] at h
  rw [fenceLines_some_cons, codeSample?_eq_none_iff.mpr h.1]
  exact if_neg h.2

/-- Inside a run, its samples are written and its blank lines are not. -/
theorem fenceLines_some_of_endsInSample (h : EndsInSample ls) (held rest : List Text) :
    fenceLines (some held) (ls ++ rest) = unindented ls ++ fenceLines (some []) rest := by
  induction ls generalizing held with
  | nil => exact absurd rfl h.ne_nil
  | cons line ls ih =>
    rw [List.cons_append]
    by_cases hsample : IsSample line
    · rw [fenceLines_some_of_isSample hsample, unindented_cons_of_isSample hsample]
      rcases h.cases_cons with ⟨-, rfl⟩ | hmore
      · rfl
      · rw [ih hmore, List.cons_append]
    · have hblank : isBlank line = true := (h.all line List.mem_cons_self).resolve_left hsample
      have hmore : EndsInSample ls := h.cases_cons.resolve_left fun hline => hsample hline.1
      rw [fenceLines_some_of_isBlank hblank hsample, unindented_cons_of_isBlank hblank, ih hmore]

/-- A run that cannot go on ends before the blank lines that were held back. -/
theorem fenceLines_some_of_not_sampleAhead (h : ¬ SampleAhead ls) (held : List Text) :
    fenceLines (some held) ls = fenceClose :: held ++ fenceLines none ls := by
  induction ls generalizing held with
  | nil => simp [fenceLines]
  | cons line ls ih =>
    rw [sampleAhead_cons_iff, not_or, not_and] at h
    obtain ⟨hsample, hahead⟩ := h
    rw [fenceLines_none_of_not_isSample hsample]
    by_cases hblank : isBlank line = true
    · rw [fenceLines_some_of_isBlank hblank hsample, ih (hahead hblank)]
      simp
    · exact fenceLines_some_of_not_mayStandInRun (not_or.mpr ⟨hsample, hblank⟩) held

/-- A run is put between fences. -/
theorem fenceLines_none_of_isRun {run rest : List Text} (h : IsRun run)
    (hrest : ¬ SampleAhead rest) :
    fenceLines none (run ++ rest) = (Stretch.run run).fenced ++ fenceLines none rest := by
  have hend : fenceLines (some []) rest = fenceClose :: fenceLines none rest :=
    fenceLines_some_of_not_sampleAhead hrest []
  obtain ⟨first, hfirst, hsample⟩ := h.first
  obtain ⟨more, rfl⟩ := List.head?_eq_some_iff.mp hfirst
  rw [List.cons_append, fenceLines_none_of_isSample hsample, Stretch.fenced,
    unindented_cons_of_isSample hsample]
  rcases h.toEndsInSample.cases_cons with ⟨-, rfl⟩ | hmore
  · rw [List.nil_append, hend]
    rfl
  · rw [fenceLines_some_of_endsInSample hmore, hend]
    simp

/-- Fencing lines is fencing the runs of their cut. -/
theorem CutInRuns.fenceLines_eq {ss : List Stretch} (h : CutInRuns ls ss) :
    fenceLines none ls = ss.flatMap Stretch.fenced := by
  induction ss generalizing ls with
  | nil =>
    obtain rfl : ls = [] := h.content_eq.symm
    rw [fenceLines, List.flatMap_nil]
  | cons s ss ih =>
    obtain ⟨rest, rfl, hs, hrest⟩ := isDivision_cons_iff.mp h
    rw [List.flatMap_cons, ← ih hrest]
    cases s with
    | other line => exact fenceLines_none_of_not_isSample hs
    | run run => exact fenceLines_none_of_isRun hs.1 hs.2

end Fencing

/-- **Code samples are fenced run by run.**  The lines of a comment are cut in one way into maximal
runs of code samples and lines outside them.  The comment with its code fenced has the same
stretches in the same order, where a run stands between fences, without its indent and its blank
lines, and every other line is as it was. -/
theorem fenceCode_eq_fenced_runs (comment : Text) :
    ∃ ss, (∀ ss', CutInRuns (comment.splitOn '\n') ss' ↔ ss' = ss)
      ∧ fenceCode comment = unlines (ss.flatMap Stretch.fenced) := by
  obtain ⟨ss, hss⟩ := exists_cutInRuns (comment.splitOn '\n')
  refine ⟨ss, fun ss' => ⟨hss.unique nextIsOne_stretch, ?_⟩, ?_⟩
  · rintro rfl
    exact hss
  · rw [fenceCode, hss.fenceLines_eq]

end RefBook
