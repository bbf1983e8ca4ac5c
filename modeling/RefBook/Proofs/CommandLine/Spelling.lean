import Mathlib.Data.List.TakeWhile
import RefBook.Proofs.CommandLine.Given

/-!
# RefBook.Proofs.CommandLine.Spelling — command lines and the settings they spell

* `SpellsOne`: the arguments that spell an option: by its name or its letter, with its value in the
  same argument or the next one, and with the flag for no log lines in front of the letter or not.
* `SpellsOptions`: the arguments that spell options one after the other.
* `Progress.Stands`: what a reader holds between two options; `Stands.readAll_spellsOne`: an option
  that is spelled takes effect, however it is spelled; `Stands.readAll_spells`: so do all of them.
* `readArguments_spelled`: a command line that spells what is given, in any order and any spelling,
  is read as the settings given, with the usual ones for the others.
-/

namespace RefBook

/-! ## Spellings -/

/-- A value that stands for itself behind an option: not empty, and not taken for another option or
for the sign between an option and its value. -/
structure IsPlainValue (v : Text) : Prop where
  /-- The value is not empty. -/
  ne_nil : v ≠ []
  /-- It does not begin like an option. -/
  not_hyphen : v.head? ≠ some '-'
  /-- It does not begin with the sign. -/
  not_equals : v.head? ≠ some '='

/-- What may stand in front of the letter of an option, and what it gives. -/
inductive SpellsLead : List Occurrence → Text → Prop where
  /-- A hyphen. -/
  | hyphen : SpellsLead [] ['-']
  /-- A hyphen and the letter of the flag for no log lines. -/
  | quiet : SpellsLead [.quiet] ['-', 'q']

/-- The arguments that spell one option, or a cluster of a flag and an option. -/
inductive SpellsOne : List Occurrence → List Text → Prop where
  /-- The name of a flag. -/
  | verbose : SpellsOne [.verbose] ["--verbose".toList]
  /-- The name of a flag. -/
  | quiet : SpellsOne [.quiet] ["--quiet".toList]
  /-- The letter of a flag. -/
  | quietLetter : SpellsOne [.quiet] ["-q".toList]
  /-- The name of an option, and its value in the next argument. -/
  | nameNext (o : ValuedOption) (v : Text) :
    SpellsOne [.valued o v] ["--".toList ++ o.name, v]
  /-- The name of an option, and its value behind an equals sign. -/
  | nameEquals (o : ValuedOption) (v : Text) :
    SpellsOne [.valued o v] ["--".toList ++ o.name ++ '=' :: v]
  /-- The letter of an option, and its value in the next argument. -/
  | letterNext {before : List Occurrence} {lead : Text} (hlead : SpellsLead before lead)
    {o : ValuedOption} {c : Char} (hc : (Switch.valued o).letter? = some c) (v : Text) :
    SpellsOne (before ++ [.valued o v]) [lead ++ [c], v]
  /-- The letter of an option, and its value right behind it. -/
  | letterJoined {before : List Occurrence} {lead : Text} (hlead : SpellsLead before lead)
    {o : ValuedOption} {c : Char} (hc : (Switch.valued o).letter? = some c) (v : Text) :
    SpellsOne (before ++ [.valued o v]) [lead ++ c :: v]
  /-- The letter of an option, and its value behind an equals sign. -/
  | letterEquals {before : List Occurrence} {lead : Text} (hlead : SpellsLead before lead)
    {o : ValuedOption} {c : Char} (hc : (Switch.valued o).letter? = some c) (v : Text) :
    SpellsOne (before ++ [.valued o v]) [lead ++ c :: '=' :: v]

/-- The arguments that spell options in their order. -/
inductive SpellsOptions : List Occurrence → List Text → Prop where
  /-- No options. -/
  | nil : SpellsOptions [] []
  /-- One option, or a cluster, and those after it. -/
  | cons {xs os : List Occurrence} {args more : List Text} (h : SpellsOne xs args)
    (hmore : SpellsOptions os more) : SpellsOptions (xs ++ os) (args ++ more)

/-! ## Options by name and letter -/

theorem Switch.ofName?_valued (o : ValuedOption) : ofName? o.name = some (.valued o) := by
  cases o <;> decide

theorem ValuedOption.equals_not_mem_name (o : ValuedOption) : '=' ∉ o.name := by
  cases o <;> decide

theorem ValuedOption.ne_equals_of_mem_name (o : ValuedOption) :
    ∀ c ∈ o.name, decide (c ≠ '=') = true := fun _ hc =>
  decide_eq_true (ne_of_mem_of_not_mem hc o.equals_not_mem_name)

theorem ValuedOption.name_ne_nil (o : ValuedOption) : o.name ≠ [] := by
  cases o <;> decide

theorem Switch.ofLetter?_of_letter? {o : ValuedOption} {c : Char}
    (h : (valued o).letter? = some c) : ofLetter? c = some (valued o) ∧ c ≠ '-' := by
  cases o <;> cases h <;> decide

/-! ## Readers between options -/

namespace Progress

/-- What is given so far, with a value that waits to be judged; more options may follow. -/
structure Stands (p : Progress) (g : Given) : Prop where
  /-- The end of the options was not marked. -/
  ended_eq : p.ended = false
  /-- The waiting value, if there is one, takes effect. -/
  settle_eq : p.settle = .ok g

variable {p q : Progress} {g g' : Given} {o : ValuedOption} {v : Text}

theorem stands_given (g : Given) : Stands { given := g } g := ⟨rfl, rfl⟩

theorem readAll_append (p : Progress) (args more : List Text) :
    p.readAll (args ++ more) = (do
      let q ← p.readAll args
      q.readAll more) := by
  induction args generalizing p with
  | nil => rfl
  | cons arg args ih =>
    rw [List.cons_append, readAll, readAll]
    cases p.read arg with
    | error i => rfl
    | ok q => exact ih q

theorem readAll_singleton (p : Progress) (arg : Text) : p.readAll [arg] = p.read arg := by
  rw [readAll]
  cases p.read arg <;> rfl

theorem readAll_pair {p q : Progress} {arg : Text} (h : p.read arg = .ok q) (next : Text) :
    p.readAll [arg, next] = q.read next := by
  rw [readAll, h]
  exact readAll_singleton q next

/-! ### Arguments by how they begin -/

section Begin

variable {c : Char} (hended : p.ended = false)

include hended

theorem read_name {name : Text} (hname : name ≠ []) :
    p.read ("--".toList ++ name) = p.readLong name := by
  show p.read ('-' :: '-' :: name) = _
  simp [Progress.read, hended]

theorem read_letters (hc : c ≠ '-') (rest : Text) :
    p.read ('-' :: c :: rest) = p.readLetters (c :: rest) := by
  simp [Progress.read, hended, hc]

theorem read_plain (hc : c ≠ '-') (rest : Text) :
    p.read (c :: rest) = p.readPlain (c :: rest) := by
  simp [Progress.read, hended, hc]

end Begin

/-! ### Values -/

/-- A plain value is the value of the option that waits for it. -/
theorem read_value (hv : IsPlainValue v) (hset : g.set o v = .ok g') :
    ∃ q, Progress.read { given := g, pending := some ⟨o, none⟩ } v = .ok q ∧ q.Stands g' := by
  refine ⟨{ given := g, pending := some ⟨o, some v⟩ }, ?_, rfl, hset⟩
  obtain ⟨c, r, rfl⟩ := List.exists_cons_of_ne_nil hv.ne_nil
  have hc : c ≠ '-' := by simpa using hv.not_hyphen
  rw [read_plain rfl hc]
  rfl

theorem Stands.await_eq (h : p.Stands g) (o : ValuedOption) :
    p.await o = .ok { given := g, pending := some ⟨o, none⟩ } := by
  rw [await, h.settle_eq]
  rfl

theorem Stands.assign_eq (h : p.Stands g) (hset : g.set o v = .ok g') :
    p.assign o v = .ok { given := g' } := by
  rw [assign, h.settle_eq]
  show (do return ({ given := ← g.set o v } : Progress)) = _
  rw [hset]
  rfl

/-- A flag takes effect where it can. -/
theorem Stands.raise_quiet (h : p.Stands g) (htake : g.take .quiet = .ok g') (long : Bool) :
    p.raise .quiet long = .ok { given := g' } := by
  rw [raise, h.settle_eq]
  rw [Given.take] at htake
  show (if g.quiet then _ else _) = _
  split at htake
  · contradiction
  · next hquiet =>
    rw [if_neg hquiet, ← Except.ok.inj htake]

theorem Stands.raise_verbose (h : p.Stands g) (long : Bool) :
    p.raise .verbose long
      = .ok { given := { g with verbose := min (g.verbose + 1) verboseMax } } := by
  rw [raise, h.settle_eq]
  rfl

theorem readLetters_quiet (p : Progress) (rest : Text) :
    p.readLetters ('q' :: rest) = (do (← p.raise .quiet false).readLetters rest) := rfl

theorem Stands.read_quietLetter (h : p.Stands g) (htake : g.take .quiet = .ok g') :
    p.read "-q".toList = .ok { given := g' } := by
  have hletter : p.read "-q".toList = p.readLetters ['q'] :=
    read_letters h.ended_eq (by decide) []
  rw [hletter, readLetters_quiet, h.raise_quiet htake]
  rfl

/-! ### Names -/

theorem readLong_verbose (p : Progress) : p.readLong "verbose".toList = p.raise .verbose true := rfl

theorem readLong_quiet (p : Progress) : p.readLong "quiet".toList = p.raise .quiet true := rfl

theorem readLong_name (p : Progress) (o : ValuedOption) : p.readLong o.name = p.await o := by
  have hname := o.ne_equals_of_mem_name
  have htake : o.name.takeWhile (· ≠ '=') = o.name := List.takeWhile_eq_self_iff.mpr hname
  have hdrop : o.name.dropWhile (· ≠ '=') = [] := List.dropWhile_eq_nil_iff.mpr hname
  rw [readLong, htake, hdrop, Switch.ofName?_valued]

theorem readLong_equals (p : Progress) (o : ValuedOption) (v : Text) :
    p.readLong (o.name ++ '=' :: v) = p.assign o v := by
  have hname := o.ne_equals_of_mem_name
  have htake : (o.name ++ '=' :: v).takeWhile (· ≠ '=') = o.name := by
    rw [List.takeWhile_append_of_pos hname, List.takeWhile_cons_of_neg (by simp), List.append_nil]
  have hdrop : (o.name ++ '=' :: v).dropWhile (· ≠ '=') = '=' :: v := by
    rw [List.dropWhile_append_of_pos hname, List.dropWhile_cons_of_neg (by simp)]
  rw [readLong, htake, hdrop, Switch.ofName?_valued]

/-! ### Letters -/

section Letters

variable {c : Char} (hc : Switch.ofLetter? c = some (.valued o))

include hc

theorem readLetters_valued (p : Progress) (rest : Text) :
    p.readLetters (c :: rest) = match rest with
      | [] => p.await o
      | '=' :: value => p.assign o value
      | value => p.assign o value := by
  rw [readLetters.eq_def]
  simp only [hc]
  cases rest with
  | nil => rfl
  | cons d r =>
    by_cases hd : d = '='
    · subst hd
      rfl
    · simp [hd]

theorem readLetters_joined (p : Progress) (hv : IsPlainValue v) :
    p.readLetters (c :: v) = p.assign o v := by
  rw [readLetters_valued hc]
  split
  · exact absurd rfl hv.ne_nil
  · exact absurd rfl hv.not_equals
  · rfl

end Letters

/-- What stands in front of a letter takes effect before it. -/
theorem Stands.read_lead (h : p.Stands g) {before : List Occurrence} {lead : Text}
    (hlead : SpellsLead before lead) (htake : before.foldlM Given.take g = .ok g') {c : Char}
    (hc : c ≠ '-') :
    ∃ q : Progress, q.Stands g'
      ∧ ∀ rest, p.read (lead ++ c :: rest) = q.readLetters (c :: rest) := by
  cases hlead with
  | hyphen =>
    have hg : g = g' := Except.ok.inj htake
    refine ⟨p, hg ▸ h, ?_⟩
    intro rest
    exact read_letters h.ended_eq hc rest
  | quiet =>
    have hquiet : g.take .quiet = .ok g' := (g.foldlM_take_singleton .quiet).symm.trans htake
    refine ⟨{ given := g' }, stands_given g', ?_⟩
    intro rest
    have hletters : p.read (['-', 'q'] ++ c :: rest) = p.readLetters ('q' :: c :: rest) :=
      read_letters h.ended_eq (by decide) (c :: rest)
    rw [hletters, readLetters_quiet, h.raise_quiet hquiet]
    rfl

/-- The letter of an option is read after what stands in front of it. -/
theorem Stands.read_letter (h : p.Stands g) {before : List Occurrence} {lead : Text}
    (hlead : SpellsLead before lead) {c : Char} (hc : (Switch.valued o).letter? = some c)
    (htake : (before ++ [Occurrence.valued o v]).foldlM Given.take g = .ok g') :
    ∃ (q : Progress) (k : Given), q.Stands k ∧ k.set o v = .ok g'
      ∧ Switch.ofLetter? c = some (.valued o)
      ∧ ∀ rest, p.read (lead ++ c :: rest) = q.readLetters (c :: rest) := by
  obtain ⟨k, hbefore, hset⟩ := Given.foldlM_take_concat_eq_ok htake
  obtain ⟨hletter, hne⟩ := Switch.ofLetter?_of_letter? hc
  obtain ⟨q, hq, hread⟩ := h.read_lead hlead hbefore hne
  exact ⟨q, k, hq, hset, hletter, hread⟩

/-! ### Options -/

/-- A value in the next argument takes effect when the option does. -/
theorem Stands.readAll_next (hq : q.Stands g) {arg : Text} (harg : p.read arg = q.await o)
    (hv : IsPlainValue v) (hset : g.set o v = .ok g') :
    ∃ r : Progress, p.readAll [arg, v] = .ok r ∧ r.Stands g' := by
  have hpending := harg.trans (hq.await_eq o)
  obtain ⟨r, hr, hstands⟩ := read_value hv hset
  exact ⟨r, (readAll_pair hpending v).trans hr, hstands⟩

/-- Nothing waits behind an argument that took effect. -/
theorem readAll_taken {arg : Text} (harg : p.read arg = .ok { given := g }) :
    ∃ r : Progress, p.readAll [arg] = .ok r ∧ r.Stands g :=
  ⟨{ given := g }, (readAll_singleton p arg).trans harg, stands_given g⟩

/-- A value in the same argument takes effect at once. -/
theorem Stands.readAll_same (hq : q.Stands g) {arg : Text} (harg : p.read arg = q.assign o v)
    (hset : g.set o v = .ok g') : ∃ r : Progress, p.readAll [arg] = .ok r ∧ r.Stands g' :=
  readAll_taken (harg.trans (hq.assign_eq hset))

/-- An option that is spelled takes effect, however it is spelled. -/
theorem Stands.readAll_spellsOne (h : p.Stands g) {xs : List Occurrence} {args : List Text}
    (hspells : SpellsOne xs args) (htake : xs.foldlM Given.take g = .ok g')
    (hplain : ∀ o v, Occurrence.valued o v ∈ xs → IsPlainValue v) :
    ∃ q : Progress, p.readAll args = .ok q ∧ q.Stands g' := by
  cases hspells with
  | verbose =>
    rw [Given.foldlM_take_singleton] at htake
    have hread : p.read "--verbose".toList = p.readLong "verbose".toList :=
      read_name h.ended_eq (by decide)
    refine readAll_taken ?_
    rw [hread, readLong_verbose, h.raise_verbose, ← Except.ok.inj htake]
  | quiet =>
    rw [Given.foldlM_take_singleton] at htake
    have hread : p.read "--quiet".toList = p.readLong "quiet".toList :=
      read_name h.ended_eq (by decide)
    refine readAll_taken ?_
    rw [hread, readLong_quiet, h.raise_quiet htake]
  | quietLetter =>
    rw [Given.foldlM_take_singleton] at htake
    exact readAll_taken (h.read_quietLetter htake)
  | nameNext o v =>
    rw [Given.foldlM_take_singleton] at htake
    have hread : p.read ("--".toList ++ o.name) = p.await o := by
      rw [read_name h.ended_eq o.name_ne_nil, readLong_name]
    exact h.readAll_next hread (hplain o v List.mem_cons_self) htake
  | nameEquals o v =>
    rw [Given.foldlM_take_singleton] at htake
    have hread : p.read ("--".toList ++ o.name ++ '=' :: v) = p.assign o v := by
      rw [List.append_assoc, read_name h.ended_eq (by simp), readLong_equals]
    exact h.readAll_same hread htake
  | @letterNext before lead hlead o c hc v =>
    obtain ⟨q, k, hq, hset, hletter, hread⟩ := h.read_letter hlead hc htake
    have hnext := (hread []).trans (readLetters_valued hletter q [])
    exact hq.readAll_next hnext (hplain o v (by simp)) hset
  | @letterJoined before lead hlead o c hc v =>
    obtain ⟨q, k, hq, hset, hletter, hread⟩ := h.read_letter hlead hc htake
    have hv : IsPlainValue v := hplain o v (by simp)
    exact hq.readAll_same ((hread v).trans (readLetters_joined hletter q hv)) hset
  | letterEquals hlead hc v =>
    obtain ⟨q, k, hq, hset, hletter, hread⟩ := h.read_letter hlead hc htake
    have hequals := (hread ('=' :: v)).trans (readLetters_valued hletter q ('=' :: v))
    exact hq.readAll_same hequals hset

/-- Options that are spelled take effect one after the other. -/
theorem Stands.readAll_spells (h : p.Stands g) {os : List Occurrence} {args : List Text}
    (hspells : SpellsOptions os args) (htake : os.foldlM Given.take g = .ok g')
    (hplain : ∀ o v, Occurrence.valued o v ∈ os → IsPlainValue v) :
    ∃ q : Progress, p.readAll args = .ok q ∧ q.Stands g' := by
  induction hspells generalizing p g with
  | nil =>
    have hg : g = g' := Except.ok.inj htake
    exact ⟨p, rfl, hg ▸ h⟩
  | @cons xs os args more hone _ ih =>
    rw [List.foldlM_append] at htake
    cases hxs : xs.foldlM Given.take g with
    | error i =>
      rw [hxs] at htake
      contradiction
    | ok k =>
      rw [hxs] at htake
      obtain ⟨q, hread, hq⟩ := h.readAll_spellsOne hone hxs fun o v hv =>
        hplain o v (List.mem_append_left _ hv)
      obtain ⟨q', hmore, hq'⟩ := ih hq htake fun o v hv =>
        hplain o v (List.mem_append_right _ hv)
      refine ⟨q', ?_, hq'⟩
      rw [readAll_append, hread]
      exact hmore

end Progress

/-! ## Command lines -/

/-- **A command line is read as the settings that it spells.**  Arguments that spell what is given,
in any order and each option in any of its spellings, are read as those settings, with verbosity
bounded, and with the usual settings where nothing is given. -/
theorem readArguments_spelled {g : Given} {os : List Occurrence} {args : List Text}
    (hplain : ∀ o v, g.word? o = some v → IsPlainValue v) (horder : os.Perm g.occurrences)
    (h : SpellsOptions os args) :
    readArguments args = .ok
      { output := g.output.getD "DOCS.md".toList
        input := g.input
        project := g.project.getD ".".toList
        compiler := g.compiler.getD "elm-make".toList
        style := g.style.getD .bare
        verbose := min g.verbose 255
        quiet := g.quiet
        color := g.color.getD .auto
        logFormat := g.logFormat.getD .human } := by
  have htake := Given.foldlM_take_occurrences (fun o v hv => (hplain o v hv).ne_nil) horder
  have hvalues : ∀ o v, Occurrence.valued o v ∈ os → IsPlainValue v := fun o v hv =>
    hplain o v (Given.valued_mem_occurrences.mp (horder.mem_iff.mp hv))
  obtain ⟨q, hread, hq⟩ := (Progress.stands_given {}).readAll_spells h htake hvalues
  rw [readArguments, hread]
  show (do return (← q.settle).settings) = _
  rw [hq.settle_eq]
  rfl

/-- Two paths, a style, more log lines twice and none at all. -/
def clusteredOptions : Given where
  output := some "q=o".toList
  project := some "pkg".toList
  style := some .decorated
  verbose := 2
  quiet := true

theorem readArguments_spelled_cluster :
    readArguments ["--verbose".toList, "-qoq=o".toList, "--operator-style=decorated".toList,
        "--verbose".toList, "-C".toList, "pkg".toList]
      = .ok { output := "q=o".toList, project := "pkg".toList, style := .decorated, verbose := 2,
              quiet := true } := by
  have hplain : ∀ o v, clusteredOptions.word? o = some v → IsPlainValue v := by
    intro o v hv
    cases o <;> cases hv <;> exact ⟨by decide, by decide, by decide⟩
  have hspells : SpellsOptions [.verbose, .quiet, .valued .output "q=o".toList,
      .valued .operatorStyle "decorated".toList, .verbose, .valued .project "pkg".toList] _ :=
    .cons .verbose (.cons (.letterJoined .quiet rfl "q=o".toList)
      (.cons (.nameEquals .operatorStyle "decorated".toList)
        (.cons .verbose (.cons (.letterNext .hyphen rfl "pkg".toList) .nil))))
  exact readArguments_spelled hplain (by decide) hspells

end RefBook
