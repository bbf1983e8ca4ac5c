import Mathlib.Data.List.Nodup
import RefBook.CommandLine.Reader

/-!
# RefBook.Proofs.CommandLine.Given — options that take effect in any order

* `Occurrence`: one option where it is given; `Given.take`: it takes effect.
* `Given.word?` and `Given.put`: the value of an option as a word, one view of paths, programs and
  enumerations; `Given.set_eq_put`: how it takes effect.
* `Given.occurrences`: the options that are given, each where it stands first in the usual order.
* `Given.Records`: the options given so far are those of a list; `Records.take`: one more takes
  effect.
* `foldlM_take`: options that are given once each, and any number of calls for more log lines, take
  effect in every order, and with the same result.
-/

namespace RefBook

/-! ## Values as words -/

/-- The word of an operator style. -/
def OperatorStyle.word : OperatorStyle → Text
  | bare => "bare".toList
  | decorated => "decorated".toList

/-- The word of a colour choice. -/
def ColorChoice.word : ColorChoice → Text
  | auto => "auto".toList
  | always => "always".toList
  | never => "never".toList

/-- The word of a log format. -/
def LogFormat.word : LogFormat → Text
  | human => "human".toList
  | json => "json".toList

theorem OperatorStyle.ofWord?_word (s : OperatorStyle) : ofWord? s.word = some s := by
  cases s <;> decide

theorem ColorChoice.ofWord?_word (c : ColorChoice) : ofWord? c.word = some c := by
  cases c <;> decide

theorem LogFormat.ofWord?_word (f : LogFormat) : ofWord? f.word = some f := by
  cases f <;> decide

namespace Given

/-- The value of an option, as it is written. -/
def word? (g : Given) : ValuedOption → Option Text
  | .output => g.output
  | .input => g.input
  | .project => g.project
  | .compiler => g.compiler
  | .operatorStyle => g.style.map OperatorStyle.word
  | .color => g.color.map ColorChoice.word
  | .logFormat => g.logFormat.map LogFormat.word

/-- The words tell the values. -/
theorem ext_word? {g k : Given} (hword : ∀ o, g.word? o = k.word? o) (hquiet : g.quiet = k.quiet)
    (hverbose : g.verbose = k.verbose) : g = k := by
  have hstyle : g.style = k.style := by
    have h := congrArg (·.bind OperatorStyle.ofWord?) (hword .operatorStyle)
    simpa [word?, Option.bind_map, Function.comp_def, OperatorStyle.ofWord?_word] using h
  have hcolor : g.color = k.color := by
    have h := congrArg (·.bind ColorChoice.ofWord?) (hword .color)
    simpa [word?, Option.bind_map, Function.comp_def, ColorChoice.ofWord?_word] using h
  have hformat : g.logFormat = k.logFormat := by
    have h := congrArg (·.bind LogFormat.ofWord?) (hword .logFormat)
    simpa [word?, Option.bind_map, Function.comp_def, LogFormat.ofWord?_word] using h
  have houtput : g.output = k.output := hword .output
  have hinput : g.input = k.input := hword .input
  have hproject : g.project = k.project := hword .project
  have hcompiler : g.compiler = k.compiler := hword .compiler
  cases g
  cases k
  simp_all only

/-- The options with a word as the value of one of them. -/
def put (g : Given) (o : ValuedOption) (v : Text) : Given :=
  match o with
  | .output => { g with output := some v }
  | .input => { g with input := some v }
  | .project => { g with project := some v }
  | .compiler => { g with compiler := some v }
  | .operatorStyle => { g with style := OperatorStyle.ofWord? v }
  | .color => { g with color := ColorChoice.ofWord? v }
  | .logFormat => { g with logFormat := LogFormat.ofWord? v }

section Put

variable {g k : Given} {o p : ValuedOption} {v : Text}

@[simp] theorem quiet_put : (g.put o v).quiet = g.quiet := by
  cases o <;> rfl

@[simp] theorem verbose_put : (g.put o v).verbose = g.verbose := by
  cases o <;> rfl

@[simp] theorem word?_with_quiet (b : Bool) : ({ g with quiet := b } : Given).word? o = g.word? o := by
  cases o <;> rfl

@[simp] theorem word?_with_verbose (n : Nat) :
    ({ g with verbose := n } : Given).word? o = g.word? o := by
  cases o <;> rfl

theorem word?_put_of_ne (h : p ≠ o) : (g.put o v).word? p = g.word? p := by
  cases o <;> cases p <;> simp_all [put, word?]

/-- A word that is a value somewhere is one here. -/
theorem word?_put_self (hk : k.word? o = some v) : (g.put o v).word? o = some v := by
  cases o with
  | output | input | project | compiler => rfl
  | operatorStyle =>
    obtain ⟨s, -, rfl⟩ := Option.map_eq_some_iff.mp hk
    rw [put, OperatorStyle.ofWord?_word]
    rfl
  | color =>
    obtain ⟨c, -, rfl⟩ := Option.map_eq_some_iff.mp hk
    rw [put, ColorChoice.ofWord?_word]
    rfl
  | logFormat =>
    obtain ⟨f, -, rfl⟩ := Option.map_eq_some_iff.mp hk
    rw [put, LogFormat.ofWord?_word]
    rfl

/-- It takes effect where the option has no value yet. -/
theorem set_eq_put (hnone : g.word? o = none) (hk : k.word? o = some v) (hv : v ≠ []) :
    g.set o v = .ok (g.put o v) := by
  have hpath : pathOfWord? v = some v := by simp [pathOfWord?, hv]
  cases o with
  | output | input | project | compiler =>
    simp only [word?] at hnone
    simp only [set, put, hnone, hpath]
    rfl
  | operatorStyle =>
    obtain ⟨s, -, rfl⟩ := Option.map_eq_some_iff.mp hk
    simp only [set, put, Option.map_eq_none_iff.mp hnone, OperatorStyle.ofWord?_word]
    rfl
  | color =>
    obtain ⟨c, -, rfl⟩ := Option.map_eq_some_iff.mp hk
    simp only [set, put, Option.map_eq_none_iff.mp hnone, ColorChoice.ofWord?_word]
    rfl
  | logFormat =>
    obtain ⟨f, -, rfl⟩ := Option.map_eq_some_iff.mp hk
    simp only [set, put, Option.map_eq_none_iff.mp hnone, LogFormat.ofWord?_word]
    rfl

end Put

end Given

/-! ## Options where they are given -/

/-- One option where it is given. -/
inductive Occurrence where
  /-- An option with its value. -/
  | valued (o : ValuedOption) (value : Text)
  /-- No log lines. -/
  | quiet
  /-- More log lines. -/
  | verbose
deriving DecidableEq, Repr

/-- All options with a value. -/
def ValuedOption.all : List ValuedOption :=
  [output, input, project, compiler, operatorStyle, color, logFormat]

theorem ValuedOption.mem_all (o : ValuedOption) : o ∈ all := by
  cases o <;> decide

namespace Given

/-- One more option takes effect. -/
def take (g : Given) : Occurrence → Except Interrupt Given
  | .valued o value => g.set o value
  | .quiet => if g.quiet then .error .argumentConflict else .ok { g with quiet := true }
  | .verbose => .ok { g with verbose := min (g.verbose + 1) verboseMax }

theorem foldlM_take_singleton (g : Given) (x : Occurrence) :
    [x].foldlM Given.take g = g.take x := by
  rw [List.foldlM_cons]
  cases g.take x <;> rfl

/-- Options take effect up to the last one, then that one does. -/
theorem foldlM_take_concat_eq_ok {g g' : Given} {os : List Occurrence} {x : Occurrence}
    (h : (os ++ [x]).foldlM Given.take g = .ok g') :
    ∃ k, os.foldlM Given.take g = .ok k ∧ k.take x = .ok g' := by
  rw [List.foldlM_append] at h
  cases hos : os.foldlM Given.take g with
  | error i =>
    rw [hos] at h
    contradiction
  | ok k =>
    rw [hos] at h
    exact ⟨k, rfl, (foldlM_take_singleton k x).symm.trans h⟩

/-- The options that are given with a value. -/
def valuedOccurrences (g : Given) : List Occurrence :=
  ValuedOption.all.filterMap fun o => (g.word? o).map (Occurrence.valued o)

/-- The options that are given: each with a value once, and more log lines as often as asked for. -/
def occurrences (g : Given) : List Occurrence :=
  g.valuedOccurrences ++ (if g.quiet then [.quiet] else []) ++ List.replicate g.verbose .verbose

/-- The options that have taken effect are those of the list; verbosity stops at its bound. -/
structure Records (g : Given) (os : List Occurrence) : Prop where
  /-- A value is that of an occurrence. -/
  word?_eq : ∀ (o : ValuedOption) (v : Text), g.word? o = some v ↔ Occurrence.valued o v ∈ os
  /-- Log lines are off if that was asked for. -/
  quiet_eq : g.quiet = true ↔ Occurrence.quiet ∈ os
  /-- More log lines are counted. -/
  verbose_eq : g.verbose = min (os.count .verbose) verboseMax

variable {g k : Given} {done os : List Occurrence}

theorem records_nil : ({} : Given).Records [] := by
  refine ⟨?_, by simp, rfl⟩
  intro o v
  cases o <;> simp [word?]

/-- The order of the list does not matter. -/
theorem Records.perm (h : g.Records done) (hp : done.Perm os) : g.Records os := by
  refine ⟨?_, ?_, ?_⟩
  · intro o v
    rw [h.word?_eq, hp.mem_iff]
  · rw [h.quiet_eq, hp.mem_iff]
  · rw [h.verbose_eq, hp.count_eq]

/-- A list tells what has taken effect. -/
theorem Records.unique (hg : g.Records os) (hk : k.Records os) : g = k := by
  refine ext_word? ?_ ?_ ?_
  · intro o
    refine Option.ext fun v => ?_
    rw [hg.word?_eq, hk.word?_eq]
  · rw [Bool.eq_iff_iff, hg.quiet_eq, hk.quiet_eq]
  · rw [hg.verbose_eq, hk.verbose_eq]

/-! ## Taking effect one after another -/

/-- The occurrence gives an option the value that it has among others. -/
def Has (k : Given) : Occurrence → Prop
  | .valued o v => k.word? o = some v ∧ v ≠ []
  | .quiet => True
  | .verbose => True

/-- An option that has no value yet is given one. -/
theorem Records.put {o : ValuedOption} {v : Text} (h : g.Records done) (hnone : g.word? o = none)
    (hword : k.word? o = some v) : (g.put o v).Records (done ++ [.valued o v]) where
  word?_eq p w := by
    rw [List.mem_append, ← h.word?_eq, List.mem_singleton, Occurrence.valued.injEq]
    by_cases hp : p = o
    · rw [hp, word?_put_self hword, hnone]
      simp [eq_comm]
    · rw [word?_put_of_ne hp]
      simp [hp]
  quiet_eq := by simp [h.quiet_eq]
  verbose_eq := by simp [h.verbose_eq]

/-- Log lines are turned off. -/
theorem Records.quiet (h : g.Records done) :
    ({ g with quiet := true } : Given).Records (done ++ [.quiet]) where
  word?_eq o v := by simp [h.word?_eq]
  quiet_eq := by simp
  verbose_eq := by simp [h.verbose_eq]

/-- One more log line, up to the bound. -/
theorem Records.verbose (h : g.Records done) :
    ({ g with verbose := min (g.verbose + 1) verboseMax } : Given).Records
      (done ++ [.verbose]) where
  word?_eq o v := by simp [h.word?_eq]
  quiet_eq := by simp [h.quiet_eq]
  verbose_eq := by
    show min (g.verbose + 1) verboseMax = _
    rw [h.verbose_eq, List.count_append, List.count_singleton_self]
    omega

/-- An option has no value yet if the one that it is to have was not there before. -/
theorem Records.word?_eq_none {o : ValuedOption} {v : Text} (h : g.Records done)
    (hdone : ∀ y ∈ done, k.Has y) (hword : k.word? o = some v) (hnew : .valued o v ∉ done) :
    g.word? o = none := by
  rw [Option.eq_none_iff_forall_ne_some]
  intro w hw
  have hmem := (h.word?_eq o w).mp hw
  have hsame : w = v := Option.some.inj ((hdone _ hmem).1.symm.trans hword)
  exact hnew (hsame ▸ hmem)

/-- One more option takes effect, unless it was there before. -/
theorem Records.take {x : Occurrence} (h : g.Records done) (hdone : ∀ y ∈ done, k.Has y)
    (hx : k.Has x) (hnew : x ≠ .verbose → x ∉ done) :
    ∃ g', g.take x = .ok g' ∧ g'.Records (done ++ [x]) := by
  cases x with
  | valued o v =>
    obtain ⟨hword, hv⟩ := hx
    have hnone := h.word?_eq_none hdone hword (hnew (by simp))
    exact ⟨g.put o v, set_eq_put hnone hword hv, h.put hnone hword⟩
  | quiet =>
    have hoff : g.quiet = false := by
      rw [← Bool.not_eq_true, h.quiet_eq]
      exact hnew (by simp)
    exact ⟨{ g with quiet := true }, by simp [Given.take, hoff], h.quiet⟩
  | verbose => exact ⟨_, rfl, h.verbose⟩

/-- Options that are given once take effect one after another, in any order. -/
theorem foldlM_take (h : g.Records done) (hdone : ∀ y ∈ done ++ os, k.Has y)
    (honce : ((done ++ os).filter fun x => x ≠ .verbose).Nodup) :
    ∃ g', os.foldlM Given.take g = .ok g' ∧ g'.Records (done ++ os) := by
  induction os generalizing g done with
  | nil => exact ⟨g, rfl, by rwa [List.append_nil]⟩
  | cons x os ih =>
    have hnew : x ≠ .verbose → x ∉ done := by
      intro hx hmem
      rw [List.filter_append, List.filter_cons_of_pos (by simpa using hx),
        List.nodup_append] at honce
      exact honce.2.2 x (List.mem_filter.mpr ⟨hmem, by simpa using hx⟩) x List.mem_cons_self rfl
    have hbefore : ∀ y ∈ done, k.Has y := fun y hy => hdone y (List.mem_append_left _ hy)
    obtain ⟨g₁, htake, hrecords⟩ := h.take hbefore (hdone x (by simp)) hnew
    have hcut : done ++ x :: os = done ++ [x] ++ os := by simp
    rw [hcut] at hdone honce ⊢
    obtain ⟨g', hfold, hall⟩ := ih hrecords hdone honce
    refine ⟨g', ?_, hall⟩
    rw [List.foldlM_cons, htake]
    exact hfold

/-! ## What is given -/

theorem mem_valuedOccurrences {x : Occurrence} :
    x ∈ g.valuedOccurrences ↔ ∃ o v, x = .valued o v ∧ g.word? o = some v := by
  rw [valuedOccurrences, List.mem_filterMap]
  constructor
  · rintro ⟨o, -, ho⟩
    obtain ⟨v, hv, rfl⟩ := Option.map_eq_some_iff.mp ho
    exact ⟨o, v, rfl, hv⟩
  · rintro ⟨o, v, rfl, hv⟩
    exact ⟨o, o.mem_all, by rw [hv, Option.map_some]⟩

theorem not_mem_valuedOccurrences {x : Occurrence} (h : ∀ o v, x ≠ .valued o v) :
    x ∉ g.valuedOccurrences := by
  intro hx
  obtain ⟨o, v, hov, -⟩ := mem_valuedOccurrences.mp hx
  exact h o v hov

theorem nodup_valuedOccurrences (g : Given) : g.valuedOccurrences.Nodup := by
  refine List.Nodup.filterMap ?_ (by decide)
  intro o p x ho hp
  obtain ⟨v, -, rfl⟩ := Option.map_eq_some_iff.mp ho
  obtain ⟨w, -, hw⟩ := Option.map_eq_some_iff.mp hp
  exact (Occurrence.valued.inj hw).1.symm

theorem valued_mem_occurrences {o : ValuedOption} {v : Text} :
    Occurrence.valued o v ∈ g.occurrences ↔ g.word? o = some v := by
  have hquiet : Occurrence.valued o v ∉ (if g.quiet then [Occurrence.quiet] else []) := by
    cases g.quiet <;> simp
  simp [occurrences, mem_valuedOccurrences, hquiet]

/-- The options that are given are told by what they give. -/
theorem records_occurrences (g : Given) :
    ({ g with verbose := min g.verbose verboseMax } : Given).Records g.occurrences := by
  refine ⟨?_, ?_, ?_⟩
  · intro o v
    rw [word?_with_verbose, valued_mem_occurrences]
  · have hnot : Occurrence.quiet ∉ g.valuedOccurrences := not_mem_valuedOccurrences (by simp)
    cases hquiet : g.quiet <;> simp [occurrences, hnot, hquiet]
  · have hnone : g.valuedOccurrences.count .verbose = 0 :=
      List.count_eq_zero.mpr (not_mem_valuedOccurrences (by simp))
    have hquiet : (if g.quiet then [Occurrence.quiet] else []).count .verbose = 0 := by
      cases g.quiet <;> decide
    have hcount : g.occurrences.count .verbose = g.verbose := by
      rw [occurrences, List.count_append, List.count_append, hnone, hquiet,
        List.count_replicate_self]
      omega
    rw [hcount]

theorem nodup_occurrences (g : Given) :
    (g.occurrences.filter fun x => x ≠ .verbose).Nodup := by
  have hmost : (g.valuedOccurrences ++ if g.quiet then [Occurrence.quiet] else []).Nodup := by
    rw [List.nodup_append]
    refine ⟨g.nodup_valuedOccurrences, by cases g.quiet <;> simp, ?_⟩
    intro x hx y hy
    obtain ⟨o, v, rfl, -⟩ := mem_valuedOccurrences.mp hx
    cases hquiet : g.quiet <;> simp_all
  have hverbose :
      (List.replicate g.verbose Occurrence.verbose).filter (fun x => x ≠ .verbose) = [] := by
    refine List.filter_eq_nil_iff.mpr fun x hx => ?_
    simp [List.eq_of_mem_replicate hx]
  rw [occurrences, List.filter_append, hverbose, List.append_nil]
  exact hmost.filter _

/-- What is given takes effect in any order. -/
theorem foldlM_take_occurrences (hne : ∀ o v, g.word? o = some v → v ≠ [])
    (horder : os.Perm g.occurrences) :
    os.foldlM Given.take {} = .ok { g with verbose := min g.verbose verboseMax } := by
  have hhas : ∀ y ∈ os, g.Has y := by
    intro y hy
    cases y with
    | valued o v =>
      have hword := valued_mem_occurrences.mp (horder.mem_iff.mp hy)
      exact ⟨hword, hne o v hword⟩
    | quiet => trivial
    | verbose => trivial
  have honce : (os.filter fun x => x ≠ .verbose).Nodup :=
    (horder.filter _).nodup_iff.mpr g.nodup_occurrences
  obtain ⟨g', hfold, hrecords⟩ := foldlM_take (k := g) records_nil hhas honce
  rw [hfold, (hrecords.perm horder).unique g.records_occurrences]

end Given

end RefBook
