import RefBook.Proofs.Build.Stages
import RefBook.Proofs.Workspace.Frame

/-!
# RefBook.Proofs.Build.Frame — what a build leaves of the tree

Each stage may touch one file: the compiler and the removal of what it wrote that of the artifact, the
last stage that of the output.  A build that fails has not come to the last one.  Where paths go
through links and a file has several names, the file counts, and not the path it is named by.

* `Site.Keeps`: a step of a build at a site, with the places it may touch.
* `Fails.keeps`, `Publishes.keeps`: the frame of each ending, from the frames of its stages.
* `generate_frame`: the frame of a whole build, with the compiler and from an input file.
-/

namespace RefBook

open RefBook.Tree (keeps_of_writeFile keeps_of_removeFile samePaths_of_writeFile)

variable {s : Settings} {site mid after : Site} {json reference : Text} {stage : Stage}
  {d l : Location}

theorem isPlainName_artifact : IsPlainName artifactName :=
  ⟨by decide, by decide, by decide, by decide, by decide, by decide⟩

/-! ## Places -/

/-- The places of the file that the compiler writes to: `.elm-docs` in the project directory, and all
names of the file that this leads to. -/
def Settings.OfArtifact (s : Settings) (site : Site) (l : Location) : Prop :=
  ∃ d, site.tree.enter site.dir s.project = .ok d ∧ site.tree.FileAt d ".elm-docs".toList l

/-- The places of the file that the reference is written to. -/
def Settings.OfOutput (s : Settings) (site : Site) : Location → Prop :=
  site.tree.Touches site.dir (joinPath s.project s.output)

/-- A step that stays in its directory and touches exempt places only. -/
structure Site.Keeps (site after : Site) (exempt : Location → Prop) : Prop where
  /-- The directory the build was started in. -/
  dir : after.dir = site.dir
  /-- The frame of the trees. -/
  tree : Tree.Keeps site.tree after.tree exempt
  /-- So by a path that leads to another place the same is read. -/
  reads : ∀ path l, site.tree.At site.dir path l → ¬ exempt l →
    after.tree.readFile after.dir path = site.tree.readFile site.dir path

theorem Site.keeps_of_tree {exempt : Location → Prop} (hdir : after.dir = site.dir)
    (htree : Tree.Keeps site.tree after.tree exempt) : site.Keeps after exempt := by
  refine ⟨hdir, htree, fun path l hat hl => ?_⟩
  rw [hdir]
  exact htree.readFile_eq hat hl

theorem Site.Keeps.refl (site : Site) (exempt : Location → Prop) : site.Keeps site exempt :=
  site.keeps_of_tree rfl (.refl _ _)

theorem Settings.OfArtifact.sameFile {k : Location} (h : s.OfArtifact site k)
    (hsame : site.tree.sameFile k l = true) : s.OfArtifact site l := by
  obtain ⟨d, hd, j, hj, hjk⟩ := h
  exact ⟨d, hd, j, hj, Tree.sameFile_trans hjk hsame⟩

/-- A path that leads to a file after the artifact was touched has led there before, if the file is
not the artifact itself. -/
theorem Site.Keeps.at_or {path : Text} (h : site.Keeps mid (s.OfArtifact site))
    (hl : mid.tree.At mid.dir path l) : s.OfArtifact site l ∨ site.tree.At site.dir path l := by
  by_cases hartifact : s.OfArtifact site l
  · exact .inl hartifact
  · rw [h.dir] at hl
    exact .inr ((h.tree.paths site.dir path l hartifact).1 hl)

/-- The artifact is touched again. -/
theorem Site.Keeps.ofArtifact (h : site.Keeps mid (s.OfArtifact site))
    (hd : site.tree.enter site.dir s.project = .ok d)
    (hl : mid.tree.FileAt d ".elm-docs".toList l) : s.OfArtifact site l := by
  obtain ⟨k, hk, hsame⟩ := hl
  have hbefore := h.tree.names k l hsame
  by_cases hartifact : s.OfArtifact site k
  · exact hartifact.sameFile hbefore
  · refine ⟨d, hd, k, hk.imp_left fun hat => ?_, hbefore⟩
    exact (h.tree.paths d _ k hartifact).1 hat

/-- The output is touched after the artifact. -/
theorem Site.Keeps.ofOutput (h : site.Keeps mid (s.OfArtifact site)) (hl : s.OfOutput mid l) :
    s.OfArtifact site l ∨ s.OfOutput site l := by
  obtain ⟨k, hk, hsame⟩ := hl
  have hbefore := h.tree.names k l hsame
  rcases h.at_or hk with hartifact | hat
  · exact .inl (hartifact.sameFile hbefore)
  · exact .inr ⟨k, hat, hbefore⟩

/-! ## Stages -/

/-- A compiler changes nothing, or writes the file that it is told. -/
theorem Program.write_cases (p : Program) (t : Tree) (dir : Location) (path : Text) :
    p.write t dir path = t ∨ ∃ content, t.writeFile dir path content = .ok (p.write t dir path) := by
  rw [Program.write]
  cases p.docs with
  | none => exact .inl rfl
  | some content =>
    cases hwrite : t.writeFile dir path content with
    | error e => exact .inl (by simp only [hwrite])
    | ok t' => exact .inr ⟨content, by simp only [hwrite]⟩

theorem Program.keeps_write (p : Program) (t : Tree) (dir : Location) (path : Text) :
    Tree.Keeps t (p.write t dir path) (t.Touches dir path) := by
  rcases p.write_cases t dir path with h | ⟨content, h⟩
  · rw [h]
    exact .refl t _
  · exact keeps_of_writeFile h

theorem Program.samePaths_write (p : Program) (t : Tree) (dir : Location) (path : Text) :
    Tree.SamePaths t (p.write t dir path) := by
  rcases p.write_cases t dir path with h | ⟨content, h⟩
  · rw [h]
    exact .refl t
  · exact samePaths_of_writeFile h

theorem Site.find_eq_ok_iff {project name : Text} {p : Program} :
    site.find project name = .ok (d, p) ↔ '\x00' ∉ name
      ∧ site.tree.enter site.dir project = .ok d ∧ site.program d name = .ok p := by
  rw [Site.find, ite_error_eq_ok_iff]
  simp only [bind_eq_ok_iff, Except.ok.injEq, Prod.mk.injEq]
  refine and_congr_right fun _ => ⟨?_, fun ⟨hd, hp⟩ => ⟨d, hd, p, hp, rfl, rfl⟩⟩
  rintro ⟨dir, hd, q, hq, rfl, rfl⟩
  exact ⟨hd, hq⟩

theorem Site.keeps_ran (hd : site.tree.enter site.dir s.project = .ok d) (p : Program) :
    site.Keeps (site.ran d p) (s.OfArtifact site) := by
  refine site.keeps_of_tree rfl ((p.keeps_write site.tree d artifactName).mono fun l hl => ?_)
  obtain ⟨k, hk, hsame⟩ := hl
  exact ⟨d, hd, k, .inl hk, hsame⟩

/-- The compiler has run in the project directory, which is where it was. -/
theorem Compiles.keeps (h : Compiles s site mid) : site.Keeps mid (s.OfArtifact site)
    ∧ ∃ d, site.tree.enter site.dir s.project = .ok d
      ∧ mid.tree.enter mid.dir s.project = .ok d := by
  obtain ⟨-, found, -⟩ := h
  have hd := (Site.find_eq_ok_iff.1 found).2.1
  exact ⟨site.keeps_ran hd _, _, hd, (Program.samePaths_write ..).enter_ok_iff.2 hd⟩

theorem Takes.keeps (h : Takes s site json after)
    (hd : site.tree.enter site.dir s.project = .ok d) :
    site.Keeps after (site.tree.FileAt d ".elm-docs".toList) := by
  obtain ⟨read, removed⟩ := h
  rw [Tree.readText, bind_eq_ok_iff] at read
  obtain ⟨content, hread, -⟩ := read
  exact site.keeps_of_tree rfl (keeps_of_removeFile isPlainName_artifact hd hread removed)

theorem Loads.keeps (h : Loads s site json after) : site.Keeps after (s.OfArtifact site) := by
  cases h with
  | input => exact .refl _ _
  | artifact compiled taken =>
    obtain ⟨hkeeps, d, hd, hmid⟩ := compiled.keeps
    have htaken := taken.keeps hmid
    exact site.keeps_of_tree (htaken.dir.trans hkeeps.dir)
      (hkeeps.tree.trans (htaken.tree.mono fun _ hl => hkeeps.ofArtifact hd hl))

/-- Loading from an input file changes nothing. -/
theorem Loads.eq_of_input {path : Text} (h : Loads s site json after)
    (hinput : s.input = some path) :
    after = site ∧ site.tree.readText site.dir path = .ok json := by
  cases h with
  | input given read =>
    rw [given] at hinput
    cases hinput
    exact ⟨rfl, read⟩
  | artifact compiled =>
    rw [compiled.callsCompiler.noInput] at hinput
    contradiction

/-! ## Endings -/

theorem Fails.keeps (h : Fails s site stage after) : site.Keeps after (s.OfArtifact site) := by
  cases h with
  | notStarted => exact .refl _ _
  | compile _ found => exact site.keeps_ran (Site.find_eq_ok_iff.1 found).2.1 _
  | takeArtifact compiled => exact compiled.keeps.1
  | readInput => exact .refl _ _
  | parse loaded => exact loaded.keeps
  | nonempty loaded => exact loaded.keeps
  | resolve loaded => exact loaded.keeps
  | write loaded => exact loaded.keeps

theorem Fails.eq_of_input {path : Text} (h : Fails s site stage after)
    (hinput : s.input = some path) : after = site := by
  cases h with
  | notStarted calls => simp [calls.noInput] at hinput
  | compile calls => simp [calls.noInput] at hinput
  | takeArtifact compiled => simp [compiled.callsCompiler.noInput] at hinput
  | readInput => rfl
  | parse loaded => exact (loaded.eq_of_input hinput).1
  | nonempty loaded => exact (loaded.eq_of_input hinput).1
  | resolve loaded => exact (loaded.eq_of_input hinput).1
  | write loaded => exact (loaded.eq_of_input hinput).1

theorem Publishes.keeps (h : Publishes s site reference after) :
    site.Keeps after fun l => s.OfArtifact site l ∨ s.OfOutput site l := by
  obtain ⟨loaded, -, written⟩ := h
  have hkeeps := loaded.keeps
  exact site.keeps_of_tree hkeeps.dir ((hkeeps.tree.mono fun _ => .inl).trans
    ((keeps_of_writeFile written).mono fun _ hl => hkeeps.ofOutput hl))

/-! ## Whole builds -/

/-- What a build from an input file leaves. -/
structure InputFrame (s : Settings) (site : Site) (path : Text) (result : Except Failure Text)
    (after : Site) : Prop where
  /-- The compiler is not started. -/
  started : after.started = site.started
  /-- Whether the build succeeds depends on the input file, what it describes, and the output, and
  on no descriptor. -/
  succeeds : (∃ written, result = .ok written) ↔ ∃ json reference ms tree,
    site.tree.readText site.dir path = .ok json ∧ Describes s json reference ms
      ∧ site.tree.writeFile site.dir (joinPath s.project s.output) (Utf8.encode reference)
        = .ok tree
  /-- All places but those of the output hold the same, the input file's among them. -/
  places : site.Keeps after (s.OfOutput site)
  /-- Nothing is removed, be it a file, a directory or a link. -/
  remains : (∀ l, (site.tree.get? l).isSome → (after.tree.get? l).isSome)
    ∧ after.tree.link? = site.tree.link?
  /-- If the build fails nothing changes at all. -/
  failure : ∀ f, result = .error f → after = site

/-- What a build leaves. -/
structure BuildFrame (s : Settings) (site : Site) (result : Except Failure Text) (after : Site) :
    Prop where
  /-- If it fails, all places but those of the artifact hold the same. -/
  failure : ∀ f, result = .error f → site.Keeps after (s.OfArtifact site)
  /-- If it succeeds, all but those of the artifact and the output do. -/
  success : ∀ written, result = .ok written →
    site.Keeps after fun l => s.OfArtifact site l ∨ s.OfOutput site l
  /-- An artifact that is no link, and whose file has no other name, is one place: that of its name
  in the project directory. -/
  artifact : ∀ d, site.tree.enter site.dir s.project = .ok d →
    site.tree.Sole (d ++ [".elm-docs".toList]) →
      ∀ l, s.OfArtifact site l → l = d ++ [".elm-docs".toList]
  /-- Likewise an output whose file has no other name. -/
  output : ∀ l, site.tree.At site.dir (joinPath s.project s.output) l → site.tree.Sole l →
    ∀ k, s.OfOutput site k → k = l
  /-- With an input file even less changes. -/
  input : ∀ path, s.input = some path → InputFrame s site path result after

theorem generate_succeeds_iff_of_input {path : Text} (hinput : s.input = some path) :
    (∃ written, (generate s site).1 = .ok written) ↔ ∃ json reference ms tree,
      site.tree.readText site.dir path = .ok json ∧ Describes s json reference ms
        ∧ site.tree.writeFile site.dir (joinPath s.project s.output) (Utf8.encode reference)
          = .ok tree := by
  constructor
  · rintro ⟨written, hok⟩
    rcases generate_cases s site with ⟨reference, after, h, -⟩ | ⟨-, heq⟩ | ⟨_, _, f, -, heq, -⟩
    · obtain ⟨loaded, described, hwrite⟩ := h
      obtain ⟨rfl, hread⟩ := loaded.eq_of_input hinput
      exact ⟨_, reference, _, _, hread, described, hwrite⟩
    · rw [heq] at hok
      contradiction
    · rw [heq] at hok
      contradiction
  · rintro ⟨json, reference, ms, tree, hread, hdescribed, hwrite⟩
    have hpublishes : Publishes s site reference { site with tree } :=
      .mk (.input hinput hread) hdescribed hwrite
    exact ⟨s.outputPath, by rw [generate_of_publishes hpublishes]⟩

theorem inputFrame_generate {path : Text} (hinput : s.input = some path) :
    InputFrame s site path (generate s site).1 (generate s site).2 := by
  have hsucceeds := @generate_succeeds_iff_of_input s site path hinput
  rcases generate_cases s site with ⟨_, after, h, heq⟩ | ⟨h, -⟩ | ⟨_, after, f, h, heq, -⟩
  · rw [heq] at hsucceeds ⊢
    obtain ⟨loaded, -, hwrite⟩ := h
    obtain ⟨rfl, -⟩ := loaded.eq_of_input hinput
    exact ⟨rfl, hsucceeds, Site.keeps_of_tree rfl (keeps_of_writeFile hwrite),
      ⟨Tree.isSome_get?_of_writeFile hwrite, (samePaths_of_writeFile hwrite).links⟩, by simp⟩
  · rw [h.noInput] at hinput
    contradiction
  · rw [heq] at hsucceeds ⊢
    obtain rfl := h.eq_of_input hinput
    exact ⟨rfl, hsucceeds, .refl _ _, ⟨fun _ hl => hl, rfl⟩, fun _ _ => rfl⟩

theorem Settings.OfArtifact.eq (h : s.OfArtifact site l)
    (hd : site.tree.enter site.dir s.project = .ok d)
    (hsole : site.tree.Sole (d ++ [".elm-docs".toList])) : l = d ++ [".elm-docs".toList] := by
  obtain ⟨d₁, hd₁, k, hk, hsame⟩ := h
  obtain rfl := Except.ok.inj (hd₁.symm.trans hd)
  have hplace : k = d₁ ++ [".elm-docs".toList] := by
    rcases hk with hat | rfl
    · rcases Tree.at_plainName_cases isPlainName_artifact hat with ⟨-, hk⟩ | ⟨_, _, hlink, -⟩
      · exact hk
      · rw [artifactName_eq, hsole.direct] at hlink
        contradiction
    · rfl
  subst hplace
  exact hsole.only l hsame

theorem Settings.OfOutput.eq {k : Location} (h : s.OfOutput site k)
    (hat : site.tree.At site.dir (joinPath s.project s.output) l) (hsole : site.tree.Sole l) :
    k = l := by
  obtain ⟨j, hj, hsame⟩ := h
  obtain rfl := Except.ok.inj (hj.symm.trans hat)
  exact hsole.only k hsame

theorem keeps_of_generate_error {f : Failure} (hf : (generate s site).1 = .error f) :
    site.Keeps (generate s site).2 (s.OfArtifact site) := by
  rcases generate_cases s site with ⟨_, _, _, heq⟩ | ⟨_, heq⟩ | ⟨_, _, _, h, heq, -⟩
  · rw [heq] at hf
    contradiction
  · rw [heq]
    exact .refl _ _
  · rw [heq]
    exact h.keeps

theorem keeps_of_generate_ok {written : Text} (hok : (generate s site).1 = .ok written) :
    site.Keeps (generate s site).2 fun l => s.OfArtifact site l ∨ s.OfOutput site l := by
  rcases generate_cases s site with ⟨_, _, h, heq⟩ | ⟨_, heq⟩ | ⟨_, _, _, _, heq, -⟩
  · rw [heq]
    exact h.keeps
  · rw [heq] at hok
    contradiction
  · rw [heq] at hok
    contradiction

/-- **A build touches the file of its artifact, and only when it succeeds that of its output.**  A
failed build neither changes nor makes any other file; one from an input file does not start the
compiler. -/
theorem generate_frame (s : Settings) (site : Site) :
    BuildFrame s site (generate s site).1 (generate s site).2 where
  failure _ hf := keeps_of_generate_error hf
  success _ hok := keeps_of_generate_ok hok
  artifact _ hd hsole _ hl := hl.eq hd hsole
  output _ hat hsole _ hk := hk.eq hat hsole
  input _ hinput := inputFrame_generate hinput

end RefBook
