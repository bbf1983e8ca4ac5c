import RefBook.Build.Run
import RefBook.Proofs.Outcomes

/-!
# RefBook.Proofs.Build.Stages — how a build can end

A build goes through stages, and each needs what the one before has left.  It ends in one of three
ways, said here without the function that builds, from the settings of the command line:

* `Settings.NoProject`: it is to run the compiler where no project is.
* `Fails s site stage after`: every stage before `stage` has succeeded, this one does not, and
  `after` is the site that is left.
* `Publishes s site reference after`: every stage has succeeded, and the reference is written.

`generate_of_noProject`, `generate_of_fails` and `generate_of_publishes` say what `generate` makes
of each, and `generate_cases` that one of them always holds.
-/

namespace RefBook

variable {s : Settings} {site mid after : Site} {json reference : Text} {stage : Stage}

/-! ## Settings -/

/-- The style is that of the command line; the footer names the tool and the usual compiler. -/
theorem Settings.renderOptions_eq (s : Settings) : s.renderOptions =
    { style := s.style, toolVersion := "0.3.0".toList, compilerLabel := "elm-make".toList } := rfl

/-- The reference goes below the project. -/
theorem Settings.outputPath_eq (s : Settings) : s.outputPath = joinPath s.project s.output := rfl

theorem artifactName_eq : artifactName = ".elm-docs".toList := rfl

theorem Settings.descriptorPath_eq (s : Settings) :
    s.descriptorPath = joinPath s.project "elm-package.json".toList := rfl

theorem Settings.artifactPath_eq (s : Settings) :
    s.artifactPath = joinPath s.project ".elm-docs".toList := rfl

/-! ## Loading -/

/-- There is no project to run the compiler in. -/
structure Settings.NoProject (s : Settings) (site : Site) : Prop where
  /-- No file describes the modules. -/
  noInput : s.input = none
  /-- The descriptor is no file. -/
  noDescriptor :
    site.tree.isFile site.dir (joinPath s.project "elm-package.json".toList) = false

/-- The compiler is to run, and there is a project to run it in. -/
structure Settings.CallsCompiler (s : Settings) (site : Site) : Prop where
  /-- No file describes the modules. -/
  noInput : s.input = none
  /-- The descriptor is a file. -/
  descriptor : site.tree.isFile site.dir (joinPath s.project "elm-package.json".toList) = true

/-- The site that a compiler leaves that has run in a directory, whether it succeeds or not. -/
def Site.ran (site : Site) (d : Location) (p : Program) : Site :=
  { site with
    tree := p.write site.tree d artifactName
    started := some compilerArgs }

/-- The compiler has run and succeeded. -/
inductive Compiles (s : Settings) (site : Site) : Site → Prop where
  /-- It was found, and it ended with the status of success. -/
  | mk {d : Location} {p : Program} (calls : s.CallsCompiler site)
      (found : site.find s.project s.compiler = .ok (d, p)) (success : p.status = some 0) :
      Compiles s site (site.ran d p)

/-- What the compiler wrote has been read as a text, and removed. -/
inductive Takes (s : Settings) (site : Site) (json : Text) : Site → Prop where
  /-- Both operations succeed. -/
  | mk {tree : Tree}
      (read : site.tree.readText site.dir (joinPath s.project ".elm-docs".toList) = .ok json)
      (removed : site.tree.removeFile site.dir (joinPath s.project ".elm-docs".toList) = .ok tree) :
      Takes s site json { site with tree }

/-- The description of the modules has been loaded. -/
inductive Loads (s : Settings) (site : Site) (json : Text) : Site → Prop where
  /-- It was read from the input file. -/
  | input {path : Text} (given : s.input = some path)
      (read : site.tree.readText site.dir path = .ok json) : Loads s site json site
  /-- It is what the compiler wrote. -/
  | artifact {mid after : Site} (compiled : Compiles s site mid) (taken : Takes s mid json after) :
      Loads s site json after

/-! ## Endings -/

/-- A stage that can fail. -/
inductive Stage where
  /-- The compiler starts and succeeds. -/
  | compile
  /-- What it wrote is read and removed. -/
  | takeArtifact
  /-- The input file is read. -/
  | readInput
  /-- The description is well formed. -/
  | parse
  /-- It holds modules. -/
  | nonempty
  /-- The directives of the modules resolve. -/
  | resolve
  /-- The reference is written. -/
  | write
deriving DecidableEq, Repr

/-- The status that the process ends with when the stage fails. -/
def Stage.exitStatus : Stage → Nat
  | compile => 4
  | takeArtifact => 2
  | readInput => 3
  | parse => 2
  | nonempty => 1
  | resolve => 5
  | write => 3

/-- Modules make a reference in the style of the command line. -/
def Settings.Renders (s : Settings) (ms : List Module) (reference : Text) : Prop :=
  document { style := s.style, toolVersion := "0.3.0".toList, compilerLabel := "elm-make".toList } ms
    = .ok reference

/-- The description is well formed, holds modules, and makes a reference. -/
structure Describes (s : Settings) (json reference : Text) (ms : List Module) : Prop where
  /-- It is well formed. -/
  parsed : readModules json = .ok ms
  /-- It holds modules. -/
  nonempty : ms ≠ []
  /-- Their directives resolve. -/
  resolved : s.Renders ms reference

/-- The stage is the first that fails, and `after` is the site that is left. -/
inductive Fails (s : Settings) (site : Site) : Stage → Site → Prop where
  /-- The compiler cannot be started. -/
  | notStarted (calls : s.CallsCompiler site)
      (lost : ∀ found, site.find s.project s.compiler ≠ .ok found) : Fails s site .compile site
  /-- The compiler does not succeed. -/
  | compile {d : Location} {p : Program} (calls : s.CallsCompiler site)
      (found : site.find s.project s.compiler = .ok (d, p)) (failure : p.status ≠ some 0) :
      Fails s site .compile (site.ran d p)
  /-- What the compiler wrote is no text that can be read and removed. -/
  | takeArtifact {mid : Site} (compiled : Compiles s site mid)
      (kept : ∀ json after, ¬ Takes s mid json after) : Fails s site .takeArtifact mid
  /-- The input file is no text that can be read. -/
  | readInput {path : Text} (given : s.input = some path)
      (unread : ∀ json, site.tree.readText site.dir path ≠ .ok json) : Fails s site .readInput site
  /-- The description is malformed. -/
  | parse {json : Text} {after : Site} (loaded : Loads s site json after)
      (malformed : ∀ ms, readModules json ≠ .ok ms) : Fails s site .parse after
  /-- The description holds no modules. -/
  | nonempty {json : Text} {after : Site} (loaded : Loads s site json after)
      (parsed : readModules json = .ok []) : Fails s site .nonempty after
  /-- A directive does not resolve. -/
  | resolve {json : Text} {after : Site} {ms : List Module} (loaded : Loads s site json after)
      (parsed : readModules json = .ok ms) (nonempty : ms ≠ [])
      (unresolved : ∀ reference, ¬ s.Renders ms reference) : Fails s site .resolve after
  /-- The reference cannot be written. -/
  | write {json reference : Text} {after : Site} {ms : List Module}
      (loaded : Loads s site json after) (described : Describes s json reference ms)
      (unwritten : ∀ tree, after.tree.writeFile after.dir (joinPath s.project s.output)
        (Utf8.encode reference) ≠ .ok tree) : Fails s site .write after

/-- Every stage has succeeded. -/
inductive Publishes (s : Settings) (site : Site) (reference : Text) : Site → Prop where
  /-- The reference of the modules that were loaded is written. -/
  | mk {json : Text} {after : Site} {ms : List Module} {tree : Tree}
      (loaded : Loads s site json after) (described : Describes s json reference ms)
      (written : after.tree.writeFile after.dir (joinPath s.project s.output)
        (Utf8.encode reference) = .ok tree) : Publishes s site reference { after with tree }

/-! ## What each stage makes of it -/

theorem load_of_callsCompiler (h : s.CallsCompiler site) :
    load s site = match runCompiler s site with
      | (.ok (), mid) => takeArtifact s mid
      | (.error f, mid) => (.error f, mid) := by
  simp only [load, h.noInput, Settings.descriptorPath_eq]
  exact if_pos h.descriptor

theorem Compiles.runCompiler_eq (h : Compiles s site mid) :
    runCompiler s site = (.ok (), mid) := by
  obtain ⟨-, found, success⟩ := h
  simp only [runCompiler, found, success, if_true, Site.ran]

theorem Compiles.callsCompiler (h : Compiles s site mid) : s.CallsCompiler site := by
  obtain ⟨calls, -, -⟩ := h
  exact calls

theorem runCompiler_of_lost (lost : ∀ found, site.find s.project s.compiler ≠ .ok found) :
    ∃ e, runCompiler s site = (.error (.notStarted s.compiler e), site) := by
  obtain ⟨e, hfind⟩ := exists_eq_error_of_ne_ok lost
  exact ⟨e, by simp only [runCompiler, hfind]⟩

/-- A compiler that is found and does not succeed. -/
theorem runCompiler_of_failure {d : Location} {p : Program}
    (found : site.find s.project s.compiler = .ok (d, p)) (failure : p.status ≠ some 0) :
    ∃ status stderr,
      runCompiler s site = (.error (.compilerFailed s.compiler status stderr), site.ran d p) := by
  refine ⟨p.status.map fun n => (n.toNat : Int), trim (Utf8.decodeLossy p.stderr), ?_⟩
  simp only [runCompiler, found, if_neg failure, Site.ran]

theorem Takes.takeArtifact_eq (h : Takes s site json after) :
    takeArtifact s site = (.ok json, after) := by
  obtain ⟨read, removed⟩ := h
  simp only [takeArtifact, Settings.artifactPath_eq, read, removed]

/-- Where nothing can be taken, the site stays as it is. -/
theorem takeArtifact_of_not_takes (h : ∀ json after, ¬ Takes s site json after) :
    ∃ e, takeArtifact s site = (.error (.artifact s.artifactPath e), site) := by
  cases hread : site.tree.readText site.dir s.artifactPath with
  | error e => exact ⟨e, by simp only [takeArtifact, hread]⟩
  | ok json =>
    cases hremove : site.tree.removeFile site.dir s.artifactPath with
    | error e => exact ⟨e, by simp only [takeArtifact, hread, hremove]⟩
    | ok tree => exact absurd (.mk hread hremove) (h json _)

theorem Loads.load_eq (h : Loads s site json after) : load s site = (.ok json, after) := by
  cases h with
  | input given read => simp only [load, given, read]
  | artifact compiled taken =>
    rw [load_of_callsCompiler compiled.callsCompiler, compiled.runCompiler_eq]
    exact taken.takeArtifact_eq

/-- Modules that are read make a reference if their directives resolve. -/
theorem render_of_modules {options : RenderOptions} {ms : List Module}
    (parsed : readModules json = .ok ms) (nonempty : ms ≠ []) :
    render options json = (document options ms).mapError .unresolved := by
  cases ms with
  | nil => contradiction
  | cons m ms =>
    simp only [render, parsed]
    cases document options (m :: ms) <;> rfl

theorem Settings.renders_iff {ms : List Module} :
    s.Renders ms reference ↔ document s.renderOptions ms = .ok reference := by
  rw [Renders, renderOptions_eq]

theorem Describes.render_eq {ms : List Module} (h : Describes s json reference ms) :
    render s.renderOptions json = .ok reference := by
  rw [render_of_modules h.parsed h.nonempty, Settings.renders_iff.1 h.resolved]
  rfl

/-! ## What building makes of each ending -/

theorem generate_of_load_error {f : Failure} (h : load s site = (.error f, after)) :
    generate s site = (.error f, after) := by
  rw [generate, h]

theorem generate_of_render_error {f : Failure} (h : Loads s site json after)
    (hf : render s.renderOptions json = .error f) : generate s site = (.error f, after) := by
  simp only [generate, h.load_eq, hf]

theorem generate_of_render {reference : Text} (h : Loads s site json after)
    (hr : render s.renderOptions json = .ok reference) :
    generate s site = writeOutput s reference after := by
  simp only [generate, h.load_eq, hr]

theorem generate_of_noProject (h : s.NoProject site) :
    generate s site = (.error (.noDescriptor s.descriptorPath), site) := by
  refine generate_of_load_error ?_
  simp only [load, h.noInput, Settings.descriptorPath_eq, h.noDescriptor, Bool.false_eq_true,
    if_false]

theorem generate_of_publishes (h : Publishes s site reference after) :
    generate s site = (.ok s.outputPath, after) := by
  obtain ⟨loaded, described, written⟩ := h
  rw [generate_of_render loaded described.render_eq]
  simp only [writeOutput, Settings.outputPath_eq, written]

/-- The failure of a stage carries the status of the stage. -/
theorem generate_of_fails (h : Fails s site stage after) :
    ∃ f, generate s site = (.error f, after) ∧ f.exitStatus = stage.exitStatus := by
  cases h with
  | notStarted calls lost =>
    obtain ⟨e, hrun⟩ := runCompiler_of_lost lost
    refine ⟨.notStarted s.compiler e, generate_of_load_error ?_, rfl⟩
    rw [load_of_callsCompiler calls, hrun]
  | compile calls found failure =>
    obtain ⟨status, stderr, hrun⟩ := runCompiler_of_failure found failure
    refine ⟨.compilerFailed s.compiler status stderr, generate_of_load_error ?_, rfl⟩
    rw [load_of_callsCompiler calls, hrun]
  | takeArtifact compiled kept =>
    obtain ⟨e, htake⟩ := takeArtifact_of_not_takes kept
    refine ⟨.artifact s.artifactPath e, generate_of_load_error ?_, rfl⟩
    rw [load_of_callsCompiler compiled.callsCompiler, compiled.runCompiler_eq]
    exact htake
  | readInput given unread =>
    obtain ⟨e, hread⟩ := exists_eq_error_of_ne_ok unread
    refine ⟨.io e, generate_of_load_error ?_, rfl⟩
    simp only [load, given, hread]
  | parse loaded malformed =>
    obtain ⟨fault, hread⟩ := exists_eq_error_of_ne_ok malformed
    refine ⟨.malformed fault, generate_of_render_error loaded ?_, rfl⟩
    simp only [render, hread]
  | nonempty loaded parsed =>
    refine ⟨.noModules, generate_of_render_error loaded ?_, rfl⟩
    simp only [render, parsed]
  | resolve loaded parsed nonempty unresolved =>
    obtain ⟨complaint, hdoc⟩ := exists_eq_error_of_ne_ok fun reference h =>
      unresolved reference (Settings.renders_iff.2 h)
    refine ⟨.unresolved complaint, generate_of_render_error loaded ?_, rfl⟩
    rw [render_of_modules parsed nonempty, hdoc]
    rfl
  | write loaded described unwritten =>
    obtain ⟨e, hwrite⟩ := exists_eq_error_of_ne_ok unwritten
    refine ⟨.io e, ?_, rfl⟩
    rw [generate_of_render loaded described.render_eq]
    simp only [writeOutput, Settings.outputPath_eq, hwrite]

/-! ## One of the endings holds -/

/-- What follows once the description is loaded. -/
theorem Loads.ends (h : Loads s site json after) :
    (∃ reference left, Publishes s site reference left)
      ∨ ∃ stage left, Fails s site stage left := by
  cases hread : readModules json with
  | error fault => exact .inr ⟨.parse, after, .parse h (by simp [hread])⟩
  | ok ms =>
    by_cases hms : ms = []
    · subst hms
      exact .inr ⟨.nonempty, after, .nonempty h hread⟩
    · cases hdoc : document s.renderOptions ms with
      | error complaint =>
        refine .inr ⟨.resolve, after, .resolve h hread hms fun reference hrenders => ?_⟩
        rw [Settings.renders_iff.1 hrenders] at hdoc
        contradiction
      | ok reference =>
        have hdescribed : Describes s json reference ms :=
          ⟨hread, hms, Settings.renders_iff.2 hdoc⟩
        cases hwrite : after.tree.writeFile after.dir (joinPath s.project s.output)
          (Utf8.encode reference) with
        | error e => exact .inr ⟨.write, after, .write h hdescribed (by simp [hwrite])⟩
        | ok tree => exact .inl ⟨reference, _, .mk h hdescribed hwrite⟩

theorem ends (s : Settings) (site : Site) :
    (∃ reference after, Publishes s site reference after) ∨ s.NoProject site
      ∨ ∃ stage after, Fails s site stage after := by
  cases hinput : s.input with
  | some path =>
    cases hread : site.tree.readText site.dir path with
    | error e => exact .inr (.inr ⟨.readInput, site, .readInput hinput (by simp [hread])⟩)
    | ok json => exact (Loads.input hinput hread).ends.imp_right .inr
  | none =>
    cases hfile : site.tree.isFile site.dir (joinPath s.project "elm-package.json".toList) with
    | false => exact .inr (.inl ⟨hinput, hfile⟩)
    | true =>
      have hcalls : s.CallsCompiler site := ⟨hinput, hfile⟩
      cases hfind : site.find s.project s.compiler with
      | error e => exact .inr (.inr ⟨.compile, site, .notStarted hcalls (by simp [hfind])⟩)
      | ok found =>
        obtain ⟨d, p⟩ := found
        by_cases hstatus : p.status = some 0
        · have hcompiled : Compiles s site (site.ran d p) := .mk hcalls hfind hstatus
          by_cases htakes : ∃ json after, Takes s (site.ran d p) json after
          · obtain ⟨json, after, htakes⟩ := htakes
            exact (Loads.artifact hcompiled htakes).ends.imp_right .inr
          · refine .inr (.inr ⟨.takeArtifact, _, .takeArtifact hcompiled fun json after h => ?_⟩)
            exact htakes ⟨json, after, h⟩
        · exact .inr (.inr ⟨.compile, _, .compile hcalls hfind hstatus⟩)

/-- A build ends in one of the ways, with the result that belongs to it. -/
theorem generate_cases (s : Settings) (site : Site) :
    (∃ reference after, Publishes s site reference after
        ∧ generate s site = (.ok s.outputPath, after))
      ∨ (s.NoProject site ∧ generate s site = (.error (.noDescriptor s.descriptorPath), site))
      ∨ ∃ stage after f, Fails s site stage after ∧ generate s site = (.error f, after)
          ∧ f.exitStatus = stage.exitStatus := by
  rcases ends s site with ⟨reference, after, h⟩ | h | ⟨stage, after, h⟩
  · exact .inl ⟨reference, after, h, generate_of_publishes h⟩
  · exact .inr (.inl ⟨h, generate_of_noProject h⟩)
  · obtain ⟨f, hf, hstatus⟩ := generate_of_fails h
    exact .inr (.inr ⟨stage, after, f, h, hf, hstatus⟩)

end RefBook
