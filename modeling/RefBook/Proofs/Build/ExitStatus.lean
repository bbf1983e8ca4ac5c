import RefBook.CommandLine.Session
import RefBook.Proofs.Build.Frame

/-!
# RefBook.Proofs.Build.ExitStatus — what the status of the process says

* `ExitContract`: the status and the site that a run leaves, by how its build ends.
* `run_exitContract`: every run of a command line that is settings keeps it.
-/

namespace RefBook

variable {s : Settings} {site after : Site} {reference : Text} {stage : Stage}

/-- The status and the site that a run leaves. -/
structure ExitContract (s : Settings) (site : Site) (r : Report) : Prop where
  /-- The build succeeds, or there is no project, or a stage is the first to fail. -/
  exhaustive : (∃ reference after, Publishes s site reference after) ∨ s.NoProject site
    ∨ ∃ stage after, Fails s site stage after
  /-- The status is zero in the first two cases and in no other. -/
  zero_iff : r.status = 0 ↔
    (∃ reference after, Publishes s site reference after) ∨ s.NoProject site
  /-- The files of the project, and the output, are looked for below the project directory; a path
  from the root is not. -/
  joined : ∀ path, Joined s.project path (joinPath s.project path)
  /-- After a build that succeeds the file of the output holds the reference, unless it is special
  and keeps nothing. -/
  published : ∀ reference after, Publishes s site reference after → r.site = after
    ∧ ∃ l, after.tree.At site.dir (joinPath s.project s.output) l
      ∧ (l ∈ after.tree.special ∨ after.tree.get? l = some (.file (Utf8.encode reference)))
  /-- Without a project no file is changed, and the compiler is not started. -/
  noProject : s.NoProject site → r.site = site
  /-- Else the status is that of the first stage to fail.  The site is as the stages before the last
  one have left it: the output is not written, and no file but the artifact is touched. -/
  failed : ∀ stage after, Fails s site stage after → r.status = stage.exitStatus
    ∧ r.site = after ∧ site.Keeps r.site (s.OfArtifact site)

theorem Stage.exitStatus_ne_zero (stage : Stage) : stage.exitStatus ≠ 0 := by
  cases stage <;> decide

theorem run_of_generate_error {args : List Text} {f : Failure}
    (hargs : readArguments args = .ok s) (h : generate s site = (.error f, after)) :
    (run args site).status = f.exitStatus ∧ (run args site).site = after := by
  simp only [run, hargs, h, and_self]

theorem run_of_publishes {args : List Text} (hargs : readArguments args = .ok s)
    (h : Publishes s site reference after) :
    (run args site).status = 0 ∧ (run args site).site = after := by
  simp only [run, hargs, generate_of_publishes h, and_self]

theorem run_of_noProject {args : List Text} (hargs : readArguments args = .ok s)
    (h : s.NoProject site) : (run args site).status = 0 ∧ (run args site).site = site :=
  run_of_generate_error hargs (generate_of_noProject h)

theorem run_of_fails {args : List Text} (hargs : readArguments args = .ok s)
    (h : Fails s site stage after) :
    (run args site).status = stage.exitStatus ∧ (run args site).site = after := by
  obtain ⟨f, hf, hstatus⟩ := generate_of_fails h
  rw [← hstatus]
  exact run_of_generate_error hargs hf

/-- What was published stands where the path of the output leads. -/
theorem Publishes.holds (h : Publishes s site reference after) :
    ∃ l, after.tree.At site.dir (joinPath s.project s.output) l
      ∧ (l ∈ after.tree.special ∨ after.tree.get? l = some (.file (Utf8.encode reference))) := by
  obtain ⟨loaded, -, written⟩ := h
  have hpaths := Tree.samePaths_of_writeFile written
  obtain ⟨-, l, hat, hwritten⟩ := Tree.writeFile_eq_ok_iff.1 written
  refine ⟨l, ?_, hwritten.holds hat.link?_eq_none⟩
  rw [← loaded.keeps.dir]
  exact hpaths.at_iff.2 hat

/-- **The status of the process says how the build ended.**  It is zero exactly when the reference
was written or there was no project, and else it is that of the first stage to fail. -/
theorem run_exitContract {args : List Text} (hargs : readArguments args = .ok s) (site : Site) :
    ExitContract s site (run args site) where
  exhaustive := ends s site
  zero_iff := by
    constructor
    · intro hzero
      rcases ends s site with h | h | ⟨stage, after, h⟩
      · exact .inl h
      · exact .inr h
      · rw [(run_of_fails hargs h).1] at hzero
        exact absurd hzero stage.exitStatus_ne_zero
    · rintro (⟨reference, after, h⟩ | h)
      · exact (run_of_publishes hargs h).1
      · exact (run_of_noProject hargs h).1
  joined := joined_joinPath s.project
  published reference after h := ⟨(run_of_publishes hargs h).2, h.holds⟩
  noProject h := (run_of_noProject hargs h).2
  failed stage after h := by
    obtain ⟨hstatus, hsite⟩ := run_of_fails hargs h
    exact ⟨hstatus, hsite, hsite ▸ h.keeps⟩

/-- The arguments of a build of the project in `pkg`, with its own compiler. -/
def pkgArgs : List Text :=
  ["-C".toList, "pkg".toList, "--output=out/REF.md".toList, "--operator-style".toList,
    "decorated".toList, "--compiler".toList, "bin/make".toList]

/-- What these arguments settle. -/
def pkgSettings : Settings :=
  { project := "pkg".toList, output := "out/REF.md".toList, style := .decorated,
    compiler := "bin/make".toList }

/-- The description of a module with an operator. -/
def pkgJson : Text :=
  "[\x7b\"name\":\"M\",\"comment\":\"@docs (+)\",\"aliases\":[],\"types\":[],".toList
    ++ "\"values\":[\x7b\"name\":\"+\",\"comment\":\"\",\"type\":\"a\"\x7d]\x7d]".toList

/-- A project with a compiler of its own, which writes a description, and with an artifact and a
reference left by earlier runs. -/
def pkgSite : Site where
  tree := { nodes := [(["pkg".toList], .directory),
    (["pkg".toList, "elm-package.json".toList], .file [123, 125]),
    (["pkg".toList, ".elm-docs".toList], .file [91, 93]),
    (["pkg".toList, "bin".toList], .directory),
    (["pkg".toList, "bin".toList, "make".toList], .file []),
    (["pkg".toList, "out".toList], .directory),
    (["pkg".toList, "out".toList, "REF.md".toList], .file [35])] }
  dir := []
  compiler := none
  executables := [(["pkg".toList, "bin".toList, "make".toList],
    ⟨"make".toList, some (Utf8.encode pkgJson), [], some 0⟩)]

/-- Its reference. -/
def pkgText : Text :=
  "# Modules\n\n- [M](#m)\n\n# M\n\n- [(+)](#+)\n\n\n".toList
    ++ "### `(+)`\n```elm\n(+) : a\n```\n\n---\n\n\n".toList
    ++ "---\n\n> Generated with elm-make: unknown and elmdocs: 0.3.0\n".toList

/-- The project's own compiler runs, and the reference is written in the style that was asked for. -/
theorem run_exitContract_pkg :
    readArguments pkgArgs = .ok pkgSettings
      ∧ ExitContract pkgSettings pkgSite (run pkgArgs pkgSite)
      ∧ (run pkgArgs pkgSite).status = 0
      ∧ (run pkgArgs pkgSite).site.tree.get? ["pkg".toList, "out".toList, "REF.md".toList]
        = some (.file (Utf8.encode pkgText)) :=
  ⟨rfl, run_exitContract rfl pkgSite, by decide +kernel, by decide +kernel⟩

/-- Where the artifact may not be removed, the build has failed. -/
example : (run pkgArgs { pkgSite with tree := { pkgSite.tree with
    refusals := [((.remove, ["pkg".toList, ".elm-docs".toList]), .system .permission)] } }).status
      = 2 := by
  decide +kernel

end RefBook
