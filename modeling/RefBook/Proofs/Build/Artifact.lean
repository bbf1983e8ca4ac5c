import RefBook.Proofs.Build.Frame

/-!
# RefBook.Proofs.Build.Artifact — what is loaded once a compiler has run

The compiler writes to a file that an earlier run may have left behind.

* `Settings.MayWrite`: nothing keeps the compiler from writing that file, or the build from taking it.
* `SameButArtifact`: two sites that differ in nothing but that file.
* `load_of_found`: what is loaded, by what the compiler does: the text it wrote, or the text that
  stood there if it wrote none.
* `load_ignores_left_artifact_iff`: so the file that was left does not show exactly when the compiler
  writes one of its own or does not succeed.
-/

namespace RefBook

open Utf8 (Bytes)
open RefBook.Tree (SamePaths)

variable {s : Settings} {site other : Site} {p : Program} {d l : Location} {content : Bytes}

/-! ## The place of the artifact -/

theorem isPlainName_descriptor : IsPlainName "elm-package.json".toList :=
  ⟨by decide, by decide, by decide, by decide, by decide, by decide⟩

/-- The place of the file that the compiler writes to. -/
def Settings.AtArtifact (s : Settings) (site : Site) : Location → Prop :=
  site.tree.At site.dir s.artifactPath

theorem Settings.endsInSlash_artifactPath (s : Settings) : endsInSlash s.artifactPath = false :=
  isPlainName_artifact.endsInSlash_joinPath s.project

/-- The place is that of the artifact, which can be written, read and removed. -/
structure Settings.MayWriteAt (s : Settings) (site : Site) (l : Location) : Prop where
  /-- It is that of the artifact. -/
  artifact : s.AtArtifact site l
  /-- No directory stands there. -/
  directory : site.tree.get? l ≠ some .directory
  /-- The file there keeps what is written. -/
  special : l ∉ site.tree.special
  /-- A file there may be written over. -/
  written : site.tree.ask .write l = .ok ()
  /-- A file may be made there. -/
  created : site.tree.ask .create l = .ok ()
  /-- It may be read. -/
  read : site.tree.ask .read l = .ok ()
  /-- The artifact may be removed from the project directory. -/
  removed : ∀ d, site.tree.enter site.dir s.project = .ok d →
    site.tree.ask .remove (d ++ [artifactName]) = .ok ()
  /-- The artifact is not the descriptor. -/
  descriptor : ¬ site.tree.At site.dir s.descriptorPath l
  /-- It is not the compiler. -/
  compiler : ∀ d, site.tree.enter site.dir s.project = .ok d → '/' ∈ s.compiler →
    ¬ site.tree.At d s.compiler l

/-- Nothing keeps the compiler from writing the artifact, or the build from taking it. -/
def Settings.MayWrite (s : Settings) (site : Site) : Prop :=
  ∃ l, s.MayWriteAt site l

/-! ## Sites that differ in the artifact -/

/-- The sites differ in nothing but the file that stands where the compiler writes to. -/
structure SameButArtifact (s : Settings) (site other : Site) : Prop where
  /-- They are at one directory. -/
  dir : other.dir = site.dir
  /-- One compiler is found by its name. -/
  compiler : other.compiler = site.compiler
  /-- The same files can be run. -/
  executables : other.executables = site.executables
  /-- The same places are directories and links, and the same is refused. -/
  paths : SamePaths site.tree other.tree
  /-- All other places hold the same. -/
  nodes : ∀ l, ¬ s.AtArtifact site l → other.tree.get? l = site.tree.get? l
  /-- They are names of the same files. -/
  names : ∀ k l, ¬ s.AtArtifact site k → ¬ s.AtArtifact site l →
    other.tree.sameFile k l = site.tree.sameFile k l
  /-- The same files are special. -/
  special : other.tree.special = site.tree.special

/-- A file put at the place of the artifact. -/
theorem sameButArtifact_put (free : s.MayWriteAt site l) (content : Bytes) :
    SameButArtifact s site { site with tree := site.tree.put l (.file content) } := by
  have hput := Tree.get?_put free.directory free.artifact.link?_eq_none (.file content)
  have hother : ∀ k, ¬ s.AtArtifact site k → k ≠ l := by
    rintro k hk rfl
    exact hk free.artifact
  refine ⟨rfl, rfl, rfl, ⟨fun k => ?_, rfl, rfl⟩, fun k hk => ?_, fun j k hj hk => ?_, ?_⟩
  · rw [hput]
    by_cases hk : k = l
    · simp [hk, free.directory]
    · rw [if_neg hk]
  · rw [hput, if_neg (hother k hk)]
  · exact Tree.sameFile_put (hother j hj) (hother k hk) _
  · refine List.filter_eq_self.mpr fun k hk => ?_
    have hkl : k ≠ l := by
      rintro rfl
      exact free.special hk
    simpa using hkl

namespace SameButArtifact

theorem at_iff (h : SameButArtifact s site other) {path : Text} :
    other.tree.At other.dir path l ↔ site.tree.At site.dir path l := by
  rw [h.dir]
  exact h.paths.at_iff

theorem enter_ok_iff (h : SameButArtifact s site other) :
    other.tree.enter other.dir s.project = .ok d ↔ site.tree.enter site.dir s.project = .ok d := by
  rw [h.dir]
  exact h.paths.enter_ok_iff

theorem mayWriteAt (h : SameButArtifact s site other) (free : s.MayWriteAt site l) :
    s.MayWriteAt other l where
  artifact := h.at_iff.2 free.artifact
  directory := mt (h.paths.directories l).1 free.directory
  special := h.special ▸ free.special
  written := (h.paths.ask_eq ..).trans free.written
  created := (h.paths.ask_eq ..).trans free.created
  read := (h.paths.ask_eq ..).trans free.read
  removed d hd := (h.paths.ask_eq ..).trans (free.removed d (h.enter_ok_iff.1 hd))
  descriptor := mt h.at_iff.1 free.descriptor
  compiler d hd hslash := mt h.paths.at_iff.1 (free.compiler d (h.enter_ok_iff.1 hd) hslash)

/-- The descriptor does not stand where the compiler writes to. -/
theorem callsCompiler (h : SameButArtifact s site other) (free : s.MayWriteAt site l)
    (calls : s.CallsCompiler site) : s.CallsCompiler other := by
  obtain ⟨hslash, k, held, hk, hfile, hspecial⟩ := Tree.isFile_eq_true_iff.1 calls.descriptor
  have hother : ¬ s.AtArtifact site k := fun hat =>
    free.descriptor (Except.ok.inj (hat.symm.trans free.artifact) ▸ hk)
  refine ⟨calls.noInput, Tree.isFile_eq_true_iff.2 ⟨hslash, k, held, h.at_iff.2 hk, ?_, ?_⟩⟩
  · rw [h.nodes k hother, hfile]
  · rwa [h.special]

end SameButArtifact

/-! ## Finding the compiler -/

/-- The program of a path stands in the file that it leads to. -/
theorem Site.executable_eq_ok_iff {path : Text} : site.executable d path = .ok p
    ↔ ∃ l, site.tree.At d path l ∧ ∃ held, site.tree.get? l = some (.file held)
      ∧ endsInSlash path = false ∧ site.tree.ask .run l = .ok ()
      ∧ site.executables.lookup l = some p := by
  rw [executable, bind_eq_ok_iff]
  refine exists_congr fun l => and_congr_right fun _ => ?_
  cases site.tree.get? l with
  | none => simp
  | some node =>
    cases node with
    | directory => simp
    | file held =>
      simp only [ite_error_eq_ok_iff, check_bind_eq_ok_iff, Bool.not_eq_true]
      cases site.executables.lookup l <;> simp

theorem SameButArtifact.find_eq (h : SameButArtifact s site other) (free : s.MayWriteAt site l)
    (found : site.find s.project s.compiler = .ok (d, p)) :
    other.find s.project s.compiler = .ok (d, p) := by
  obtain ⟨hnul, hd, hprogram⟩ := Site.find_eq_ok_iff.1 found
  refine Site.find_eq_ok_iff.2 ⟨hnul, h.enter_ok_iff.2 hd, ?_⟩
  rw [Site.program] at hprogram ⊢
  by_cases hslash : '/' ∈ s.compiler
  · rw [if_pos hslash] at hprogram ⊢
    obtain ⟨k, hk, held, hfile, hrest⟩ := Site.executable_eq_ok_iff.1 hprogram
    have hother : ¬ s.AtArtifact site k := fun hat =>
      free.compiler d hd hslash (Except.ok.inj (hat.symm.trans free.artifact) ▸ hk)
    refine Site.executable_eq_ok_iff.2 ⟨k, h.paths.at_iff.2 hk, held, ?_, ?_⟩
    · rw [h.nodes k hother, hfile]
    · rwa [h.paths.ask_eq, h.executables]
  · rw [if_neg hslash] at hprogram ⊢
    rwa [Site.installed, h.compiler]

/-! ## What is loaded -/

/-- The text of a file. -/
def textOf (content : Bytes) : Except IoError Text :=
  match Utf8.decode? content with
  | some t => .ok t
  | none => .error .notText

theorem Settings.readText_artifactPath {t : Tree} {dir : Location} (s : Settings)
    (hat : t.At dir s.artifactPath l) (hfile : t.get? l = some (.file content))
    (granted : t.ask .read l = .ok ()) : t.readText dir s.artifactPath = textOf content := by
  have hread : t.readFile dir s.artifactPath = .ok content :=
    Tree.readFile_eq_ok_iff.2 ⟨s.endsInSlash_artifactPath, l, hat, hfile, granted⟩
  rw [Tree.readText, hread]
  rfl

/-- What is taken is what can be read, if it may be removed. -/
theorem takeArtifact_fst (hd : site.tree.enter site.dir s.project = .ok d)
    (removed : site.tree.ask .remove (d ++ [artifactName]) = .ok ()) :
    (takeArtifact s site).1
      = (site.tree.readText site.dir s.artifactPath).mapError (.artifact s.artifactPath) := by
  cases hread : site.tree.readText site.dir s.artifactPath with
  | error e => simp only [takeArtifact, hread, Except.mapError]
  | ok json =>
    obtain ⟨content, hfile, -⟩ := bind_eq_ok_iff.1 hread
    obtain ⟨tree, hremove⟩ := Tree.exists_removeFile isPlainName_artifact hd hfile removed
    rw [← Settings.artifactPath] at hremove
    simp only [takeArtifact, hread, hremove, Except.mapError]

/-- Why a compiler that does not succeed has failed. -/
def Program.failure (p : Program) (s : Settings) : Failure :=
  .compilerFailed s.compiler (p.status.map fun n => (n.toNat : Int))
    (trim (Utf8.decodeLossy p.stderr))

/-- What stands at the place of the artifact once a compiler has written what it writes. -/
def Program.leaves (p : Program) (s : Settings) (site : Site) : Except IoError Text :=
  match p.docs with
  | some content => textOf content
  | none => site.tree.readText site.dir s.artifactPath

/-- What is written at the place of the artifact is read there. -/
theorem Settings.MayWriteAt.readText_of_written {tree : Tree} (free : s.MayWriteAt site l)
    (h : site.tree.Written l content tree) :
    tree.readText site.dir s.artifactPath = textOf content := by
  have hlink := free.artifact.link?_eq_none
  have hpaths := h.samePaths hlink
  have hfile := (h.holds hlink).resolve_left (mt h.mem_special free.special)
  exact s.readText_artifactPath (hpaths.at_iff.2 free.artifact) hfile
    ((hpaths.ask_eq ..).trans free.read)

/-- At the place of the artifact anything can be written. -/
theorem Settings.MayWriteAt.exists_written (free : s.MayWriteAt site l) (content : Bytes) :
    ∃ tree, site.tree.Written l content tree := by
  cases hget : site.tree.get? l with
  | none => exact ⟨_, .new hget free.created⟩
  | some node =>
    cases node with
    | directory => exact absurd hget free.directory
    | file held => exact ⟨_, .replaced hget free.written free.special⟩

theorem Program.readText_ran (hd : site.tree.enter site.dir s.project = .ok d)
    (free : s.MayWriteAt site l) (p : Program) :
    (site.ran d p).tree.readText site.dir s.artifactPath = p.leaves s site := by
  cases hdocs : p.docs with
  | none => simp only [Site.ran, write, leaves, hdocs]
  | some content =>
    have hat := isPlainName_artifact.at_of_joinPath hd free.artifact
    obtain ⟨tree, hwritten⟩ := free.exists_written content
    have hwrite : site.tree.writeFile d artifactName content = .ok tree :=
      Tree.writeFile_eq_ok_iff.2 ⟨isPlainName_artifact.endsInSlash_eq, l, hat, hwritten⟩
    simp only [Site.ran, write, leaves, hdocs, hwrite]
    exact free.readText_of_written hwritten

/-- What is loaded, by what the compiler does. -/
theorem load_of_found (calls : s.CallsCompiler site) (free : s.MayWriteAt site l)
    (found : site.find s.project s.compiler = .ok (d, p)) :
    (load s site).1 =
      if p.status = some 0 then (p.leaves s site).mapError (.artifact s.artifactPath)
      else .error (p.failure s) := by
  have hd := (Site.find_eq_ok_iff.1 found).2.1
  have hpaths : SamePaths site.tree (site.ran d p).tree := p.samePaths_write ..
  have hran : (site.ran d p).tree.enter (site.ran d p).dir s.project = .ok d :=
    hpaths.enter_ok_iff.2 hd
  rw [load_of_callsCompiler calls]
  by_cases hstatus : p.status = some 0
  · rw [(Compiles.mk calls found hstatus).runCompiler_eq, if_pos hstatus,
      ← p.readText_ran hd free]
    exact takeArtifact_fst hran ((hpaths.ask_eq ..).trans (free.removed d hd))
  · simp only [runCompiler, found, if_neg hstatus, Program.failure]

/-! ## The file that was left -/

theorem Program.leaves_eq_of_writes (hdocs : p.docs ≠ none) (site other : Site) :
    p.leaves s other = p.leaves s site := by
  obtain ⟨content, hcontent⟩ := Option.ne_none_iff_exists'.mp hdocs
  simp only [leaves, hcontent]

/-- A compiler that succeeds and writes nothing has what was left before it loaded. -/
theorem load_left (calls : s.CallsCompiler site) (free : s.MayWriteAt site l)
    (found : site.find s.project s.compiler = .ok (d, p)) (success : p.status = some 0)
    (hdocs : p.docs = none) (content : Bytes) :
    (load s { site with tree := site.tree.put l (.file content) }).1
      = (textOf content).mapError (.artifact s.artifactPath) := by
  have hsame := sameButArtifact_put free content
  have hother := hsame.mayWriteAt free
  have hfile : (site.tree.put l (.file content)).get? l = some (.file content) := by
    rw [Tree.get?_put free.directory free.artifact.link?_eq_none, if_pos rfl]
  have hread := s.readText_artifactPath hother.artifact hfile hother.read
  rw [load_of_found (hsame.callsCompiler free calls) hother (hsame.find_eq free found),
    if_pos success]
  simp only [Program.leaves, hdocs, hread]

/-- **The file that an earlier run left does not show exactly when the compiler writes one of its
own or does not succeed.**  What is loaded is the text that a compiler which succeeds has written,
or, if it has written none, the text that was left. -/
theorem load_ignores_left_artifact_iff (calls : s.CallsCompiler site) (free : s.MayWrite site)
    (found : site.find s.project s.compiler = .ok (d, p)) :
    ((∀ other, SameButArtifact s site other → (load s other).1 = (load s site).1)
        ↔ (p.status = some 0 → p.docs ≠ none))
      ∧ ∀ json, (load s site).1 = .ok json
          ↔ p.status = some 0 ∧ p.leaves s site = .ok json := by
  obtain ⟨l, free⟩ := free
  refine ⟨⟨?_, ?_⟩, fun json => ?_⟩
  · intro hsame success hdocs
    -- two texts that may have been left, both of which would have to be what is loaded
    have hload : ∀ content,
        (load s site).1 = (textOf content).mapError (.artifact s.artifactPath) :=
      fun content => by
        rw [← load_left calls free found success hdocs content]
        exact (hsame _ (sameButArtifact_put free content)).symm
    have hnil : textOf [] = .ok [] := by decide +kernel
    have hbracket : textOf [91] = .ok ['['] := by decide +kernel
    have htexts : (.ok [] : Except Failure Text) = .ok ['['] := by
      simpa only [hnil, hbracket, Except.mapError] using (hload []).symm.trans (hload [91])
    exact absurd (Except.ok.inj htexts) (by decide)
  · intro hwrites other hother
    rw [load_of_found calls free found, load_of_found (hother.callsCompiler free calls)
      (hother.mayWriteAt free) (hother.find_eq free found)]
    by_cases success : p.status = some 0
    · rw [if_pos success, if_pos success, Program.leaves_eq_of_writes (hwrites success) site other]
    · rw [if_neg success, if_neg success]
  · rw [load_of_found calls free found]
    by_cases success : p.status = some 0
    · rw [if_pos success]
      cases p.leaves s site <;> simp [success, Except.mapError]
    · simp [success]

/-! ## Plain trees -/

/-- A tree without links, special files and refusals. -/
structure Tree.IsPlain (t : Tree) : Prop where
  /-- There are no links. -/
  links : t.links = []
  /-- There are no special files. -/
  special : t.special = []
  /-- Nothing is refused. -/
  refusals : t.refusals = []

theorem Tree.IsPlain.ask_eq {t : Tree} (h : t.IsPlain) (access : Access) (l : Location) :
    t.ask access l = .ok () := by
  rw [ask, h.refusals]
  rfl

theorem Tree.IsPlain.link?_eq_none {t : Tree} (h : t.IsPlain) (l : Location) :
    t.link? l = none := by
  rw [link?, h.links]
  split <;> rfl

section Plain

variable (hplain : site.tree.IsPlain) (hproject : s.project ≠ [])

include hplain hproject in
/-- A name below the project leads to the place of that name in the project directory. -/
theorem Tree.IsPlain.at_joinPath {name : Text} (hname : IsPlainName name)
    (h : site.tree.At site.dir (joinPath s.project name) l) :
    ∃ d, site.tree.enter site.dir s.project = .ok d ∧ l = d ++ [name] := by
  obtain ⟨d, hd, hnamed⟩ := Tree.locate_joinPath hproject hname.isAbsolute_eq hname.ne_nil h
  rcases Tree.at_plainName_cases hname hnamed with ⟨-, hl⟩ | ⟨target, n, htarget, -⟩
  · exact ⟨d, hd, hl⟩
  · rw [hplain.link?_eq_none] at htarget
    contradiction

include hplain in
/-- Where a project is, its artifact has a place: its name is no longer than that of the
descriptor. -/
theorem Settings.CallsCompiler.exists_atArtifact (calls : s.CallsCompiler site) :
    ∃ l, s.AtArtifact site l := by
  have ha := isPlainName_artifact
  have hb := isPlainName_descriptor
  obtain ⟨-, k, -, hk, -, -⟩ := Tree.isFile_eq_true_iff.1 calls.descriptor
  obtain ⟨⟨hnul, -, hshort⟩, hk⟩ := Tree.locate_eq_ok_iff.1 hk
  rw [Tree.pathStart_joinPath hb.isAbsolute_eq, pathNames_joinPath hb.isAbsolute_eq,
    hb.pathNames_eq] at hk
  rw [joinPath_eq hb.isAbsolute_eq, List.mem_append, not_or] at hnul
  rw [joinPath_eq hb.isAbsolute_eq, byteLength_append] at hshort
  obtain ⟨d, n, -, hd, hlast⟩ := hk.exists_of_append
  have hlooks : site.tree.Looks d artifactName (d ++ [artifactName]) := by
    cases hlast with
    | step looks => exact ⟨looks.directory, looks.searched, ha.child_eq d⟩
    | link looks => exact ⟨looks.directory, looks.searched, ha.child_eq d⟩
  have hstep : Tree.Leads site.tree 0 d [artifactName] (d ++ [artifactName]) :=
    .step hlooks (hplain.link?_eq_none _) .done
  refine ⟨d ++ [artifactName], Tree.locate_eq_ok_iff.2 ⟨⟨?_, ?_, ?_⟩, ?_⟩⟩
  · rw [Settings.artifactPath, joinPath_eq ha.isAbsolute_eq, List.mem_append, not_or]
    exact ⟨hnul.1, ha.nul⟩
  · rw [Settings.artifactPath, joinPath_eq ha.isAbsolute_eq]
    exact List.append_ne_nil_of_right_ne_nil _ ha.ne_nil
  · have hlength : byteLength artifactName ≤ byteLength "elm-package.json".toList := by decide
    rw [Settings.artifactPath, joinPath_eq ha.isAbsolute_eq, byteLength_append]
    omega
  · rw [Settings.artifactPath, Tree.pathStart_joinPath ha.isAbsolute_eq,
      pathNames_joinPath ha.isAbsolute_eq, ha.pathNames_eq]
    exact hd.append hstep

include hplain hproject in
/-- In a plain tree, nothing but a directory in its place keeps the artifact of a project from being
written and taken, if the compiler is looked for where programs are kept. -/
theorem mayWrite_of_isPlain (calls : s.CallsCompiler site) (hslash : '/' ∉ s.compiler)
    (hdirectory : ∀ l, s.AtArtifact site l → site.tree.get? l ≠ some .directory) :
    s.MayWrite site := by
  obtain ⟨l, hat⟩ := calls.exists_atArtifact hplain
  refine ⟨l, hat, hdirectory l hat, by simp [hplain.special], hplain.ask_eq .., hplain.ask_eq ..,
    hplain.ask_eq .., fun d _ => hplain.ask_eq .., fun hdescriptor => ?_,
    fun d _ h => absurd h hslash⟩
  obtain ⟨d, hd, hl⟩ := hplain.at_joinPath hproject isPlainName_artifact hat
  obtain ⟨d₁, hd₁, hl₁⟩ := hplain.at_joinPath hproject isPlainName_descriptor hdescriptor
  obtain rfl := Except.ok.inj (hd₁.symm.trans hd)
  exact absurd (List.append_cancel_left (hl₁.symm.trans hl)) (by decide)

end Plain

/-- A compiler that succeeds and writes nothing. -/
def idleCompiler : Program := ⟨"elm-make".toList, none, [], some 0⟩

/-- A project without a description of its modules, where that compiler is found. -/
def idleSite : Site where
  tree := { nodes := [(["elm-package.json".toList], .file (Utf8.encode "{}".toList))] }
  dir := []
  compiler := some idleCompiler

/-- The same project after a run that left a description. -/
def leftoverSite : Site :=
  { idleSite with
    tree := idleSite.tree.put [artifactName] (.file (Utf8.encode "[]".toList)) }

theorem callsCompiler_idleSite : ({} : Settings).CallsCompiler idleSite :=
  ⟨rfl, by decide⟩

theorem atArtifact_idleSite : ({} : Settings).AtArtifact idleSite [artifactName] := rfl

theorem mayWrite_idleSite : ({} : Settings).MayWrite idleSite := by
  refine mayWrite_of_isPlain ⟨rfl, rfl, rfl⟩ (by decide) callsCompiler_idleSite (by decide) ?_
  intro l hl
  cases Except.ok.inj (hl.symm.trans atArtifact_idleSite)
  decide

theorem load_ignores_left_artifact_iff_idleSite :
    ({} : Settings).CallsCompiler idleSite ∧ ({} : Settings).MayWrite idleSite
      ∧ idleSite.find ".".toList "elm-make".toList = .ok ([], idleCompiler)
      ∧ ¬ ∀ other, SameButArtifact {} idleSite other →
        (load {} other).1 = (load {} idleSite).1 := by
  have found : idleSite.find ".".toList "elm-make".toList = .ok ([], idleCompiler) := rfl
  refine ⟨callsCompiler_idleSite, mayWrite_idleSite, found, fun hsame => ?_⟩
  have hiff := (load_ignores_left_artifact_iff callsCompiler_idleSite mayWrite_idleSite found).1
  exact hiff.mp hsame rfl rfl

/-- What is loaded may be what an earlier run left: the compiler writes nothing here, and loading
succeeds. -/
theorem load_shows_leftover :
    SameButArtifact {} idleSite leftoverSite
      ∧ (load {} idleSite).1 = .error (.artifact "./.elm-docs".toList (.system .noEntry))
      ∧ (load {} leftoverSite).1 = .ok "[]".toList := by
  obtain ⟨l, free⟩ := mayWrite_idleSite
  obtain rfl := Except.ok.inj (free.artifact.symm.trans atArtifact_idleSite)
  exact ⟨sameButArtifact_put free _, by decide, by decide +kernel⟩

end RefBook
