import Mathlib.Data.List.Basic
import RefBook.Proofs.Outcomes
import RefBook.Workspace.Tree

/-!
# RefBook.Proofs.Workspace.Paths — where paths lead

* `joined_joinPath`: what a path below a directory is written as.
* `Leads t links dir names l`: from `dir` the names lead to `l`, through no more than so many links.
  There is one constructor for each kind of step; `follow_eq_ok_iff` says that this is what following
  names comes to.
* `Leads.unique`, `Leads.mono`: how many links may be followed does not matter to where names lead.
* `Leads.exists_of_append`, `Leads.append`: names lead on from where the names before them lead.
* `locate_joinPath`: so a path below a directory leads where it leads from that directory.
-/

namespace RefBook

/-! ## Names of a path -/

theorem pathNames_slash (path more : Text) :
    pathNames (path ++ '/' :: more) = pathNames path ++ pathNames more := by
  rw [pathNames, List.splitOn_append_cons_self, List.filter_append]
  rfl

theorem pathNames_cons_slash (path : Text) : pathNames ('/' :: path) = pathNames path :=
  pathNames_slash [] path

theorem pathNames_cons_ne_nil {c : Char} (hc : c ≠ '/') (path : Text) :
    pathNames (c :: path) ≠ [] := by
  obtain ⟨first, rest, hr⟩ := List.exists_cons_of_ne_nil (List.splitOnP_ne_nil (· == '/') path)
  rw [pathNames, List.splitOn, List.splitOnP_cons_eq_if_modifyHead, if_neg (by simpa using hc), hr]
  simp

/-- A path with another character than slashes has a name. -/
theorem pathNames_ne_nil_of_mem {path : Text} {c : Char} (hmem : c ∈ path) (hc : c ≠ '/') :
    pathNames path ≠ [] := by
  induction path with
  | nil => contradiction
  | cons d path ih =>
    by_cases hd : d = '/'
    · subst hd
      rw [pathNames_cons_slash]
      exact ih ((List.mem_cons.mp hmem).resolve_left hc)
    · exact pathNames_cons_ne_nil hd path

/-! ## A path below a directory -/

/-- What a path below a directory is written as. -/
inductive Joined (dir : Text) : Text → Text → Prop where
  /-- A path from the root stays as it is. -/
  | root (rest : Text) : Joined dir ('/' :: rest) ('/' :: rest)
  /-- Nothing stands in front below the empty path. -/
  | bare {path : Text} (relative : ∀ rest, path ≠ '/' :: rest) (empty : dir = []) :
      Joined dir path path
  /-- A directory that ends in a slash. -/
  | slash {d path : Text} (relative : ∀ rest, path ≠ '/' :: rest) (ends : dir = d ++ ['/']) :
      Joined dir path (dir ++ path)
  /-- Any other directory. -/
  | apart {path : Text} (relative : ∀ rest, path ≠ '/' :: rest) (nonempty : dir ≠ [])
      (ends : ∀ d, dir ≠ d ++ ['/']) : Joined dir path (dir ++ '/' :: path)

theorem endsInSlash_iff {path : Text} : endsInSlash path = true ↔ ∃ d, path = d ++ ['/'] := by
  rw [endsInSlash, beq_iff_eq, List.getLast?_eq_some_iff]

theorem isAbsolute_iff {path : Text} : isAbsolute path = true ↔ ∃ rest, path = '/' :: rest := by
  rw [isAbsolute, beq_iff_eq, List.head?_eq_some_iff]

theorem joined_joinPath (dir path : Text) : Joined dir path (joinPath dir path) := by
  rw [joinPath]
  split
  · next hroot =>
    obtain ⟨rest, rfl⟩ := isAbsolute_iff.1 hroot
    exact .root rest
  · next hroot =>
    have hrelative : ∀ rest, path ≠ '/' :: rest := fun rest h => hroot (isAbsolute_iff.2 ⟨rest, h⟩)
    split
    · next hlead =>
      rcases Bool.or_eq_true _ _ ▸ hlead with hnil | hend
      · obtain rfl := List.isEmpty_iff.mp hnil
        exact .bare hrelative rfl
      · obtain ⟨d, hd⟩ := endsInSlash_iff.1 hend
        exact .slash hrelative hd
    · next hlead =>
      rw [Bool.or_eq_true, not_or, List.isEmpty_iff] at hlead
      exact .apart hrelative hlead.1 fun d hd => hlead.2 (endsInSlash_iff.2 ⟨d, hd⟩)

/-- What stands in front of a path below a directory. -/
def pathLead (dir : Text) : Text :=
  if dir.isEmpty || endsInSlash dir then dir else dir ++ ['/']

section Below

variable {dir path : Text} (hrelative : isAbsolute path = false)
include hrelative

theorem joinPath_eq (dir : Text) : joinPath dir path = pathLead dir ++ path := by
  rw [joinPath, hrelative, if_neg Bool.false_ne_true, pathLead]
  split
  · rfl
  · rw [List.append_assoc, List.singleton_append]

theorem pathNames_joinPath (dir : Text) :
    pathNames (joinPath dir path) = pathNames dir ++ pathNames path := by
  rw [joinPath_eq hrelative, pathLead]
  split
  · next hlead =>
    rcases Bool.or_eq_true _ _ ▸ hlead with hnil | hend
    · rw [List.isEmpty_iff.mp hnil]
      rfl
    · -- the last name of the directory is followed by an empty one
      obtain ⟨d, rfl⟩ := endsInSlash_iff.1 hend
      have hempty : pathNames ([] : Text) = [] := rfl
      rw [List.append_assoc, List.singleton_append, pathNames_slash, pathNames_slash, hempty,
        List.append_nil]
  · rw [List.append_assoc, List.singleton_append, pathNames_slash]

theorem isAbsolute_joinPath (dir : Text) : isAbsolute (joinPath dir path) = isAbsolute dir := by
  rw [joinPath_eq hrelative, pathLead]
  cases dir with
  | nil => exact hrelative
  | cons c r => split <;> rfl

end Below

theorem byteLength_append (t u : Text) : byteLength (t ++ u) = byteLength t + byteLength u := by
  induction t with
  | nil => simp [byteLength]
  | cons c t ih => simp only [List.cons_append, byteLength, ih, Nat.add_assoc]

theorem byteLength_le_pathLead (dir : Text) : byteLength dir ≤ byteLength (pathLead dir) := by
  rw [pathLead]
  split
  · exact Nat.le_refl _
  · rw [byteLength_append]
    exact Nat.le_add_right _ _

namespace Tree

variable {t t' : Tree} {links : Nat} {dir k l : Location} {names : List Text} {name path : Text}

/-! ## Steps -/

theorem link?_nil (t : Tree) : t.link? [] = none := rfl

theorem get?_nil (t : Tree) : t.get? [] = some .directory := rfl

/-- A link is neither a file nor a directory. -/
theorem get?_of_link? {target : Text} (h : t.link? l = some target) : t.get? l = none := by
  have hl : l ≠ [] := by
    rintro rfl
    rw [link?_nil] at h
    contradiction
  rw [get?, if_neg hl, h]
  rfl

/-- No link is where something stands. -/
theorem link?_of_get? {node : Node} (h : t.get? l = some node) : t.link? l = none := by
  by_contra hlink
  obtain ⟨target, htarget⟩ := Option.ne_none_iff_exists'.mp hlink
  rw [get?_of_link? htarget] at h
  contradiction

theorem linkNames_ne_nil {target : Text} (h : target ≠ []) : linkNames target ≠ [] := by
  rw [linkNames]
  split
  · simp
  · next hslash =>
    obtain ⟨c, hc⟩ := Option.ne_none_iff_exists'.mp (mt List.getLast?_eq_none_iff.mp h)
    refine pathNames_ne_nil_of_mem (List.mem_of_getLast? hc) ?_
    rintro rfl
    exact hslash (by simp [endsInSlash, hc])

/-- A name is looked up in a directory. -/
structure Looks (t : Tree) (dir : Location) (name : Text) (k : Location) : Prop where
  /-- It is one. -/
  directory : t.get? dir = some .directory
  /-- Its names may be searched. -/
  searched : t.ask .search dir = .ok ()
  /-- The name is that of a place. -/
  named : child dir name = .ok k

/-- Names lead from one location to another, through no more than so many links. -/
inductive Leads (t : Tree) : Nat → Location → List Text → Location → Prop where
  /-- No name is left. -/
  | done {links : Nat} {dir : Location} : Leads t links dir [] dir
  /-- A name that is not that of a link. -/
  | step {links : Nat} {dir k l : Location} {name : Text} {more : List Text}
      (looks : t.Looks dir name k) (direct : t.link? k = none) (rest : Leads t links k more l) :
      Leads t links dir (name :: more) l
  /-- A name that is that of a link. -/
  | link {links : Nat} {dir k l : Location} {name target : Text} {more : List Text}
      (looks : t.Looks dir name k) (linked : t.link? k = some target) (nonempty : target ≠ [])
      (rest : Leads t links (pathStart k.dropLast target) (linkNames target ++ more) l) :
      Leads t (links + 1) dir (name :: more) l

theorem Looks.unique (h : t.Looks dir name k) (h' : t.Looks dir name l) : l = k :=
  Except.ok.inj (h'.named.symm.trans h.named)

/-- One name is followed: it is that of a link, or it is not. -/
theorem walk_cons_eq_ok_iff {onLink : Location → Text → List Text → Except IoError Location}
    {more : List Text} :
    t.walk onLink dir (name :: more) = .ok l ↔ ∃ k, t.Looks dir name k
      ∧ ((∃ target, t.link? k = some target ∧ onLink k.dropLast target more = .ok l)
        ∨ (t.link? k = none ∧ t.walk onLink k more = .ok l)) := by
  have hlooks : ∀ {k}, t.Looks dir name k ↔ t.get? dir = some .directory
      ∧ t.ask .search dir = .ok () ∧ child dir name = .ok k :=
    fun {k} => ⟨fun ⟨hdir, hask, hchild⟩ => ⟨hdir, hask, hchild⟩,
      fun ⟨hdir, hask, hchild⟩ => ⟨hdir, hask, hchild⟩⟩
  simp only [hlooks, walk, and_assoc]
  cases hget : t.get? dir with
  | none => simp
  | some node =>
    cases node with
    | file content => simp
    | directory =>
      dsimp only
      rw [check_bind_eq_ok_iff]
      simp only [bind_eq_ok_iff, true_and, exists_and_left]
      refine and_congr_right fun _ => exists_congr fun k => and_congr_right fun _ => ?_
      cases t.link? k <;> simp

theorem follow_zero (t : Tree) :
    t.follow 0 = t.walk fun _ _ _ => .error (.system .tooManyLinks) := rfl

theorem follow_succ (t : Tree) (links : Nat) :
    t.follow (links + 1) = t.walk fun dir target more =>
      if target.isEmpty then .error (.system .noEntry)
      else t.follow links (pathStart dir target) (linkNames target ++ more) := rfl

/-- Names are followed step by step if links are. -/
theorem leads_of_walk {onLink : Location → Text → List Text → Except IoError Location}
    (hlink : ∀ {dir : Location} {name target : Text} {more : List Text} {k l : Location},
      t.Looks dir name k → t.link? k = some target → onLink k.dropLast target more = .ok l →
        Leads t links dir (name :: more) l)
    (h : t.walk onLink dir names = .ok l) : Leads t links dir names l := by
  induction names generalizing dir with
  | nil =>
    cases h
    exact .done
  | cons name more ih =>
    obtain ⟨k, looks, ⟨target, linked, honlink⟩ | ⟨direct, hrest⟩⟩ := walk_cons_eq_ok_iff.1 h
    · exact hlink looks linked honlink
    · exact .step looks direct (ih hrest)

theorem leads_of_follow (h : t.follow links dir names = .ok l) : Leads t links dir names l := by
  induction links generalizing dir names l with
  | zero =>
    rw [follow_zero] at h
    refine leads_of_walk (fun _ _ hfail => ?_) h
    contradiction
  | succ links ih =>
    rw [follow_succ] at h
    refine leads_of_walk (fun looks linked hrest => ?_) h
    rw [ite_error_eq_ok_iff, List.isEmpty_iff] at hrest
    exact .link looks linked hrest.1 (ih hrest.2)

/-- A name that is not that of a link, however many links may be followed. -/
theorem follow_step {more : List Text} (looks : t.Looks dir name k) (direct : t.link? k = none)
    (h : t.follow links k more = .ok l) : t.follow links dir (name :: more) = .ok l := by
  cases links with
  | zero => exact walk_cons_eq_ok_iff.2 ⟨k, looks, .inr ⟨direct, h⟩⟩
  | succ links => exact walk_cons_eq_ok_iff.2 ⟨k, looks, .inr ⟨direct, h⟩⟩

theorem follow_of_leads (h : Leads t links dir names l) : t.follow links dir names = .ok l := by
  induction h with
  | @done links dir => cases links <;> rfl
  | step looks direct _ ih => exact follow_step looks direct ih
  | link looks linked nonempty _ ih =>
    refine walk_cons_eq_ok_iff.2 ⟨_, looks, .inl ⟨_, linked, ?_⟩⟩
    rw [ite_error_eq_ok_iff, List.isEmpty_iff]
    exact ⟨nonempty, ih⟩

/-- Following names comes to these steps. -/
theorem follow_eq_ok_iff : t.follow links dir names = .ok l ↔ Leads t links dir names l :=
  ⟨leads_of_follow, follow_of_leads⟩

namespace Leads

variable {more : List Text}

/-- More links may be followed. -/
theorem mono (h : Leads t links dir names l) {wider : Nat} (hle : links ≤ wider) :
    Leads t wider dir names l := by
  induction h generalizing wider with
  | done => exact .done
  | step looks direct _ ih => exact .step looks direct (ih hle)
  | link looks linked nonempty _ ih =>
    obtain ⟨n, rfl⟩ : ∃ n, wider = n + 1 := ⟨wider - 1, by omega⟩
    exact .link looks linked nonempty (ih (by omega))

/-- Names lead to one place. -/
theorem unique (h : Leads t links dir names l) {n : Nat} {l' : Location}
    (h' : Leads t n dir names l') : l' = l := by
  induction h generalizing n with
  | done =>
    cases h'
    rfl
  | step looks direct _ ih =>
    cases h' with
    | step looks' _ rest' =>
      obtain rfl := looks.unique looks'
      exact ih rest'
    | link looks' linked =>
      obtain rfl := looks.unique looks'
      simp [direct] at linked
  | link looks linked nonempty _ ih =>
    cases h' with
    | step looks' direct =>
      obtain rfl := looks.unique looks'
      simp [direct] at linked
    | link looks' linked' _ rest' =>
      obtain rfl := looks.unique looks'
      obtain rfl := Option.some.inj (linked'.symm.trans linked)
      exact ih rest'

/-- Where a name is looked up, a dot leads nowhere else. -/
theorem dot (h : Leads t links dir (name :: more) l) (n : Nat) : Leads t n dir [['.']] dir := by
  have hlooks : ∃ k, t.Looks dir name k := by
    cases h with
    | step looks => exact ⟨_, looks⟩
    | link looks => exact ⟨_, looks⟩
  obtain ⟨k, hdir, hsearch, -⟩ := hlooks
  exact .step ⟨hdir, hsearch, rfl⟩ (link?_of_get? hdir) .done

/-- What a name is looked up in is a directory. -/
theorem directory (h : Leads t links dir (name :: more) l) : t.get? dir = some .directory := by
  cases h with
  | step looks => exact looks.directory
  | link looks => exact looks.directory

/-- No name leads to a link. -/
theorem link?_eq_none (h : Leads t links dir names l) (hnames : names ≠ []) : t.link? l = none := by
  induction h with
  | done => contradiction
  | @step links dir k l name more looks direct rest ih =>
    cases more with
    | nil =>
      cases rest
      exact direct
    | cons next more => exact ih (by simp)
  | link looks linked nonempty rest ih =>
    exact ih fun hnil => linkNames_ne_nil nonempty (List.append_eq_nil_iff.mp hnil).1

/-- A dot leads nowhere else. -/
theorem eq_of_dot (h : Leads t links dir [['.']] l) : l = dir := by
  cases h with
  | step looks _ rest =>
    cases rest
    exact (Except.ok.inj looks.named).symm
  | link looks linked =>
    obtain rfl := Except.ok.inj looks.named
    rw [link?_of_get? looks.directory] at linked
    contradiction

/-- Names lead on from the place that the names before them lead to. -/
theorem exists_of_append {before : List Text} (h : Leads t links dir (before ++ more) l) :
    ∃ k n, n ≤ links ∧ Leads t links dir before k ∧ Leads t n k more l := by
  obtain ⟨names, hnames⟩ : ∃ names, names = before ++ more := ⟨_, rfl⟩
  rw [← hnames] at h
  induction h generalizing before with
  | @done links dir =>
    obtain ⟨rfl, rfl⟩ := List.append_eq_nil_iff.mp hnames.symm
    exact ⟨dir, links, Nat.le_refl _, .done, .done⟩
  | @step links dir _ _ _ _ looks direct rest ih =>
    cases before with
    | nil =>
      rw [List.nil_append] at hnames
      exact ⟨dir, links, Nat.le_refl _, .done, hnames ▸ .step looks direct rest⟩
    | cons first before =>
      obtain ⟨rfl, hrest⟩ := List.cons_eq_cons.mp hnames
      obtain ⟨k, n, hn, hbefore, hlater⟩ := ih hrest
      exact ⟨k, n, hn, .step looks direct hbefore, hlater⟩
  | @link links dir _ _ _ target _ looks linked nonempty rest ih =>
    cases before with
    | nil =>
      rw [List.nil_append] at hnames
      exact ⟨dir, links + 1, Nat.le_refl _, .done, hnames ▸ .link looks linked nonempty rest⟩
    | cons first before =>
      obtain ⟨rfl, rfl⟩ := List.cons_eq_cons.mp hnames
      obtain ⟨k, n, hn, hbefore, hlater⟩ := ih (List.append_assoc _ before more).symm
      exact ⟨k, n, Nat.le_succ_of_le hn, .link looks linked nonempty hbefore, hlater⟩

/-- Names lead on from where names have led, if enough links may be followed. -/
theorem append {before : List Text} {n : Nat} (h : Leads t links dir before k)
    (h' : Leads t n k more l) : Leads t (links + n) dir (before ++ more) l := by
  induction h with
  | done => exact h'.mono (Nat.le_add_left ..)
  | step looks direct _ ih => exact .step looks direct (ih h')
  | link looks linked nonempty _ ih =>
    rw [List.cons_append, Nat.add_right_comm]
    refine .link looks linked nonempty ?_
    rw [← List.append_assoc]
    exact ih h'

end Leads

/-! ## Paths -/

/-- A path that is not refused as a whole. -/
structure IsPath (path : Text) : Prop where
  /-- It does not hold the character that ends paths. -/
  nul : '\x00' ∉ path
  /-- It is not empty. -/
  ne_nil : path ≠ []
  /-- It is not too long. -/
  short : byteLength path < pathMax

theorem followFrom_eq_ok_iff : t.followFrom dir path names = .ok l
    ↔ IsPath path ∧ Leads t linkMax (pathStart dir path) names l := by
  rw [followFrom, ite_error_eq_ok_iff, ite_error_eq_ok_iff, ite_error_eq_ok_iff, follow_eq_ok_iff,
    List.isEmpty_iff, Nat.not_le]
  exact ⟨fun ⟨hnul, hne, hshort, h⟩ => ⟨⟨hnul, hne, hshort⟩, h⟩,
    fun ⟨⟨hnul, hne, hshort⟩, h⟩ => ⟨hnul, hne, hshort, h⟩⟩

theorem locate_eq_ok_iff : t.locate dir path = .ok l
    ↔ IsPath path ∧ Leads t linkMax (pathStart dir path) (pathNames path) l :=
  followFrom_eq_ok_iff

/-- The place that a path leads to. -/
def At (t : Tree) (dir : Location) (path : Text) (l : Location) : Prop :=
  t.locate dir path = .ok l

theorem enter_eq_ok_iff : t.enter dir path = .ok l
    ↔ IsPath path ∧ Leads t linkMax (pathStart dir path) (pathNames path ++ [['.']]) l :=
  followFrom_eq_ok_iff

/-- No path leads to a link. -/
theorem At.link?_eq_none (h : t.At dir path l) : t.link? l = none := by
  obtain ⟨hpath, h⟩ := locate_eq_ok_iff.1 h
  obtain ⟨c, r, rfl⟩ := List.exists_cons_of_ne_nil hpath.ne_nil
  by_cases hnames : pathNames (c :: r) = []
  · -- only the root has a path without names
    have hc : c = '/' := by
      by_contra hc
      exact pathNames_cons_ne_nil hc r hnames
    subst hc
    rw [hnames] at h
    cases h
    rfl
  · exact h.link?_eq_none hnames

theorem locateEntry_eq_ok_iff : t.locateEntry dir path = .ok l
    ↔ IsPath path ∧ ∃ k, Leads t linkMax (pathStart dir path) ((pathNames path).dropLast ++ [['.']]) k
      ∧ child k ((pathNames path).getLastD ['.']) = .ok l := by
  rw [locateEntry, bind_eq_ok_iff, locateParent]
  simp only [followFrom_eq_ok_iff, and_assoc, exists_and_left]

/-! ## Paths below a directory -/

section Below

variable {project : Text} (hproject : project ≠ []) (hrelative : isAbsolute path = false)

include hproject hrelative in
theorem IsPath.of_joinPath (h : IsPath (joinPath project path)) : IsPath project := by
  obtain ⟨hnul, -, hshort⟩ := h
  rw [joinPath_eq hrelative] at hnul hshort
  refine ⟨fun hmem => hnul (List.mem_append_left _ ?_), hproject, ?_⟩
  · rw [pathLead]
    split
    · exact hmem
    · exact List.mem_append_left _ hmem
  · have hle := byteLength_le_pathLead project
    rw [byteLength_append] at hshort
    omega

include hrelative in
theorem pathStart_joinPath (dir : Location) :
    pathStart dir (joinPath project path) = pathStart dir project := by
  rw [pathStart, pathStart, isAbsolute_joinPath hrelative]

include hproject hrelative in
/-- A path below a directory leads where it leads from that directory. -/
theorem locate_joinPath (hpath : path ≠ []) (h : t.locate dir (joinPath project path) = .ok l) :
    ∃ d, t.enter dir project = .ok d ∧ t.locate d path = .ok l := by
  obtain ⟨hwhole, h⟩ := locate_eq_ok_iff.1 h
  rw [pathStart_joinPath hrelative, pathNames_joinPath hrelative] at h
  obtain ⟨c, r, rfl⟩ := List.exists_cons_of_ne_nil hpath
  have hc : c ≠ '/' := by simpa [isAbsolute] using hrelative
  obtain ⟨d, n, hn, hdir, hlater⟩ := h.exists_of_append
  have hdot : Leads t linkMax (pathStart dir project) (pathNames project ++ [['.']]) d := by
    obtain ⟨name, more, hmore⟩ := List.exists_cons_of_ne_nil (pathNames_cons_ne_nil hc r)
    rw [hmore] at hlater
    exact hdir.append (hlater.dot 0)
  refine ⟨d, enter_eq_ok_iff.2 ⟨hwhole.of_joinPath hproject hrelative, hdot⟩,
    locate_eq_ok_iff.2 ⟨⟨?_, hpath, ?_⟩, ?_⟩⟩
  · have hnul := hwhole.nul
    rw [joinPath_eq hrelative] at hnul
    exact fun hmem => hnul (List.mem_append_right _ hmem)
  · have hshort := hwhole.short
    rw [joinPath_eq hrelative, byteLength_append] at hshort
    omega
  · rw [pathStart, hrelative, if_neg Bool.false_ne_true]
    exact hlater.mono hn

end Below

end Tree

/-! ## Names below one directory -/

/-- A name that stands for itself in a path. -/
structure IsPlainName (name : Text) : Prop where
  /-- It is not empty. -/
  ne_nil : name ≠ []
  /-- It is one name. -/
  slash : '/' ∉ name
  /-- It ends no path. -/
  nul : '\x00' ∉ name
  /-- It does not stay where it is. -/
  ne_dot : name ≠ ['.']
  /-- It does not lead back. -/
  ne_dots : name ≠ ['.', '.']
  /-- It is not too long. -/
  short : byteLength name ≤ Tree.nameMax

namespace IsPlainName

variable {name : Text} (h : IsPlainName name)

include h

theorem pathNames_eq : pathNames name = [name] := by
  rw [pathNames, List.splitOn_eq_singleton h.slash, List.filter_eq_self]
  intro n hn
  rw [List.mem_singleton.mp hn]
  simpa using h.ne_nil

theorem isAbsolute_eq : isAbsolute name = false := by
  cases name with
  | nil => rfl
  | cons c r =>
    have hc : c ≠ '/' := fun hc => h.slash (by simp [hc])
    simpa [isAbsolute] using hc

theorem endsInSlash_eq : endsInSlash name = false := by
  refine Bool.eq_false_iff.mpr fun hend => h.slash ?_
  exact List.mem_of_getLast? (eq_of_beq hend)

theorem endsInSlash_joinPath (dir : Text) : endsInSlash (joinPath dir name) = false := by
  obtain ⟨c, hc⟩ := Option.ne_none_iff_exists'.mp (mt List.getLast?_eq_none_iff.mp h.ne_nil)
  have hslash : c ≠ '/' := fun hslash => h.slash (hslash ▸ List.mem_of_getLast? hc)
  rw [joinPath_eq h.isAbsolute_eq, endsInSlash, List.getLast?_append, hc]
  simpa using hslash

theorem child_eq (dir : Location) : Tree.child dir name = .ok (dir ++ [name]) := by
  rw [Tree.child, if_neg h.ne_dot, if_neg h.ne_dots, if_neg (Nat.not_lt.mpr h.short)]

/-- A name below a directory stands in that directory. -/
theorem locateEntry_joinPath {t : Tree} {dir l : Location} {project : Text} (hproject : project ≠ []) :
    t.locateEntry dir (joinPath project name) = .ok l
      ↔ Tree.IsPath (joinPath project name)
        ∧ ∃ d, t.enter dir project = .ok d ∧ l = d ++ [name] := by
  rw [Tree.locateEntry_eq_ok_iff]
  refine and_congr_right fun hpath => exists_congr fun d => ?_
  rw [Tree.enter_eq_ok_iff, and_iff_right (hpath.of_joinPath hproject h.isAbsolute_eq),
    Tree.pathStart_joinPath h.isAbsolute_eq, pathNames_joinPath h.isAbsolute_eq, h.pathNames_eq,
    List.dropLast_concat, List.getLastD_concat, h.child_eq, Except.ok.injEq, eq_comm]

/-- Where a name below a directory leads, it leads from that directory. -/
theorem at_of_joinPath {t : Tree} {dir d l : Location} {project : Text}
    (hd : t.enter dir project = .ok d) (hat : t.At dir (joinPath project name) l) :
    t.At d name l := by
  have hproject : project ≠ [] := (Tree.enter_eq_ok_iff.1 hd).1.ne_nil
  obtain ⟨d₁, hd₁, hl⟩ := Tree.locate_joinPath hproject h.isAbsolute_eq h.ne_nil hat
  obtain rfl := Except.ok.inj (hd₁.symm.trans hd)
  exact hl

end IsPlainName

end RefBook
