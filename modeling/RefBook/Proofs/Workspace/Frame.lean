import RefBook.Proofs.Workspace.Paths

/-!
# RefBook.Proofs.Workspace.Frame — what an operation leaves as it was

Writing changes one file, under all its names, and makes or removes no directory and no link.  So
every path leads where it led before.  Removing takes one name away, and with a link every path that
goes through it.

* `get?_put`, `get?_rewrite`, `get?_erase`: the tree after a change, location by location.
* `SamePaths`: two trees with the same directories and links; paths lead to the same places in them.
* `Written`, `Removed`: what writing and removing come to.
* `Keeps before after exempt`: apart from exempt locations, paths lead where they led and everything
  stands where it stood.  It is kept along a run (`Keeps.trans`), by one step of writing
  (`keeps_of_writeFile`) and by the removal of a file that was read (`keeps_of_removeFile`).
-/

namespace RefBook

open Utf8 (Bytes)

/-! ## Lists of places -/

section Lookup

variable {β : Type}

theorem lookup_putNode (l k : Location) (node : Node) (nodes : List (Location × Node)) :
    (putNode l node nodes).lookup k = if k = l then some node else nodes.lookup k := by
  induction nodes with
  | nil => rw [putNode, lookup_cons_eq]
  | cons n nodes ih =>
    obtain ⟨m, n⟩ := n
    rw [putNode]
    by_cases hm : m = l
    · rw [if_pos hm, lookup_cons_eq, lookup_cons_eq, hm]
      by_cases hk : k = l
      · rw [if_pos hk, if_pos hk]
      · simp only [if_neg hk]
    · rw [if_neg hm]
      exact lookup_cons_of_update hm ih

theorem lookup_filter_ne (l k : Location) (es : List (Location × β)) :
    (es.filter fun n => n.1 ≠ l).lookup k = if k = l then none else es.lookup k := by
  induction es with
  | nil => simp
  | cons n es ih =>
    obtain ⟨m, n⟩ := n
    by_cases hm : m = l
    · rw [List.filter_cons_of_neg (by simpa using hm), ih, lookup_cons_eq, hm]
      by_cases hk : k = l
      · rw [if_pos hk, if_pos hk]
      · simp only [if_neg hk]
    · rw [List.filter_cons_of_pos (by simpa using hm)]
      exact lookup_cons_of_update hm ih

theorem lookup_map_snd (f : Location → β → β) (k : Location) (es : List (Location × β)) :
    (es.map fun n => (n.1, f n.1 n.2)).lookup k = (es.lookup k).map (f k) := by
  induction es with
  | nil => rfl
  | cons n es ih =>
    obtain ⟨m, n⟩ := n
    rw [List.map_cons, lookup_cons_eq, lookup_cons_eq, ih]
    by_cases hk : k = m
    · rw [if_pos hk, if_pos hk, hk, Option.map_some]
    · rw [if_neg hk, if_neg hk]

end Lookup

namespace Tree

variable {t t' t'' : Tree} {dir d k l e : Location} {path name : Text} {content held : Bytes}
  {exempt wider : Location → Prop}

/-! ## What stands where after a change -/

/-- The root is a directory. -/
theorem ne_nil_of_get?_ne (h : t.get? l ≠ some .directory) : l ≠ [] := by
  rintro rfl
  exact h (get?_nil t)

theorem get?_of_ne_nil (hl : l ≠ []) (hlink : t.link? l = none) : t.get? l = t.nodes.lookup l := by
  rw [get?, if_neg hl, hlink]
  rfl

theorem link?_put (t : Tree) (l : Location) (node : Node) : (t.put l node).link? = t.link? := rfl

theorem link?_rewrite (t : Tree) (l : Location) (content : Bytes) :
    (t.rewrite l content).link? = t.link? := rfl

theorem link?_erase (t : Tree) (l k : Location) :
    (t.erase l).link? k = if k = l then none else t.link? k := by
  by_cases hk : k = []
  · subst hk
    simp only [link?_nil, ite_self]
  · simp only [link?, if_neg hk, erase, lookup_filter_ne]

theorem get?_put (hdir : t.get? l ≠ some .directory) (hlink : t.link? l = none) (node : Node)
    (k : Location) : (t.put l node).get? k = if k = l then some node else t.get? k := by
  have hl := ne_nil_of_get?_ne hdir
  by_cases hk : k = []
  · subst hk
    rw [if_neg (Ne.symm hl), get?_nil, get?_nil]
  · simp only [get?, if_neg hk, link?_put]
    simp only [put, lookup_putNode]
    by_cases hkl : k = l
    · simp [hkl, hlink]
    · simp only [if_neg hkl]

theorem get?_rewrite (t : Tree) (l : Location) (content : Bytes) (k : Location) :
    (t.rewrite l content).get? k
      = if t.sameFile l k then (t.get? k).map (Node.rewritten content) else t.get? k := by
  by_cases hk : k = []
  · subst hk
    simp [get?_nil, Node.rewritten]
  · cases hlink : t.link? k with
    | some target => simp [get?_of_link?, hlink, link?_rewrite]
    | none =>
      have hlink' : (t.rewrite l content).link? k = none := hlink
      rw [get?_of_ne_nil hk hlink', get?_of_ne_nil hk hlink, rewrite]
      dsimp only
      rw [lookup_map_snd fun k (n : Node) => if t.sameFile l k then n.rewritten content else n]
      split <;> simp

theorem get?_erase (hl : l ≠ []) (k : Location) :
    (t.erase l).get? k = if k = l then none else t.get? k := by
  by_cases hk : k = []
  · subst hk
    rw [if_neg (Ne.symm hl), get?_nil, get?_nil]
  · simp only [get?, if_neg hk, link?_erase]
    simp only [erase, lookup_filter_ne]
    by_cases hkl : k = l
    · simp [hkl]
    · simp only [if_neg hkl]

/-! ## Names of one file -/

theorem sameFile_iff : t.sameFile k l = true
    ↔ k = l ∨ ∃ n, t.shared.lookup k = some n ∧ t.shared.lookup l = some n := by
  rw [sameFile, Bool.or_eq_true, beq_iff_eq]
  cases t.shared.lookup k <;> simp

theorem sameFile_self (t : Tree) (l : Location) : t.sameFile l l = true :=
  sameFile_iff.2 (.inl rfl)

theorem sameFile_trans {j : Location} (h : t.sameFile j k = true) (h' : t.sameFile k l = true) :
    t.sameFile j l = true := by
  rcases sameFile_iff.1 h with rfl | ⟨n, hj, hk⟩
  · exact h'
  · rcases sameFile_iff.1 h' with rfl | ⟨m, hk', hl⟩
    · exact h
    · cases hk.symm.trans hk'
      exact sameFile_iff.2 (.inr ⟨n, hj, hl⟩)

/-- The place is no link, and its file has no other name. -/
structure Sole (t : Tree) (l : Location) : Prop where
  /-- It is no link. -/
  direct : t.link? l = none
  /-- There is no other name. -/
  only : ∀ k, t.sameFile l k = true → k = l

/-- A place that no longer has its file with others. -/
theorem sameFile_of_filter (hshared : t'.shared = t.shared.filter fun n => n.1 ≠ e)
    (h : t'.sameFile k l = true) : t.sameFile k l = true := by
  have hold : ∀ {m n}, t'.shared.lookup m = some n → t.shared.lookup m = some n := by
    intro m n hm
    rw [hshared, lookup_filter_ne] at hm
    by_cases hme : m = e
    · simp [hme] at hm
    · rwa [if_neg hme] at hm
  rcases sameFile_iff.1 h with rfl | ⟨n, hk, hl⟩
  · exact sameFile_self t k
  · exact sameFile_iff.2 (.inr ⟨n, hold hk, hold hl⟩)

/-- Other places keep their names. -/
theorem sameFile_put (hk : k ≠ e) (hl : l ≠ e) (node : Node) :
    (t.put e node).sameFile k l = t.sameFile k l := by
  have hlookup : ∀ {m}, m ≠ e → (t.put e node).shared.lookup m = t.shared.lookup m := fun hm => by
    rw [put]
    dsimp only
    rw [lookup_filter_ne, if_neg hm]
  rw [sameFile, sameFile, hlookup hk, hlookup hl]

/-! ## Paths through the same directories and links -/

/-- The two trees have the same directories and links, and the system refuses the same. -/
structure SamePaths (t t' : Tree) : Prop where
  /-- The same places are directories. -/
  directories : ∀ l, t'.get? l = some .directory ↔ t.get? l = some .directory
  /-- The same links stand for the same paths. -/
  links : t'.link? = t.link?
  /-- The same is refused. -/
  refusals : t'.refusals = t.refusals

namespace SamePaths

theorem refl (t : Tree) : SamePaths t t :=
  ⟨fun _ => Iff.rfl, rfl, rfl⟩

theorem symm (h : SamePaths t t') : SamePaths t' t :=
  ⟨fun l => (h.directories l).symm, h.links.symm, h.refusals.symm⟩

theorem ask_eq (h : SamePaths t t') (access : Access) (l : Location) :
    t'.ask access l = t.ask access l := by
  rw [ask, ask, h.refusals]

theorem looks (h : SamePaths t t') (hlooks : t.Looks dir name k) : t'.Looks dir name k :=
  ⟨(h.directories dir).2 hlooks.directory, (h.ask_eq ..).trans hlooks.searched, hlooks.named⟩

theorem leads (h : SamePaths t t') {links : Nat} {names : List Text}
    (hleads : Leads t links dir names l) : Leads t' links dir names l := by
  induction hleads with
  | done => exact .done
  | step looks direct _ ih => exact .step (h.looks looks) (h.links ▸ direct) ih
  | link looks linked nonempty _ ih => exact .link (h.looks looks) (h.links ▸ linked) nonempty ih

theorem followFrom_ok_iff (h : SamePaths t t') {names : List Text} :
    t'.followFrom dir path names = .ok l ↔ t.followFrom dir path names = .ok l := by
  rw [followFrom_eq_ok_iff, followFrom_eq_ok_iff]
  exact and_congr_right fun _ => ⟨h.symm.leads, h.leads⟩

theorem at_iff (h : SamePaths t t') : t'.At dir path l ↔ t.At dir path l :=
  h.followFrom_ok_iff

theorem enter_ok_iff (h : SamePaths t t') : t'.enter dir path = .ok l ↔ t.enter dir path = .ok l :=
  h.followFrom_ok_iff

end SamePaths

/-! ## Operations on files -/

/-- What writing to a place comes to. -/
inductive Written (t : Tree) (l : Location) (content : Bytes) : Tree → Prop where
  /-- A special file stays as it is. -/
  | special {held : Bytes} (file : t.get? l = some (.file held))
      (granted : t.ask .write l = .ok ()) (special : l ∈ t.special) : Written t l content t
  /-- Another file is written over. -/
  | replaced {held : Bytes} (file : t.get? l = some (.file held)) (granted : t.ask .write l = .ok ())
      (plain : l ∉ t.special) : Written t l content (t.rewrite l content)
  /-- Where nothing stands a file is made. -/
  | new (free : t.get? l = none) (granted : t.ask .create l = .ok ()) :
      Written t l content (t.put l (.file content))

theorem writeAt_eq_ok_iff : t.writeAt l content = .ok t' ↔ Written t l content t' := by
  constructor
  · intro h
    rw [writeAt] at h
    cases hget : t.get? l with
    | none =>
      simp only [hget, check_bind_eq_ok_iff] at h
      obtain ⟨granted, h⟩ := h
      cases h
      exact .new hget granted
    | some node =>
      cases node with
      | directory => simp [hget] at h
      | file held =>
        simp only [hget, check_bind_eq_ok_iff, List.contains_iff_mem] at h
        obtain ⟨granted, h⟩ := h
        cases h
        split
        · next hspecial => exact .special hget granted hspecial
        · next hspecial => exact .replaced hget granted hspecial
  · intro h
    cases h with
    | special file granted special =>
      simp [writeAt, file, granted, special, bind, Except.bind]
    | replaced file granted plain => simp [writeAt, file, granted, plain, bind, Except.bind]
    | new free granted => simp [writeAt, free, granted, bind, Except.bind]

theorem writeFile_eq_ok_iff : t.writeFile dir path content = .ok t'
    ↔ endsInSlash path = false ∧ ∃ l, t.At dir path l ∧ Written t l content t' := by
  unfold writeFile
  cases endsInSlash path with
  | true => cases t.locateParent dir path <;> simp [bind, Except.bind]
  | false =>
    simp only [Bool.false_eq_true, if_false, bind_eq_ok_iff, writeAt_eq_ok_iff, true_and]
    rfl

theorem readFile_eq_ok_iff : t.readFile dir path = .ok content ↔ endsInSlash path = false
    ∧ ∃ l, t.At dir path l ∧ t.get? l = some (.file content) ∧ t.ask .read l = .ok () := by
  rw [readFile, bind_eq_ok_iff, ← exists_and_left]
  refine exists_congr fun l => ?_
  rw [and_left_comm, At]
  refine and_congr_right fun _ => ?_
  cases t.get? l with
  | none => simp
  | some node =>
    cases node with
    | directory =>
      rw [check_bind_eq_ok_iff]
      simp
    | file held =>
      simp only [ite_error_eq_ok_iff, check_bind_eq_ok_iff, Bool.not_eq_true, Option.some.injEq,
        Node.file.injEq, Except.ok.injEq]
      exact and_congr_right fun _ => and_comm

/-- What removing the name of a place comes to. -/
structure Removed (t : Tree) (e : Location) (t' : Tree) : Prop where
  /-- Something stands there. -/
  stands : t.link? e ≠ none ∨ t.get? e ≠ none
  /-- It is no directory. -/
  noDirectory : t.get? e ≠ some .directory
  /-- The removal is not refused. -/
  granted : t.ask .remove e = .ok ()
  /-- It is gone. -/
  erased : t' = t.erase e

theorem removeFile_eq_ok_iff : t.removeFile dir path = .ok t'
    ↔ endsInSlash path = false ∧ ∃ e, t.locateEntry dir path = .ok e ∧ Removed t e t' := by
  rw [removeFile, bind_eq_ok_iff, ← exists_and_left]
  refine exists_congr fun e => ?_
  rw [and_left_comm]
  refine and_congr_right fun _ => ?_
  simp only [ite_error_eq_ok_iff, check_bind_eq_ok_iff, Except.ok.injEq, Bool.not_eq_true]
  constructor
  · rintro ⟨hstands, hslash, granted, hdir, rfl⟩
    exact ⟨hslash, not_and_or.mp hstands, hdir, granted, rfl⟩
  · rintro ⟨hslash, hstands, hdir, granted, rfl⟩
    exact ⟨not_and_or.mpr hstands, hslash, granted, hdir, rfl⟩

theorem isFile_eq_true_iff : t.isFile dir path = true ↔ endsInSlash path = false
    ∧ ∃ l content, t.At dir path l ∧ t.get? l = some (.file content) ∧ l ∉ t.special := by
  unfold isFile At
  cases t.locate dir path with
  | error e => simp
  | ok l =>
    cases hget : t.get? l with
    | none => simp [hget]
    | some node => cases node <;> simp [hget]

/-! ## Writing -/

namespace Written

theorem samePaths (h : Written t l content t') (hlink : t.link? l = none) : SamePaths t t' := by
  cases h with
  | special => exact .refl t
  | replaced file =>
    refine ⟨fun k => ?_, rfl, rfl⟩
    rw [get?_rewrite]
    split
    · cases t.get? k with
      | none => rfl
      | some node => cases node <;> simp [Node.rewritten]
    · rfl
  | new free =>
    refine ⟨fun k => ?_, rfl, rfl⟩
    rw [get?_put (by simp [free]) hlink]
    by_cases hk : k = l
    · simp [hk, free]
    · rw [if_neg hk]

/-- Only the names of the file hold something else. -/
theorem get?_eq (h : Written t l content t') (hlink : t.link? l = none)
    (hk : t.sameFile l k ≠ true) : t'.get? k = t.get? k := by
  cases h with
  | special => rfl
  | replaced => rw [get?_rewrite, if_neg hk]
  | new free =>
    rw [get?_put (by simp [free]) hlink, if_neg]
    rintro rfl
    exact hk (sameFile_self t k)

theorem sameFile_of_sameFile {j : Location} (h : Written t l content t')
    (hsame : t'.sameFile j k = true) : t.sameFile j k = true := by
  cases h with
  | special => exact hsame
  | replaced => exact hsame
  | new => exact sameFile_of_filter rfl hsame

theorem mem_special {j : Location} (h : Written t l content t') (hj : j ∈ t'.special) :
    j ∈ t.special := by
  cases h with
  | special => exact hj
  | replaced => exact hj
  | new => exact List.mem_of_mem_filter hj

/-- The place holds what was written, unless it is that of a special file. -/
theorem holds (h : Written t l content t') (hlink : t.link? l = none) :
    l ∈ t'.special ∨ t'.get? l = some (.file content) := by
  cases h with
  | special file granted special => exact .inl special
  | replaced file =>
    right
    rw [get?_rewrite, if_pos (sameFile_self t l), file]
    rfl
  | new free =>
    right
    rw [get?_put (by simp [free]) hlink, if_pos rfl]

/-- Writing removes nothing. -/
theorem isSome_get? (h : Written t l content t') (hlink : t.link? l = none)
    (hk : (t.get? k).isSome) : (t'.get? k).isSome := by
  cases h with
  | special => exact hk
  | replaced =>
    rw [get?_rewrite]
    split
    · rwa [Option.isSome_map]
    · exact hk
  | new free =>
    rw [get?_put (by simp [free]) hlink]
    split
    · rfl
    · exact hk

end Written

/-! ## Removing -/

/-- Without a name, names lead where they led. -/
theorem Leads.of_erase {links : Nat} {names : List Text}
    (h : Leads (t.erase e) links dir names l) (he : e ≠ []) (hl : l ≠ e) :
    Leads t links dir names l := by
  have hlooks : ∀ {dir name k}, (t.erase e).Looks dir name k → t.Looks dir name k := by
    rintro dir name k ⟨hdir, hsearch, hnamed⟩
    rw [get?_erase he] at hdir
    by_cases hde : dir = e
    · simp [hde] at hdir
    · rw [if_neg hde] at hdir
      exact ⟨hdir, hsearch, hnamed⟩
  induction h with
  | done => exact .done
  | @step links dir k l name more looks direct rest ih =>
    by_cases hk : k = e
    · subst hk
      cases more with
      | nil =>
        cases rest
        contradiction
      | cons next more =>
        have hdir := rest.directory
        rw [get?_erase he, if_pos rfl] at hdir
        contradiction
    · rw [link?_erase, if_neg hk] at direct
      exact .step (hlooks looks) direct (ih hl)
  | @link links dir k l name target more looks linked nonempty rest ih =>
    by_cases hk : k = e
    · rw [link?_erase, if_pos hk] at linked
      contradiction
    · rw [link?_erase, if_neg hk] at linked
      exact .link (hlooks looks) linked nonempty (ih hl)

/-- Names lead where they led if they do not lead to what was removed, or to where that led. -/
theorem Leads.erase {links : Nat} {names : List Text} (h : Leads t links dir names l)
    (he : t.get? e ≠ some .directory) (hl : l ≠ e)
    (hlink : ∀ {target n k}, t.link? e = some target →
      Leads t n (pathStart e.dropLast target) (linkNames target) k →
        k ≠ l ∧ t.get? k ≠ some .directory) : Leads (t.erase e) links dir names l := by
  have hlooks : ∀ {dir name k}, t.Looks dir name k → (t.erase e).Looks dir name k := by
    rintro dir name k ⟨hdir, hsearch, hnamed⟩
    refine ⟨?_, hsearch, hnamed⟩
    rw [get?_erase (ne_nil_of_get?_ne he), if_neg, hdir]
    rintro rfl
    exact he hdir
  induction h with
  | done => exact .done
  | @step links dir k l name more looks direct rest ih =>
    by_cases hk : k = e
    · subst hk
      cases more with
      | nil =>
        cases rest
        contradiction
      | cons next more => exact absurd rest.directory he
    · refine .step (hlooks looks) ?_ (ih hl hlink)
      rw [link?_erase, if_neg hk, direct]
  | @link links dir k l name target more looks linked nonempty rest ih =>
    by_cases hk : k = e
    · subst hk
      -- what the removed link led to is no directory, so the path ends there
      obtain ⟨j, n, -, htarget, hmore⟩ := rest.exists_of_append
      obtain ⟨hj, hdir⟩ := hlink linked htarget
      cases more with
      | nil =>
        cases hmore
        contradiction
      | cons next more => exact absurd hmore.directory hdir
    · refine .link (hlooks looks) ?_ nonempty (ih hl hlink)
      rw [link?_erase, if_neg hk, linked]

/-! ## Frames -/

/-- The places of the file that a path leads to. -/
def Touches (t : Tree) (dir : Location) (path : Text) (l : Location) : Prop :=
  ∃ k, t.At dir path k ∧ t.sameFile k l = true

/-- The place of a name in a directory, and the places of the file that it leads to. -/
def FileAt (t : Tree) (d : Location) (name : Text) (l : Location) : Prop :=
  ∃ k, (t.At d name k ∨ k = d ++ [name]) ∧ t.sameFile k l = true

/-- Apart from exempt locations every path leads where it led, and everything stands where it
stood. -/
structure Keeps (before after : Tree) (exempt : Location → Prop) : Prop where
  /-- No path leads elsewhere. -/
  paths : ∀ dir path l, ¬ exempt l → (after.At dir path l ↔ before.At dir path l)
  /-- The other locations hold the same. -/
  nodes : ∀ l, ¬ exempt l → after.get? l = before.get? l
  /-- The other links are the same. -/
  links : ∀ l, ¬ exempt l → after.link? l = before.link? l
  /-- No file has a new name. -/
  names : ∀ k l, after.sameFile k l = true → before.sameFile k l = true
  /-- The same is refused. -/
  refusals : after.refusals = before.refusals

namespace Keeps

theorem refl (t : Tree) (exempt : Location → Prop) : Keeps t t exempt :=
  ⟨fun _ _ _ _ => Iff.rfl, fun _ _ => rfl, fun _ _ => rfl, fun _ _ h => h, rfl⟩

theorem trans (h : Keeps t t' exempt) (h' : Keeps t' t'' exempt) : Keeps t t'' exempt where
  paths dir path l hl := (h'.paths dir path l hl).trans (h.paths dir path l hl)
  nodes l hl := (h'.nodes l hl).trans (h.nodes l hl)
  links l hl := (h'.links l hl).trans (h.links l hl)
  names k l hkl := h.names k l (h'.names k l hkl)
  refusals := h'.refusals.trans h.refusals

theorem mono (h : Keeps t t' exempt) (hwider : ∀ l, exempt l → wider l) : Keeps t t' wider where
  paths dir path l hl := h.paths dir path l fun he => hl (hwider l he)
  nodes l hl := h.nodes l fun he => hl (hwider l he)
  links l hl := h.links l fun he => hl (hwider l he)
  names := h.names
  refusals := h.refusals

/-- By a path that leads to another place the same is read. -/
theorem readFile_eq (h : Keeps t t' exempt) (hat : t.At dir path l) (hl : ¬ exempt l) :
    t'.readFile dir path = t.readFile dir path := by
  have hafter : t'.locate dir path = .ok l := (h.paths dir path l hl).2 hat
  have hbefore : t.locate dir path = .ok l := hat
  simp only [readFile, hafter, hbefore, bind, Except.bind, h.nodes l hl, ask, h.refusals]

end Keeps

theorem samePaths_of_writeFile (h : t.writeFile dir path content = .ok t') : SamePaths t t' := by
  obtain ⟨-, l, hat, hwritten⟩ := writeFile_eq_ok_iff.1 h
  exact hwritten.samePaths hat.link?_eq_none

theorem keeps_of_writeFile (h : t.writeFile dir path content = .ok t') :
    Keeps t t' (t.Touches dir path) := by
  have hpaths := samePaths_of_writeFile h
  obtain ⟨-, l, hat, hwritten⟩ := writeFile_eq_ok_iff.1 h
  refine ⟨fun _ _ _ _ => hpaths.at_iff, fun k hk => ?_, fun k _ => congrFun hpaths.links k,
    fun _ _ => hwritten.sameFile_of_sameFile, hpaths.refusals⟩
  exact hwritten.get?_eq hat.link?_eq_none fun hsame => hk ⟨l, hat, hsame⟩

/-- Writing removes nothing. -/
theorem isSome_get?_of_writeFile (h : t.writeFile dir path content = .ok t') (k : Location)
    (hk : (t.get? k).isSome) : (t'.get? k).isSome := by
  obtain ⟨-, l, hat, hwritten⟩ := writeFile_eq_ok_iff.1 h
  exact hwritten.isSome_get? hat.link?_eq_none hk

/-- A name leads to the place of that name, or where the link of that name leads. -/
theorem at_plainName_cases (hname : IsPlainName name) (h : t.At d name l) :
    (t.link? (d ++ [name]) = none ∧ l = d ++ [name]) ∨ ∃ target n,
      t.link? (d ++ [name]) = some target ∧ Leads t n (pathStart d target) (linkNames target) l := by
  obtain ⟨-, h⟩ := locate_eq_ok_iff.1 h
  rw [pathStart, hname.isAbsolute_eq, if_neg Bool.false_ne_true, hname.pathNames_eq] at h
  cases h with
  | step looks direct rest =>
    have hk := looks.named
    rw [hname.child_eq] at hk
    obtain rfl := Except.ok.inj hk
    cases rest
    exact .inl ⟨direct, rfl⟩
  | link looks linked _ rest =>
    have hk := looks.named
    rw [hname.child_eq] at hk
    obtain rfl := Except.ok.inj hk
    rw [List.append_nil, List.dropLast_concat] at rest
    exact .inr ⟨_, _, linked, rest⟩

/-- A file that was read by its name in a directory is removed. -/
theorem keeps_of_removeFile {project : Text} (hname : IsPlainName name)
    (hd : t.enter dir project = .ok d)
    (hread : t.readFile dir (joinPath project name) = .ok content)
    (h : t.removeFile dir (joinPath project name) = .ok t') : Keeps t t' (t.FileAt d name) := by
  obtain ⟨-, k, hk, hfile, -⟩ := readFile_eq_ok_iff.1 hread
  have hat := hname.at_of_joinPath hd hk
  obtain ⟨-, e, he, -, hdir, -, rfl⟩ := removeFile_eq_ok_iff.1 h
  have hproject : project ≠ [] := (enter_eq_ok_iff.1 hd).1.ne_nil
  obtain ⟨-, d₁, hd₁, rfl⟩ := (hname.locateEntry_joinPath hproject).1 he
  obtain rfl := Except.ok.inj (hd₁.symm.trans hd)
  have hne : d₁ ++ [name] ≠ [] := ne_nil_of_get?_ne hdir
  have hnot : ∀ {l}, ¬ t.FileAt d₁ name l → l ≠ d₁ ++ [name] ∧ l ≠ k := by
    refine fun {l} hl => ⟨?_, ?_⟩
    · rintro rfl
      exact hl ⟨_, .inr rfl, sameFile_self ..⟩
    · rintro rfl
      exact hl ⟨_, .inl hat, sameFile_self ..⟩
  -- a link that is removed leads to the file that was read
  have hlink : ∀ {target n j}, t.link? (d₁ ++ [name]) = some target →
      Leads t n (pathStart (d₁ ++ [name]).dropLast target) (linkNames target) j → j = k := by
    intro target n j htarget hj
    rcases at_plainName_cases hname hat with ⟨hnone, -⟩ | ⟨target₁, n₁, htarget₁, hk₁⟩
    · rw [htarget] at hnone
      contradiction
    · obtain rfl := Option.some.inj (htarget₁.symm.trans htarget)
      rw [List.dropLast_concat] at hj
      exact hk₁.unique hj
  refine ⟨fun dir path l hl => ?_, fun l hl => ?_, fun l hl => ?_,
    fun _ _ => sameFile_of_filter rfl, rfl⟩
  · rw [At, At, locate_eq_ok_iff, locate_eq_ok_iff]
    refine and_congr_right fun _ => ⟨fun hleads => hleads.of_erase hne (hnot hl).1, fun hleads => ?_⟩
    refine hleads.erase hdir (hnot hl).1 fun htarget hj => ?_
    obtain rfl := hlink htarget hj
    exact ⟨Ne.symm (hnot hl).2, by simp [hfile]⟩
  · rw [get?_erase hne, if_neg (hnot hl).1]
  · rw [link?_erase, if_neg (hnot hl).1]

/-- What can be read by a name in a directory can be removed from there if that is not refused. -/
theorem exists_removeFile {project : Text} (hname : IsPlainName name)
    (hd : t.enter dir project = .ok d)
    (hread : t.readFile dir (joinPath project name) = .ok content)
    (granted : t.ask .remove (d ++ [name]) = .ok ()) :
    ∃ t', t.removeFile dir (joinPath project name) = .ok t' := by
  obtain ⟨hslash, k, hk, hfile, -⟩ := readFile_eq_ok_iff.1 hread
  have hproject : project ≠ [] := (enter_eq_ok_iff.1 hd).1.ne_nil
  have hentry : t.locateEntry dir (joinPath project name) = .ok (d ++ [name]) :=
    (hname.locateEntry_joinPath hproject).2 ⟨(locate_eq_ok_iff.1 hk).1, d, hd, rfl⟩
  have hstands : (t.link? (d ++ [name]) ≠ none ∨ t.get? (d ++ [name]) ≠ none)
      ∧ t.get? (d ++ [name]) ≠ some .directory := by
    rcases at_plainName_cases hname (hname.at_of_joinPath hd hk) with ⟨-, rfl⟩ | ⟨_, _, hlink, -⟩
    · simp [hfile]
    · simp [hlink, get?_of_link? hlink]
  exact ⟨_, removeFile_eq_ok_iff.2 ⟨hslash, _, hentry, hstands.1, hstands.2, granted, rfl⟩⟩

end Tree

end RefBook
