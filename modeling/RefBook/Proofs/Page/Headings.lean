import RefBook.Proofs.Name.Anchors
import RefBook.Proofs.Page.Anchors
import RefBook.Proofs.Page.Layout

/-!
# RefBook.Proofs.Page.Headings — anchors by name and by slug

Links number headings by **name**.  What shows a document to a reader numbers them by **slug**.  This
is about headings whose slug no title in a comment has taken before.

* `Heading`, `writtenHeadings`: all headings of a document in the order in which they are written.
* `generatedAt`: the anchor of a heading by the earlier ones of its slug.
* `anchor_eq_generatedAt_iff`: a number by name is the one by slug exactly when the earlier headings
  of the slug all have the name.
* `document_links_as_generated_iff`: so it is for the bullets in the text of a document.
-/

namespace RefBook

/-! ## Written headings -/

/-- A heading as it is written in a document. -/
inductive Heading where
  /-- One that links lead to: that of the contents, of a module or of a documented name. -/
  | linked (name : Text)
  /-- A title in the comment of a module. -/
  | title (text : Text)
deriving DecidableEq, Repr

namespace Heading

/-- What the heading says. -/
def text : Heading → Text
  | linked name => name
  | title text => text

/-- The name that links lead to. -/
def name? : Heading → Option Text
  | linked name => some name
  | title _ => none

theorem name?_eq_some_iff {h : Heading} {name : Text} : h.name? = some name ↔ h = linked name := by
  cases h <;> simp [name?]

/-- The headings that a line of a comment leaves: that of an author, without its mark, or those of
the entries that a directive inlines. -/
def ofLine (line : Text) : List Heading :=
  match Line.ofText line with
  | .heading text => [title (text.drop 2)]
  | .directive names => names.map linked
  | .code _ => []
  | .plain _ => []

end Heading

/-- The headings of the section of a module. -/
def Module.writtenHeadings (m : Module) : List Heading :=
  .linked m.name :: (lines m.comment).flatMap Heading.ofLine

/-- The headings of a document. -/
def writtenHeadings (ms : List Module) : List Heading :=
  .linked contentsTitle :: ms.flatMap Module.writtenHeadings

theorem Heading.filterMap_name?_ofLine (line : Text) :
    (ofLine line).filterMap name? = lineNames line := by
  rw [ofLine, Line.ofText_eq]
  cases hd : directiveNames? line with
  | some names =>
    rw [lineNames_of_directive hd, List.filterMap_map]
    exact List.filterMap_some
  | none =>
    rw [lineNames_of_not_directive hd]
    by_cases hh : isHeading line = true
    · simp [hh, name?]
    · cases codeSample? line <;> simp [hh]

theorem Module.filterMap_writtenHeadings (m : Module) :
    m.writtenHeadings.filterMap Heading.name? = m.headings := by
  rw [writtenHeadings, List.filterMap_cons_some (f := Heading.name?) rfl, List.filterMap_flatMap,
    headings, documentedNames_eq]
  simp only [Heading.filterMap_name?_ofLine]

/-- Of the written headings links lead to those that the registry counts, in the same order. -/
theorem filterMap_writtenHeadings (ms : List Module) :
    (writtenHeadings ms).filterMap Heading.name? = linkedHeadings ms := by
  rw [writtenHeadings, List.filterMap_cons_some (f := Heading.name?) rfl, List.filterMap_flatMap,
    linkedHeadings]
  simp only [Module.filterMap_writtenHeadings]

/-! ## Anchors by slug -/

/-- The anchor that a heading gets from the headings before it: its slug, with the number of those of
the same slug behind it if there are any. -/
def generatedAt (headings : List Heading) (q : Nat) : Text :=
  let name := ((headings[q]?).map Heading.text).getD []
  match (headings.take q).countP fun h => slug h.text = slug name with
  | 0 => slug name
  | k + 1 => slug name ++ '-' :: decimal (k + 1)

/-- Every earlier heading of the slug of a name has that name. -/
def OnlyNamesakesBefore (headings : List Heading) (q : Nat) (name : Text) : Prop :=
  ∀ h ∈ headings.take q, slug h.text = slug name → h.text = name

/-- No earlier title in a comment has the slug of a name. -/
def NoTitleBefore (headings : List Heading) (q : Nat) (name : Text) : Prop :=
  ∀ text, .title text ∈ headings.take q → slug text ≠ slug name

section Places

variable {headings : List Heading} {q k : Nat} {name : Text}

theorem generatedAt_eq (h : headings[q]? = some (.linked name)) :
    generatedAt headings q
      = anchor name ((headings.take q).countP fun h => slug h.text = slug name) := by
  have hname : ((headings[q]?).map Heading.text).getD [] = name := by
    rw [h]
    rfl
  simp only [generatedAt, hname, anchor]
  cases (headings.take q).countP fun h => slug h.text = slug name <;> rfl

/-- What a filter keeps at a place stands somewhere in the list, behind what it keeps before. -/
theorem exists_getElem?_of_filterMap {α β : Type} {f : α → Option β} {l : List α} {b : β}
    (h : (l.filterMap f)[k]? = some b) :
    ∃ q a, l[q]? = some a ∧ f a = some b ∧ (l.take q).filterMap f = (l.filterMap f).take k := by
  induction l generalizing k with
  | nil => simp at h
  | cons a l ih =>
    cases hf : f a with
    | none =>
      rw [List.filterMap_cons_none hf] at h ⊢
      obtain ⟨q, a', hq, ha', htake⟩ := ih h
      exact ⟨q + 1, a', hq, ha', by rw [List.take_succ_cons, List.filterMap_cons_none hf, htake]⟩
    | some c =>
      rw [List.filterMap_cons_some hf] at h ⊢
      cases k with
      | zero => exact ⟨0, a, rfl, hf.trans h, rfl⟩
      | succ k =>
        obtain ⟨q, a', hq, ha', htake⟩ := ih h
        refine ⟨q + 1, a', hq, ha', ?_⟩
        rw [List.take_succ_cons, List.filterMap_cons_some hf, htake, List.take_succ_cons]

/-- Two tests, one of which implies the other, count the same exactly when they agree. -/
theorem countP_eq_countP_iff {α : Type} {p r : α → Bool} {l : List α}
    (h : ∀ a ∈ l, p a = true → r a = true) :
    l.countP p = l.countP r ↔ ∀ a ∈ l, r a = true → p a = true := by
  induction l with
  | nil => simp
  | cons a l ih =>
    have hl : ∀ b ∈ l, p b = true → r b = true := fun b hb => h b (List.mem_cons_of_mem a hb)
    have hle : l.countP p ≤ l.countP r := List.countP_mono_left hl
    have ha := h a List.mem_cons_self
    rw [List.forall_mem_cons, ← ih hl, List.countP_cons, List.countP_cons]
    cases hp : p a with
    | true => simp [ha hp]
    | false =>
      cases hr : r a with
      | false => simp
      | true =>
        simp only [Bool.false_eq_true, if_false, if_true]
        constructor
        · omega
        · rintro ⟨himp, -⟩
          exact absurd (himp trivial) (by simp)

/-- The number of earlier headings of a name is that of earlier ones of its slug exactly when these
all have the name. -/
theorem anchor_eq_generatedAt_iff (h : headings[q]? = some (.linked name)) :
    anchor name ((headings.take q).countP fun h => h.text = name) = generatedAt headings q
      ↔ OnlyNamesakesBefore headings q name := by
  rw [generatedAt_eq h, anchor_inj, countP_eq_countP_iff]
  · simp only [OnlyNamesakesBefore, decide_eq_true_eq]
  · intro g _ hg
    rw [decide_eq_true_eq] at hg
    simp only [hg, decide_true]

/-- The headings of a name are those that links lead to. -/
theorem count_linked_of_noTitleBefore (hfree : NoTitleBefore headings q name) :
    (headings.take q).count (.linked name) = (headings.take q).countP fun h => h.text = name := by
  rw [List.count_eq_countP]
  refine List.countP_congr fun g hg => ?_
  rw [beq_iff_eq, decide_eq_true_eq]
  cases g with
  | linked other => simp [Heading.text]
  | title text =>
    have hslug := hfree text hg
    simp only [reduceCtorEq, Heading.text, false_iff]
    rintro rfl
    exact hslug rfl

/-- The written heading of a link: it is the one with `k` headings before it that links lead to. -/
structure LinkedAt (headings : List Heading) (k : Nat) (name : Text) (q : Nat) : Prop where
  /-- It has the name. -/
  heading : headings[q]? = some (.linked name)
  /-- As many others that links lead to come before it. -/
  before : ((headings.take q).filterMap Heading.name?).length = k

/-- The anchor of a link, against the one that its heading gets from those before it. -/
structure Agrees (headings : List Heading) (q : Nat) (name a : Text) : Prop where
  /-- The anchor is numbered by the earlier headings of exactly that name. -/
  numbered : a = anchor name ((headings.take q).countP fun h => h.text = name)
  /-- It is the one that its heading gets exactly if no other name has taken the slug. -/
  generated : a = generatedAt headings q ↔ OnlyNamesakesBefore headings q name

theorem exists_linkedAt {linked : List Text} (hlinked : headings.filterMap Heading.name? = linked)
    (hk : linked[k]? = some name) :
    ∃ q, LinkedAt headings k name q
      ∧ (NoTitleBefore headings q name → Agrees headings q name (anchorAt linked k)) := by
  subst hlinked
  obtain ⟨q, g, hq, hg, htake⟩ := exists_getElem?_of_filterMap hk
  rw [Heading.name?_eq_some_iff] at hg
  subst hg
  have hcount : ((headings.filterMap Heading.name?).take k).count name
      = (headings.take q).count (.linked name) := by
    rw [← htake, List.count_filterMap, List.count_eq_countP]
    refine List.countP_congr fun g _ => ?_
    rw [beq_iff_eq, beq_iff_eq, Heading.name?_eq_some_iff]
  have hanchor := anchorAt_eq hk
  rw [hcount] at hanchor
  refine ⟨q, ⟨hq, ?_⟩, fun hfree => ?_⟩
  · obtain ⟨hlt, -⟩ := List.getElem?_eq_some_iff.mp hk
    rw [htake, List.length_take, Nat.min_eq_left (Nat.le_of_lt hlt)]
  · rw [count_linked_of_noTitleBefore hfree] at hanchor
    refine ⟨hanchor, ?_⟩
    rw [hanchor]
    exact anchor_eq_generatedAt_iff hq

end Places

/-! ## Links of a document -/

/-- The bullet of a module and the bullets of its index, against the headings as they are written,
`k` of which come before that of the module and have links that lead to them. -/
structure LinksWritten (style : OperatorStyle) (headings : List Heading) (k : Nat) (m : Module)
    (line : Text) (index : List Text) : Prop where
  /-- The bullet of the module links to its heading. -/
  module : ∃ q a, LinkedAt headings k m.name q ∧ line = bullet m.name a
    ∧ (NoTitleBefore headings q m.name → Agrees headings q m.name a)
  /-- There is one bullet for each documented name. -/
  length_index : index.length = (documentedNames m.comment).length
  /-- It links to the heading of that name. -/
  entry : ∀ (j : Nat) (name : Text), (documentedNames m.comment)[j]? = some name →
    ∃ q a, LinkedAt headings (k + 1 + j) name q
      ∧ index[j]? = some (bullet (style.display name) a)
      ∧ (NoTitleBefore headings q name → Agrees headings q name a)

/-- Links by the place of their headings among those that links lead to. -/
theorem LinksFrom.written {style : OperatorStyle} {headings : List Heading} {k : Nat} {m : Module}
    {line : Text} {index : List Text}
    (h : LinksFrom style (headings.filterMap Heading.name?) k m line index) :
    LinksWritten style headings k m line index := by
  refine ⟨?_, h.length_index, fun j name hj => ?_⟩
  · obtain ⟨q, hat, hagrees⟩ := exists_linkedAt rfl h.heading
    exact ⟨q, _, hat, h.line_eq, hagrees⟩
  · obtain ⟨hk, hindex⟩ := h.entry j name hj
    obtain ⟨q, hat, hagrees⟩ := exists_linkedAt rfl hk
    exact ⟨q, _, hat, hindex, hagrees⟩

/-- **Links hit the headings they name as long as other names take no slug from these.**  In a
document, the bullet of each module and each bullet of its index carry an anchor that is numbered by
the earlier headings of exactly that name.  It is the one that the heading gets from all headings
before it exactly when those of the same slug have the same name. -/
theorem document_links_as_generated_iff {options : RenderOptions} {ms : List Module} {text : Text}
    (h : document options ms = .ok text) :
    ∃ bullets sections, Parts options ms text bullets sections (footer options ms)
      ∧ ∀ (i : Nat) (m : Module), ms[i]? = some m → ∃ line index body,
        bullets[i]? = some line
          ∧ sections[i]? = some
            (unlines (("# ".toList ++ m.name) :: [] :: index ++ [[], body, []]))
          ∧ LinksWritten options.style (writtenHeadings ms) (headingPlace ms i) m line index := by
  have hparts := parts_of_document h
  refine ⟨_, _, hparts, fun i m hi => ?_⟩
  obtain ⟨o, line, part, ho, hline, hpart, hshows⟩ := hparts.shows i m hi
  obtain ⟨body, -, hpart_eq⟩ := hshows.part_eq
  obtain ⟨o', ho', hname, hlinks⟩ := exists_outline options.style hi
  obtain rfl : o = o' := Option.some.inj (ho.symm.trans ho')
  rw [← filterMap_writtenHeadings, hname, ← hshows.line_eq] at hlinks
  exact ⟨line, _, body, hline, hpart_eq ▸ hpart, hlinks.written⟩

/-- A module with a value that is called like it, but for the first letter. -/
def dictModule : Module where
  name := "Dict".toList
  comment := "# Lookup\n@docs dict".toList
  aliases := []
  unions := []
  values := [⟨"dict".toList, [], "a".toList⟩]
  version := none

/-- Its document. -/
def dictText : Text :=
  "# Modules\n\n- [Dict](#dict)\n\n# Dict\n\n- [dict](#dict)\n\n## Lookup\n".toList
    ++ "\n### `dict`\n```elm\ndict : a\n```\n\n---\n\n\n".toList
    ++ "---\n\n> Generated with elm-make: unknown and elmdocs: 0.3.0\n".toList

theorem document_links_as_generated_iff_dict :
    document {} [dictModule] = .ok dictText
      ∧ ∃ bullets sections, Parts {} [dictModule] dictText bullets sections (footer {} [dictModule])
        ∧ ∀ (i : Nat) (m : Module), [dictModule][i]? = some m → ∃ line index body,
          bullets[i]? = some line
            ∧ sections[i]? = some
              (unlines (("# ".toList ++ m.name) :: [] :: index ++ [[], body, []]))
            ∧ LinksWritten .bare (writtenHeadings [dictModule]) (headingPlace [dictModule] i) m line
              index := by
  have h : document {} [dictModule] = .ok dictText := by decide +kernel
  exact ⟨h, document_links_as_generated_iff h⟩

/-- Links may miss the headings they name: here the bullet of the index links to the first heading of
its slug, which is that of the module.  No title has the slug, and no bullet has the anchor that the
heading gets. -/
theorem document_links_miss_headings :
    document {} [dictModule] = .ok dictText
      ∧ writtenHeadings [dictModule] = [.linked contentsTitle, .linked "Dict".toList,
        .title "Lookup".toList, .linked "dict".toList]
      ∧ slug "Lookup".toList ≠ slug "dict".toList
      ∧ generatedAt (writtenHeadings [dictModule]) 3 = "dict-1".toList
      ∧ ¬ bullet "dict".toList "dict-1".toList <:+: dictText := by
  refine ⟨?_, ?_, ?_, ?_, ?_⟩ <;> decide +kernel

end RefBook
