import Mathlib.Data.List.Chain
import RefBook.Catalog.Block
import RefBook.Proofs.Text.Lines

/-!
# RefBook.Proofs.Catalog.Signatures — how declarations are spaced

A declaration is put together from words, any of which may be empty.  Each empty one would leave a space
too many if it were not dropped first.

* `IsNeat`: no space at an end, and no two next to each other.
* `IsLineOf`: a line that holds the words of a list, in their order, one space apart;
  `isLineOf_unwords`: neat words make such a line, empty ones or not.
* `ShowsCode`: the lines between the fences of an entry; `showsCode_block` finds them.
* `declarations_show_neat_lines`: those of a type alias and of a union type, line by line.
-/

namespace RefBook

/-! ## Neat texts -/

/-- The text has no space at an end, and no two next to each other. -/
structure IsNeat (t : Text) : Prop where
  /-- It does not begin with a space. -/
  head : t.head? ≠ some ' '
  /-- It does not end in one. -/
  last : t.getLast? ≠ some ' '
  /-- No space follows another. -/
  single : t.IsChain fun c d => c = ' ' → d ≠ ' '

instance : DecidablePred IsNeat := fun t =>
  decidable_of_iff
    (t.head? ≠ some ' ' ∧ t.getLast? ≠ some ' ' ∧ t.IsChain fun c d => c = ' ' → d ≠ ' ')
    ⟨fun h => ⟨h.1, h.2.1, h.2.2⟩, fun h => ⟨h.head, h.last, h.single⟩⟩

section Neat

variable {t u : Text} {ts : List Text}

/-- A space between two texts is a single one. -/
theorem IsNeat.append_space (ht : IsNeat t) (hu : IsNeat u) (htne : t ≠ []) (hune : u ≠ []) :
    IsNeat (t ++ ' ' :: u) := by
  have hspace : (' ' :: u).IsChain fun c d => c = ' ' → d ≠ ' ' := by
    apply hu.single.cons
    intro d hd _ heq
    exact hu.head (heq ▸ hd)
  refine ⟨?_, ?_, ?_⟩
  · rw [List.head?_append_of_ne_nil t htne]
    exact ht.head
  · rw [List.getLast?_append_cons, List.getLast?_cons_of_ne_nil hune]
    exact hu.last
  · apply ht.single.append hspace
    intro c hc d _ heq
    exact absurd (heq ▸ hc) ht.last

theorem isNeat_intercalate (h : ∀ t ∈ ts, IsNeat t) (hne : ∀ t ∈ ts, t ≠ []) :
    IsNeat ([' '].intercalate ts) := by
  induction ts with
  | nil => decide
  | cons t ts ih =>
    obtain ⟨ht, hts⟩ := List.forall_mem_cons.mp h
    obtain ⟨htne, htsne⟩ := List.forall_mem_cons.mp hne
    cases ts with
    | nil =>
      rw [List.intercalate_singleton]
      exact ht
    | cons u us =>
      have hrest : [' '].intercalate (u :: us) ≠ [] := by
        rw [intercalate_cons]
        exact List.append_ne_nil_of_left_ne_nil (htsne u List.mem_cons_self) _
      rw [List.intercalate_cons_cons, List.append_assoc]
      exact ht.append_space (ih hts htsne) htne hrest

end Neat

/-! ## Lines of words -/

/-- A text that may stand for a name or a type: it is neat and has one line.  It may be empty. -/
structure IsWord (w : Text) : Prop where
  /-- Its spaces are single ones inside of it. -/
  neat : IsNeat w
  /-- It has one line. -/
  newline_not_mem : '\n' ∉ w

instance : DecidablePred IsWord := fun w =>
  decidable_of_iff (IsNeat w ∧ '\n' ∉ w)
    ⟨fun h => ⟨h.1, h.2⟩, fun h => ⟨h.neat, h.newline_not_mem⟩⟩

/-- The line holds those of the words that are not empty, in their order and one space apart, and has no
other space at an end or next to another. -/
structure IsLineOf (ws : List Text) (line : Text) : Prop where
  /-- The words stand in their order, one space apart. -/
  line_eq : line = [' '].intercalate (filled ws)
  /-- No space is left over. -/
  neat : IsNeat line

section Words

variable {ws : List Text} {c : Char}

theorem unwords_eq (ws : List Text) : unwords ws = [' '].intercalate (filled ws) := rfl

theorem unwords_cons_of_ne_nil {w : Text} (hw : w ≠ []) (ws : List Text) :
    unwords (w :: ws) = w ++ (filled ws).flatMap (' ' :: ·) := by
  rw [unwords_eq, filled_cons_of_ne_nil hw, intercalate_cons]

theorem not_mem_unwords (hc : c ≠ ' ') (h : ∀ w ∈ ws, c ∉ w) : c ∉ unwords ws :=
  not_mem_intercalate hc fun w hw => h w (mem_filled_iff.mp hw).1

theorem isLineOf_unwords (h : ∀ w ∈ ws, IsWord w) : IsLineOf ws (unwords ws) := by
  refine ⟨unwords_eq ws, isNeat_intercalate ?_ ?_⟩
  · intro w hw
    exact (h w (mem_filled_iff.mp hw).1).neat
  · intro w hw
    exact (mem_filled_iff.mp hw).2

theorem newline_not_mem_unwords (h : ∀ w ∈ ws, IsWord w) : '\n' ∉ unwords ws :=
  not_mem_unwords (by decide) fun w hw => (h w hw).newline_not_mem

/-- A mark in front of words is one word more, unless all of them are empty. -/
theorem mark_unwords (mark : Char) (h : ∃ w ∈ ws, w ≠ []) :
    mark :: ' ' :: unwords ws = unwords ([mark] :: ws) := by
  obtain ⟨w, hw, hne⟩ := h
  have hmem : w ∈ filled ws := mem_filled_iff.mpr ⟨hw, hne⟩
  obtain ⟨v, vs, hvs⟩ := List.exists_cons_of_ne_nil (List.ne_nil_of_mem hmem)
  rw [unwords_eq, unwords_eq, filled_cons_of_ne_nil (List.cons_ne_nil mark []), hvs,
    List.intercalate_cons_cons]
  rfl

end Words

/-! ## Entries between their fences -/

/-- The entry shows these lines of code: they stand between the first line that opens a code block and the
first one behind it that closes a code block. -/
def ShowsCode (entry : Text) (code : List Text) : Prop :=
  ∃ before after, entry.splitOn '\n' = before ++ fenceOpen :: (code ++ fenceClose :: after)
    ∧ fenceOpen ∉ before ∧ fenceClose ∉ code

/-- The lines of an entry in front of its code. -/
def entryFront (heading : Text) : List Text :=
  [[], "### `".toList ++ heading ++ ['`'], fenceOpen]

/-- The lines of an entry behind its code block. -/
def entryBack (comment : Text) : List Text :=
  commentLines comment ++ [[], "---".toList, []]

theorem block_eq (heading code comment : Text) : block heading code comment
    = unlines (entryFront heading) ++ '\n' ::
      (code ++ '\n' :: (unlines [fenceClose] ++ '\n' :: unlines (entryBack comment))) := by
  have hfront : entryFront heading ≠ [] := List.cons_ne_nil _ _
  have hback : entryBack comment ≠ [] :=
    List.append_ne_nil_of_right_ne_nil _ (List.cons_ne_nil _ _)
  have hclose : [fenceClose] ++ entryBack comment ≠ [] := List.cons_ne_nil _ _
  have hcode : [code] ++ ([fenceClose] ++ entryBack comment) ≠ [] := List.cons_ne_nil _ _
  calc block heading code comment
      = unlines (entryFront heading ++ ([code] ++ ([fenceClose] ++ entryBack comment))) := rfl
    _ = unlines (entryFront heading) ++ '\n' :: (unlines [code] ++ '\n' ::
          (unlines [fenceClose] ++ '\n' :: unlines (entryBack comment))) := by
        rw [unlines_append hfront hcode, unlines_append (List.cons_ne_nil _ _) hclose,
          unlines_append (List.cons_ne_nil _ _) hback]
    _ = _ := by rw [show unlines [code] = code from List.intercalate_singleton]

/-- Lines of code of which none closes the block are what the entry shows, whatever its comment. -/
theorem showsCode_block {heading : Text} {code : List Text} (comment : Text)
    (hheading : '\n' ∉ heading) (hne : code ≠ []) (hfeeds : ∀ l ∈ code, '\n' ∉ l)
    (hclose : fenceClose ∉ code) : ShowsCode (block heading (unlines code) comment) code := by
  have hfront : ∀ l ∈ entryFront heading, '\n' ∉ l := by
    intro l hl
    simp only [entryFront, List.mem_cons, List.not_mem_nil, or_false] at hl
    rcases hl with rfl | rfl | rfl
    · decide
    · simp [hheading]
    · decide
  have hfrontne : entryFront heading ≠ [] := List.cons_ne_nil _ _
  have hend : ∀ l ∈ [fenceClose], '\n' ∉ l := by decide
  refine ⟨[[], "### `".toList ++ heading ++ ['`']], (unlines (entryBack comment)).splitOn '\n',
    ?_, ?_, hclose⟩
  · rw [block_eq, splitOn_unlines_append hfrontne hfront, splitOn_unlines_append hne hfeeds,
      splitOn_unlines_append (List.cons_ne_nil _ _) hend]
    rfl
  · -- neither line begins with a fence
    intro hmem
    rcases List.mem_pair.mp hmem with h | h
    · contradiction
    · have hfirst : some '`' = some '#' := congrArg List.head? h
      contradiction

/-! ## Constructors -/

section Constructors

variable {c : Constructor} {cs : List Constructor} {mark : Char}

/-- The line of a constructor behind its indent: the mark, a space, and the words. -/
structure IsConstructorLine (mark : Char) (c : Constructor) (line : Text) : Prop where
  /-- The words stand behind the mark. -/
  words : ∃ text, line = mark :: ' ' :: text ∧ IsLineOf (c.name :: c.args) text
  /-- With the mark in front no space is left over either. -/
  neat : IsNeat line

theorem getElem?_constructorLines (cs : List Constructor) (i : Nat) :
    (constructorLines cs)[i]? = cs[i]?.map (constructorLine (if i = 0 then '=' else '|')) := by
  cases cs with
  | nil => rfl
  | cons c cs =>
    cases i with
    | zero => rfl
    | succ i => exact List.getElem?_map ..

theorem length_constructorLines (cs : List Constructor) :
    (constructorLines cs).length = cs.length := by
  cases cs with
  | nil => rfl
  | cons c cs => simp [constructorLines]

theorem exists_isConstructorLine (hmark : IsWord [mark])
    (h : ∀ w ∈ c.name :: c.args, IsWord w) (hne : ∃ w ∈ c.name :: c.args, w ≠ []) :
    ∃ line, constructorLine mark c = codeIndent ++ line ∧ IsConstructorLine mark c line := by
  have hneat : IsNeat (unwords ([mark] :: c.name :: c.args)) :=
    (isLineOf_unwords (List.forall_mem_cons.mpr ⟨hmark, h⟩)).neat
  rw [← mark_unwords mark hne] at hneat
  refine ⟨mark :: ' ' :: unwords (c.name :: c.args), ?_, ⟨_, rfl, isLineOf_unwords h⟩, hneat⟩
  rw [constructorLine, List.append_assoc]
  rfl

/-- Spaces, the two marks and the characters of words are all that the lines of constructors hold. -/
theorem not_mem_constructorLines {d : Char} (hspace : d ≠ ' ') (hequals : d ≠ '=') (hbar : d ≠ '|')
    (h : ∀ c ∈ cs, ∀ w ∈ c.name :: c.args, d ∉ w) : ∀ l ∈ constructorLines cs, d ∉ l := by
  intro l hl
  obtain ⟨i, hi⟩ := List.mem_iff_getElem?.mp hl
  rw [getElem?_constructorLines, Option.map_eq_some_iff] at hi
  obtain ⟨c, hc, rfl⟩ := hi
  have hwords : d ∉ unwords (c.name :: c.args) :=
    not_mem_unwords hspace (h c (List.mem_of_getElem? hc))
  have hindent : d ∉ codeIndent := by simp [codeIndent, hspace]
  split <;> simp [constructorLine, hwords, hindent, hspace, hequals, hbar]

theorem fenceClose_not_mem_constructorLines (cs : List Constructor) :
    fenceClose ∉ constructorLines cs := by
  intro hmem
  obtain ⟨i, hi⟩ := List.mem_iff_getElem?.mp hmem
  rw [getElem?_constructorLines, Option.map_eq_some_iff] at hi
  obtain ⟨c, -, hc⟩ := hi
  -- a line of a constructor begins with its indent
  have hfirst : some ' ' = some '`' := congrArg List.head? hc
  contradiction

end Constructors

/-! ## Type aliases and union types -/

theorem isWord_keyword : IsWord "type alias".toList ∧ IsWord "type".toList ∧ IsWord ['=']
    ∧ IsWord ['|'] := by decide

/-- A line that begins with a keyword does not close a code block. -/
theorem unwords_keyword_ne_fenceClose (ws : List Text) :
    unwords ("type alias".toList :: ws) ≠ fenceClose
      ∧ unwords ("type".toList :: ws) ≠ fenceClose := by
  rw [unwords_cons_of_ne_nil (by decide), unwords_cons_of_ne_nil (by decide)]
  constructor
  · intro h
    have hfirst : some 't' = some '`' := congrArg List.head? h
    contradiction
  · intro h
    have hfirst : some 't' = some '`' := congrArg List.head? h
    contradiction

theorem showsCode_aliasBlock {a : Alias} (h : ∀ w ∈ a.name :: a.type :: a.args, IsWord w) :
    ShowsCode (aliasBlock a) [aliasCode a]
      ∧ IsLineOf ("type alias".toList :: a.name :: a.args ++ ["=".toList, a.type]) (aliasCode a) := by
  obtain ⟨hkeyword, -, hequals, -⟩ := isWord_keyword
  obtain ⟨hname, htype, hargs⟩ : IsWord a.name ∧ IsWord a.type ∧ ∀ w ∈ a.args, IsWord w := by
    simpa using h
  have hwords : ∀ w ∈ "type alias".toList :: a.name :: a.args ++ ["=".toList, a.type],
      IsWord w := by
    intro w hw
    simp only [List.cons_append, List.mem_cons, List.mem_append, List.not_mem_nil, or_false] at hw
    rcases hw with rfl | rfl | hw | rfl | rfl
    · exact hkeyword
    · exact hname
    · exact hargs w hw
    · exact hequals
    · exact htype
  have hentry : aliasBlock a = block a.name (unlines [aliasCode a]) a.comment := by
    rw [aliasBlock, show unlines [aliasCode a] = aliasCode a from List.intercalate_singleton]
  refine ⟨?_, isLineOf_unwords hwords⟩
  rw [hentry]
  apply showsCode_block a.comment hname.newline_not_mem (List.cons_ne_nil _ _)
  · intro l hl
    rw [List.mem_singleton.mp hl]
    exact newline_not_mem_unwords hwords
  · rw [List.mem_singleton]
    exact (unwords_keyword_ne_fenceClose _).1.symm

theorem showsCode_unionBlock {u : UnionType} (h : ∀ w ∈ u.name :: u.args, IsWord w)
    (hcases : ∀ c ∈ u.cases, ∀ w ∈ c.name :: c.args, IsWord w) :
    ShowsCode (unionBlock u)
        (unwords ("type".toList :: u.name :: u.args) :: constructorLines u.cases)
      ∧ IsLineOf ("type".toList :: u.name :: u.args)
        (unwords ("type".toList :: u.name :: u.args)) := by
  obtain ⟨-, hkeyword, -, -⟩ := isWord_keyword
  have hwords : ∀ w ∈ "type".toList :: u.name :: u.args, IsWord w :=
    List.forall_mem_cons.mpr ⟨hkeyword, h⟩
  have hfeeds : ∀ c ∈ u.cases, ∀ w ∈ c.name :: c.args, '\n' ∉ w := by
    intro c hc w hw
    exact (hcases c hc w hw).newline_not_mem
  refine ⟨?_, isLineOf_unwords hwords⟩
  rw [unionBlock, unionCode]
  apply showsCode_block u.comment (h u.name List.mem_cons_self).newline_not_mem
    (List.cons_ne_nil _ _)
  · exact List.forall_mem_cons.mpr
      ⟨newline_not_mem_unwords hwords, not_mem_constructorLines (by decide) (by decide) (by decide) hfeeds⟩
  · rw [List.mem_cons, not_or]
    exact ⟨(unwords_keyword_ne_fenceClose _).2.symm, fenceClose_not_mem_constructorLines u.cases⟩

/-- **Declarations are spaced evenly.**  Let the texts of a type alias or a union type be words, any of
which may be empty, and let each constructor have one that is not.  Then what stands between the fences of
its entry is one line, and for a union type one more for each constructor, in their order: indented, with
an equals sign in front of the first and a bar in front of each other one.  Behind its indent no line has a
space at an end or two next to each other, and it holds the words that are not empty in their order. -/
theorem declarations_show_neat_lines :
    (∀ a : Alias, (∀ w ∈ a.name :: a.type :: a.args, IsWord w) →
      ∃ head, ShowsCode (aliasBlock a) [head]
        ∧ IsLineOf ("type alias".toList :: a.name :: a.args ++ ["=".toList, a.type]) head)
    ∧ ∀ u : UnionType, (∀ w ∈ u.name :: u.args, IsWord w) →
      (∀ c ∈ u.cases, (∀ w ∈ c.name :: c.args, IsWord w) ∧ ∃ w ∈ c.name :: c.args, w ≠ []) →
      ∃ head rest, ShowsCode (unionBlock u) (head :: rest)
        ∧ IsLineOf ("type".toList :: u.name :: u.args) head
        ∧ rest.length = u.cases.length
        ∧ ∀ (i : Nat) (c : Constructor), u.cases[i]? = some c →
          ∃ line, rest[i]? = some (codeIndent ++ line)
            ∧ IsConstructorLine (if i = 0 then '=' else '|') c line := by
  refine ⟨fun a ha => ⟨_, showsCode_aliasBlock ha⟩, ?_⟩
  intro u hu hcases
  obtain ⟨hshows, hhead⟩ := showsCode_unionBlock hu fun c hc => (hcases c hc).1
  refine ⟨_, _, hshows, hhead, length_constructorLines u.cases, ?_⟩
  intro i c hi
  obtain ⟨hwords, hne⟩ := hcases c (List.mem_of_getElem? hi)
  obtain ⟨-, -, hequals, hbar⟩ := isWord_keyword
  have hmark : IsWord [if i = 0 then '=' else '|'] := by
    split
    · exact hequals
    · exact hbar
  obtain ⟨line, hline, hspaced⟩ := exists_isConstructorLine hmark hwords hne
  refine ⟨line, ?_, hspaced⟩
  rw [getElem?_constructorLines, hi, Option.map_some, hline]

/-- An alias of nothing in particular, with an empty parameter among others. -/
def gappedAlias : Alias where
  name := "Pair".toList
  comment := "```\n".toList
  type := []
  args := ["a".toList, [], "b".toList]

/-- A union type whose name is empty, as are words at either end of its constructors. -/
def gappedUnion : UnionType where
  name := []
  comment := []
  args := [[], "a".toList]
  cases := [⟨[], ["(Tree a)".toList, []]⟩, ⟨"Leaf".toList, [[]]⟩]

theorem declarations_show_neat_lines_gapped :
    (∀ w ∈ gappedAlias.name :: gappedAlias.type :: gappedAlias.args, IsWord w)
      ∧ (∃ head, ShowsCode (aliasBlock gappedAlias) [head]
        ∧ IsLineOf ["type alias".toList, "Pair".toList, "a".toList, [], "b".toList, "=".toList, []]
          head)
      ∧ (∀ w ∈ gappedUnion.name :: gappedUnion.args, IsWord w)
      ∧ (∀ c ∈ gappedUnion.cases,
        (∀ w ∈ c.name :: c.args, IsWord w) ∧ ∃ w ∈ c.name :: c.args, w ≠ [])
      ∧ ∃ head rest, ShowsCode (unionBlock gappedUnion) (head :: rest)
        ∧ IsLineOf ["type".toList, [], [], "a".toList] head
        ∧ rest.length = gappedUnion.cases.length
        ∧ ∀ (i : Nat) (c : Constructor), gappedUnion.cases[i]? = some c →
          ∃ line, rest[i]? = some (codeIndent ++ line)
            ∧ IsConstructorLine (if i = 0 then '=' else '|') c line := by
  have ha : ∀ w ∈ gappedAlias.name :: gappedAlias.type :: gappedAlias.args, IsWord w := by
    decide
  have hu : ∀ w ∈ gappedUnion.name :: gappedUnion.args, IsWord w := by decide
  have hcases : ∀ c ∈ gappedUnion.cases,
      (∀ w ∈ c.name :: c.args, IsWord w) ∧ ∃ w ∈ c.name :: c.args, w ≠ [] := by decide
  exact ⟨ha, declarations_show_neat_lines.1 gappedAlias ha, hu, hcases,
    declarations_show_neat_lines.2 gappedUnion hu hcases⟩

/-- A constructor without words leaves the space behind its mark at the end of the line. -/
example : constructorLine '=' ⟨[], [[]]⟩ = "    = ".toList := by decide

end RefBook
