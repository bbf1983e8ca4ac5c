import RefBook.Text.Basic

/-!
# RefBook.Name.Reference — dotted references in a signature

* `Piece`: a signature is a sequence of references and of characters outside them.  A reference is
  the longest one possible at its place: a component, and further components after single dots.
* `pieces` takes a text apart and `Piece.text` puts it together: `text_pieces`.
* `stripModule` shortens every reference to a name of the module itself to that name.
-/

namespace RefBook

/-! ## Components -/

/-- Whether a component may begin with the character: an ASCII letter or an underscore. -/
def isReferenceStart (c : Char) : Bool :=
  c.isAlpha || c = '_'

/-- Whether a component may go on with the character: ASCII letters, digits, underscores and
apostrophes. -/
def isReferencePart (c : Char) : Bool :=
  c.isAlphanum || c = '_' || c = '\''

theorem length_dropWhile_le (p : Char → Bool) (t : Text) : (t.dropWhile p).length ≤ t.length :=
  (List.dropWhile_sublist p).length_le

/-- The components after the first, each behind a dot, and what follows the last of them. -/
def moreComponents : Text → List Text × Text
  | '.' :: c :: r =>
    if isReferenceStart c then
      let (cs, rest) := moreComponents (r.dropWhile isReferencePart)
      ((c :: r.takeWhile isReferencePart) :: cs, rest)
    else ([], '.' :: c :: r)
  | t => ([], t)
termination_by t => t.length
decreasing_by
  have := length_dropWhile_le isReferencePart r
  simp only [List.length_cons]
  omega

theorem length_moreComponents_le (t : Text) : (moreComponents t).2.length ≤ t.length := by
  fun_induction moreComponents t with
  | case1 c r h cs rest hr ih =>
    have := length_dropWhile_le isReferencePart r
    simp_all only [List.length_cons]
    omega
  | case2 => simp
  | case3 => simp

/-! ## Pieces -/

/-- A part of a signature. -/
inductive Piece where
  /-- A component and the components after it; with none of these it is no reference but a word. -/
  | reference (head : Text) (more : List Text)
  /-- A character outside references. -/
  | other (c : Char)
deriving DecidableEq, Repr

/-- The pieces of a signature, from left to right. -/
def pieces : Text → List Piece
  | [] => []
  | c :: r =>
    if isReferenceStart c then
      let tail := moreComponents (r.dropWhile isReferencePart)
      .reference (c :: r.takeWhile isReferencePart) tail.1 :: pieces tail.2
    else .other c :: pieces r
termination_by t => t.length
decreasing_by
  · have h1 := length_moreComponents_le (r.dropWhile isReferencePart)
    have h2 := length_dropWhile_le isReferencePart r
    simp only [List.length_cons]
    omega
  · simp

/-- The components joined by dots. -/
def dotted (components : List Text) : Text :=
  ['.'].intercalate components

/-- The text of a piece. -/
def Piece.text : Piece → Text
  | reference head more => head ++ more.flatMap ('.' :: ·)
  | other c => [c]

theorem text_moreComponents (t : Text) :
    (moreComponents t).1.flatMap ('.' :: ·) ++ (moreComponents t).2 = t := by
  fun_induction moreComponents t with
  | case1 c r h cs rest hr ih =>
    rw [hr] at ih
    simp only [List.flatMap_cons, List.cons_append, List.append_assoc, ih,
      List.takeWhile_append_dropWhile]
  | case2 => simp
  | case3 => simp

/-- The pieces of a text hold all of it, in order. -/
theorem text_pieces (t : Text) : (pieces t).flatMap Piece.text = t := by
  fun_induction pieces t with
  | case1 => rfl
  | case2 c r h tail ih =>
    have hm := text_moreComponents (r.dropWhile isReferencePart)
    simp only [List.flatMap_cons, Piece.text, ih, List.append_assoc, List.cons_append, tail, hm,
      List.takeWhile_append_dropWhile]
  | case3 c r h ih => simp [Piece.text, ih]

/-! ## Names of the module itself -/

/-- The piece as its owner shows it: a reference whose components before the last spell the owner's
name is cut to its last component. -/
def Piece.seenFrom (owner : Text) : Piece → Text
  | reference head more =>
    match more.getLast? with
    | some name =>
      if dotted (head :: more.dropLast) = owner then name else (reference head more).text
    | none => (reference head more).text
  | other c => [c]

/-- The signature with the owner's own names unqualified. -/
def stripModule (owner signature : Text) : Text :=
  (pieces signature).flatMap (·.seenFrom owner)

example : stripModule "Foo".toList "Foo.T -> Foo.Bar.T -> 1Foo.U".toList
    = "T -> Foo.Bar.T -> 1U".toList := by cbv

end RefBook
