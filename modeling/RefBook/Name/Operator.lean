import RefBook.Text.Basic
import RefBook.Unicode.Alphanumeric

/-!
# RefBook.Name.Operator — names of operators

* `isOperator`: a name that begins with neither a letter, a number nor an underscore.
* `OperatorStyle.display`: how a name is shown.  Look-up and anchors always use the bare name.
-/

namespace RefBook

/-- Whether the name is symbolic; the empty name is not. -/
def isOperator : Text → Bool
  | [] => false
  | c :: _ => !(Unicode.isAlphanumeric c || c = '_')

/-- How operators are shown. -/
inductive OperatorStyle where
  /-- As they are. -/
  | bare
  /-- In parentheses. -/
  | decorated
deriving DecidableEq, Repr

/-- The form in which a name is shown. -/
def OperatorStyle.display (style : OperatorStyle) (name : Text) : Text :=
  match style with
  | bare => name
  | decorated => if isOperator name then '(' :: name ++ [')'] else name

theorem OperatorStyle.display_of_not_isOperator {style : OperatorStyle} {name : Text}
    (h : isOperator name = false) : style.display name = name := by
  cases style <;> simp [display, h]

end RefBook
