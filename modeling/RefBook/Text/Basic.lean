/-!
# RefBook.Text.Basic — texts as lists of characters

* `Text`: a text is the list of its characters, so every function on texts recurses on the data.
* `unlines` puts one line feed between the lines of a list; `decimal` writes a number in base ten.
* `byteLength` counts the bytes that a text takes in UTF-8.
* `dropLeading` takes a fixed text off the front of another.
* `intercalate_cons`, `lookup_cons_eq`: a separated list, and a list of keys with values, from the front.
* `cons_of_concat_new`, `eraseDups_concat`: keys in first-seen order, with one more key at the end.
-/

namespace RefBook

/-- A text, character by character. -/
abbrev Text := List Char

/-- The lines with one line feed between each two of them. -/
def unlines (lines : List Text) : Text :=
  ['\n'].intercalate lines

/-- The decimal digits of a number. -/
def decimal (n : Nat) : Text :=
  Nat.toDigits 10 n

/-- The number of bytes of a text in UTF-8. -/
def byteLength : Text → Nat
  | [] => 0
  | c :: t => c.utf8Size + byteLength t

/-- What follows `lead` at the front of a text, or `none` if the text does not begin with it. -/
def dropLeading : Text → Text → Option Text
  | [], t => some t
  | _ :: _, [] => none
  | a :: lead, c :: t => if a = c then dropLeading lead t else none

theorem dropLeading_eq_some_iff {lead t rest : Text} :
    dropLeading lead t = some rest ↔ t = lead ++ rest := by
  induction lead generalizing t with
  | nil => simp [dropLeading]
  | cons a lead ih =>
    cases t with
    | nil => simp [dropLeading]
    | cons c t =>
      by_cases h : a = c
      · subst h
        simp [dropLeading, ih]
      · simp [dropLeading, h, Ne.symm h]

/-- A separator stands in front of each part but the first. -/
theorem intercalate_cons (sep : Char) (t : Text) (ts : List Text) :
    [sep].intercalate (t :: ts) = t ++ ts.flatMap (sep :: ·) := by
  induction ts generalizing t with
  | nil => simp
  | cons u ts ih =>
    rw [List.intercalate_cons_cons, ih, List.flatMap_cons, List.append_assoc]
    rfl

theorem unlines_cons (t : Text) (ts : List Text) : unlines (t :: ts) = t ++ ts.flatMap ('\n' :: ·) :=
  intercalate_cons '\n' t ts

section Lookup

variable {κ β : Type} [BEq κ] [LawfulBEq κ] [DecidableEq κ]

theorem lookup_cons_eq (k : κ) (b : β) (n : κ) (es : List (κ × β)) :
    ((k, b) :: es).lookup n = if n = k then some b else es.lookup n := by
  by_cases h : n = k
  · simp [h]
  · have hnk : (n == k) = false := by simp [h]
    rw [List.lookup_cons, hnk, if_neg h]

/-- An entry of another key in front leaves a change of one key as it is. -/
theorem lookup_cons_of_update {k name n : κ} {b : β} {es es' : List (κ × β)}
    {x : Option β} (hk : k ≠ name) (h : es'.lookup n = if n = name then x else es.lookup n) :
    ((k, b) :: es').lookup n = if n = name then x else ((k, b) :: es).lookup n := by
  rw [lookup_cons_eq, lookup_cons_eq, h]
  by_cases hn : n = k
  · rw [if_pos hn, if_pos hn, if_neg (hn ▸ hk)]
  · rw [if_neg hn, if_neg hn]

end Lookup

section FirstSeen

variable {κ : Type} [BEq κ] [LawfulBEq κ]

/-- A key that is put at the end if it is new is so whatever other key stands in front. -/
theorem cons_of_concat_new {k name : κ} {ks ks' : List κ} (hk : k ≠ name)
    (h : ks' = if name ∈ ks then ks else ks ++ [name]) :
    k :: ks' = if name ∈ k :: ks then k :: ks else k :: ks ++ [name] := by
  have hmem : name ∈ k :: ks ↔ name ∈ ks := by simp [Ne.symm hk]
  rw [h]
  by_cases hn : name ∈ ks
  · rw [if_pos hn, if_pos (hmem.mpr hn)]
  · rw [if_neg hn, if_neg fun hin => hn (hmem.mp hin), List.cons_append]

/-- The different keys of a list in first-seen order, with one more key behind the list. -/
theorem eraseDups_concat (ks : List κ) (name : κ) :
    (ks ++ [name]).eraseDups
      = if name ∈ ks.eraseDups then ks.eraseDups else ks.eraseDups ++ [name] := by
  rw [List.eraseDups_append]
  by_cases hn : name ∈ ks
  · rw [if_pos (List.mem_eraseDups.mpr hn)]
    simp [List.removeAll, hn]
  · rw [if_neg fun hin => hn (List.mem_eraseDups.mp hin)]
    simp [List.removeAll, hn, List.eraseDups_cons]

end FirstSeen

end RefBook
