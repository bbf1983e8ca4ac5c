import RefBook.Proofs.Name.Unqualified
import RefBook.Unicode.Alphanumeric

/-!
# RefBook.Proofs.Name.Prefixed — modules whose name ends in that of another

Behind further characters of an identifier, a module's name is only the end of another name.  References
are told by ASCII letters, digits, underscores and apostrophes; identifiers hold letters and numbers of
any script.

* `EndsInComponent`: the characters just before the module's name begin a component, which goes on into
  the module's name.
* `stripModule_prefixed`: by what stands before it, a reference is kept, or it is cut as one of the
  module itself.
* `stripModule_keeps_prefixed_iff`: so the longer name is whole exactly if it `EndsInComponent`.
* `stripModule_cuts_prefixed`: it need not be, where a letter outside ASCII comes before the module's
  name.
-/

namespace RefBook

/-! ## Identifiers -/

/-- Whether an identifier may go on with the character: letters and numbers of any script, underscores
and apostrophes. -/
def isIdentifierPart (c : Char) : Bool :=
  Unicode.isAlphanumeric c || c = '_' || c = '\''

/-- The dotted name of a module. -/
def IsModuleName (t : Text) : Prop :=
  ∃ components, components ≠ [] ∧ (∀ c ∈ components, IsComponent c) ∧ t = dotted components

theorem dot_not_mem_of_isIdentifierPart {p : Text} (hp : ∀ c ∈ p, isIdentifierPart c = true) :
    '.' ∉ p := by
  intro hmem
  have hdot : isIdentifierPart '.' = false := by decide +kernel
  rw [hp '.' hmem] at hdot
  contradiction

/-! ## What stands before a reference -/

/-- The last characters of the text are a component, so what follows would be a part of it. -/
def EndsInComponent (p : Text) : Prop :=
  ∃ front d, p = front ++ d ∧ IsComponent d

section Before

variable {c : Char} {d p r rest : Text}

theorem not_endsInComponent_nil : ¬ EndsInComponent [] := by
  rintro ⟨front, d, hnil, hd⟩
  exact hd.ne_nil (List.append_eq_nil_iff.mp hnil.symm).2

theorem IsComponent.endsInComponent (h : IsComponent d) : EndsInComponent d :=
  ⟨[], d, rfl, h⟩

/-- A character that begins no component has no say in whether one ends the text. -/
theorem endsInComponent_cons_iff (h : isReferenceStart c = false) :
    EndsInComponent (c :: r) ↔ EndsInComponent r := by
  constructor
  · rintro ⟨front, d, hcut, hd⟩
    cases front with
    | nil =>
      obtain ⟨e, r', rfl, he, -⟩ := hd
      obtain ⟨rfl, -⟩ := List.cons_eq_cons.mp hcut
      rw [he] at h
      contradiction
    | cons e front =>
      obtain ⟨-, hr⟩ := List.cons_eq_cons.mp hcut
      exact ⟨front, d, hr, hd⟩
  · rintro ⟨front, d, rfl, hd⟩
    exact ⟨c :: front, d, rfl, hd⟩

/-- Nor has what stands before the end of another component. -/
theorem endsInComponent_append_iff (h : EndsComponent (c :: r)) :
    EndsInComponent (d ++ c :: r) ↔ EndsInComponent (c :: r) := by
  constructor
  · rintro ⟨front, v, hcut, hv⟩
    rcases List.append_eq_append_iff.mp hcut with ⟨z, -, hz⟩ | ⟨z, -, hz⟩
    · exact ⟨z, v, hz, hv⟩
    · -- a component that began further ahead would hold the character
      have hpart := hv.isReferencePart c (by simp [hz])
      rw [h c r rfl] at hpart
      contradiction
  · rintro ⟨front, v, hcut, hv⟩
    exact ⟨d ++ front, v, by rw [hcut, List.append_assoc], hv⟩

/-- Components that end in front of a text without dots end in front of whatever is put behind it. -/
theorem EndsReference.append (h : EndsReference (c :: r)) (hdot : c ≠ '.') (t : Text) :
    EndsReference (c :: r ++ t) := by
  refine ⟨?_, ?_⟩
  · rintro _ _ ⟨rfl, -⟩
    exact h.part c r rfl
  · intro e r' he
    obtain ⟨rfl, -⟩ := List.cons_eq_cons.mp he
    exact absurd rfl hdot

end Before

/-! ## References behind a text -/

section Prefixed

variable {p owner d name v : Text} {vs : List Text}

/-- What is shown of one reference. -/
theorem stripModule_reference (hv : IsComponent v) (hvs : ∀ c ∈ vs, IsComponent c)
    (hname : IsComponent name) (owner : Text) :
    stripModule owner (dotted (v :: vs) ++ '.' :: name)
      = if dotted (v :: vs) = owner then name else dotted (v :: vs) ++ '.' :: name := by
  have hmore : ∀ c ∈ vs ++ [name], IsComponent c :=
    List.forall_mem_append.mpr ⟨hvs, List.forall_mem_singleton.mpr hname⟩
  have htext : dotted (v :: vs) ++ '.' :: name
      = v ++ ((vs ++ [name]).flatMap ('.' :: ·) ++ []) := by
    simp [dotted_cons]
  rw [htext, stripModule_append hv hmore .nil, stripModule_nil, Piece.seenFrom,
    List.getLast?_concat, List.dropLast_concat, List.append_nil, List.append_nil, Piece.text]

/-- With nothing in front the reference is one of the module itself. -/
theorem stripModule_own (howner : IsModuleName owner) (hname : IsComponent name) :
    stripModule owner (owner ++ '.' :: name) = name := by
  obtain ⟨components, hne, hall, rfl⟩ := howner
  obtain ⟨v, vs, rfl⟩ := List.exists_cons_of_ne_nil hne
  obtain ⟨hv, hvs⟩ := List.forall_mem_cons.mp hall
  rw [stripModule_reference hv hvs hname, if_pos rfl]

/-- A component in front makes the module's name the end of a longer one, which is kept. -/
theorem stripModule_longer (hd : IsComponent d) (howner : IsModuleName owner)
    (hname : IsComponent name) :
    stripModule owner (d ++ (owner ++ '.' :: name)) = d ++ (owner ++ '.' :: name) := by
  obtain ⟨components, hne, hall, rfl⟩ := howner
  obtain ⟨v, vs, rfl⟩ := List.exists_cons_of_ne_nil hne
  obtain ⟨hv, hvs⟩ := List.forall_mem_cons.mp hall
  have hjoined : IsComponent (d ++ v) := by
    obtain ⟨c, r, rfl, hc, hr⟩ := hd
    refine ⟨c, r ++ v, rfl, hc, ?_⟩
    exact List.forall_mem_append.mpr ⟨hr, hv.isReferencePart⟩
  have hlonger : d ++ dotted (v :: vs) = dotted ((d ++ v) :: vs) := by
    rw [dotted_cons, dotted_cons, List.append_assoc]
  have hother : dotted ((d ++ v) :: vs) ≠ dotted (v :: vs) := by
    intro h
    rw [← hlonger] at h
    exact hd.ne_nil (List.append_left_eq_self.mp h)
  rw [← List.append_assoc, hlonger, stripModule_reference hjoined hvs hname, if_neg hother]

/-- By what stands before it, a reference is kept, or it is cut as one of the module itself. -/
theorem stripModule_prefixed (hdot : '.' ∉ p) (howner : IsModuleName owner)
    (hname : IsComponent name) :
    (EndsInComponent p
        ∧ stripModule owner (p ++ (owner ++ '.' :: name)) = p ++ (owner ++ '.' :: name))
      ∨ (¬ EndsInComponent p ∧ stripModule owner (p ++ (owner ++ '.' :: name)) = p ++ name) := by
  induction p using scanInduction with
  | nil => exact Or.inr ⟨not_endsInComponent_nil, stripModule_own howner hname⟩
  | outside c r hc ih =>
    have hr : '.' ∉ r := fun h => hdot (List.mem_cons_of_mem c h)
    rw [endsInComponent_cons_iff hc]
    simp only [List.cons_append, stripModule_outside hc, List.cons_inj_right]
    exact ih hr
  | components d ds rest hd hds hrest ih =>
    -- further components would stand behind dots
    obtain rfl : ds = [] := by
      cases ds with
      | nil => rfl
      | cons v vs => simp at hdot
    rw [List.flatMap_nil, List.nil_append] at hdot ⊢
    cases rest with
    | nil =>
      rw [List.append_nil]
      exact Or.inl ⟨hd.endsInComponent, stripModule_longer hd howner hname⟩
    | cons c r =>
      have hrest' : '.' ∉ c :: r := fun h => hdot (List.mem_append_right d h)
      have hc : c ≠ '.' := by
        rintro rfl
        exact hrest' List.mem_cons_self
      have hshown : ∀ t, stripModule owner (d ++ (c :: r ++ t))
          = d ++ stripModule owner (c :: r ++ t) := by
        intro t
        have happend :=
          stripModule_append hd (List.forall_mem_nil IsComponent) (hrest.append hc t) owner
        simpa [Piece.seenFrom, Piece.text] using happend
      rw [endsInComponent_append_iff hrest.part, List.append_assoc, hshown,
        List.append_assoc, List.append_cancel_left_eq, List.append_cancel_left_eq]
      exact ih hrest'

end Prefixed

/-- **A longer name is kept whole exactly if ASCII characters of an identifier reach from a letter or
an underscore to where the module's name stands in it.**  If not, the module's name is cut out of the
longer one.  A prefix that is an ASCII identifier is kept. -/
theorem stripModule_keeps_prefixed_iff {p owner name : Text}
    (hp : ∀ c ∈ p, isIdentifierPart c = true) (howner : IsModuleName owner)
    (hname : IsComponent name) :
    (stripModule owner (p ++ owner ++ '.' :: name) = p ++ owner ++ '.' :: name
        ↔ EndsInComponent p)
      ∧ (¬ EndsInComponent p → stripModule owner (p ++ owner ++ '.' :: name) = p ++ name)
      ∧ (IsComponent p → stripModule owner (p ++ owner ++ '.' :: name) = p ++ owner ++ '.' :: name)
      := by
  rw [List.append_assoc]
  rcases stripModule_prefixed (dot_not_mem_of_isIdentifierPart hp) howner hname with
    ⟨hends, hkept⟩ | ⟨hends, hcut⟩
  · exact ⟨⟨fun _ => hends, fun _ => hkept⟩, fun h => absurd hends h, fun _ => hkept⟩
  · have hlonger : p ++ name ≠ p ++ (owner ++ '.' :: name) := by
      intro h
      have hlength := congrArg List.length h
      simp only [List.length_append, List.length_cons] at hlength
      omega
    refine ⟨⟨fun h => absurd (hcut.symm.trans h) hlonger, fun h => absurd h hends⟩, fun _ => hcut,
      fun h => absurd h.endsInComponent hends⟩

theorem isModuleName_foo : IsModuleName "Foo".toList :=
  ⟨["Foo".toList], List.cons_ne_nil _ _,
    List.forall_mem_singleton.mpr
      ⟨'F', "oo".toList, rfl, by decide, List.all_eq_true.mp (by decide)⟩, rfl⟩

theorem isComponent_t : IsComponent "T".toList :=
  ⟨'T', [], rfl, by decide, List.forall_mem_nil _⟩

-- an underscore behind the accent begins a component, so the name is kept
theorem stripModule_keeps_prefixed_iff_underscore :
    (∀ c ∈ "Café_".toList, isIdentifierPart c = true)
      ∧ stripModule "Foo".toList ("Café_".toList ++ "Foo".toList ++ '.' :: "T".toList)
        = "Café_".toList ++ "Foo".toList ++ '.' :: "T".toList := by
  have hp : ∀ c ∈ "Café_".toList, isIdentifierPart c = true :=
    List.all_eq_true.mp (by decide +kernel)
  have hends : EndsInComponent "Café_".toList :=
    ⟨"Café".toList, "_".toList, rfl, '_', [], rfl, by decide, List.forall_mem_nil _⟩
  exact ⟨hp, (stripModule_keeps_prefixed_iff hp isModuleName_foo isComponent_t).1.mpr hends⟩

theorem not_endsInComponent_cafe : ¬ EndsInComponent "Café".toList := by
  have hcut : "Café".toList = "Caf".toList ++ 'é' :: [] := rfl
  have hends : EndsComponent ('é' :: []) := by
    intro c r h
    obtain ⟨rfl, -⟩ := List.cons_eq_cons.mp h
    decide
  rw [hcut, endsInComponent_append_iff hends, endsInComponent_cons_iff (by decide)]
  exact not_endsInComponent_nil

/-- A reference to another module may lose part of its name: `Café` is an identifier that begins with
a letter, and a module is called by it and the name of this one. -/
theorem stripModule_cuts_prefixed :
    "Café".toList.head? = some 'C' ∧ 'C'.isAlpha = true
      ∧ (∀ c ∈ "Café".toList, isIdentifierPart c = true)
      ∧ IsModuleName "Foo".toList ∧ IsComponent "T".toList
      ∧ stripModule "Foo".toList ("Café".toList ++ "Foo".toList ++ '.' :: "T".toList)
        = "CaféT".toList
      ∧ "CaféT".toList ≠ "Café".toList ++ "Foo".toList ++ '.' :: "T".toList := by
  have hp : ∀ c ∈ "Café".toList, isIdentifierPart c = true :=
    List.all_eq_true.mp (by decide)
  obtain ⟨-, hcut⟩ :=
    (stripModule_prefixed (dot_not_mem_of_isIdentifierPart hp) isModuleName_foo
      isComponent_t).resolve_left fun hkept => not_endsInComponent_cafe hkept.1
  rw [← List.append_assoc] at hcut
  exact ⟨rfl, by decide, hp, isModuleName_foo, isComponent_t, hcut, by decide⟩

end RefBook
