import RefBook.Record.Reader
import RefBook.Proofs.Json.Fields

/-!
# RefBook.Proofs.Record.Acceptance — which JSON values describe modules

What a value has to be to describe an alias, a union type, a value or a module, field by field.

* `Needed`, `Defaulted`: a field that has to be there, and one that may be left out.
* `DenotesAlias`, `DenotesUnion`, `DenotesValue`, `DenotesModule`: the records.
* `aliasLayout`, `unionLayout`, `valueLayout`, `moduleLayout`: the same fields as their readers know
  them.
* `readModules_eq_ok_iff_denotes`: a text that spells a value is accepted exactly if the value is a
  list of records of modules, and is read as what they denote.
-/

namespace RefBook

open Json (Datum Reader Decodes IsText OrNull ListOf PairOf Given EntryList Slot Layout valuesAt
  IsGap SpellsUnit SpellsChar SpellsBody Spells SpellsWhole isGap_nil readText readList readPair
  readOptional readRecord decodes_text decodes_list decodes_pair decodes_orNull decodes_record
  readAll_spells_iff)

/-! ## Fields -/

/-- There is one value, with that meaning. -/
def Needed {β : Type} (means : Datum → β → Prop) (vs : List Datum) (b : β) : Prop :=
  Given means vs (some b)

/-- There is one value with that meaning, or there is none and the field is as usual. -/
def Defaulted {β : Type} (means : Datum → β → Prop) (usual : β) (vs : List Datum) (b : β) : Prop :=
  ∃ o, Given means vs o ∧ o.getD usual = b

theorem Defaulted.absent {β : Type} {means : Datum → β → Prop} {usual : β} :
    Defaulted means usual [] usual :=
  ⟨none, .absent, rfl⟩

/-! ## Records -/

/-- The keys of an alias, in the order of its fields. -/
def aliasKeys : List Text :=
  ["name".toList, "comment".toList, "type".toList, "args".toList]

/-- The entries give the fields of an alias. -/
structure GivesAlias (es : List (Text × Datum)) (a : Alias) : Prop where
  /-- The name. -/
  name : Needed IsText (valuesAt "name".toList es) a.name
  /-- The comment. -/
  comment : Defaulted IsText [] (valuesAt "comment".toList es) a.comment
  /-- The type. -/
  type : Needed IsText (valuesAt "type".toList es) a.type
  /-- The type parameters. -/
  args : Defaulted (ListOf IsText) [] (valuesAt "args".toList es) a.args

/-- The value describes an alias. -/
def DenotesAlias (v : Datum) (a : Alias) : Prop :=
  ∃ es, EntryList aliasKeys v es ∧ GivesAlias es a

/-- The value describes a constructor. -/
def DenotesConstructor (v : Datum) (c : Constructor) : Prop :=
  PairOf IsText (ListOf IsText) v (c.name, c.args)

/-- The keys of a union type, in the order of its fields. -/
def unionKeys : List Text :=
  ["name".toList, "comment".toList, "args".toList, "cases".toList]

/-- The entries give the fields of a union type. -/
structure GivesUnion (es : List (Text × Datum)) (u : UnionType) : Prop where
  /-- The name. -/
  name : Needed IsText (valuesAt "name".toList es) u.name
  /-- The comment. -/
  comment : Defaulted IsText [] (valuesAt "comment".toList es) u.comment
  /-- The type parameters. -/
  args : Defaulted (ListOf IsText) [] (valuesAt "args".toList es) u.args
  /-- The constructors. -/
  cases : Defaulted (ListOf DenotesConstructor) [] (valuesAt "cases".toList es) u.cases

/-- The value describes a union type. -/
def DenotesUnion (v : Datum) (u : UnionType) : Prop :=
  ∃ es, EntryList unionKeys v es ∧ GivesUnion es u

/-- The keys of a value, in the order of its fields. -/
def valueKeys : List Text :=
  ["name".toList, "comment".toList, "type".toList]

/-- The entries give the fields of a value. -/
structure GivesValue (es : List (Text × Datum)) (x : Value) : Prop where
  /-- The name. -/
  name : Needed IsText (valuesAt "name".toList es) x.name
  /-- The comment. -/
  comment : Defaulted IsText [] (valuesAt "comment".toList es) x.comment
  /-- The type. -/
  type : Needed IsText (valuesAt "type".toList es) x.type

/-- The JSON value describes a value of a module. -/
def DenotesValue (v : Datum) (x : Value) : Prop :=
  ∃ es, EntryList valueKeys v es ∧ GivesValue es x

/-- The keys of a module, in the order of its fields. -/
def moduleKeys : List Text :=
  ["name".toList, "comment".toList, "aliases".toList, "types".toList, "values".toList,
    "generated-with-elm-version".toList]

/-- The entries give the fields of a module. -/
structure GivesModule (es : List (Text × Datum)) (m : Module) : Prop where
  /-- The name. -/
  name : Needed IsText (valuesAt "name".toList es) m.name
  /-- The comment. -/
  comment : Defaulted IsText [] (valuesAt "comment".toList es) m.comment
  /-- The aliases. -/
  aliases : Defaulted (ListOf DenotesAlias) [] (valuesAt "aliases".toList es) m.aliases
  /-- The union types. -/
  unions : Defaulted (ListOf DenotesUnion) [] (valuesAt "types".toList es) m.unions
  /-- The values. -/
  values : Defaulted (ListOf DenotesValue) [] (valuesAt "values".toList es) m.values
  /-- The version. -/
  version :
    Defaulted (OrNull IsText) none (valuesAt "generated-with-elm-version".toList es) m.version

/-- The value describes a module. -/
def DenotesModule (v : Datum) (m : Module) : Prop :=
  ∃ es, EntryList moduleKeys v es ∧ GivesModule es m

/-! ## Aliases -/

/-- A field with its reader and what its values mean. -/
def slotOf {σ β : Type} {read : Reader β} {means : Datum → β → Prop} (key : String)
    (get : σ → Option β) (put : σ → β → σ) (decodes : Decodes read means)
    (get_put : ∀ d b, get (put d b) = some b) : Slot σ where
  Content := β
  key := key.toList
  get := get
  put := put
  read := read
  means := means
  decodes := decodes
  get_put := get_put

/-- The fields of an alias. -/
def aliasLayout : Layout AliasDraft where
  slots := [
    slotOf "name" (·.name) (fun d x => { d with name := some x }) decodes_text fun _ _ => rfl,
    slotOf "comment" (·.comment) (fun d x => { d with comment := some x }) decodes_text
      fun _ _ => rfl,
    slotOf "type" (·.type) (fun d x => { d with type := some x }) decodes_text fun _ _ => rfl,
    slotOf "args" (·.args) (fun d x => { d with args := some x }) (decodes_list decodes_text)
      fun _ _ => rfl]
  empty := {}
  distinct := by decide
  get_put_of_ne := by simp [slotOf]
  get_empty := by simp [slotOf]
  ext := by
    rintro ⟨_, _, _, _⟩ ⟨_, _, _, _⟩ h
    simpa [slotOf] using h

theorem aliasShape_finish_eq_ok_iff {d : AliasDraft} {a : Alias} :
    aliasShape.finish d = .ok a ↔ d.name = some a.name ∧ d.comment.getD [] = a.comment
      ∧ d.type = some a.type ∧ d.args.getD [] = a.args := by
  obtain ⟨name, comment, type, args⟩ := d
  obtain ⟨name', comment', type', args'⟩ := a
  cases name with
  | none =>
    have hfinish : aliasShape.finish ⟨none, comment, type, args⟩ = .error 0 := rfl
    simp [hfinish]
  | some name =>
    cases type with
    | none =>
      have hfinish : aliasShape.finish ⟨some name, comment, none, args⟩ = .error 2 := rfl
      simp [hfinish]
    | some type =>
      have hfinish : aliasShape.finish ⟨some name, comment, some type, args⟩
          = .ok ⟨name, comment.getD [], type, args.getD []⟩ := rfl
      simp [hfinish]

theorem aliasLayout_collects_iff {es : List (Text × Datum)} {d : AliasDraft} :
    aliasLayout.Collects es d ↔ Given IsText (valuesAt "name".toList es) d.name
      ∧ Given IsText (valuesAt "comment".toList es) d.comment
      ∧ Given IsText (valuesAt "type".toList es) d.type
      ∧ Given (ListOf IsText) (valuesAt "args".toList es) d.args := by
  simp only [Layout.Collects, aliasLayout, List.forall_mem_cons, slotOf, List.not_mem_nil,
    false_imp_iff, implies_true, and_true]

theorem aliasLayout_makes_iff {es : List (Text × Datum)} {a : Alias} :
    aliasLayout.Makes aliasShape es a ↔ GivesAlias es a := by
  simp only [Layout.Makes, aliasLayout_collects_iff, aliasShape_finish_eq_ok_iff]
  constructor
  · rintro ⟨d, ⟨hname, hcomment, htype, hargs⟩, hname', hcomment', htype', hargs'⟩
    rw [hname'] at hname
    rw [htype'] at htype
    exact ⟨hname, ⟨d.comment, hcomment, hcomment'⟩, htype, ⟨d.args, hargs, hargs'⟩⟩
  · rintro ⟨hname, ⟨comment, hcomment, hcomment'⟩, htype, ⟨args, hargs, hargs'⟩⟩
    exact ⟨⟨some a.name, comment, some a.type, args⟩, ⟨hname, hcomment, htype, hargs⟩,
      rfl, hcomment', rfl, hargs'⟩

theorem decodes_alias : Decodes (readRecord aliasShape) DenotesAlias := by
  refine (decodes_record aliasLayout rfl rfl).congr fun v a => ?_
  simp only [DenotesAlias, aliasLayout_makes_iff]
  rfl

/-! ## Union types -/

theorem decodes_constructor : Decodes readConstructor DenotesConstructor := by
  intro t v w h hw rest c r
  have hpair := decodes_pair decodes_text (decodes_list decodes_text) h hw rest (c.name, c.args) r
  have hread : readConstructor (w ++ (t ++ rest)) = .ok (c, r)
      ↔ readPair readText (readList readText) (w ++ (t ++ rest)) = .ok ((c.name, c.args), r) := by
    unfold readConstructor
    cases readPair readText (readList readText) (w ++ (t ++ rest)) with
    | error e => simp [bind, Except.bind]
    | ok p =>
      obtain ⟨⟨name, args⟩, r'⟩ := p
      obtain ⟨name', args'⟩ := c
      simp [bind, Except.bind, pure, Except.pure]
  rw [hread, hpair]
  rfl

/-- The fields of a union type. -/
def unionLayout : Layout UnionDraft where
  slots := [
    slotOf "name" (·.name) (fun d x => { d with name := some x }) decodes_text fun _ _ => rfl,
    slotOf "comment" (·.comment) (fun d x => { d with comment := some x }) decodes_text
      fun _ _ => rfl,
    slotOf "args" (·.args) (fun d x => { d with args := some x }) (decodes_list decodes_text)
      fun _ _ => rfl,
    slotOf "cases" (·.cases) (fun d x => { d with cases := some x })
      (decodes_list decodes_constructor) fun _ _ => rfl]
  empty := {}
  distinct := by decide
  get_put_of_ne := by simp [slotOf]
  get_empty := by simp [slotOf]
  ext := by
    rintro ⟨_, _, _, _⟩ ⟨_, _, _, _⟩ h
    simpa [slotOf] using h

theorem unionShape_finish_eq_ok_iff {d : UnionDraft} {u : UnionType} :
    unionShape.finish d = .ok u ↔ d.name = some u.name ∧ d.comment.getD [] = u.comment
      ∧ d.args.getD [] = u.args ∧ d.cases.getD [] = u.cases := by
  obtain ⟨name, comment, args, cases⟩ := d
  obtain ⟨name', comment', args', cases'⟩ := u
  cases name with
  | none =>
    have hfinish : unionShape.finish ⟨none, comment, args, cases⟩ = .error 0 := rfl
    simp [hfinish]
  | some name =>
    have hfinish : unionShape.finish ⟨some name, comment, args, cases⟩
        = .ok ⟨name, comment.getD [], args.getD [], cases.getD []⟩ := rfl
    simp [hfinish]

theorem unionLayout_collects_iff {es : List (Text × Datum)} {d : UnionDraft} :
    unionLayout.Collects es d ↔ Given IsText (valuesAt "name".toList es) d.name
      ∧ Given IsText (valuesAt "comment".toList es) d.comment
      ∧ Given (ListOf IsText) (valuesAt "args".toList es) d.args
      ∧ Given (ListOf DenotesConstructor) (valuesAt "cases".toList es) d.cases := by
  simp only [Layout.Collects, unionLayout, List.forall_mem_cons, slotOf, List.not_mem_nil,
    false_imp_iff, implies_true, and_true]

theorem unionLayout_makes_iff {es : List (Text × Datum)} {u : UnionType} :
    unionLayout.Makes unionShape es u ↔ GivesUnion es u := by
  simp only [Layout.Makes, unionLayout_collects_iff, unionShape_finish_eq_ok_iff]
  constructor
  · rintro ⟨d, ⟨hname, hcomment, hargs, hcases⟩, hname', hcomment', hargs', hcases'⟩
    rw [hname'] at hname
    exact ⟨hname, ⟨d.comment, hcomment, hcomment'⟩, ⟨d.args, hargs, hargs'⟩,
      ⟨d.cases, hcases, hcases'⟩⟩
  · rintro ⟨hname, ⟨comment, hcomment, hcomment'⟩, ⟨args, hargs, hargs'⟩, ⟨cases, hcases, hcases'⟩⟩
    exact ⟨⟨some u.name, comment, args, cases⟩, ⟨hname, hcomment, hargs, hcases⟩,
      rfl, hcomment', hargs', hcases'⟩

theorem decodes_union : Decodes (readRecord unionShape) DenotesUnion := by
  refine (decodes_record unionLayout rfl rfl).congr fun v u => ?_
  simp only [DenotesUnion, unionLayout_makes_iff]
  rfl

/-! ## Values -/

/-- The fields of a value. -/
def valueLayout : Layout ValueDraft where
  slots := [
    slotOf "name" (·.name) (fun d x => { d with name := some x }) decodes_text fun _ _ => rfl,
    slotOf "comment" (·.comment) (fun d x => { d with comment := some x }) decodes_text
      fun _ _ => rfl,
    slotOf "type" (·.type) (fun d x => { d with type := some x }) decodes_text fun _ _ => rfl]
  empty := {}
  distinct := by decide
  get_put_of_ne := by simp [slotOf]
  get_empty := by simp [slotOf]
  ext := by
    rintro ⟨_, _, _⟩ ⟨_, _, _⟩ h
    simpa [slotOf] using h

theorem valueShape_finish_eq_ok_iff {d : ValueDraft} {x : Value} :
    valueShape.finish d = .ok x ↔ d.name = some x.name ∧ d.comment.getD [] = x.comment
      ∧ d.type = some x.type := by
  obtain ⟨name, comment, type⟩ := d
  obtain ⟨name', comment', type'⟩ := x
  cases name with
  | none =>
    have hfinish : valueShape.finish ⟨none, comment, type⟩ = .error 0 := rfl
    simp [hfinish]
  | some name =>
    cases type with
    | none =>
      have hfinish : valueShape.finish ⟨some name, comment, none⟩ = .error 2 := rfl
      simp [hfinish]
    | some type =>
      have hfinish : valueShape.finish ⟨some name, comment, some type⟩
          = .ok ⟨name, comment.getD [], type⟩ := rfl
      simp [hfinish]

theorem valueLayout_collects_iff {es : List (Text × Datum)} {d : ValueDraft} :
    valueLayout.Collects es d ↔ Given IsText (valuesAt "name".toList es) d.name
      ∧ Given IsText (valuesAt "comment".toList es) d.comment
      ∧ Given IsText (valuesAt "type".toList es) d.type := by
  simp only [Layout.Collects, valueLayout, List.forall_mem_cons, slotOf, List.not_mem_nil,
    false_imp_iff, implies_true, and_true]

theorem valueLayout_makes_iff {es : List (Text × Datum)} {x : Value} :
    valueLayout.Makes valueShape es x ↔ GivesValue es x := by
  simp only [Layout.Makes, valueLayout_collects_iff, valueShape_finish_eq_ok_iff]
  constructor
  · rintro ⟨d, ⟨hname, hcomment, htype⟩, hname', hcomment', htype'⟩
    rw [hname'] at hname
    rw [htype'] at htype
    exact ⟨hname, ⟨d.comment, hcomment, hcomment'⟩, htype⟩
  · rintro ⟨hname, ⟨comment, hcomment, hcomment'⟩, htype⟩
    exact ⟨⟨some x.name, comment, some x.type⟩, ⟨hname, hcomment, htype⟩, rfl, hcomment', rfl⟩

theorem decodes_value : Decodes (readRecord valueShape) DenotesValue := by
  refine (decodes_record valueLayout rfl rfl).congr fun v x => ?_
  simp only [DenotesValue, valueLayout_makes_iff]
  rfl

/-! ## Modules -/

theorem decodes_version : Decodes (readOptional readText) (OrNull IsText) := by
  refine decodes_orNull decodes_text ?_
  rintro a ⟨⟩

/-- The fields of a module. -/
def moduleLayout : Layout ModuleDraft where
  slots := [
    slotOf "name" (·.name) (fun d x => { d with name := some x }) decodes_text fun _ _ => rfl,
    slotOf "comment" (·.comment) (fun d x => { d with comment := some x }) decodes_text
      fun _ _ => rfl,
    slotOf "aliases" (·.aliases) (fun d x => { d with aliases := some x })
      (decodes_list decodes_alias) fun _ _ => rfl,
    slotOf "types" (·.unions) (fun d x => { d with unions := some x })
      (decodes_list decodes_union) fun _ _ => rfl,
    slotOf "values" (·.values) (fun d x => { d with values := some x })
      (decodes_list decodes_value) fun _ _ => rfl,
    slotOf "generated-with-elm-version" (·.version) (fun d x => { d with version := some x })
      decodes_version fun _ _ => rfl]
  empty := {}
  distinct := by decide
  get_put_of_ne := by simp [slotOf]
  get_empty := by simp [slotOf]
  ext := by
    rintro ⟨_, _, _, _, _, _⟩ ⟨_, _, _, _, _, _⟩ h
    simpa [slotOf] using h

theorem moduleShape_finish_eq_ok_iff {d : ModuleDraft} {m : Module} :
    moduleShape.finish d = .ok m ↔ d.name = some m.name ∧ d.comment.getD [] = m.comment
      ∧ d.aliases.getD [] = m.aliases ∧ d.unions.getD [] = m.unions ∧ d.values.getD [] = m.values
      ∧ d.version.getD none = m.version := by
  obtain ⟨name, comment, aliases, unions, values, version⟩ := d
  obtain ⟨name', comment', aliases', unions', values', version'⟩ := m
  cases name with
  | none =>
    have hfinish : moduleShape.finish ⟨none, comment, aliases, unions, values, version⟩
        = .error 0 := rfl
    simp [hfinish]
  | some name =>
    have hfinish : moduleShape.finish ⟨some name, comment, aliases, unions, values, version⟩
        = .ok ⟨name, comment.getD [], aliases.getD [], unions.getD [], values.getD [],
          version.getD none⟩ := rfl
    simp [hfinish]

theorem moduleLayout_collects_iff {es : List (Text × Datum)} {d : ModuleDraft} :
    moduleLayout.Collects es d ↔ Given IsText (valuesAt "name".toList es) d.name
      ∧ Given IsText (valuesAt "comment".toList es) d.comment
      ∧ Given (ListOf DenotesAlias) (valuesAt "aliases".toList es) d.aliases
      ∧ Given (ListOf DenotesUnion) (valuesAt "types".toList es) d.unions
      ∧ Given (ListOf DenotesValue) (valuesAt "values".toList es) d.values
      ∧ Given (OrNull IsText) (valuesAt "generated-with-elm-version".toList es) d.version := by
  simp only [Layout.Collects, moduleLayout, List.forall_mem_cons, slotOf, List.not_mem_nil,
    false_imp_iff, implies_true, and_true]

theorem moduleLayout_makes_iff {es : List (Text × Datum)} {m : Module} :
    moduleLayout.Makes moduleShape es m ↔ GivesModule es m := by
  simp only [Layout.Makes, moduleLayout_collects_iff, moduleShape_finish_eq_ok_iff]
  constructor
  · rintro ⟨d, ⟨hname, hcomment, haliases, hunions, hvalues, hversion⟩, hname', hcomment',
      haliases', hunions', hvalues', hversion'⟩
    rw [hname'] at hname
    exact ⟨hname, ⟨d.comment, hcomment, hcomment'⟩, ⟨d.aliases, haliases, haliases'⟩,
      ⟨d.unions, hunions, hunions'⟩, ⟨d.values, hvalues, hvalues'⟩,
      ⟨d.version, hversion, hversion'⟩⟩
  · rintro ⟨hname, ⟨comment, hcomment, hcomment'⟩, ⟨aliases, haliases, haliases'⟩,
      ⟨unions, hunions, hunions'⟩, ⟨values, hvalues, hvalues'⟩, ⟨version, hversion, hversion'⟩⟩
    exact ⟨⟨some m.name, comment, aliases, unions, values, version⟩,
      ⟨hname, hcomment, haliases, hunions, hvalues, hversion⟩,
      rfl, hcomment', haliases', hunions', hvalues', hversion'⟩

theorem decodes_module : Decodes (readRecord moduleShape) DenotesModule := by
  refine (decodes_record moduleLayout rfl rfl).congr fun v m => ?_
  simp only [DenotesModule, moduleLayout_makes_iff]
  rfl

/-- **Acceptance.**  However a JSON value is spelt, the text is read exactly if the value is a list
of records of modules, and then as the modules that they denote. -/
theorem readModules_eq_ok_iff_denotes {t : Text} {v : Datum} (h : SpellsWhole t v)
    (ms : List Module) : readModules t = .ok ms ↔ ListOf DenotesModule v ms :=
  readAll_spells_iff (decodes_list decodes_module) h ms

/-- One record has an unknown key and spells its own key with an escape, the other is a list. -/
theorem readModules_eq_ok_iff_denotes_mixed :
    readModules "[\x7b\"x\" : [],\"n\\u0061me\":\"A\"\x7d ,[\"B\"]]\n".toList
      = .ok [⟨['A'], [], [], [], [], none⟩, ⟨['B'], [], [], [], [], none⟩] := by
  have hspace : IsGap [' '] := by simp [IsGap]
  have hfeed : IsGap ['\n'] := by simp [IsGap]
  have hplain : ∀ {c}, c ≠ '"' ∧ c ≠ '\\' ∧ 0x20 ≤ c.toNat → SpellsChar [c] c :=
    fun h => .plain h.1 h.2.1 h.2.2
  have hunit : SpellsUnit ['0', '0', '6', '1'] 'a'.toNat :=
    .digits (w := 0) (x := 0) (y := 6) (z := 1) ⟨by decide, .inl rfl⟩ ⟨by decide, .inl rfl⟩
      ⟨by decide, .inl rfl⟩ ⟨by decide, .inl rfl⟩
  have hname : SpellsBody "n\\u0061me".toList "name".toList :=
    .cons (hplain (by decide)) (.cons (.unit hunit)
      (.cons (hplain (by decide)) (.cons (hplain (by decide)) .nil)))
  have hletter : ∀ {c}, c ≠ '"' ∧ c ≠ '\\' ∧ 0x20 ≤ c.toNat → SpellsBody [c] [c] :=
    fun h => .cons (hplain h) .nil
  have hobject : Spells "\x7b\"x\" : [],\"n\\u0061me\":\"A\"\x7d".toList
      (.object [(['x'], .list []), ("name".toList, .text ['A'])]) :=
    .object (.more isGap_nil (hletter (by decide)) hspace hspace (.emptyList isGap_nil) isGap_nil
      (.last isGap_nil hname isGap_nil isGap_nil (.text (hletter (by decide))) isGap_nil))
  have hlist : Spells "[\"B\"]".toList (.list [.text ['B']]) :=
    .list (.last isGap_nil (.text (hletter (by decide))) isGap_nil)
  have hspells : SpellsWhole "[\x7b\"x\" : [],\"n\\u0061me\":\"A\"\x7d ,[\"B\"]]\n".toList
      (.list [.object [(['x'], .list []), ("name".toList, .text ['A'])], .list [.text ['B']]]) :=
    .mk isGap_nil (.list (.more isGap_nil hobject hspace (.last isGap_nil hlist isGap_nil))) hfeed
  have hA : DenotesModule (.object [(['x'], .list []), ("name".toList, .text ['A'])])
      ⟨['A'], [], [], [], [], none⟩ :=
    ⟨_, .object _, .once (.text _), .absent, .absent, .absent, .absent, .absent⟩
  have hB : DenotesModule (.list [.text ['B']]) ⟨['B'], [], [], [], [], none⟩ :=
    ⟨_, .list (by decide), .once (.text _), .absent, .absent, .absent, .absent, .absent⟩
  exact (readModules_eq_ok_iff_denotes hspells _).2 (.list (.cons hA (.cons hB .nil)))

end RefBook
