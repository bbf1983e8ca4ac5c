import RefBook.Record.Reader
import RefBook.Record.Writer
import RefBook.Proofs.Json.Brackets

/-!
# RefBook.Proofs.Record.RoundTrip — records survive writing and reading

Writers and shapes of records are given apart from each other: keys, order of the fields, a version
that may be left out, constructors as pairs.  Each record is read back from what is written for it.

* `fills_entryOf`: how one written entry fills a draft; `fills_alias`, `fills_union`, `fills_value`,
  `fills_module`: how all of them do.
* `readsBack_alias`, `readsBack_constructor`, `readsBack_union`, `readsBack_value`,
  `readsBack_module`: one record of each kind.
* `readModules_writeModules`: a list of modules, with any text in any field.
-/

namespace RefBook

open Json (Reader ReadsBack Fills readText readList readOptional readRecord readsBack_text
  readsBack_some readsBack_list readsBack_pair readsBack_record readAll_written)

theorem readsBack_texts (ts : List Text) :
    ReadsBack (readList readText) (writeTexts ts) ts :=
  readsBack_list fun t _ => readsBack_text t

/-- One more entry in front: its field is not set yet, and its value reads back. -/
theorem fills_entryOf {σ β : Type} {fields : List (Json.Field σ)} {key : String}
    {get : σ → Option β} {read : Reader β} {put : σ → β → σ} {written : Text} {b : β} {d d' : σ}
    {es : List (Text × Text)}
    (hfind : fields.find? (·.key = key.toList) = some (fieldOf key get read put))
    (hset : (get d).isSome = false) (h : ReadsBack read written b)
    (more : Fills fields (put d b) es d') : Fills fields d (entryOf key written :: es) d' := by
  refine .cons hfind hset (fun rest => ?_) more
  simp only [fieldOf, h.reads rest]
  rfl

theorem fills_alias (a : Alias) :
    Fills aliasShape.fields aliasShape.empty [entryOf "name" (Json.writeText a.name),
      entryOf "comment" (Json.writeText a.comment), entryOf "type" (Json.writeText a.type),
      entryOf "args" (writeTexts a.args)] ⟨a.name, a.comment, a.type, a.args⟩ := by
  refine fills_entryOf rfl rfl (readsBack_text a.name) ?_
  refine fills_entryOf rfl rfl (readsBack_text a.comment) ?_
  refine fills_entryOf rfl rfl (readsBack_text a.type) ?_
  exact fills_entryOf rfl rfl (readsBack_texts a.args) (.nil _)

theorem readsBack_alias (a : Alias) : ReadsBack (readRecord aliasShape) (writeAlias a) a :=
  readsBack_record (fills_alias a) rfl

theorem readsBack_constructor (c : Constructor) :
    ReadsBack readConstructor (writeConstructor c) c := by
  have hpair := readsBack_pair (readsBack_text c.name) (readsBack_texts c.args)
  refine ⟨hpair.opens, fun rest => ?_⟩
  rw [readConstructor, writeConstructor, hpair.reads rest]
  rfl

theorem fills_union (u : UnionType) :
    Fills unionShape.fields unionShape.empty [entryOf "name" (Json.writeText u.name),
      entryOf "comment" (Json.writeText u.comment), entryOf "args" (writeTexts u.args),
      entryOf "cases" (Json.writeList (u.cases.map writeConstructor))]
      ⟨u.name, u.comment, u.args, u.cases⟩ := by
  have hcases : ReadsBack (readList readConstructor)
      (Json.writeList (u.cases.map writeConstructor)) u.cases :=
    readsBack_list fun c _ => readsBack_constructor c
  refine fills_entryOf rfl rfl (readsBack_text u.name) ?_
  refine fills_entryOf rfl rfl (readsBack_text u.comment) ?_
  refine fills_entryOf rfl rfl (readsBack_texts u.args) ?_
  exact fills_entryOf rfl rfl hcases (.nil _)

theorem readsBack_union (u : UnionType) : ReadsBack (readRecord unionShape) (writeUnion u) u :=
  readsBack_record (fills_union u) rfl

theorem fills_value (v : Value) :
    Fills valueShape.fields valueShape.empty [entryOf "name" (Json.writeText v.name),
      entryOf "comment" (Json.writeText v.comment), entryOf "type" (Json.writeText v.type)]
      ⟨v.name, v.comment, v.type⟩ := by
  refine fills_entryOf rfl rfl (readsBack_text v.name) ?_
  refine fills_entryOf rfl rfl (readsBack_text v.comment) ?_
  exact fills_entryOf rfl rfl (readsBack_text v.type) (.nil _)

theorem readsBack_value (v : Value) : ReadsBack (readRecord valueShape) (writeValue v) v :=
  readsBack_record (fills_value v) rfl

/-- The version has an entry only if there is one. -/
theorem fills_module (m : Module) :
    Fills moduleShape.fields moduleShape.empty ([entryOf "name" (Json.writeText m.name),
      entryOf "comment" (Json.writeText m.comment),
      entryOf "aliases" (Json.writeList (m.aliases.map writeAlias)),
      entryOf "types" (Json.writeList (m.unions.map writeUnion)),
      entryOf "values" (Json.writeList (m.values.map writeValue))]
      ++ (m.version.map fun v =>
        entryOf "generated-with-elm-version" (Json.writeText v)).toList)
      ⟨m.name, m.comment, m.aliases, m.unions, m.values, m.version.map some⟩ := by
  obtain ⟨name, comment, aliases, unions, values, version⟩ := m
  have haliases : ReadsBack (readList (readRecord aliasShape))
      (Json.writeList (aliases.map writeAlias)) aliases :=
    readsBack_list fun a _ => readsBack_alias a
  have hunions : ReadsBack (readList (readRecord unionShape))
      (Json.writeList (unions.map writeUnion)) unions :=
    readsBack_list fun u _ => readsBack_union u
  have hvalues : ReadsBack (readList (readRecord valueShape))
      (Json.writeList (values.map writeValue)) values :=
    readsBack_list fun v _ => readsBack_value v
  refine fills_entryOf rfl rfl (readsBack_text name) ?_
  refine fills_entryOf rfl rfl (readsBack_text comment) ?_
  refine fills_entryOf rfl rfl haliases ?_
  refine fills_entryOf rfl rfl hunions ?_
  refine fills_entryOf rfl rfl hvalues ?_
  cases version with
  | none => exact .nil _
  | some v => exact fills_entryOf rfl rfl (readsBack_some (readsBack_text v)) (.nil _)

theorem readsBack_module (m : Module) : ReadsBack (readRecord moduleShape) (writeModule m) m := by
  refine readsBack_record (fills_module m) ?_
  obtain ⟨name, comment, aliases, unions, values, version⟩ := m
  cases version with
  | none => rfl
  | some v => rfl

/-- **Modules survive writing and reading**, whatever text their fields hold. -/
theorem readModules_writeModules (ms : List Module) : readModules (writeModules ms) = .ok ms :=
  readAll_written (readsBack_list fun m _ => readsBack_module m)

end RefBook
