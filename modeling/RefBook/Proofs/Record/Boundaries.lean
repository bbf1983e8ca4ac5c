import RefBook.Proofs.Json.Extension
import RefBook.Proofs.Json.Truncation
import RefBook.Proofs.Record.RoundTrip

/-!
# RefBook.Proofs.Record.Boundaries — a list of modules is read whole or not at all

* `stopsEarly_alias`, `stopsEarly_constructor`, `stopsEarly_union`, `stopsEarly_value`,
  `stopsEarly_module`: no part of a written record is taken for a record.
* `extends_alias`, `extends_constructor`, `extends_union`, `extends_value`, `extends_module`: what
  is taken for a record does not depend on what follows it.
* `readModules_whole_or_refused`: a written list that breaks off is refused, and so is any list with
  something behind it.
-/

namespace RefBook

open Json (Reader Extends FieldsExtend StopsEarly FieldsStopEarly IsGap readText readList
  readOptional readPair readRecord extends_readText extends_readList extends_readPair
  extends_readOptional extends_readRecord stopsEarly_text stopsEarly_list stopsEarly_pair
  stopsEarly_some stopsEarly_record fieldsStopEarly_cons fieldsStopEarly_nil readsBack_text)

/-! ## Fields -/

section Fields

variable {σ β : Type} {fields : List (Json.Field σ)} {key : String} {get : σ → Option β}
  {read : Reader β} {put : σ → β → σ} {written : Text} {es : List (Text × Text)}

theorem fieldsExtend_nil : FieldsExtend ([] : List (Json.Field σ)) := by
  intro f hf
  contradiction

theorem fieldsExtend_fieldOf (h : Extends read) (more : FieldsExtend fields) :
    FieldsExtend (fieldOf key get read put :: fields) := by
  refine List.forall_mem_cons.2 ⟨fun d t d' r hread s => ?_, more⟩
  obtain ⟨⟨b, y⟩, hb, hput⟩ := bind_eq_ok_iff.1 hread
  cases hput
  exact bind_eq_ok_iff.2 ⟨(b, r ++ s), h hb s, rfl⟩

theorem fieldsStopEarly_entryOf
    (hfind : fields.find? (·.key = key.toList) = some (fieldOf key get read put))
    (h : StopsEarly read written) (more : FieldsStopEarly fields es) :
    FieldsStopEarly fields (entryOf key written :: es) :=
  fieldsStopEarly_cons hfind (fun _ p hp => (h p hp).bind _) more

end Fields

/-! ## Written records that break off -/

theorem stopsEarly_texts (ts : List Text) : StopsEarly (readList readText) (writeTexts ts) :=
  stopsEarly_list (fun t _ => readsBack_text t) fun t _ => stopsEarly_text t

theorem stopsEarly_alias (a : Alias) : StopsEarly (readRecord aliasShape) (writeAlias a) := by
  refine stopsEarly_record (fills_alias a) ?_
  refine fieldsStopEarly_entryOf rfl (stopsEarly_text a.name) ?_
  refine fieldsStopEarly_entryOf rfl (stopsEarly_text a.comment) ?_
  refine fieldsStopEarly_entryOf rfl (stopsEarly_text a.type) ?_
  exact fieldsStopEarly_entryOf rfl (stopsEarly_texts a.args) (fieldsStopEarly_nil _)

theorem stopsEarly_constructor (c : Constructor) :
    StopsEarly readConstructor (writeConstructor c) := by
  have hpair := stopsEarly_pair (readsBack_text c.name) (readsBack_texts c.args)
    (stopsEarly_text c.name) (stopsEarly_texts c.args)
  intro p hp
  exact (hpair p hp).bind _

theorem stopsEarly_union (u : UnionType) : StopsEarly (readRecord unionShape) (writeUnion u) := by
  have hcases : StopsEarly (readList readConstructor)
      (Json.writeList (u.cases.map writeConstructor)) :=
    stopsEarly_list (fun c _ => readsBack_constructor c) fun c _ => stopsEarly_constructor c
  refine stopsEarly_record (fills_union u) ?_
  refine fieldsStopEarly_entryOf rfl (stopsEarly_text u.name) ?_
  refine fieldsStopEarly_entryOf rfl (stopsEarly_text u.comment) ?_
  refine fieldsStopEarly_entryOf rfl (stopsEarly_texts u.args) ?_
  exact fieldsStopEarly_entryOf rfl hcases (fieldsStopEarly_nil _)

theorem stopsEarly_value (v : Value) : StopsEarly (readRecord valueShape) (writeValue v) := by
  refine stopsEarly_record (fills_value v) ?_
  refine fieldsStopEarly_entryOf rfl (stopsEarly_text v.name) ?_
  refine fieldsStopEarly_entryOf rfl (stopsEarly_text v.comment) ?_
  exact fieldsStopEarly_entryOf rfl (stopsEarly_text v.type) (fieldsStopEarly_nil _)

theorem stopsEarly_module (m : Module) : StopsEarly (readRecord moduleShape) (writeModule m) := by
  have haliases : StopsEarly (readList (readRecord aliasShape))
      (Json.writeList (m.aliases.map writeAlias)) :=
    stopsEarly_list (fun a _ => readsBack_alias a) fun a _ => stopsEarly_alias a
  have hunions : StopsEarly (readList (readRecord unionShape))
      (Json.writeList (m.unions.map writeUnion)) :=
    stopsEarly_list (fun u _ => readsBack_union u) fun u _ => stopsEarly_union u
  have hvalues : StopsEarly (readList (readRecord valueShape))
      (Json.writeList (m.values.map writeValue)) :=
    stopsEarly_list (fun v _ => readsBack_value v) fun v _ => stopsEarly_value v
  refine stopsEarly_record (fills_module m) ?_
  refine fieldsStopEarly_entryOf rfl (stopsEarly_text m.name) ?_
  refine fieldsStopEarly_entryOf rfl (stopsEarly_text m.comment) ?_
  refine fieldsStopEarly_entryOf rfl haliases ?_
  refine fieldsStopEarly_entryOf rfl hunions ?_
  refine fieldsStopEarly_entryOf rfl hvalues ?_
  cases m.version with
  | none => exact fieldsStopEarly_nil _
  | some v =>
    have hversion := stopsEarly_some (readsBack_text v) (stopsEarly_text v)
    exact fieldsStopEarly_entryOf rfl hversion (fieldsStopEarly_nil _)

/-! ## Records with something behind them -/

theorem extends_texts : Extends (readList readText) :=
  extends_readList extends_readText

theorem extends_alias : Extends (readRecord aliasShape) := by
  refine extends_readRecord ?_
  refine fieldsExtend_fieldOf extends_readText ?_
  refine fieldsExtend_fieldOf extends_readText ?_
  refine fieldsExtend_fieldOf extends_readText ?_
  exact fieldsExtend_fieldOf extends_texts fieldsExtend_nil

theorem extends_constructor : Extends readConstructor := by
  intro t c r h s
  obtain ⟨⟨⟨name, args⟩, y⟩, hpair, hput⟩ := bind_eq_ok_iff.1 h
  cases hput
  exact bind_eq_ok_iff.2 ⟨_, extends_readPair extends_readText extends_texts hpair s, rfl⟩

theorem extends_union : Extends (readRecord unionShape) := by
  refine extends_readRecord ?_
  refine fieldsExtend_fieldOf extends_readText ?_
  refine fieldsExtend_fieldOf extends_readText ?_
  refine fieldsExtend_fieldOf extends_texts ?_
  exact fieldsExtend_fieldOf (extends_readList extends_constructor) fieldsExtend_nil

theorem extends_value : Extends (readRecord valueShape) := by
  refine extends_readRecord ?_
  refine fieldsExtend_fieldOf extends_readText ?_
  refine fieldsExtend_fieldOf extends_readText ?_
  exact fieldsExtend_fieldOf extends_readText fieldsExtend_nil

theorem extends_version : Extends (readOptional readText) := by
  refine extends_readOptional extends_readText ?_
  rintro p ⟨⟩

theorem extends_module : Extends (readRecord moduleShape) := by
  refine extends_readRecord ?_
  refine fieldsExtend_fieldOf extends_readText ?_
  refine fieldsExtend_fieldOf extends_readText ?_
  refine fieldsExtend_fieldOf (extends_readList extends_alias) ?_
  refine fieldsExtend_fieldOf (extends_readList extends_union) ?_
  refine fieldsExtend_fieldOf (extends_readList extends_value) ?_
  exact fieldsExtend_fieldOf extends_version fieldsExtend_nil

/-! ## Lists of modules -/

/-- **Modules are read whole or not at all.**  The beginning of a written list is refused because it
ends too early.  Behind an accepted text a gap changes nothing, and anything else breaks the
grammar. -/
theorem readModules_whole_or_refused :
    (∀ ms p, p <+: writeModules ms → p ≠ writeModules ms →
      ∃ f, readModules p = .error f ∧ f.cause.category = .early)
    ∧ ∀ t ms, readModules t = .ok ms → ∀ s,
      (IsGap s → readModules (t ++ s) = .ok ms)
      ∧ (¬ IsGap s → ∃ f, readModules (t ++ s) = .error f ∧ f.cause.category = .grammar) := by
  constructor
  · intro ms p hbegins hne
    have hearly : StopsEarly (readList (readRecord moduleShape)) (writeModules ms) :=
      stopsEarly_list (fun m _ => readsBack_module m) fun m _ => stopsEarly_module m
    exact Json.readAll_cut hearly ⟨hbegins, hne⟩
  · intro t ms h s
    have hextends := extends_readList extends_module
    refine ⟨Json.readAll_append_gap hextends h, fun hs => ?_⟩
    obtain ⟨f, hf, hcause⟩ := Json.readAll_append_of_not_gap hextends h hs
    refine ⟨f, hf, ?_⟩
    rw [hcause]
    rfl

/-- A list that breaks off inside an escape, one with a gap behind it, and one with a bracket. -/
theorem readModules_whole_or_refused_escape :
    (∃ f, readModules "[\x7b\"name\":\"A\",\"comment\":\"\\".toList = .error f
      ∧ f.cause.category = .early)
    ∧ readModules "[] \n".toList = .ok []
    ∧ ∃ f, readModules "[]]".toList = .error f ∧ f.cause.category = .grammar := by
  have hempty : readModules "[]".toList = .ok [] := rfl
  have hgap : IsGap " \n".toList := by simp [IsGap]
  have hbracket : ¬ IsGap "]".toList := by simp [IsGap]
  refine ⟨readModules_whole_or_refused.1 [⟨['A'], ['"'], [], [], [], none⟩] _ ?_ ?_,
    (readModules_whole_or_refused.2 _ _ hempty _).1 hgap,
    (readModules_whole_or_refused.2 _ _ hempty _).2 hbracket⟩
  · decide
  · decide

end RefBook
