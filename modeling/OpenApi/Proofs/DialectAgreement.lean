-- SUMMARY: The same schemas in documents of both dialects make the same models, up to inherited names.
import OpenApi.Proofs.Compilation.Unrequired
import OpenApi.Proofs.RequiredNames

/-!
# Agreement of the dialects

The same named schemas make the same models whether they are written in a legacy
document or in a current one. What is required agrees too, with one exception: a schema
with `allOf` may list names that only its members declare. A current document makes
these fields required; a legacy one, which marks properties, has nothing to mark.
-/

namespace OpenApi

open Relation (ReflTransGen)

namespace Document

variable (doc : Document)

/-- A schema lists a name and has a property of that name. -/
structure RequiresOwn (id : SchemaId) (name : String) : Prop where
  listed : name ∈ (doc.schema id).required
  declared : ∃ edge, (name, edge) ∈ (doc.schema id).properties

/-- A schema lists a name that a member of its `allOf` declares, and not the schema itself. -/
structure RequiresInherited (id : SchemaId) (name : String) : Prop where
  listed : name ∈ (doc.schema id).required
  undeclared : ¬ ∃ edge, (name, edge) ∈ (doc.schema id).properties
  inherited : ∃ member ∈ (doc.schema id).allOf, doc.Declares member.id name

/-- A schema makes the field of a name required: it does so for its own properties, and in a current
document for all that it declares. -/
def Requires (id : SchemaId) (name : String) : Prop :=
  doc.RequiresOwn id name ∨ doc.Demands id name

end Document

/-! ## Required fields -/

variable {doc : Document} {law : PropertyLaw}

/-- The field of a property is required exactly if its schema requires it. -/
def PropertyLaw.ExactlyRequired (law : PropertyLaw) : Prop :=
  ∀ schema property field, law schema property field →
    field.required = schema.isRequired property.1 property.2

theorem IsField.exactlyRequired {registry : Registry} {models : ModelTable} {context : Context} :
    PropertyLaw.ExactlyRequired (IsField doc registry models context) :=
  fun _ _ _ h => congrArg Field.required h.rest

/-- Some field of the name is required. -/
def HasRequired (fields : List Field) (name : String) : Prop :=
  ∃ field ∈ fields, field.name = name ∧ field.required = true

theorem hasRequired_append {fields more : List Field} {name : String} :
    HasRequired (fields ++ more) name ↔ HasRequired fields name ∨ HasRequired more name := by
  simp only [HasRequired, List.mem_append, or_and_right, exists_or]

/-- The fields of its own properties that a schema requires are those whose names it lists. -/
theorem hasRequired_own (hnames : law.KeepsNames) (hexact : law.ExactlyRequired)
    (hlists : doc.ListsRequired) {id : SchemaId} {fields : List Field}
    (h : List.Forall₂ (law (doc.schema id)) (doc.schema id).properties fields) {name : String} :
    HasRequired fields name ↔ doc.RequiresOwn id name := by
  constructor
  · rintro ⟨field, hmem, rfl, hrequired⟩
    obtain ⟨⟨name, edge⟩, hproperty, hlaw⟩ := exists_property h hmem
    have hname : field.name = name := hnames _ _ _ hlaw
    rw [hexact _ _ _ hlaw, hlists.schema id _ hproperty] at hrequired
    exact ⟨by simpa [hname] using hrequired, edge, hname ▸ hproperty⟩
  · rintro ⟨hlisted, edge, hproperty⟩
    obtain ⟨field, hmem, hlaw⟩ := exists_of_property h hproperty
    refine ⟨field, hmem, hnames _ _ _ hlaw, ?_⟩
    rw [hexact _ _ _ hlaw, hlists.schema id _ hproperty]
    simpa using hlisted

/-- What is merged is required where a part is. -/
theorem Merges.hasRequired_iff {parts fields : List Field} (h : Merges parts fields)
    {name : String} : HasRequired fields name ↔ HasRequired parts name := by
  constructor
  · rintro ⟨field, hmem, rfl, hrequired⟩
    rw [(h.joins field hmem).required, List.any_eq_true] at hrequired
    obtain ⟨part, hpart, hboth⟩ := hrequired
    simp only [Bool.and_eq_true, beq_iff_eq] at hboth
    exact ⟨part, hpart, hboth⟩
  · rintro ⟨part, hmem, rfl, hrequired⟩
    exact h.exists_required hmem hrequired

/-- Besides what is required already, a current schema requires the fields that it lists. -/
theorem hasRequired_requireOwn {schema : Schema} {fields : List Field} {name : String} :
    HasRequired (requireOwn schema fields) name ↔ HasRequired fields name ∨
      schema.dialect.isLegacy = false ∧ name ∈ schema.required ∧ name ∈ fields.map (·.name) := by
  constructor
  · rintro ⟨_, hmem, rfl, hrequired⟩
    obtain ⟨field, hfield, rfl⟩ := mem_requireOwn.mp hmem
    rcases Schema.requireField_required .. |>.mp hrequired with hrequired | ⟨hcurrent, hlisted⟩
    · exact .inl ⟨field, hfield, rfl, hrequired⟩
    · exact .inr ⟨hcurrent, hlisted, List.mem_map.mpr ⟨field, hfield, rfl⟩⟩
  · rintro (⟨field, hfield, rfl, hrequired⟩ | ⟨hcurrent, hlisted, hmem⟩)
    · exact ⟨_, requireField_mem hfield, rfl, by simp [hrequired]⟩
    · obtain ⟨field, hfield, rfl⟩ := List.mem_map.mp hmem
      exact ⟨_, requireField_mem hfield, rfl, by simp [hcurrent, hlisted]⟩

/-- What a schema requires of its fields, it or a member of it requires. -/
theorem requires_iff {id : SchemaId} {name : String} :
    (∃ part, ReflTransGen doc.Includes id part ∧ doc.Requires part name) ↔
      (∃ member ∈ (doc.schema id).allOf, ∃ part, ReflTransGen doc.Includes member.id part ∧
        doc.Requires part name) ∨ doc.Requires id name := by
  constructor
  · rintro ⟨part, hwalk, hrequires⟩
    rcases hwalk.cases_head with rfl | ⟨middle, ⟨member, hmem, rfl⟩, hwalk⟩
    · exact .inr hrequires
    · exact .inl ⟨member, hmem, part, hwalk, hrequires⟩
  · rintro (⟨member, hmem, part, hwalk, hrequires⟩ | hrequires)
    · exact ⟨part, .head ⟨member, hmem, rfl⟩ hwalk, hrequires⟩
    · exact ⟨id, .refl, hrequires⟩

mutual

/-- A schema has a required field of a name exactly if it or a member of it requires the name. -/
theorem HasFields.hasRequired_iff (hnames : law.KeepsNames) (hexact : law.ExactlyRequired)
    (hlists : doc.ListsRequired) {id : SchemaId} {fields : List Field} {name : String} :
    HasFields doc law id fields → (HasRequired fields name ↔
      ∃ part, ReflTransGen doc.Includes id part ∧ doc.Requires part name)
  | .plain hnone hfields => by
      have hmembers := Schema.allOf_of_none hnone
      have hdemands : doc.Demands id name → doc.RequiresOwn id name := by
        rintro ⟨-, hlisted, hdeclares⟩
        rw [Document.declares_iff, hmembers] at hdeclares
        exact ⟨hlisted, by simpa using hdeclares⟩
      rw [hasRequired_own hnames hexact hlists hfields, requires_iff, hmembers]
      simp only [List.not_mem_nil, false_and, exists_false, false_or]
      exact ⟨.inl, fun h => h.elim (fun hown => hown) hdemands⟩
  | @HasFields.merged _ _ _ inherited own merged hne hinherited hown hmerges => by
      have hmem : name ∈ (requireOwn (doc.schema id) merged).map (·.name) ↔
          doc.Declares id name :=
        (HasFields.merged hne hinherited hown hmerges).mem_names hnames
      rw [map_name_requireOwn] at hmem
      have hdemands : ((doc.schema id).dialect.isLegacy = false ∧
          name ∈ (doc.schema id).required ∧ name ∈ merged.map (·.name)) ↔ doc.Demands id name := by
        rw [hmem]
        exact ⟨fun ⟨hdialect, hlisted, h⟩ => ⟨hdialect, hlisted, h⟩,
          fun h => ⟨h.dialect, h.listed, h.declared⟩⟩
      rw [hasRequired_requireOwn, hmerges.hasRequired_iff, hasRequired_append,
        hinherited.hasRequired_iff hnames hexact hlists,
        hasRequired_own hnames hexact hlists hown, hdemands, requires_iff, or_assoc]
      rfl

theorem Contribute.hasRequired_iff (hnames : law.KeepsNames) (hexact : law.ExactlyRequired)
    (hlists : doc.ListsRequired) {members : List Edge} {fields : List Field} {name : String} :
    Contribute doc law members fields → (HasRequired fields name ↔
      ∃ member ∈ members, ∃ part, ReflTransGen doc.Includes member.id part ∧
        doc.Requires part name)
  | .nil => by simp [HasRequired]
  | .cons hfirst hrest => by
      rw [hasRequired_append, hfirst.hasRequired_iff hnames hexact hlists,
        hrest.hasRequired_iff hnames hexact hlists, List.exists_mem_cons_iff]

end

/-- Fields of one name are required together. -/
theorem HasFields.required_eq (hnames : law.KeepsNames) (hexact : law.ExactlyRequired)
    (hlists : doc.ListsRequired) {id : SchemaId} {fields : List Field} {field other : Field}
    (h : HasFields doc law id fields) (hmem : field ∈ fields) (hother : other ∈ fields)
    (hname : other.name = field.name) : other.required = field.required := by
  cases h with
  | plain _ hfields =>
      have hrequired : ∀ field ∈ fields,
          field.required = (doc.schema id).required.contains field.name := by
        intro field hmem
        obtain ⟨property, hproperty, hlaw⟩ := exists_property hfields hmem
        rw [hexact _ _ _ hlaw, hlists.schema id _ hproperty, hnames _ _ _ hlaw]
      rw [hrequired field hmem, hrequired other hother, hname]
  | merged _ _ _ hmerges =>
      have hnodup := hmerges.nodup
      rw [← map_name_requireOwn (doc.schema id)] at hnodup
      rw [List.inj_on_of_nodup_map hnodup hother hmem hname]

/-- A field is required exactly if its schema or a member of that requires its name. -/
theorem HasFields.required_iff (hnames : law.KeepsNames) (hexact : law.ExactlyRequired)
    (hlists : doc.ListsRequired) {id : SchemaId} {fields : List Field}
    (h : HasFields doc law id fields) {field : Field} (hmem : field ∈ fields) :
    field.required = true ↔
      ∃ part, ReflTransGen doc.Includes id part ∧ doc.Requires part field.name := by
  rw [← h.hasRequired_iff hnames hexact hlists]
  constructor
  · exact fun hrequired => ⟨field, hmem, rfl, hrequired⟩
  · rintro ⟨other, hother, hname, hrequired⟩
    rwa [← h.required_eq hnames hexact hlists hmem hother hname]

/-! ## Compiled documents -/

namespace Document

/-- In a compiled set a field is required exactly if the schema of its model or a member of that
requires its name. -/
theorem compile_required_iff {set : ModelSet} (h : doc.compile = .ok set)
    (hlists : doc.ListsRequired) {m : ModelId} {field : Field}
    (hmem : field ∈ (set.model m).fields) :
    field.required = true ↔ ∃ part, ReflTransGen doc.Includes (set.model m).schema part ∧
      doc.Requires part field.name := by
  have hwf := compile_wellFormed h
  have hlt : m < set.models.size := by
    apply Nat.lt_of_not_le
    intro hge
    simp [Model.fields, ModelSet.shape_of_size_le hge] at hmem
  obtain ⟨context, -, hmeans⟩ := ModelSet.means_model hwf hlt
  cases hshape : (set.model m).shape with
  | object fields =>
      rw [Model.fields, hshape] at hmem
      rw [hshape] at hmeans
      exact hmeans.hasFields.required_iff IsField.keepsNames IsField.exactlyRequired hlists hmem
  | union => simp [Model.fields, hshape] at hmem

/-! ## Both dialects -/

@[simp] theorem includes_current (doc : Document) : doc.current.Includes = doc.Includes := by
  funext owner member
  simp [Includes]

theorem declares_current {id : SchemaId} {name : String} :
    doc.current.Declares id name ↔ doc.Declares id name := by
  simp [Declares, Schema.current]

theorem requires_current {id : SchemaId} {name : String} :
    doc.current.Requires id name ↔ doc.RequiresOwn id name ∨ doc.RequiresInherited id name := by
  have hproperty : (∃ edge, (name, edge) ∈ (doc.current.schema id).properties) ↔
      ∃ edge, (name, edge) ∈ (doc.schema id).properties := by
    simp [Schema.current]
  constructor
  · rintro (⟨hlisted, hdeclared⟩ | ⟨-, hlisted, hdeclares⟩)
    · exact .inl ⟨by simpa using hlisted, hproperty.mp hdeclared⟩
    · by_cases hown : ∃ edge, (name, edge) ∈ (doc.schema id).properties
      · exact .inl ⟨by simpa using hlisted, hown⟩
      · rw [declares_current, declares_iff] at hdeclares
        exact .inr ⟨by simpa using hlisted, hown, hdeclares.resolve_right hown⟩
  · rintro (⟨hlisted, hdeclared⟩ | ⟨hlisted, -, hinherited⟩)
    · exact .inl ⟨by simpa using hlisted, hproperty.mpr hdeclared⟩
    · refine .inr ⟨by simp [Schema.current, Dialect.isLegacy], by simpa using hlisted, ?_⟩
      exact declares_current.mpr (declares_iff.mpr (.inl hinherited))

theorem requires_legacy {id : SchemaId} (h : (doc.schema id).dialect.isLegacy = true)
    {name : String} : doc.Requires id name ↔ doc.RequiresOwn id name := by
  constructor
  · rintro (hown | hdemands)
    · exact hown
    · exact absurd (h.symm.trans hdemands.dialect) (by decide)
  · exact .inl

/-- What a current document requires besides: the fields whose names a schema lists and inherits. -/
theorem required_current_iff {set set' : ModelSet} (h : doc.compile = .ok set)
    (h' : doc.current.compile = .ok set') (hsame : set'.unrequired = set.unrequired)
    (hlists : doc.ListsRequired) (hlegacy : ∀ id, (doc.schema id).dialect.isLegacy = true)
    {m : ModelId} {place : Nat} {field field' : Field}
    (hfield : (set.model m).fields[place]? = some field)
    (hfield' : (set'.model m).fields[place]? = some field') :
    field'.required = true ↔ field.required = true ∨
      ∃ part, ReflTransGen doc.Includes (set.model m).schema part ∧
        doc.RequiresInherited part field.name := by
  have hmodel : (set'.model m).unrequired = (set.model m).unrequired := by
    rw [← ModelSet.model_unrequired, hsame, ModelSet.model_unrequired]
  have hschema : (set'.model m).schema = (set.model m).schema :=
    (congrArg Model.schema hmodel :)
  have hname : field'.name = field.name := by
    have hfields := congrArg (fun model => model.fields[place]?) hmodel
    simp only [Model.fields_unrequired, List.getElem?_map, hfield, hfield', Option.map_some,
      Option.some.injEq] at hfields
    exact (congrArg Field.name hfields :)
  rw [compile_required_iff h hlists (List.mem_of_getElem? hfield),
    compile_required_iff h' (listsRequired_current doc) (List.mem_of_getElem? hfield'), hschema,
    hname, includes_current]
  simp only [requires_current, requires_legacy (hlegacy _), and_or_left, exists_or]

/-- The models of a document that is still as it was written. -/
def compileWritten (written : Wire.Document) : Except (Stop SchemaError) ModelSet :=
  (ofWire written).mapError .failed >>= compile

/-- The same named schemas, none of which says of itself that it is required, make the same models in
documents of both dialects, or stop for the same reason. The fields that a current document requires
are those that a legacy one requires, and those whose names a schema lists that does not declare
them itself, but inherits them from the members of its `allOf`. -/
theorem compile_dialects {named : List (String × Wire.Schema)} {version : String}
    (hunflagged : ∀ entry ∈ named, entry.2.Unflagged)
    (hversion : version.startsWith "3.0" = true) :
    (∃ stop,
      compileWritten { swagger := some "2.0", definitions := named } = .error stop ∧
      compileWritten { openapi := some version, components := named } = .error stop) ∨
    ∃ doc set set',
      ofWire { swagger := some "2.0", definitions := named } = .ok doc ∧
      ofWire { openapi := some version, components := named } = .ok doc.current ∧
      doc.compile = .ok set ∧ doc.current.compile = .ok set' ∧
      set'.unrequired = set.unrequired ∧
      ∀ (m place : Nat) (field field' : Field),
        (set.model m).fields[place]? = some field → (set'.model m).fields[place]? = some field' →
        (field'.required = true ↔ field.required = true ∨
          ∃ part, ReflTransGen doc.Includes (set.model m).schema part ∧
            doc.RequiresInherited part field.name) := by
  have hcurrent := ofWire_current named hversion
  cases hload : ofWire { swagger := some "2.0", definitions := named } with
  | error error =>
      rw [hload] at hcurrent
      exact .inl ⟨.failed error, by rw [compileWritten, hload]; rfl,
        by rw [compileWritten, hcurrent]; rfl⟩
  | ok doc =>
      rw [hload] at hcurrent
      rcases cases_of_map_eq_map doc.compile_current_unrequired with
        ⟨stop, hstop', hstop⟩ | ⟨set', set, hset', hset, hsame⟩
      · exact .inl ⟨stop, by rw [compileWritten, hload]; exact hstop,
          by rw [compileWritten, hcurrent]; exact hstop'⟩
      · have hwritten : dialectOf { swagger := some "2.0", definitions := named } =
            .ok .swagger2 := rfl
        obtain ⟨hlists, hdialect⟩ :=
          (listsRequired_preserved .swagger2).ofWire hwritten hunflagged hload
        have hlegacy (id : SchemaId) : (doc.schema id).dialect.isLegacy = true := by
          rw [schema_dialect_of_ofWire hload, hdialect]
          rfl
        exact .inr ⟨doc, set, set', rfl, hcurrent, hset, hset', hsame, fun _ _ _ _ hfield hfield' =>
          required_current_iff hset hset' hsame hlists hlegacy hfield hfield'⟩

/-- A schema that lists a name and leaves it to its member to declare it. -/
def inheritedName : List (String × Wire.Schema) :=
  [("Base",
      { type := some (.one "object"), properties := [("x", { type := some (.one "string") })] }),
    ("Owner",
      { required := some (.names ["x"]), allOf := [{ reference := some "#/definitions/Base" }] })]

/-- The models of `inheritedName`, if the name is required or not of the second. -/
def inheritedNameModels (required : Bool) : ModelSet where
  models := #[
    { name := "Base", schema := 0, shape := .object [{ name := "x", type := .scalar .text }] },
    { name := "Owner", schema := 1
      shape := .object [{ name := "x", type := .scalar .text, required }] }]
  bySchema := [(1, 1), (0, 0)]
  roots := [("Base", some (.model 0)), ("Owner", some (.model 1))]

theorem inheritedName_unflagged : ∀ entry ∈ inheritedName, entry.2.Unflagged := by
  simp only [inheritedName, List.forall_mem_cons]
  refine ⟨.intro nofun ?_ nofun nofun nofun nofun, .intro nofun nofun nofun ?_ nofun nofun, nofun⟩
  · intro property hmem
    cases List.mem_singleton.mp hmem
    exact .intro nofun nofun nofun nofun nofun nofun
  · intro member hmem
    cases List.mem_singleton.mp hmem
    exact .intro nofun nofun nofun nofun nofun nofun

theorem inheritedName_legacy :
    compileWritten { swagger := some "2.0", definitions := inheritedName } =
      .ok (inheritedNameModels false) := rfl

theorem inheritedName_current :
    compileWritten { openapi := some "3.0.3", components := inheritedName } =
      .ok (inheritedNameModels true) := by
  have hdialect : dialectOf { openapi := some "3.0.3", components := inheritedName } =
      .ok .openApi30 := by simp [dialectOf]
  rw [compileWritten, ofWire, hdialect]
  rfl

/-- The documents of both dialects make the same models of `inheritedName`, and the current one
requires the field that is inherited. -/
theorem inheritedName_dialects :
    (∀ entry ∈ inheritedName, entry.2.Unflagged) ∧ "3.0.3".startsWith "3.0" = true ∧
      ∃ doc, ofWire { swagger := some "2.0", definitions := inheritedName } = .ok doc ∧
        ofWire { openapi := some "3.0.3", components := inheritedName } = .ok doc.current ∧
        doc.compile = .ok (inheritedNameModels false) ∧
        doc.current.compile = .ok (inheritedNameModels true) ∧
        ∃ part, ReflTransGen doc.Includes 1 part ∧ doc.RequiresInherited part "x" := by
  have hversion : "3.0.3".startsWith "3.0" = true := by simp
  refine ⟨inheritedName_unflagged, hversion, ?_⟩
  rcases compile_dialects inheritedName_unflagged hversion with
    ⟨stop, hstop, -⟩ | ⟨doc, set, set', hload, hload', hset, hset', -, hrequired⟩
  · cases inheritedName_legacy.symm.trans hstop
  · have hlegacy := inheritedName_legacy
    have hcurrent := inheritedName_current
    rw [compileWritten, hload] at hlegacy
    rw [compileWritten, hload'] at hcurrent
    cases hset.symm.trans hlegacy
    cases hset'.symm.trans hcurrent
    refine ⟨doc, hload, hload', hlegacy, hcurrent, ?_⟩
    rcases (hrequired 1 0 _ _ rfl rfl).mp rfl with hfield | hinherited
    · cases hfield
    · exact hinherited

/-- What is required is not the same in documents of both dialects. -/
theorem inheritedName_disagree :
    ¬ ∀ (named : List (String × Wire.Schema)) (version : String) (set set' : ModelSet),
      (∀ entry ∈ named, entry.2.Unflagged) → version.startsWith "3.0" = true →
      compileWritten { swagger := some "2.0", definitions := named } = .ok set →
      compileWritten { openapi := some version, components := named } = .ok set' →
      ∀ m, (set.model m).fields.map (·.required) = (set'.model m).fields.map (·.required) := by
  intro h
  have hfields := h inheritedName "3.0.3" _ _ inheritedName_unflagged (by simp)
    inheritedName_legacy inheritedName_current 1
  cases hfields

end Document
end OpenApi
