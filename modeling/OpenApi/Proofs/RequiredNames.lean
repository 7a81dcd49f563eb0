-- SUMMARY: Which of the names that schemas require an accepted value has to have.
import OpenApi.Proofs.Compilation.Result
import OpenApi.Proofs.Decoding.Outcome
import OpenApi.Proofs.Model.Members

/-!
# Required names

To require a name is to say something about the field of that name. A schema can say
it of the fields that its own properties and the members of its `allOf` make, and
keeps saying it where it becomes a member itself. A name that no schema declares makes
no field: nothing asks for it, and a value that has it is refused.
-/

namespace OpenApi

open Relation (ReflTransGen)

namespace Document

variable (doc : Document)

/-- A schema, or a member of its `allOf` at any depth, has a property of this name. -/
def Declares (owner : SchemaId) (name : String) : Prop :=
  ∃ part, ReflTransGen doc.Includes owner part ∧
    ∃ edge, (name, edge) ∈ (doc.schema part).properties

/-- A schema requires a name by its list of names, and declares it. -/
structure Demands (id : SchemaId) (name : String) : Prop where
  dialect : (doc.schema id).dialect.isLegacy = false
  listed : name ∈ (doc.schema id).required
  declared : doc.Declares id name

variable {doc}

theorem declares_iff {owner : SchemaId} {name : String} :
    doc.Declares owner name ↔
      (∃ member ∈ (doc.schema owner).allOf, doc.Declares member.id name) ∨
        ∃ edge, (name, edge) ∈ (doc.schema owner).properties := by
  constructor
  · intro h
    obtain ⟨part, hwalk, hproperty⟩ := h
    rcases hwalk.cases_head with rfl | ⟨middle, ⟨member, hmem, rfl⟩, hwalk⟩
    · exact .inr hproperty
    · exact .inl ⟨member, hmem, part, hwalk, hproperty⟩
  · intro h
    rcases h with ⟨member, hmem, part, hwalk, hproperty⟩ | hproperty
    · exact ⟨part, .head ⟨member, hmem, rfl⟩ hwalk, hproperty⟩
    · exact ⟨owner, .refl, hproperty⟩

end Document

/-! ## Names of fields -/

variable {doc : Document} {law : PropertyLaw}

mutual

/-- The fields of a schema have the names that it declares. -/
theorem HasFields.mem_names (hnames : law.KeepsNames) {id : SchemaId} {fields : List Field}
    {name : String} :
    HasFields doc law id fields → (name ∈ fields.map (·.name) ↔ doc.Declares id name)
  | .plain hnone hfields => by
      rw [hnames.exists_iff hfields, Document.declares_iff, Schema.allOf_of_none hnone]
      simp
  | .merged _ hinherited hown hmerges => by
      rw [map_name_requireOwn, hmerges.mem_names, List.map_append, List.mem_append,
        hinherited.mem_names hnames, hnames.exists_iff hown, ← Document.declares_iff]

theorem Contribute.mem_names (hnames : law.KeepsNames) {members : List Edge}
    {fields : List Field} {name : String} :
    Contribute doc law members fields →
      (name ∈ fields.map (·.name) ↔ ∃ member ∈ members, doc.Declares member.id name)
  | .nil => by simp
  | .cons hfirst hrest => by
      rw [List.map_append, List.mem_append, hfirst.mem_names hnames, hrest.mem_names hnames,
        List.exists_mem_cons_iff]

end

/-! ## Required fields -/

/-- The field of a property that its schema requires is required. -/
def PropertyLaw.KeepsRequired (law : PropertyLaw) : Prop :=
  ∀ schema property field, law schema property field →
    schema.isRequired property.1 property.2 = true → field.required = true

theorem PropertyLaw.KeepsRequired.exists_field (hrequired : law.KeepsRequired)
    (hnames : law.KeepsNames) {schema : Schema} {properties : Keyed Edge} {fields : List Field}
    (h : List.Forall₂ (law schema) properties fields) {name : String} {edge : Edge}
    (hmem : (name, edge) ∈ properties) (hname : schema.isRequired name edge = true) :
    ∃ field ∈ fields, field.name = name ∧ field.required = true := by
  induction h with
  | nil => cases hmem
  | cons hfield _ ih =>
      rcases List.mem_cons.mp hmem with rfl | hmem
      · exact ⟨_, List.mem_cons_self, hnames _ _ _ hfield, hrequired _ _ _ hfield hname⟩
      · obtain ⟨field, hrest, hfound⟩ := ih hmem
        exact ⟨field, List.mem_cons_of_mem _ hrest, hfound⟩

/-- What a part requires is required of the field that it is merged into. -/
theorem Merges.exists_required {parts fields : List Field} (h : Merges parts fields)
    {part : Field} (hmem : part ∈ parts) (hrequired : part.required = true) :
    ∃ field ∈ fields, field.name = part.name ∧ field.required = true := by
  obtain ⟨field, hfield, hname⟩ := h.exists_field hmem
  refine ⟨field, hfield, hname, ?_⟩
  rw [(h.joins field hfield).required, List.any_eq_true]
  exact ⟨part, hmem, by simp [hname, hrequired]⟩

mutual

/-- A name that a schema or a member of it requires and declares is that of a required field. -/
theorem HasFields.exists_required (hnames : law.KeepsNames) (hrequired : law.KeepsRequired)
    {part : SchemaId} {name : String} (h : doc.Demands part name) {id : SchemaId}
    {fields : List Field} :
    HasFields doc law id fields → ReflTransGen doc.Includes id part →
      ∃ field ∈ fields, field.name = name ∧ field.required = true
  | .plain hnone hfields, hwalk => by
      have hmembers := Schema.allOf_of_none hnone
      rcases hwalk.cases_head with rfl | ⟨middle, ⟨member, hmem, -⟩, -⟩
      · rcases Document.declares_iff.mp h.declared with ⟨member, hmem, -⟩ | ⟨edge, hmem⟩
        · simp [hmembers] at hmem
        · refine hrequired.exists_field hnames hfields hmem ?_
          simpa [Schema.isRequired, h.dialect] using h.listed
      · simp [hmembers] at hmem
  | .merged hne hinherited hown hmerges, hwalk => by
      rcases hwalk.cases_head with rfl | ⟨middle, ⟨member, hmem, heq⟩, hrest⟩
      · -- The owner requires after merging whatever it or its members declare.
        have hfields := HasFields.merged hne hinherited hown hmerges
        have hfield := (hfields.mem_names hnames).mpr h.declared
        rw [map_name_requireOwn] at hfield
        obtain ⟨field, hmem, rfl⟩ := List.mem_map.mp hfield
        exact ⟨_, requireField_mem hmem, rfl, by simp [h.dialect, h.listed]⟩
      · obtain ⟨first, hfirst, rfl, hfirstRequired⟩ :=
          hinherited.exists_required hnames hrequired h member hmem (heq ▸ hrest)
        obtain ⟨field, hfield, hfieldName, hfieldRequired⟩ :=
          hmerges.exists_required (List.mem_append_left _ hfirst) hfirstRequired
        exact ⟨_, requireField_mem hfield, hfieldName, by simp [hfieldRequired]⟩

theorem Contribute.exists_required (hnames : law.KeepsNames) (hrequired : law.KeepsRequired)
    {part : SchemaId} {name : String} (h : doc.Demands part name) {members : List Edge}
    {fields : List Field} :
    Contribute doc law members fields →
      ∀ member ∈ members, ReflTransGen doc.Includes member.id part →
        ∃ field ∈ fields, field.name = name ∧ field.required = true
  | .nil => by simp
  | .cons hfirst hrest => by
      rw [List.forall_mem_cons]
      constructor
      · intro hwalk
        obtain ⟨field, hfield, hfound⟩ := hfirst.exists_required hnames hrequired h hwalk
        exact ⟨field, List.mem_append_left _ hfield, hfound⟩
      · intro member hmem hwalk
        obtain ⟨field, hfield, hfound⟩ := hrest.exists_required hnames hrequired h member hmem hwalk
        exact ⟨field, List.mem_append_right _ hfield, hfound⟩

end

/-! ## Accepted values -/

theorem IsField.keepsRequired {registry : Registry} {models : ModelTable} {context : Context} :
    PropertyLaw.KeepsRequired (IsField doc registry models context) :=
  fun _ _ _ h hrequired => (congrArg Field.required h.rest).trans hrequired

namespace Document

/-- An accepted value has the names that its schema and the members of that demand, and no name that
none of them declares. -/
theorem compile_demands {set : ModelSet} (h : doc.compile = .ok set) {id : SchemaId} {m : ModelId}
    (hm : set.forSchema id = some m) (hobject : (doc.schema id).alternatives = []) {value : Json}
    {answer : Instance} (hdecode : set.decode (.model m) value = .ok answer) :
    ∃ members : Keyed Json, value = .obj members ∧
      (∀ part name, ReflTransGen doc.Includes id part → doc.Demands part name →
        name ∈ members.keys) ∧
      ∀ name ∈ members.keys, doc.Declares id name := by
  have hwf := compile_wellFormed h
  obtain ⟨context, -, hmeans⟩ := ModelSet.means_model hwf (ModelSet.lt_size_of_forSchema hwf hm)
  rw [ModelSet.schema_of_forSchema hwf hm] at hmeans
  obtain ⟨fields, hshape⟩ := hmeans.exists_object hobject
  rw [hshape] at hmeans
  have hfields := hmeans.hasFields
  have haccepts := (ModelSet.reads_of_decode hdecode).accepts
  obtain ⟨members, rfl, hall, hdeclared⟩ := (ModelSet.accepts_object_iff hshape).mp haccepts
  refine ⟨members, rfl, fun part name hwalk hdemands => ?_, fun name hmem => ?_⟩
  · obtain ⟨field, hmem, rfl, hrequired⟩ :=
      hfields.exists_required IsField.keepsNames IsField.keepsRequired hdemands hwalk
    -- A required field can neither be left out nor skipped.
    have hgiven : ∃ value, Keyed.get? members field.name = some value := by
      cases hall field hmem with
      | leftOut _ hoptional | skipped _ hoptional => simp [hrequired] at hoptional
      | given hvalue => exact ⟨_, hvalue⟩
    obtain ⟨value, hvalue⟩ := hgiven
    exact Keyed.mem_keys_of_get? hvalue
  · have hfield := hdeclared name hmem
    obtain ⟨field, hfield⟩ := Option.isSome_iff_exists.mp hfield
    have hfieldMem := List.mem_of_find?_eq_some hfield
    have hname : field.name = name := by simpa using List.find?_some hfield
    rw [Model.fields, hshape] at hfieldMem
    exact (hfields.mem_names IsField.keepsNames).mp (hname ▸ List.mem_map_of_mem hfieldMem)

/-- A schema with a member: each of them requires a name that it declares. -/
def ownerAndBase : Document where
  dialect := .openApi30
  schemas := #[
    { dialect := .openApi30, identity := some "Base", type := some .object, required := ["id"]
      properties := [("id", { id := 2 })] },
    { dialect := .openApi30, identity := some "Owner", required := ["name"]
      properties := [("name", { id := 3 })]
      allOf := [{ id := 0, reference := some "#/components/schemas/Base" }] },
    { dialect := .openApi30, identity := some "Base.id", type := some .integer },
    { dialect := .openApi30, identity := some "Owner.name", type := some .string }]
  named := [("Base", 0), ("Owner", 1)]

/-- The models of `ownerAndBase`. -/
def ownerAndBaseModels : ModelSet where
  models := #[
    { name := "Base", schema := 0
      shape := .object [{ name := "id", type := .scalar .integer, required := true }] },
    { name := "Owner", schema := 1
      shape := .object [
        { name := "id", type := .scalar .integer, required := true },
        { name := "name", type := .scalar .text, required := true }] }]
  bySchema := [(1, 1), (0, 0)]
  roots := [("Base", some (.model 0)), ("Owner", some (.model 1))]

/-- An accepted value has the name that the schema demands and the one that its member demands. -/
theorem ownerAndBase_keys :
    ownerAndBase.compile = .ok ownerAndBaseModels ∧
    (∀ value answer, ownerAndBaseModels.decode (.model 1) value = .ok answer →
      ∃ members : Keyed Json, value = .obj members ∧
        "id" ∈ members.keys ∧ "name" ∈ members.keys) ∧
    ∃ answer, ownerAndBaseModels.decode (.model 1)
      (.obj [("name", .str "a"), ("id", .num (.int 1))]) = .ok answer := by
  have hcompile : ownerAndBase.compile = .ok ownerAndBaseModels := rfl
  have hm : ownerAndBaseModels.forSchema 1 = some 1 := rfl
  have hbase : ownerAndBase.Demands 0 "id" :=
    ⟨rfl, List.mem_singleton.mpr rfl, 0, .refl, _, List.mem_singleton.mpr rfl⟩
  have howner : ownerAndBase.Demands 1 "name" :=
    ⟨rfl, List.mem_singleton.mpr rfl, 1, .refl, _, List.mem_singleton.mpr rfl⟩
  have hincludes : ownerAndBase.Includes 1 0 := ⟨_, List.mem_singleton.mpr rfl, rfl⟩
  refine ⟨hcompile, fun value answer hdecode => ?_, _, rfl⟩
  obtain ⟨members, heq, hkeys, -⟩ := compile_demands hcompile hm rfl hdecode
  exact ⟨members, heq, hkeys 0 "id" (.single hincludes) hbase, hkeys 1 "name" .refl howner⟩

/-- A schema that requires a name that it does not declare. -/
def undeclaredName : Document where
  dialect := .openApi30
  schemas := #[
    { dialect := .openApi30, identity := some "S", type := some .object, required := ["x"]
      properties := [("a", { id := 1 })] },
    { dialect := .openApi30, identity := some "S.a", type := some .string }]
  named := [("S", 0)]

/-- A name that a schema requires and does not declare need not be there. -/
theorem undeclaredName_accepts :
    ∃ set answer, undeclaredName.compile = .ok set ∧ set.forSchema 0 = some 0 ∧
      (undeclaredName.schema 0).combination = .none ∧
      "x" ∈ (undeclaredName.schema 0).required ∧
      set.decode (.model 0) (.obj []) = .ok answer ∧
      "x" ∉ Keyed.keys ([] : Keyed Json) :=
  ⟨_, _, rfl, rfl, rfl, List.mem_singleton.mpr rfl, rfl, List.not_mem_nil⟩

end Document
end OpenApi
