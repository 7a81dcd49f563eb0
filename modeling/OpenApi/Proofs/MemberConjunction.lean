-- SUMMARY: An accepted object of an allOf, cut down to the fields of a member, against the member.
import OpenApi.Proofs.Decoding.Depth
import OpenApi.Proofs.Translation

/-!
# Members of an allOf

A merged field keeps the type that all its parts have and is required if one of them is.
Of their restrictions it has the first only. So what the model of an `allOf` schema
accepts, cut down to the names of a member, is accepted by the member's model exactly if
the values are in the enumerations of the member, and that has to be asked only where
another part came first with an enumeration of its own.
-/

namespace OpenApi

open Relation (ReflTransGen)

/-! ## Cutting down -/

namespace Keyed

variable {α : Type u}

/-- The entries under some of the keys. -/
def restrict (entries : Keyed α) (names : List String) : Keyed α :=
  entries.filter fun entry => names.contains entry.1

theorem get?_restrict {entries : Keyed α} {names : List String} {key : String} (h : key ∈ names) :
    (entries.restrict names).get? key = entries.get? key := by
  induction entries with
  | nil => rfl
  | cons entry rest ih =>
      obtain ⟨first, value⟩ := entry
      simp only [restrict, List.filter_cons] at ih ⊢
      split
      · rw [get?_cons, get?_cons, ih]
      · rename_i hout
        have hne : (key == first) = false := by
          simp only [beq_eq_false_iff_ne, ne_eq]
          rintro rfl
          simp [h] at hout
        rw [ih, get?_cons, hne, if_neg Bool.false_ne_true]

theorem mem_names_of_mem_restrict {entries : Keyed α} {names : List String} {key : String}
    (h : key ∈ (entries.restrict names).keys) : key ∈ names := by
  obtain ⟨entry, hmem, rfl⟩ := List.mem_map.mp h
  simpa using (List.mem_filter.mp hmem).2

end Keyed

/-! ## Enforced fields -/

/-- A field has all of another but for its restriction, in place of which it may have a different
one. -/
structure Field.Enforces (field part : Field) : Prop where
  name : field.name = part.name
  type : field.type = part.type
  required : part.required = true → field.required = true
  restricted : part.enum.isSome = true → field.enum.isSome = true

/-- Each field of the second list is enforced by one of the first. -/
def Enforce (fields parts : List Field) : Prop :=
  ∀ part ∈ parts, ∃ field ∈ fields, field.Enforces part

theorem Field.Enforces.trans {first second third : Field} (h : first.Enforces second)
    (h' : second.Enforces third) : first.Enforces third where
  name := h.name.trans h'.name
  type := h.type.trans h'.type
  required := fun hthird => h.required (h'.required hthird)
  restricted := fun hthird => h.restricted (h'.restricted hthird)

theorem Enforce.trans {first second third : List Field} (h : Enforce first second)
    (h' : Enforce second third) : Enforce first third := by
  intro part hmem
  obtain ⟨middle, hmiddle, hpart⟩ := h' part hmem
  obtain ⟨field, hfield, hrest⟩ := h middle hmiddle
  exact ⟨field, hfield, hrest.trans hpart⟩

/-- A merged field enforces its parts. -/
theorem Merges.enforce {parts fields : List Field} (h : Merges parts fields) :
    Enforce fields parts := by
  intro part hmem
  obtain ⟨field, hfield, hname⟩ := h.exists_field hmem
  have hjoins := h.joins field hfield
  refine ⟨field, hfield, hname, (hjoins.type part hmem hname.symm).symm, ?_, ?_⟩
  · intro hrequired
    rw [hjoins.required, List.any_eq_true]
    exact ⟨part, hmem, by simp [hname, hrequired]⟩
  · intro hrestricted
    rw [hjoins.enum, List.findSome?_isSome_iff]
    exact ⟨part, hmem, by simp [hname, hrestricted]⟩

/-- Requiring more enforces what was there. -/
theorem requireOwn_enforce (schema : Schema) (fields : List Field) :
    Enforce (requireOwn schema fields) fields := by
  intro part hmem
  exact ⟨_, requireField_mem hmem, rfl, rfl, fun hrequired => by simp [hrequired], id⟩

/-! ## Members -/

section Members

variable {doc : Document} {law : PropertyLaw}

/-- A schema with `allOf` is no union. -/
theorem Schema.alternatives_of_allOf {schema : Schema} (h : schema.allOf ≠ []) :
    schema.alternatives = [] := by
  have hkeep : schema.allOf.isEmpty = false := by simpa using h
  simp [alternatives, combination, hkeep]

/-- A schema that has fields is no union. -/
theorem HasFields.alternatives_eq_nil {id : SchemaId} {fields : List Field}
    (h : HasFields doc law id fields) : (doc.schema id).alternatives = [] := by
  cases h with
  | plain hnone _ => simp [Schema.alternatives, hnone]
  | merged hne _ _ _ => exact Schema.alternatives_of_allOf hne

end Members

/-! ## Restrictions -/

/-- A schema or a member of it has a property of that name whose values are restricted. -/
def Document.Restricts (doc : Document) (id : SchemaId) (name : String) : Prop :=
  ∃ part edge, ReflTransGen doc.Includes id part ∧
    (name, edge) ∈ (doc.schema part).properties ∧ (doc.schema edge.id).enum.isSome = true

/-- A schema or a member of it has a property of that name that is restricted to these values. -/
def Document.RestrictsTo (doc : Document) (id : SchemaId) (name : String)
    (permitted : List Json) : Prop :=
  ∃ part edge, ReflTransGen doc.Includes id part ∧
    (name, edge) ∈ (doc.schema part).properties ∧ (doc.schema edge.id).enum = some permitted

/-- A field has the restriction of its property. -/
def PropertyLaw.KeepsEnum (doc : Document) (law : PropertyLaw) : Prop :=
  ∀ schema property field, law schema property field →
    field.name = property.1 ∧ field.enum = (doc.schema property.2.id).enum

section Restrictions

variable {doc : Document} {law : PropertyLaw}

theorem Document.RestrictsTo.restricts {id : SchemaId} {name : String} {permitted : List Json}
    (h : doc.RestrictsTo id name permitted) : doc.Restricts id name := by
  obtain ⟨part, edge, hwalk, hproperty, henum⟩ := h
  exact ⟨part, edge, hwalk, hproperty, by simp [henum]⟩

theorem Document.RestrictsTo.of_includes {owner member : SchemaId} {name : String}
    {permitted : List Json} (hincludes : doc.Includes owner member)
    (h : doc.RestrictsTo member name permitted) : doc.RestrictsTo owner name permitted := by
  obtain ⟨part, edge, hwalk, hrest⟩ := h
  exact ⟨part, edge, .head hincludes hwalk, hrest⟩

theorem PropertyLaw.KeepsEnum.restrictsTo (hkeeps : law.KeepsEnum doc) {id : SchemaId}
    {fields : List Field} {field : Field} {permitted : List Json}
    (h : List.Forall₂ (law (doc.schema id)) (doc.schema id).properties fields)
    (hmem : field ∈ fields) (henum : field.enum = some permitted) :
    doc.RestrictsTo id field.name permitted := by
  obtain ⟨⟨name, edge⟩, hproperty, hfield⟩ := exists_property h hmem
  obtain ⟨rfl, hsame⟩ := hkeeps _ _ _ hfield
  exact ⟨id, edge, .refl, hproperty, hsame ▸ henum⟩

mutual

/-- A restricted field comes from a property that is restricted to the same values. -/
theorem HasFields.restrictsTo (hkeeps : law.KeepsEnum doc) {id : SchemaId} {fields : List Field} :
    HasFields doc law id fields → ∀ field ∈ fields, ∀ permitted, field.enum = some permitted →
      doc.RestrictsTo id field.name permitted
  | .plain _ hfields => fun _ hmem _ henum => hkeeps.restrictsTo hfields hmem henum
  | @HasFields.merged _ _ _ _ _ merged _ hinherited hown hmerges => by
      have hmerged : ∀ field ∈ merged, ∀ permitted, field.enum = some permitted →
          doc.RestrictsTo id field.name permitted := by
        intro field hmem permitted henum
        rw [(hmerges.joins field hmem).enum] at henum
        obtain ⟨part, hpart, henum⟩ := List.exists_of_findSome?_eq_some henum
        split at henum
        · rename_i hname
          rw [← hname]
          rcases List.mem_append.mp hpart with hpart | hpart
          · obtain ⟨member, hmember, hrestricts⟩ :=
              hinherited.restrictsTo hkeeps part hpart permitted henum
            exact hrestricts.of_includes ⟨member, hmember, rfl⟩
          · exact hkeeps.restrictsTo hown hpart henum
        · cases henum
      intro field hmem permitted henum
      obtain ⟨part, hpart, rfl⟩ := mem_requireOwn.mp hmem
      exact hmerged part hpart permitted henum

theorem Contribute.restrictsTo (hkeeps : law.KeepsEnum doc) {members : List Edge}
    {fields : List Field} :
    Contribute doc law members fields → ∀ field ∈ fields, ∀ permitted,
      field.enum = some permitted →
      ∃ member ∈ members, doc.RestrictsTo member.id field.name permitted
  | .nil => by simp
  | .cons hfirst hrest => by
      intro field hmem permitted henum
      rcases List.mem_append.mp hmem with hmem | hmem
      · exact ⟨_, by simp, hfirst.restrictsTo hkeeps field hmem permitted henum⟩
      · obtain ⟨member, hmember, hrestricts⟩ :=
          hrest.restrictsTo hkeeps field hmem permitted henum
        exact ⟨member, List.mem_cons_of_mem _ hmember, hrestricts⟩

end

/-- Where names are distinct, the first restriction of a name is that of its field. -/
theorem findSome?_enum_eq {fields : List Field} (hnodup : (fields.map (·.name)).Nodup)
    {part : Field} (hmem : part ∈ fields) :
    (fields.findSome? fun field => if field.name = part.name then field.enum else none) =
      part.enum := by
  induction fields with
  | nil => cases hmem
  | cons first rest ih =>
      rw [List.map_cons, List.nodup_cons] at hnodup
      rcases List.mem_cons.mp hmem with rfl | hmem
      · have hrest : (rest.findSome? fun field =>
            if field.name = part.name then field.enum else none) = none := by
          rw [List.findSome?_eq_none_iff]
          intro field hfield
          refine if_neg fun heq => hnodup.1 ?_
          rw [← heq]
          exact List.mem_map_of_mem hfield
        cases henum : part.enum <;> simp [henum, hrest]
      · have hne : first.name ≠ part.name :=
          fun heq => hnodup.1 (heq ▸ List.mem_map_of_mem hmem)
        simpa [hne] using ih hnodup.2 hmem

/-- The members before one and it itself contribute to what all of them do. -/
theorem Contribute.exists_split {before after : List Edge} {member : Edge} {fields : List Field}
    (h : Contribute doc law (before ++ member :: after) fields) :
    ∃ earlier parts later, Contribute doc law before earlier ∧
      HasFields doc law member.id parts ∧ fields = earlier ++ (parts ++ later) := by
  induction before generalizing fields with
  | nil =>
      cases h with
      | cons hfirst _ => exact ⟨[], _, _, .nil, hfirst, rfl⟩
  | cons edge before ih =>
      cases h with
      | cons hfirst hrest =>
          obtain ⟨earlier, parts, later, hearlier, hparts, rfl⟩ := ih hrest
          exact ⟨_, parts, later, .cons hfirst hearlier, hparts, by simp⟩

/-- The fields of a schema enforce those of a member, with the restrictions of all names that no
member before restricts. -/
theorem HasFields.enforce_member (hkeeps : law.KeepsEnum doc) (hnames : law.KeepsNames)
    (hdistinct : doc.DistinctProperties) {owner : SchemaId} {fields : List Field}
    (h : HasFields doc law owner fields) {before after : List Edge} {member : Edge}
    (hsplit : (doc.schema owner).allOf = before ++ member :: after) :
    ∃ parts, HasFields doc law member.id parts ∧ Enforce fields parts ∧
      ∀ part ∈ parts, part.enum.isSome = true →
        (∀ earlier ∈ before, ¬ doc.Restricts earlier.id part.name) →
        ∀ field ∈ fields, field.name = part.name → field.enum = part.enum := by
  cases h with
  | plain hnone _ => simp [Schema.allOf_of_none hnone] at hsplit
  | merged _ hinherited _ hmerges =>
      rw [hsplit] at hinherited
      obtain ⟨earlier, parts, later, hearlier, hparts, rfl⟩ := hinherited.exists_split
      refine ⟨parts, hparts, ?_, ?_⟩
      · refine (requireOwn_enforce _ _).trans fun part hpart => ?_
        exact hmerges.enforce part (by simp [hpart])
      · intro part hpart henum hfirst field hmem hname
        obtain ⟨joined, hjoined, rfl⟩ := mem_requireOwn.mp hmem
        rw [Schema.requireField_name] at hname
        -- The members before have no restriction for the name, and this one has it once.
        have hnone : (earlier.findSome? fun other =>
            if other.name = part.name then other.enum else none) = none := by
          rw [List.findSome?_eq_none_iff]
          intro other hother
          split
          · rename_i heq
            by_contra hother'
            obtain ⟨values, hvalues⟩ := Option.ne_none_iff_exists'.mp hother'
            obtain ⟨edge, hedge, hrestricts⟩ :=
              hearlier.restrictsTo hkeeps other hother values hvalues
            exact hfirst edge hedge (heq ▸ hrestricts.restricts)
          · rfl
        have hpartEnum := findSome?_enum_eq (hparts.nodup_names hnames hdistinct) hpart
        obtain ⟨values, hvalues⟩ := Option.isSome_iff_exists.mp henum
        rw [Schema.requireField_enum, (hmerges.joins joined hjoined).enum, hname]
        simp [List.findSome?_append, hnone, hpartEnum, hvalues]

end Restrictions

/-! ## Accepted objects -/

/-- What an object holds for a field is in its enumeration, unless it is the null of an optional
field. -/
def Field.PermitsIn (field : Field) (members : Keyed Json) : Prop :=
  ∀ value, members.get? field.name = some value →
    (value = .null ∧ field.required = false) ∨ field.Permits value

namespace ModelSet

variable {set : ModelSet} {members : Keyed Json}

/-- What a field accepts, a field that it enforces accepts too, if its enumeration has the value. -/
theorem AcceptsField.of_enforces {field part : Field} {members' : Keyed Json}
    (h : set.AcceptsField members field) (henforces : field.Enforces part)
    (hsame : members'.get? part.name = members.get? part.name) (hpermits : part.PermitsIn members) :
    set.AcceptsField members' part := by
  have hoptional : field.required = false → part.required = false := by
    intro hfalse
    by_contra hrequired
    simp [henforces.required (by simpa using hrequired)] at hfalse
  cases h with
  | leftOut hnone hopt =>
      exact .leftOut (by rw [hsame, ← henforces.name, hnone]) (hoptional hopt)
  | skipped hnull hopt =>
      exact .skipped (by rw [hsame, ← henforces.name, hnull]) (hoptional hopt)
  | given hvalue _ haccepts =>
      rw [henforces.name] at hvalue
      rcases hpermits _ hvalue with ⟨rfl, hopt⟩ | hpermitted
      · exact .skipped (hsame.trans hvalue) hopt
      · exact .given (hsame.trans hvalue) hpermitted (henforces.type ▸ haccepts)

/-- The values that a field accepts are in the enumeration of a field that has the same one. -/
theorem AcceptsField.permitsIn {field part : Field} (h : set.AcceptsField members field)
    (henforces : field.Enforces part) (henum : field.enum = part.enum) :
    part.PermitsIn members := by
  intro value hvalue
  rw [← henforces.name] at hvalue
  cases h with
  | leftOut hnone => cases hnone.symm.trans hvalue
  | skipped hnull hopt =>
      cases hnull.symm.trans hvalue
      refine .inl ⟨rfl, ?_⟩
      by_contra hrequired
      simp [henforces.required (by simpa using hrequired)] at hopt
  | given hvalue' hpermits _ =>
      cases hvalue'.symm.trans hvalue
      exact .inr fun permitted hpermitted => hpermits permitted (henum.trans hpermitted)

/-- An object that is accepted by a model is accepted by another whose fields the model enforces,
once it is cut down to their names, exactly if their enumerations have its values. -/
theorem accepts_restrict_iff {m m' : ModelId} {fields parts : List Field}
    (hshape : (set.model m).shape = .object fields)
    (hshape' : (set.model m').shape = .object parts) (henforce : Enforce fields parts)
    (haccepts : set.Accepts (.model m) (.obj members)) :
    set.Accepts (.model m') (.obj (members.restrict (parts.map (·.name)))) ↔
      ∀ part ∈ parts, part.PermitsIn members := by
  have hsame : ∀ part ∈ parts,
      (members.restrict (parts.map (·.name))).get? part.name = members.get? part.name :=
    fun part hmem => Keyed.get?_restrict (List.mem_map_of_mem hmem)
  rw [accepts_object_iff hshape']
  constructor
  · rintro ⟨restricted, heq, hall, -⟩ part hmem value hvalue
    cases heq
    rw [← hsame part hmem] at hvalue
    cases hall part hmem with
    | leftOut hnone => cases hnone.symm.trans hvalue
    | skipped hnull hopt =>
        cases hnull.symm.trans hvalue
        exact .inl ⟨rfl, hopt⟩
    | given hvalue' hpermits _ =>
        cases hvalue'.symm.trans hvalue
        exact .inr hpermits
  · intro hpermits
    obtain ⟨_, heq, hall, -⟩ := (accepts_object_iff hshape).mp haccepts
    cases heq
    refine ⟨_, rfl, fun part hmem => ?_, fun key hkey => ?_⟩
    · obtain ⟨field, hfield, henforces⟩ := henforce part hmem
      exact (hall field hfield).of_enforces henforces (hsame part hmem) (hpermits part hmem)
    · obtain ⟨part, hmem, rfl⟩ := List.mem_map.mp (Keyed.mem_names_of_mem_restrict hkey)
      rw [Model.field, Model.fields, hshape', List.find?_isSome]
      exact ⟨part, hmem, beq_self_eq_true _⟩

end ModelSet

/-! ## Accepted objects of compiled sets -/

theorem IsPropertyField.keepsEnum {doc : Document} {registry : Registry} {models : ModelTable} :
    PropertyLaw.KeepsEnum doc (IsPropertyField doc registry models) :=
  fun _ _ _ h => ⟨congrArg Field.name h.rest, congrArg Field.enum h.rest⟩

theorem IsPropertyField.keepsNames {doc : Document} {registry : Registry} {models : ModelTable} :
    PropertyLaw.KeepsNames (IsPropertyField doc registry models) :=
  fun _ _ _ h => congrArg Field.name h.rest

namespace Document

variable {doc : Document} {set : ModelSet}

/-- Without discriminators a schema that has fields has a model with these fields. -/
theorem compile_shape_of_hasFields (hnone : doc.Undiscriminated) (h : doc.compile = .ok set)
    {id : SchemaId} {m : ModelId} (hm : set.forSchema id = some m)
    (hobject : (doc.schema id).alternatives = []) :
    ∃ fields, (set.model m).shape = .object fields ∧
      HasFields doc (IsPropertyField doc .standard set.forSchema) id fields := by
  have hwf := compile_wellFormed h
  obtain ⟨context, hreached, hmeans⟩ :=
    ModelSet.means_model hwf (ModelSet.lt_size_of_forSchema hwf hm)
  rw [ModelSet.schema_of_forSchema hwf hm] at hmeans
  obtain ⟨fields, hshape⟩ := hmeans.exists_object hobject
  rw [hshape] at hmeans
  exact ⟨fields, hshape, hmeans.hasFields.imp fun _ _ _ =>
    IsField.isPropertyField (hreached.discriminators_eq_nil hnone)⟩

/-- Where an `allOf` schema accepts an object, a member with a model of its own accepts what the
object holds for its fields, exactly if each value is in the enumeration that the member has for it.
A field has its values there if no member before restricts the field. -/
theorem compile_decode_restrict (hdistinct : doc.DistinctProperties)
    (hnone : doc.Undiscriminated) (h : doc.compile = .ok set) {owner : SchemaId}
    {before after : List Edge} {member : Edge}
    (hsplit : (doc.schema owner).allOf = before ++ member :: after) {m m' : ModelId}
    (hm : set.forSchema owner = some m) (hm' : set.forSchema member.id = some m')
    {value : Json} {answer : Instance} (hdecode : set.decode (.model m) value = .ok answer) :
    ∃ (fields : List Field) (members : Keyed Json),
      (set.model m').shape = .object fields ∧ value = .obj members ∧
      (∀ field ∈ fields, (field.enum = none ∨
        ∀ earlier ∈ before, ¬ doc.Restricts earlier.id field.name) → field.PermitsIn members) ∧
      (set.Terminates (.model m') (.obj (members.restrict (fields.map (·.name)))) →
        ((∃ answer', set.decode (.model m') (.obj (members.restrict (fields.map (·.name)))) =
            .ok answer') ↔
          ∀ field ∈ fields, field.PermitsIn members)) := by
  have hne : (doc.schema owner).allOf ≠ [] := by simp [hsplit]
  obtain ⟨owned, hshape, howned⟩ :=
    compile_shape_of_hasFields hnone h hm (Schema.alternatives_of_allOf hne)
  obtain ⟨parts, hparts, henforce, hrestricted⟩ := howned.enforce_member
    IsPropertyField.keepsEnum IsPropertyField.keepsNames hdistinct hsplit
  obtain ⟨fields, hshape', hfields⟩ :=
    compile_shape_of_hasFields hnone h hm' hparts.alternatives_eq_nil
  -- The member has the same fields in the owner as in its own model.
  cases hfields.unique IsPropertyField.unique hparts
  have haccepts := (ModelSet.reads_of_decode hdecode).accepts
  obtain ⟨members, rfl, hall, -⟩ := (ModelSet.accepts_object_iff hshape).mp haccepts
  refine ⟨parts, members, hshape', rfl, ?_, ?_⟩
  · intro part hmem hcase
    by_cases henum : part.enum.isSome = true
    · have hfirst := hcase.resolve_left (Option.isSome_iff_ne_none.mp henum)
      obtain ⟨field, hfield, henforces⟩ := henforce part hmem
      exact (hall field hfield).permitsIn henforces
        (hrestricted part hmem henum hfirst field hfield henforces.name)
    · intro value _
      refine .inr fun permitted hpermitted => ?_
      simp [hpermitted] at henum
  · intro hends
    rw [← ModelSet.accepts_restrict_iff hshape hshape' henforce haccepts]
    constructor
    · rintro ⟨answer', hdecode'⟩
      exact (ModelSet.reads_of_decode hdecode').accepts
    · intro haccepts'
      rcases hends.decode (ModelSet.tagsInRange (compile_wellFormed h)) with
        ⟨answer', hok, -⟩ | ⟨-, hnot⟩
      · exact ⟨answer', hok⟩
      · exact absurd haccepts' hnot

/-! ## A restriction that is dropped -/

/-- An object of two members, both of which restrict the same name. The first has it from a member
of its own. -/
def twoEnums : Document where
  dialect := .openApi30
  schemas := #[
    { dialect := .openApi30, identity := some "A", type := some .object, required := ["f"]
      properties := [("f", { id := 4 })] },
    { dialect := .openApi30, identity := some "B", type := some .object
      properties := [("f", { id := 5 }), ("g", { id := 6 })] },
    { dialect := .openApi30, identity := some "M"
      allOf := [{ id := 0, reference := some "#/components/schemas/A" }] },
    { dialect := .openApi30, identity := some "S"
      allOf := [
        { id := 2, reference := some "#/components/schemas/M" },
        { id := 1, reference := some "#/components/schemas/B" }] },
    { dialect := .openApi30, identity := some "A.f", type := some .string
      enum := some [.str "a"] },
    { dialect := .openApi30, identity := some "B.f", type := some .string
      enum := some [.str "b"] },
    { dialect := .openApi30, identity := some "B.g", type := some .integer }]
  named := [("A", 0), ("B", 1), ("M", 2), ("S", 3)]

/-- The models of `twoEnums`. -/
def twoEnumsModels : ModelSet where
  models := #[
    { name := "A", schema := 0
      shape := .object [
        { name := "f", type := .scalar .text, required := true, enum := some [.str "a"] }] },
    { name := "B", schema := 1
      shape := .object [
        { name := "f", type := .scalar .text, enum := some [.str "b"] },
        { name := "g", type := .scalar .integer }] },
    { name := "M", schema := 2
      shape := .object [
        { name := "f", type := .scalar .text, required := true, enum := some [.str "a"] }] },
    { name := "S", schema := 3
      shape := .object [
        { name := "f", type := .scalar .text, required := true, enum := some [.str "a"] },
        { name := "g", type := .scalar .integer }] }]
  bySchema := [(3, 3), (2, 2), (1, 1), (0, 0)]
  roots := [
    ("A", some (.model 0)), ("B", some (.model 1)), ("M", some (.model 2)), ("S", some (.model 3))]

theorem twoEnums_compile : twoEnums.compile = .ok twoEnumsModels := by rfl

/-- The members of an object of `twoEnums`. -/
def twoEnumsMembers : Keyed Json := [("f", .str "a"), ("g", .num (.int 1))]

/-- The first member restricts `f` first, so it accepts what the object holds for it. -/
theorem twoEnums_decode_restrict :
    twoEnums.DistinctProperties ∧ twoEnums.Undiscriminated ∧
      twoEnums.compile = .ok twoEnumsModels ∧ twoEnums.Includes 3 2 ∧
      (∃ answer, twoEnumsModels.decode (.model 3) (.obj twoEnumsMembers) = .ok answer) ∧
      twoEnumsModels.Terminates (.model 2) (.obj (twoEnumsMembers.restrict ["f"])) ∧
      ∃ answer, twoEnumsModels.decode (.model 2) (.obj (twoEnumsMembers.restrict ["f"])) =
        .ok answer := by
  have hdistinct : twoEnums.DistinctProperties := by
    simp [DistinctProperties, twoEnums, Keyed.keys]
  have hnone : twoEnums.Undiscriminated := by simp [Undiscriminated, twoEnums]
  have hends : twoEnumsModels.Terminates (.model 2) (.obj (twoEnumsMembers.restrict ["f"])) :=
    ⟨2, by rfl⟩
  have hdecode : ∃ answer, twoEnumsModels.decode (.model 3) (.obj twoEnumsMembers) = .ok answer :=
    ⟨_, by rfl⟩
  let middle : Edge := { id := 2, reference := some "#/components/schemas/M" }
  have hsplit : (twoEnums.schema 3).allOf =
      [] ++ middle :: [{ id := 1, reference := some "#/components/schemas/B" }] := rfl
  have hincludes : twoEnums.Includes 3 2 := ⟨middle, by simp [hsplit], rfl⟩
  refine ⟨hdistinct, hnone, twoEnums_compile, hincludes, hdecode, hends, ?_⟩
  obtain ⟨answer, hdecode⟩ := hdecode
  obtain ⟨fields, members, hshape, heq, hpermits, hiff⟩ :=
    compile_decode_restrict hdistinct hnone twoEnums_compile hsplit rfl rfl hdecode
  cases hshape
  cases heq
  exact (hiff hends).mpr fun field hmem => hpermits field hmem (.inr (by simp))

/-- The second member refuses what the object holds for it: its restriction of `f` is dropped. -/
theorem twoEnums_restrict_refused :
    twoEnums.Undiscriminated ∧ twoEnums.compile = .ok twoEnumsModels ∧ twoEnums.Includes 3 1 ∧
      twoEnumsModels.forSchema 3 = some 3 ∧ twoEnumsModels.forSchema 1 = some 1 ∧
      (twoEnumsModels.model 1).fields.map (·.name) = ["f", "g"] ∧
      (∃ answer, twoEnumsModels.decode (.model 3) (.obj twoEnumsMembers) = .ok answer) ∧
      ∃ failure, twoEnumsModels.decode (.model 1) (.obj (twoEnumsMembers.restrict ["f", "g"])) =
        .error failure := by
  let second : Edge := { id := 1, reference := some "#/components/schemas/B" }
  have hincludes : twoEnums.Includes 3 1 :=
    ⟨second, List.mem_cons_of_mem _ (List.mem_singleton.mpr rfl), rfl⟩
  exact ⟨by simp [Undiscriminated, twoEnums], twoEnums_compile, hincludes, rfl, rfl, rfl,
    ⟨_, by rfl⟩, _, by rfl⟩

end Document
end OpenApi
