-- SUMMARY: A member that is included already, directly or by another member, may be included once more.
import Mathlib
import OpenApi.Document.Load
import OpenApi.Proofs.Compilation.Again

/-!
# Repeated members

A schema may include another more than once, by several of its members. Each time the
fields of the other are computed anew. They come out as they did before, since all
models that they refer to are there, and the compilation stays as it is. Absorbing them
changes nothing either: for each of them there is a merged field already that has its
type and all that it could add. So a schema that includes another already is merged as
before when its list of members gets one more edge to it, and so is the whole document.
-/

namespace OpenApi

open Relation (ReflTransGen TransGen)

/-! ## Fields that are there already -/

/-- A field has all that another one of its name could add to it. -/
structure Field.Subsumes (field part : Field) : Prop where
  name : field.name = part.name
  type : field.type = part.type
  required : part.required = true → field.required = true
  default : field.default = none → part.default = none
  enum : field.enum = none → part.enum = none

namespace Field.Subsumes

variable {field part inner : Field}

theorem refl (field : Field) : field.Subsumes field := ⟨rfl, rfl, id, id, id⟩

theorem trans (h : field.Subsumes part) (h' : part.Subsumes inner) : field.Subsumes inner where
  name := h.name.trans h'.name
  type := h.type.trans h'.type
  required := fun hinner => h.required (h'.required hinner)
  default := fun hnone => h'.default (h.default hnone)
  enum := fun hnone => h'.enum (h.enum hnone)

theorem requireField (h : field.Subsumes part) (schema : Schema) :
    (schema.requireField field).Subsumes part :=
  ⟨h.name, h.type, fun hpart => by simp [h.required hpart], h.default, h.enum⟩

theorem combine_eq (h : field.Subsumes part) : field.combine part = field := by
  have hrequired : (field.required || part.required) = field.required :=
    Bool.or_eq_left_iff_imp.mpr h.required
  have hor {α : Type} {first second : Option α} (hnone : first = none → second = none) :
      first.or second = first := by
    cases first with
    | some _ => rfl
    | none => exact hnone rfl
  simp only [Field.combine, hrequired, hor h.default, hor h.enum]

end Field.Subsumes

section Absorb

variable {model : String} {fields parts : List Field} {part : Field}

/-- A field that adds nothing is absorbed without a change. -/
theorem absorbField_of_subsumes (hnodup : (fields.map (·.name)).Nodup)
    (h : ∃ field ∈ fields, field.Subsumes part) :
    absorbField model fields part = .ok fields := by
  obtain ⟨field, hmem, hsubsumes⟩ := h
  induction fields with
  | nil => cases hmem
  | cons first rest ih =>
      rw [List.map_cons, List.nodup_cons] at hnodup
      rcases List.mem_cons.mp hmem with rfl | hmem
      · simp only [absorbField, hsubsumes.name, hsubsumes.type, if_true, hsubsumes.combine_eq]
      · have hne : first.name ≠ part.name := by
          intro hname
          refine hnodup.1 ?_
          rw [hname, ← hsubsumes.name]
          exact List.mem_map_of_mem hmem
        simp only [absorbField, if_neg hne, ih hnodup.2 hmem]
        rfl

theorem absorb_of_subsumes (hnodup : (fields.map (·.name)).Nodup)
    (h : ∀ part ∈ parts, ∃ field ∈ fields, field.Subsumes part) :
    absorb model fields parts = .ok fields := by
  induction parts with
  | nil => rfl
  | cons part rest ih =>
      rw [List.forall_mem_cons] at h
      rw [absorb_cons, absorbField_of_subsumes hnodup h.1, ok_bind, ih h.2]

/-- What has been merged is there. -/
theorem Merges.exists_subsumes (h : Merges parts fields) (hmem : part ∈ parts) :
    ∃ field ∈ fields, field.Subsumes part := by
  obtain ⟨field, hfield, hname⟩ := h.exists_field hmem
  have hjoins := h.joins field hfield
  refine ⟨field, hfield, hname, (hjoins.type part hmem hname.symm).symm, ?_, ?_, ?_⟩
  · intro hrequired
    rw [hjoins.required, List.any_eq_true]
    exact ⟨part, hmem, by simp [hname, hrequired]⟩
  · intro hnone
    rw [hjoins.default, List.findSome?_eq_none_iff] at hnone
    simpa [hname] using hnone part hmem
  · intro hnone
    rw [hjoins.enum, List.findSome?_eq_none_iff] at hnone
    simpa [hname] using hnone part hmem

end Absorb

/-! ## Members that are included again -/

namespace Compile

variable {α β : Type} {doc : Document}

/-- What is done for one of several elements is done between the start and the end. -/
theorem exists_of_mapM_eq_ok {elements : List α} {step : α → Compile β}
    (hretains : ∀ element state, (step element).Retains doc state)
    {state after : Compilation} {answers : List β}
    (h : elements.mapM step state = (.ok answers, after)) {element : α} (hmem : element ∈ elements) :
    ∃ now next answer, step element now = (.ok answer, next) ∧ answer ∈ answers ∧
      state.Retains doc now ∧ next.Retains doc after := by
  induction elements generalizing state answers with
  | nil => cases hmem
  | cons first rest ih =>
      rw [List.mapM_cons] at h
      simp only [bind_eq_ok_iff] at h
      obtain ⟨answer, middle, hfirst, more, _, hmore, ⟨⟩⟩ := h
      have hmiddle := (hretains first state).of_ok hfirst
      rcases List.mem_cons.mp hmem with rfl | hmem
      · have hafter : (rest.mapM step).Retains doc middle :=
          retains_mapM fun element now _ => hretains element now
        exact ⟨state, middle, answer, hfirst, List.mem_cons_self, .refl state, hafter.of_ok hmore⟩
      · obtain ⟨now, next, answer', hstep, hanswer, hnow, hnext⟩ := ih hmore hmem
        exact ⟨now, next, answer', hstep, List.mem_cons_of_mem _ hanswer, hmiddle.trans hnow, hnext⟩

end Compile

section Members

variable {doc : Document} {registry : Registry} {context : Context} {model : String}

/-- A member that has members has merged what those contribute. -/
theorem exists_contribution_of_member {depth : Nat} {owner : Schema} {member edge : Edge}
    (hedge : edge ∈ (doc.schema member.id).allOf) {state after : Compilation} {fields : List Field}
    (h : contribution doc (requests doc registry depth) context model owner member state =
      (.ok fields, after)) :
    ∃ inner start next parts, inner ≤ depth ∧
      contribution doc (requests doc registry inner) context model (doc.schema member.id) edge
        start = (.ok parts, next) ∧
      start.merging = member.id :: state.merging ∧ next.Within doc after ∧
      ∀ part ∈ parts, ∃ field ∈ fields, field.Subsumes part := by
  rcases contribution_cases doc context model owner member with
    ⟨-, heq⟩ | ⟨⟨hnone, -⟩, -⟩ | ⟨-, _, _, heq⟩
  · rw [heq] at h
    cases depth with
    | zero => cases h
    | succ depth =>
        obtain ⟨-, all, merged, now, hall, habsorb, rfl, rfl⟩ := mergedFields_eq_ok_iff.mp h
        obtain ⟨contributed, middle, own, hmap, hown, rfl⟩ := memberParts_eq_ok_iff.mp hall
        have hretain := requests_retain doc registry depth
        obtain ⟨start, next, parts, hparts, hmem, hstart, hnext⟩ :=
          Compile.exists_of_mapM_eq_ok (fun member state =>
            contribution_retains hretain context model state _ member) hmap hedge
        have hnow : next.Within doc now :=
          (hnext.trans ((fieldsOf_retains hretain context middle _).of_ok hown)).within
        have hmerges : Merges (contributed.flatten ++ own) merged := Merges.nil.absorb habsorb
        refine ⟨depth, start, next, parts, Nat.le_succ depth, hparts, hstart.merging,
          ⟨hnow.models, hnow.anchors, hnow.unmodelled⟩, fun part hpart => ?_⟩
        obtain ⟨joined, hjoined, hjoins⟩ := hmerges.exists_subsumes
          (List.mem_append_left _ (List.mem_flatten.mpr ⟨parts, hmem, hpart⟩))
        exact ⟨_, requireField_mem hjoined, hjoins.requireField _⟩
  · rw [Schema.allOf_of_none hnone] at hedge
    cases hedge
  · rw [heq] at h
    cases h

/-- What a member of members has contributed, it contributes again to any owner, and all of it is
there already. -/
theorem contribution_included {last : Edge} {first : SchemaId}
    (hwalk : ReflTransGen doc.Includes first last.id) {depth : Nat} {owner : Schema}
    {member : Edge} (hmember : member.id = first) {state after : Compilation} {fields : List Field}
    (h : contribution doc (requests doc registry depth) context model owner member state =
      (.ok fields, after)) {depth' : Nat} (hle : depth ≤ depth') (owner' : Schema)
    {later : Compilation} (hlater : after.Within doc later)
    (hmerging : later.merging ⊆ state.merging) :
    ∃ parts, (∀ part ∈ parts, ∃ field ∈ fields, field.Subsumes part) ∧
      contribution doc (requests doc registry depth') context model owner' last later =
        (.ok parts, later) := by
  -- The walk goes down into what was merged; the time at which all is repeated stays.
  induction hwalk using ReflTransGen.head_induction_on
    generalizing depth owner member state after fields with
  | refl =>
      refine ⟨fields, fun part hpart => ⟨part, hpart, .refl part⟩, ?_⟩
      exact contribution_again (requests_again doc registry hle) (requests_retain doc registry depth)
        context model owner owner' hmember.symm h hlater hmerging
  | head hstep _ ih =>
      subst hmember
      obtain ⟨edge, hedge, hid⟩ := hstep
      obtain ⟨inner, start, next, parts, hinner, hparts, hstart, hnext, hsubsumes⟩ :=
        exists_contribution_of_member hedge h
      have hmerging' : later.merging ⊆ start.merging := by
        rw [hstart]
        exact fun part hpart => List.mem_cons_of_mem _ (hmerging hpart)
      obtain ⟨found, hfound, hagain⟩ := ih hid hparts (Nat.le_trans hinner hle)
        (hnext.trans hlater) hmerging'
      refine ⟨found, fun part hpart => ?_, hagain⟩
      obtain ⟨middle, hmiddle, hpart'⟩ := hfound part hpart
      obtain ⟨field, hfield, hmiddle'⟩ := hsubsumes middle hmiddle
      exact ⟨field, hfield, hmiddle'.trans hpart'⟩

/-- Behind its members a schema may absorb once more what one of them includes. -/
theorem absorbEach_included {schema : Schema} {depth : Nat} {member last : Edge}
    (hmember : member ∈ schema.allOf) (hwalk : ReflTransGen doc.Includes member.id last.id) :
    let contribute := contribution doc (requests doc registry depth) context model schema
    absorbEach contribute model (schema.allOf ++ [last]) [] =
      absorbEach contribute model schema.allOf [] := by
  intro contribute
  have hsplit : absorbEach contribute model (schema.allOf ++ [last]) [] = (do
      let inherited ← absorbEach contribute model schema.allOf []
      absorbEach contribute model [last] inherited) := by
    simp only [absorbEach, List.foldlM_append]
  rw [hsplit]
  funext state
  rw [Compile.bind_apply]
  rcases hall : absorbEach contribute model schema.allOf [] state with
    ⟨error | inherited, after⟩
  · rfl
  · obtain ⟨contributed, hmap, habsorb⟩ := absorbEach_eq_ok_iff.mp hall
    have hretains := fun member state =>
      contribution_retains (requests_retain doc registry depth) context model state schema member
    obtain ⟨now, next, answer, hanswer, hmem, hnow, hnext⟩ :=
      Compile.exists_of_mapM_eq_ok hretains hmap hmember
    have hmerging : after.merging ⊆ now.merging := by
      rw [(Compile.retains_mapM fun member now _ => hretains member now).of_ok hmap |>.merging,
        hnow.merging]
      exact List.Subset.refl _
    obtain ⟨parts, hparts, hagain⟩ := contribution_included hwalk rfl hanswer (Nat.le_refl _) schema
      hnext.within hmerging
    have hmerges : Merges contributed.flatten inherited := Merges.nil.absorb habsorb
    have habsorb' : absorb model inherited parts = .ok inherited := by
      refine absorb_of_subsumes hmerges.nodup fun part hpart => ?_
      obtain ⟨field, hfield, hsubsumes⟩ := hparts part hpart
      obtain ⟨joined, hjoined, hjoins⟩ :=
        hmerges.exists_subsumes (List.mem_flatten.mpr ⟨answer, hmem, hfield⟩)
      exact ⟨joined, hjoined, hjoins.trans hsubsumes⟩
    exact absorbEach_eq_ok_iff.mpr ⟨[parts], by
      simp only [List.mapM_cons, List.mapM_nil, Compile.bind_eq_ok_iff]
      exact ⟨parts, after, hagain, [], after, rfl, rfl⟩, by simpa using habsorb'⟩

end Members

/-! ## Documents with one more edge -/

namespace Document

/-- The document in which the member list of a schema has one more edge at its end. -/
def withMember (doc : Document) (id : SchemaId) (edge : Edge) : Document :=
  doc.replace id { doc.schema id with allOf := (doc.schema id).allOf ++ [edge] }

end Document

section Steps

variable {doc : Document} {registry : Registry} {ask : Requests} {context : Context}
variable {model : String} {id : SchemaId} {edge : Edge} (hid : (doc.schema id).allOf ≠ [])
include hid

/-- Only the member list of the one schema differs. -/
theorem schema_withMember (edge : Edge) (other : SchemaId) :
    (doc.withMember id edge).schema other = doc.schema other ∨
      other = id ∧ (doc.withMember id edge).schema other =
        { doc.schema id with allOf := (doc.schema id).allOf ++ [edge] } := by
  have hlt : id < doc.schemas.size := doc.lt_size_of_ne fun h => hid (by rw [h])
  by_cases hother : other = id
  · subst hother
    exact .inr ⟨rfl, doc.schema_replace_self hlt _⟩
  · exact .inl (doc.schema_replace_of_ne hother _)

theorem schema_withMember_eq (edge : Edge) (other : SchemaId) :
    (doc.withMember id edge).schema other =
      { doc.schema other with allOf := ((doc.withMember id edge).schema other).allOf } := by
  rcases schema_withMember hid edge other with heq | ⟨rfl, heq⟩ <;> rw [heq]

/-- A schema with members has the same kind of combination with one more. -/
theorem combination_withMember (edge : Edge) (other : SchemaId) :
    (doc.withMember id edge).schema other = doc.schema other ∨
      ∃ members members', (doc.schema other).combination = .allOf members ∧
        ((doc.withMember id edge).schema other).combination = .allOf members' := by
  rcases schema_withMember hid edge other with heq | ⟨rfl, heq⟩
  · exact .inl heq
  · obtain ⟨members, hmembers⟩ := Schema.exists_combination_of_allOf hid
    refine .inr ⟨members, (doc.schema other).allOf ++ [edge], hmembers, ?_⟩
    rw [heq]
    simp [Schema.combination]

/-! ### Fields and members -/

theorem fieldsOf_withMember (schema : Schema) :
    fieldsOf (doc.withMember id edge) ask context schema = fieldsOf doc ask context schema := by
  unfold fieldsOf
  congr 1
  funext ⟨name, child⟩
  change fieldOf _ ask context schema name child = fieldOf doc ask context schema name child
  unfold fieldOf
  rw [schema_withMember_eq hid]

theorem fieldsOf_schema_withMember (other : SchemaId) :
    fieldsOf (doc.withMember id edge) ask context ((doc.withMember id edge).schema other) =
      fieldsOf doc ask context (doc.schema other) := by
  rw [fieldsOf_withMember hid, schema_withMember_eq hid]
  rfl

theorem contribution_withMember (owner : SchemaId) (member : Edge) :
    contribution (doc.withMember id edge) ask context model
        ((doc.withMember id edge).schema owner) member =
      contribution doc ask context model (doc.schema owner) member := by
  rw [schema_withMember_eq hid edge owner]
  rcases combination_withMember hid edge member.id with heq | ⟨_, _, hcomb, hcomb'⟩
  · unfold contribution
    rw [heq]
    simp only [fieldsOf_withMember hid]
    rfl
  · simp only [contribution, hcomb, hcomb']

/-- The schema itself absorbs once more what it includes already. -/
theorem mergeMembers_withMember (hincludes : TransGen doc.Includes id edge.id) {depth : Nat}
    (other : SchemaId) :
    mergeMembers (doc.withMember id edge) (requests doc registry depth) context model
        ((doc.withMember id edge).schema other) =
      mergeMembers doc (requests doc registry depth) context model (doc.schema other) := by
  have hcontribution : contribution (doc.withMember id edge) (requests doc registry depth) context
        model ((doc.withMember id edge).schema other) =
      contribution doc (requests doc registry depth) context model (doc.schema other) :=
    funext (contribution_withMember hid other)
  have hinherited : absorbEach (contribution doc (requests doc registry depth) context model
        (doc.schema other)) model ((doc.withMember id edge).schema other).allOf [] =
      absorbEach (contribution doc (requests doc registry depth) context model
        (doc.schema other)) model (doc.schema other).allOf [] := by
    rcases schema_withMember hid edge other with heq | ⟨rfl, heq⟩
    · rw [heq]
    · obtain ⟨_, ⟨member, hmember, rfl⟩, hwalk⟩ := TransGen.head'_iff.mp hincludes
      rw [heq]
      exact absorbEach_included hmember hwalk
  rw [mergeMembers_eq, mergeMembers_eq, hcontribution, hinherited]
  simp only [fieldsOf_schema_withMember hid]
  rw [schema_withMember_eq hid]
  rfl

theorem mergedFields_withMember_of_requests (hincludes : TransGen doc.Includes id edge.id)
    {depth : Nat} (other : SchemaId) :
    mergedFields (doc.withMember id edge) (requests doc registry depth) context model other =
      mergedFields doc (requests doc registry depth) context model other := by
  unfold mergedFields
  simp only [mergeMembers_withMember hid hincludes]
  rw [schema_withMember_eq hid]
  rfl

/-! ### Unions and anchors -/

theorem unionOf_withMember (other : SchemaId) (members : List Edge) :
    unionOf (doc.withMember id edge) ask context other members =
      unionOf doc ask context other members := by
  have hstep : memberStep (doc.withMember id edge) = memberStep doc := by
    funext member
    unfold memberStep
    rw [schema_withMember_eq hid]
    rfl
  unfold unionOf alternativesOf
  rw [hstep, schema_withMember_eq hid]
  rfl

theorem registerAnchor_withMember (other : SchemaId) :
    registerAnchor (doc.withMember id edge) ask context other =
      registerAnchor doc ask context other := by
  unfold registerAnchor
  rw [schema_withMember_eq hid]
  rfl

/-! ### Models and types -/

theorem isAnchor_withMember (edge : Edge) (other : SchemaId) :
    ((doc.withMember id edge).schema other).isAnchor = (doc.schema other).isAnchor := by
  rcases combination_withMember hid edge other with heq | ⟨_, _, hcomb, hcomb'⟩
  · rw [heq]
  · have hne {members : List Edge} : (Combination.allOf members == .none) = false := rfl
    simp only [Schema.isAnchor, hcomb, hcomb', hne, Bool.and_false, Bool.false_and]

variable {depth : Nat} (hincludes : TransGen doc.Includes id edge.id)
include hincludes

theorem shapeOf_withMember (name : String) (other : SchemaId) :
    shapeOf (doc.withMember id edge) (requests doc registry depth) context name other =
      shapeOf doc (requests doc registry depth) context name other := by
  rcases combination_withMember hid edge other with heq | ⟨_, _, hcomb, hcomb'⟩
  · unfold shapeOf
    simp only [heq, mergedFields_withMember_of_requests hid hincludes, unionOf_withMember hid,
      fieldsOf_withMember hid]
  · simp only [shapeOf, hcomb, hcomb', mergedFields_withMember_of_requests hid hincludes]

theorem modelType_withMember (other : SchemaId) :
    modelType (doc.withMember id edge) (requests doc registry depth) context other =
      modelType doc (requests doc registry depth) context other := by
  unfold modelType buildModel
  simp only [isAnchor_withMember hid, registerAnchor_withMember hid,
    shapeOf_withMember hid hincludes]
  rw [schema_withMember_eq hid]
  rfl

theorem typeOf_withMember (other : SchemaId) :
    typeOf (doc.withMember id edge) registry (requests doc registry depth) context other =
      typeOf doc registry (requests doc registry depth) context other := by
  unfold typeOf
  simp only [modelType_withMember hid hincludes]
  rw [schema_withMember_eq hid]
  rfl

/-- Requests of any depth are answered as in the document with one edge less. -/
theorem requests_withMember (registry : Registry) (depth : Nat) :
    requests (doc.withMember id edge) registry depth = requests doc registry depth := by
  induction depth with
  | zero => rfl
  | succ depth ih =>
      simp only [requests, ih, typeOf_withMember hid hincludes,
        mergedFields_withMember_of_requests hid hincludes]

omit hincludes in
theorem finish_withMember (edge : Edge) (state : Compilation) :
    state.finish (doc.withMember id edge) = state.finish doc := by
  have hmodels (memo : List (SchemaId × ModelId)) (place : Nat) (slots : List (Option Model)) :
      Compilation.modelsOf (doc.withMember id edge) memo place slots =
        Compilation.modelsOf doc memo place slots := by
    induction slots generalizing place with
    | nil => rfl
    | cons slot rest ih =>
        cases slot with
        | some model => simp only [Compilation.modelsOf, ih]
        | none =>
            have hlabel : (fun entry : SchemaId × ModelId =>
                ((doc.withMember id edge).schema entry.1).label) =
                  fun entry => (doc.schema entry.1).label := by
              funext entry
              rw [schema_withMember_eq hid]
              rfl
            simp only [Compilation.modelsOf, hlabel]
  simp only [Compilation.finish, hmodels]

end Steps

namespace Document

variable {doc : Document} {id : SchemaId} {edge : Edge}

theorem depth_withMember (doc : Document) (id : SchemaId) (edge : Edge) :
    (doc.withMember id edge).depth = doc.depth := by
  simp [depth, withMember, replace]

/-- A schema that includes another already, directly or by its members, may include it once more:
its fields are merged as before, with the same answer or error and the same compilation behind,
wherever merging starts. The document compiles as before. -/
theorem mergedFields_withMember (hincludes : TransGen doc.Includes id edge.id) :
    (∀ registry depth context model state,
      mergedFields (doc.withMember id edge) (requests (doc.withMember id edge) registry depth)
          context model id state =
        mergedFields doc (requests doc registry depth) context model id state) ∧
      (doc.withMember id edge).compile = doc.compile := by
  have hid : (doc.schema id).allOf ≠ [] := by
    obtain ⟨_, ⟨member, hmember, -⟩, -⟩ := TransGen.head'_iff.mp hincludes
    exact List.ne_nil_of_mem hmember
  have hrequests := requests_withMember hid hincludes
  refine ⟨fun registry depth context model state => ?_, ?_⟩
  · rw [hrequests, mergedFields_withMember_of_requests hid hincludes]
  · have hschema : Compile.schema (doc.withMember id edge) = Compile.schema doc := by
      funext registry id
      simp only [Compile.schema, hrequests, depth_withMember]
    have hdiscriminator (other : SchemaId) :
        ((doc.withMember id edge).schema other).discriminator =
          (doc.schema other).discriminator := by
      rw [schema_withMember_eq hid]
    have hnamed : (doc.withMember id edge).compileNamed = doc.compileNamed := by
      simp only [compileNamed, Compile.named, hschema, hdiscriminator]
      rfl
    simp only [compile, hnamed, finish_withMember hid]

/-! ## Vehicles that are cars and vehicles -/

/-- Vehicles have keepers, which may be cars, and trailers, which are vehicles again. Amphibians are
cars, and may be something more. -/
def vehiclesValue (more : List Json) : Json :=
  .obj [
    ("openapi", .str "3.0.3"),
    ("components", .obj [("schemas", .obj [
      ("Vehicle", .obj [
        ("type", .str "object"),
        ("required", .arr [.str "keeper"]),
        ("properties", .obj [
          ("keeper", .obj [("$ref", .str "#/components/schemas/Keeper")]),
          ("trailers", .obj [
            ("type", .str "array"),
            ("items", .obj [("$ref", .str "#/components/schemas/Vehicle")])])])]),
      ("Car", .obj [("allOf", .arr [.obj [("$ref", .str "#/components/schemas/Vehicle")]])]),
      ("Amphibian", .obj [
        ("allOf", .arr (.obj [("$ref", .str "#/components/schemas/Car")] :: more)),
        ("properties", .obj [
          ("keeper", .obj [("$ref", .str "#/components/schemas/Keeper")])])]),
      ("Keeper", .obj [("discriminator", .obj [
        ("propertyName", .str "kind"),
        ("mapping", .obj [("car", .str "Car")])])])])])]

/-- The document of vehicles in which amphibians are just cars. -/
def vehicles : Document where
  dialect := .openApi30
  schemas := #[
    { dialect := .openApi30, identity := some "Vehicle", type := some .object
      properties := [
        ("keeper", { id := 3, reference := some "#/components/schemas/Keeper" }),
        ("trailers", { id := 4 })]
      required := ["keeper"] },
    { dialect := .openApi30, identity := some "Car"
      allOf := [{ id := 0, reference := some "#/components/schemas/Vehicle" }] },
    { dialect := .openApi30, identity := some "Amphibian"
      allOf := [{ id := 1, reference := some "#/components/schemas/Car" }]
      properties := [("keeper", { id := 3, reference := some "#/components/schemas/Keeper" })] },
    { dialect := .openApi30, identity := some "Keeper"
      discriminator := some { property := "kind", mapping := some [("car", "Car")] } },
    { dialect := .openApi30, identity := some "Vehicle.trailers", type := some .array
      items := some { id := 0, reference := some "#/components/schemas/Vehicle" } }]
  named := [("Vehicle", 0), ("Car", 1), ("Amphibian", 2), ("Keeper", 3)]

/-- The edge to vehicles. -/
def vehicleEdge : Edge where
  id := 0
  reference := some "#/components/schemas/Vehicle"

/-- Amphibians that are cars, and so vehicles, may be vehicles once more. -/
theorem vehicles_withMember :
    ofJson (vehiclesValue []) = .ok vehicles ∧
      ofJson (vehiclesValue [.obj [("$ref", .str "#/components/schemas/Vehicle")]]) =
        .ok (vehicles.withMember 2 vehicleEdge) ∧
      TransGen vehicles.Includes 2 vehicleEdge.id ∧
      ∃ set m, vehicles.compile = .ok set ∧
        (vehicles.withMember 2 vehicleEdge).compile = .ok set ∧
        set.forSchema 2 = some m ∧ (set.model m).fields.map (·.name) = ["keeper", "trailers"] := by
  have hload : ofJson (vehiclesValue []) = .ok vehicles := by cbv
  have hload' : ofJson (vehiclesValue [.obj [("$ref", .str "#/components/schemas/Vehicle")]]) =
      .ok (vehicles.withMember 2 vehicleEdge) := by cbv
  have hincludes : TransGen vehicles.Includes 2 vehicleEdge.id :=
    .tail (.single ⟨_, List.mem_cons_self, rfl⟩) ⟨_, List.mem_cons_self, rfl⟩
  obtain ⟨set, m, hset, hm, hfields⟩ : ∃ set m, vehicles.compile = .ok set ∧
      set.forSchema 2 = some m ∧ (set.model m).fields.map (·.name) = ["keeper", "trailers"] :=
    ⟨_, _, rfl, rfl, rfl⟩
  exact ⟨hload, hload', hincludes, set, m, hset,
    (mergedFields_withMember hincludes).2.trans hset, hm, hfields⟩

end Document
end OpenApi
