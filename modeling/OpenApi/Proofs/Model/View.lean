-- SUMMARY: What the view of a model set says of its types, fields, shapes and roots.
import OpenApi.View
import OpenApi.Proofs.Decoding.Rereading
import OpenApi.Proofs.Json.Intact
import OpenApi.Proofs.Model.Members

/-!
# What views tell apart

Two sets with one view have models at the same indices, and the shapes at one index agree
in nearly all that decoding reads of them: the names and types of fields, what is required
and what a field is restricted to, the alternatives of unions, and the property of a
discriminator. An anchor may be another schema, but it has the same variants. The view of a
discriminator leaves out its mapping, and says only which alternatives its tags select.
-/

namespace OpenApi

/-- Lists that two functions map to the same list agree entry by entry. -/
theorem forall₂_of_map_eq {α β γ : Type} {f : α → γ} {g : β → γ} {xs : List α} {ys : List β}
    (h : xs.map f = ys.map g) : List.Forall₂ (fun x y => f x = g y) xs ys := by
  have hsame : List.Forall₂ (· = ·) (xs.map f) (ys.map g) := List.forall₂_eq_eq_eq ▸ h
  rwa [List.forall₂_map_left_iff, List.forall₂_map_right_iff] at hsame

/-- A scalar type is known by its primitive type and, unless it is the plain one, its name. -/
theorem ScalarType.eq_of_view {type type' : ScalarType}
    (htag : type.primitive.tag = type'.primitive.tag)
    (hformat : (if type.isPlain then none else some type.name) =
      if type'.isPlain then none else some type'.name) : type = type' := by
  revert htag hformat
  cases type <;> cases type' <;> decide

namespace ModelSet

variable {set set' : ModelSet}

/-! ## Types -/

/-- Types of two sets that the views show alike. An anchor may be made by another schema. -/
inductive SameType (set set' : ModelSet) : Ty → Ty → Prop where
  | scalar (type : ScalarType) : SameType set set' (.scalar type) (.scalar type)
  | array {item item' : Ty} :
      SameType set set' item item' → SameType set set' (.array item) (.array item')
  | model (m : ModelId) : SameType set set' (.model m) (.model m)
  | literal (tag : String) : SameType set set' (.literal tag) (.literal tag)
  | anchor {schema schema' : SchemaId} :
      (set.anchor schema).map (·.variants) = (set'.anchor schema').map (·.variants) →
        SameType set set' (.anchor schema) (.anchor schema')

theorem link_inj {m m' : ModelId} (h : set.link m = set'.link m') : m = m' := by
  simp only [link, linkMembers, Json.obj.injEq, List.cons.injEq, Prod.mk.injEq, Json.num.injEq,
    Number.int.injEq] at h
  exact Int.ofNat_inj.mp h.1.2

theorem links_inj {variants variants' : List ModelId}
    (h : variants.map set.link = variants'.map set'.link) : variants = variants' := by
  have hsame := (forall₂_of_map_eq h).imp fun _ _ => link_inj
  rwa [List.forall₂_eq_eq_eq] at hsame

/-- The members of a scalar type: one for its primitive type, and one for its format. -/
theorem scalar_members (set : ModelSet) (type : ScalarType) :
    set.typeMembers (.scalar type) = ("type", .str type.primitive.tag) ::
      ((if type.isPlain then none else some type.name).map fun name =>
        ("format", Json.str name)).toList := by
  rw [typeMembers]
  split <;> rfl

/-- The members of an anchor: its variants, or a type that no scalar has. -/
theorem anchor_members (set : ModelSet) (schema : SchemaId) :
    (set.anchor schema = none ∧ set.typeMembers (.anchor schema) = [("type", .str "any")]) ∨
    ∃ anchor, set.anchor schema = some anchor ∧
      set.typeMembers (.anchor schema) =
        [("anchor", .str anchor.name), ("oneOf", .arr (anchor.variants.map set.link))] := by
  rw [typeMembers]
  cases hanchor : set.anchor schema with
  | none => exact .inl ⟨rfl, rfl⟩
  | some anchor => exact .inr ⟨anchor, rfl, rfl⟩

/-- The members of an anchor start with its name, or with a type that no scalar has. -/
theorem cons_ne_anchor {schema : SchemaId} {entry : String × Json} {rest : List (String × Json)}
    (hname : entry.1 ≠ "anchor") (hany : entry ≠ ("type", .str "any")) :
    entry :: rest ≠ set.typeMembers (.anchor schema) := by
  intro h
  rcases anchor_members set schema with ⟨-, heq⟩ | ⟨_, -, heq⟩ <;> rw [heq] at h
  · exact hany (List.cons.inj h).1
  · exact hname (congrArg Prod.fst (List.cons.inj h).1)

theorem tag_ne_any (p : Primitive) : p.tag ≠ "any" := by cases p <;> decide

theorem tag_scalar_ne_array (type : ScalarType) : type.primitive.tag ≠ "array" := by
  cases type <;> decide

theorem eq_model_of_members {m : ModelId} {type : Ty}
    (h : set.linkMembers m = set'.typeMembers type) : type = .model m := by
  cases type with
  | model m' => exact congrArg Ty.model (link_inj (congrArg Json.obj h)).symm
  | anchor schema => exact absurd h (cons_ne_anchor (by simp) (by simp))
  | _ => simp [typeMembers, linkMembers] at h

theorem eq_array_of_members {items : Json} {type : Ty}
    (h : [("type", Json.str "array"), ("items", items)] = set.typeMembers type) :
    ∃ item, type = .array item ∧ items = .obj (set.typeMembers item) := by
  cases type with
  | array item => simpa [typeMembers] using h
  | scalar type => simp [typeMembers, (tag_scalar_ne_array type).symm] at h
  | anchor schema => exact absurd h (cons_ne_anchor (by simp) (by simp))
  | _ => simp [typeMembers, linkMembers] at h

theorem eq_literal_of_members {tag : String} {type : Ty}
    (h : [("type", Json.str "string"), ("const", .str tag)] = set.typeMembers type) :
    type = .literal tag := by
  cases type with
  | literal tag' => simpa [typeMembers, eq_comm] using h
  | scalar type =>
      rw [scalar_members] at h
      generalize (if type.isPlain then none else some type.name) = format at h
      cases format <;> simp at h
  | anchor schema => exact absurd h (cons_ne_anchor (by simp) (by simp))
  | _ => simp [typeMembers, linkMembers] at h

theorem eq_scalar_of_members {scalar : ScalarType} {type : Ty}
    (h : set.typeMembers (.scalar scalar) = set'.typeMembers type) : type = .scalar scalar := by
  rw [scalar_members] at h
  generalize hformat : (if scalar.isPlain then none else some scalar.name) = format at h
  cases type with
  | scalar scalar' =>
      rw [scalar_members] at h
      generalize hformat' : (if scalar'.isPlain then none else some scalar'.name) = format' at h
      obtain ⟨htag, hrest⟩ := List.cons.inj h
      have heq : format = format' := by
        cases format <;> cases format' <;> simp_all
      rw [ScalarType.eq_of_view (Json.str.inj (Prod.mk.inj htag).2)
        (hformat.trans (heq.trans hformat'.symm))]
  | literal tag => cases format <;> simp [typeMembers] at h
  | anchor schema => exact absurd h (cons_ne_anchor (by simp) (by simp [tag_ne_any]))
  | _ => simp [typeMembers, linkMembers, tag_scalar_ne_array] at h

theorem eq_anchor_of_members {schema : SchemaId} {type : Ty}
    (h : set.typeMembers (.anchor schema) = set'.typeMembers type) :
    ∃ schema', type = .anchor schema' ∧
      (set.anchor schema).map (·.variants) = (set'.anchor schema').map (·.variants) := by
  cases type with
  | scalar scalar => cases eq_scalar_of_members h.symm
  | array item =>
      rw [typeMembers] at h
      obtain ⟨_, heq, -⟩ := eq_array_of_members h.symm
      cases heq
  | model m => cases eq_model_of_members h.symm
  | literal tag => cases eq_literal_of_members h.symm
  | anchor schema' =>
      refine ⟨schema', rfl, ?_⟩
      rcases anchor_members set schema with ⟨hanchor, heq⟩ | ⟨anchor, hanchor, heq⟩ <;>
      rcases anchor_members set' schema' with ⟨hanchor', heq'⟩ | ⟨anchor', hanchor', heq'⟩ <;>
      rw [heq, heq'] at h
      · rw [hanchor, hanchor']
      · simp at h
      · simp at h
      · simp only [List.cons.injEq, Prod.mk.injEq, Json.arr.injEq] at h
        rw [hanchor, hanchor', Option.map_some, Option.map_some, links_inj h.2.1.2]

/-- Types with the same members are shown alike. -/
theorem sameType_of_members : ∀ {type type' : Ty},
    set.typeMembers type = set'.typeMembers type' → SameType set set' type type'
  | .scalar _, _, h => by
      obtain rfl := eq_scalar_of_members h
      exact .scalar _
  | .array _, _, h => by
      obtain ⟨item', rfl, heq⟩ := eq_array_of_members h
      exact .array (sameType_of_members (Json.obj.inj heq))
  | .model _, _, h => by
      obtain rfl := eq_model_of_members h
      exact .model _
  | .literal _, _, h => by
      obtain rfl := eq_literal_of_members h
      exact .literal _
  | .anchor _, _, h => by
      obtain ⟨schema', rfl, heq⟩ := eq_anchor_of_members h
      exact .anchor heq

/-! ## Fields -/

/-- What the restriction and the default of a field add to the members of its type. -/
def fieldMembers (field : Field) : List (String × Json) :=
  (field.enum.map fun values => ("enum", Json.arr values)).toList ++
    (field.default.map fun value => ("default", value)).toList

theorem viewField_eq (set : ModelSet) (field : Field) :
    set.viewField field = .obj (set.typeMembers field.type ++ fieldMembers field) := by
  rw [viewField, fieldMembers, List.append_assoc]

/-- Whether a member of the view of a field is one of its type. -/
def isTypeMember (entry : String × Json) : Bool := entry.1 != "enum" && entry.1 != "default"

theorem filter_typeMembers (set : ModelSet) (type : Ty) :
    (set.typeMembers type).filter isTypeMember = set.typeMembers type := by
  cases type with
  | scalar type =>
      rw [scalar_members]
      split <;> rfl
  | anchor schema =>
      rcases anchor_members set schema with ⟨-, heq⟩ | ⟨_, -, heq⟩ <;> rw [heq] <;> rfl
  | _ => rfl

theorem filter_fieldMembers (field : Field) : (fieldMembers field).filter isTypeMember = [] := by
  cases hfield : field.enum <;> cases hdefault : field.default <;>
    simp [fieldMembers, hfield, hdefault, isTypeMember]

theorem viewField_inj {field field' : Field} (h : set.viewField field = set'.viewField field') :
    set.typeMembers field.type = set'.typeMembers field'.type ∧ field.enum = field'.enum ∧
      field.default = field'.default := by
  rw [viewField_eq, viewField_eq] at h
  have hmembers := Json.obj.inj h
  -- Types differ in how many members they have, so the parts are told apart by their keys.
  have htype := congrArg (List.filter isTypeMember) hmembers
  simp only [List.filter_append, filter_typeMembers, filter_fieldMembers, List.append_nil] at htype
  rw [htype] at hmembers
  have hrest := List.append_cancel_left hmembers
  refine ⟨htype, ?_⟩
  cases henum : field.enum <;> cases henum' : field'.enum <;>
  cases hdefault : field.default <;> cases hdefault' : field'.default <;>
    simp [fieldMembers, henum, henum', hdefault, hdefault'] at hrest ⊢ <;> assumption

/-- Fields of two sets that the views show alike. -/
structure SameField (set set' : ModelSet) (field field' : Field) : Prop where
  name : field.name = field'.name
  type : SameType set set' field.type field'.type
  required : field.required = field'.required
  default : field.default = field'.default
  enum : field.enum = field'.enum

/-- The names of the fields that are required. -/
def requiredNames (fields : List Field) : List String :=
  (fields.filter (·.required)).map (·.name)

/-- Where the fields have different names, a field is required if its name is that of one. -/
theorem mem_requiredNames {fields : List Field} (hnodup : (fields.map (·.name)).Nodup)
    {field : Field} (hmem : field ∈ fields) :
    field.name ∈ requiredNames fields ↔ field.required = true := by
  constructor
  · intro h
    obtain ⟨other, hother, hname⟩ := List.mem_map.mp h
    obtain ⟨hother, hrequired⟩ := List.mem_filter.mp hother
    rwa [List.inj_on_of_nodup_map hnodup hother hmem hname] at hrequired
  · intro h
    exact List.mem_map_of_mem (List.mem_filter.mpr ⟨hmem, h⟩)

theorem sameFields_of_views {fields fields' : List Field}
    (hnodup : (fields.map (·.name)).Nodup) (hnodup' : (fields'.map (·.name)).Nodup)
    (hviews : (fields.map fun field => (field.name, set.viewField field)) =
      fields'.map fun field => (field.name, set'.viewField field))
    (hrequired : requiredNames fields = requiredNames fields') :
    List.Forall₂ (SameField set set') fields fields' := by
  obtain ⟨hlength, hzip⟩ := List.forall₂_iff_zip.mp (forall₂_of_map_eq hviews)
  refine List.forall₂_iff_zip.mpr ⟨hlength, fun {field field'} hmem => ?_⟩
  obtain ⟨hname, hview⟩ := Prod.mk.inj (hzip hmem)
  obtain ⟨hfield, hfield'⟩ := List.of_mem_zip hmem
  obtain ⟨htype, henum, hdefault⟩ := viewField_inj hview
  refine ⟨hname, sameType_of_members htype, ?_, hdefault, henum⟩
  -- What is required is shown by names alone, so it is read off where the names are distinct.
  rw [Bool.eq_iff_iff, ← mem_requiredNames hnodup hfield, ← mem_requiredNames hnodup' hfield',
    hrequired, hname]

/-! ## Shapes -/

/-- Shapes of two sets that the views show alike. Whether a discriminator has a mapping is not
said, and which alternatives its tags select only if there is one. -/
inductive SameShape (set set' : ModelSet) : Shape → Shape → Prop where
  | object {fields fields' : List Field} :
      List.Forall₂ (SameField set set') fields fields' →
        SameShape set set' (.object fields) (.object fields')
  | union {alternatives alternatives' : List Ty}
      {discriminator discriminator' : Option Discriminator} {tags tags' : Keyed Nat} :
      List.Forall₂ (SameType set set') alternatives alternatives' →
        discriminator.map (·.property) = discriminator'.map (·.property) →
        (discriminator.isSome → tags = tags') →
        SameShape set set' (.union alternatives discriminator tags)
          (.union alternatives' discriminator' tags')

theorem viewDiscriminator_inj {discriminator discriminator' : Discriminator}
    {tags tags' : Keyed Nat}
    (h : viewDiscriminator discriminator tags = viewDiscriminator discriminator' tags') :
    discriminator.property = discriminator'.property ∧ tags = tags' := by
  obtain ⟨hproperty, hmapping⟩ := List.cons.inj (Json.obj.inj h)
  refine ⟨Json.str.inj (Prod.mk.inj hproperty).2, ?_⟩
  cases htags : tags.isEmpty <;> cases htags' : tags'.isEmpty <;>
    simp only [htags, htags', if_true, Bool.false_eq_true, if_false, reduceCtorEq] at hmapping
  · simp only [List.cons.injEq, Prod.mk.injEq, Json.obj.injEq, true_and, and_true] at hmapping
    refine List.map_injective_iff.mpr ?_ hmapping
    rintro ⟨tag, index⟩ ⟨tag', index'⟩ heq
    simpa using heq
  · rw [List.isEmpty_iff.mp htags, List.isEmpty_iff.mp htags']

/-- Where the fields have different names, each has its property. -/
theorem ofList_properties {fields : List Field} (hnodup : (fields.map (·.name)).Nodup) :
    Keyed.ofList (fields.map fun field => (field.name, set.viewField field)) =
      fields.map fun field => (field.name, set.viewField field) :=
  Keyed.ofList_of_nodup (by simpa [Keyed.keys, Function.comp_def] using hnodup)

/-- A list that is left out if it is empty is known by the members. -/
theorem required_inj {names names' : List Json}
    (h : (if names.isEmpty then [] else [("required", Json.arr names)]) =
      if names'.isEmpty then [] else [("required", .arr names')]) : names = names' := by
  cases names <;> cases names' <;> simp at h ⊢
  exact h

theorem sameShape_of_members {shape shape' : Shape}
    (hnodup : ∀ fields, shape = .object fields → (fields.map (·.name)).Nodup)
    (hnodup' : ∀ fields, shape' = .object fields → (fields.map (·.name)).Nodup)
    (h : set.shapeMembers shape = set'.shapeMembers shape') : SameShape set set' shape shape' := by
  cases shape with
  | object fields =>
      cases shape' with
      | union => simp [shapeMembers] at h
      | object fields' =>
          have hdistinct := hnodup fields rfl
          have hdistinct' := hnodup' fields' rfl
          simp only [shapeMembers, List.cons_append, List.nil_append, List.cons.injEq,
            Prod.mk.injEq, Json.obj.injEq, true_and] at h
          obtain ⟨hviews, hrequired⟩ := h
          rw [ofList_properties hdistinct, ofList_properties hdistinct'] at hviews
          refine .object (sameFields_of_views hdistinct hdistinct' hviews ?_)
          have hnames : (requiredNames fields).map Json.str = (requiredNames fields').map .str := by
            simpa only [requiredNames, List.map_map, Function.comp_def] using required_inj hrequired
          exact List.map_injective_iff.mpr (fun _ _ => Json.str.inj) hnames
  | union alternatives discriminator tags =>
      cases shape' with
      | object => simp [shapeMembers] at h
      | union alternatives' discriminator' tags' =>
          obtain ⟨halternatives, hdiscriminator⟩ := List.cons.inj h
          have htypes := forall₂_of_map_eq (Json.arr.inj (Prod.mk.inj halternatives).2)
          have hsame := htypes.imp fun _ _ heq => sameType_of_members (Json.obj.inj heq)
          cases discriminator <;> cases discriminator' <;>
            simp only [Option.map_some, Option.map_none, Option.toList_some, Option.toList_none,
              reduceCtorEq, List.cons.injEq, Prod.mk.injEq, true_and, and_true] at hdiscriminator
          · exact .union hsame rfl nofun
          · obtain ⟨hproperty, htags⟩ := viewDiscriminator_inj hdiscriminator
            exact .union hsame (congrArg some hproperty) fun _ => htags

theorem sameShape_of_viewModel {model model' : Model} {m m' : ModelId}
    (hnodup : ∀ fields, model.shape = .object fields → (fields.map (·.name)).Nodup)
    (hnodup' : ∀ fields, model'.shape = .object fields → (fields.map (·.name)).Nodup)
    (h : set.viewModel m model = set'.viewModel m' model') :
    SameShape set set' model.shape model'.shape :=
  sameShape_of_members hnodup hnodup' (List.append_inj' (Json.obj.inj h) rfl).1

/-! ## Sets -/

theorem getElem?_viewModels (set : ModelSet) (m : ModelId) :
    (set.models.toList.zipIdx.map fun (model, id) => set.viewModel id model)[m]? =
      set.models[m]?.map (set.viewModel m) := by
  simp [List.getElem?_zipIdx, Option.map_map, Function.comp_def]

theorem model_eq_getD (set : ModelSet) (m : ModelId) :
    set.model m = set.models[m]?.getD { name := "", schema := 0, shape := .object [] } := by
  rw [model, Array.getD_eq_getD_getElem?]

/-- The models of two sets are shown alike, index by index. -/
def SameModels (set set' : ModelSet) : Prop :=
  ∀ m, SameShape set set' (set.model m).shape (set'.model m).shape

/-- Sets with one view have models that are shown alike. -/
theorem sameModels_of_view (hnames : set.DistinctFields) (hnames' : set'.DistinctFields)
    (h : set.view = set'.view) : set.SameModels set' := by
  intro m
  obtain ⟨-, hrest⟩ := List.cons.inj (Json.obj.inj h)
  have hmodels := Json.arr.inj (Prod.mk.inj (List.cons.inj hrest).1).2
  have hviews := congrArg (·[m]?) hmodels
  simp only [getElem?_viewModels] at hviews
  have hnodup := hnames m
  have hnodup' := hnames' m
  rw [model_eq_getD] at hnodup hnodup' ⊢
  rw [model_eq_getD]
  cases hmodel : set.models[m]? <;> cases hmodel' : set'.models[m]? <;>
    simp only [hmodel, hmodel', Option.map_some, Option.map_none, reduceCtorEq,
      Option.some.injEq] at hviews
  · exact .object .nil
  · rw [hmodel] at hnodup
    rw [hmodel'] at hnodup'
    exact sameShape_of_viewModel hnodup hnodup' hviews

/-- Types of roots that the views show alike: both are types, or neither is one. -/
theorem viewRoot_inj {type type' : Option Ty} (h : set.viewRoot type = set'.viewRoot type') :
    Option.Rel (SameType set set') type type' := by
  cases type <;> cases type' <;> simp [viewRoot, viewType] at h
  · exact .none
  · exact .some (sameType_of_members h)

/-- Sets with one view have roots of the same names, with types that are shown alike. -/
theorem sameRoot_of_view (h : set.view = set'.view) (name : String) :
    Option.Rel (SameType set set') (set.root name) (set'.root name) := by
  obtain ⟨hroots, -⟩ := List.cons.inj (Json.obj.inj h)
  have hboth := forall₂_of_map_eq (Json.obj.inj (Prod.mk.inj hroots).2)
  rw [root, root]
  generalize set.roots = roots at hboth
  generalize set'.roots = roots' at hboth
  induction hboth with
  | nil => exact .none
  | @cons entry entry' roots roots' hentry _ ih =>
      obtain ⟨key, type⟩ := entry
      obtain ⟨key', type'⟩ := entry'
      obtain ⟨hkey, hview⟩ := Prod.mk.inj hentry
      obtain rfl : key = key' := hkey
      rw [Keyed.get?_cons, Keyed.get?_cons]
      split
      · exact viewRoot_inj hview
      · exact ih

end ModelSet
end OpenApi
