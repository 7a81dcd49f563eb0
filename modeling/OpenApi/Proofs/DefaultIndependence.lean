-- SUMMARY: Defaults fill in fields and decide on nothing: decoding goes the same way without them.
import OpenApi.Proofs.Decoding.Parallel
import OpenApi.Proofs.RoundTrip

/-!
# Independence of defaults

A default fills in a field that is left out. Whether it is of the type of the field shows
neither in the violations nor in the alternative that a union selects, also where the
field belongs to a candidate that is only tried. So a set without its defaults accepts the
same values, refuses the others for the same violations, and reads an accepted value as
the same instance without the fields that were filled in.
-/

namespace OpenApi

/-! ## Sets without defaults -/

/-- The same fields, or the same alternatives, without defaults. -/
def Shape.withoutDefaults : Shape → Shape
  | .object fields => .object (fields.map Field.withoutDefault)
  | .union alternatives discriminator tags => .union alternatives discriminator tags

/-- A model without the defaults of its fields. -/
def Model.withoutDefaults (model : Model) : Model :=
  { model with shape := model.shape.withoutDefaults }

@[simp] theorem Model.taggedBy_withoutDefaults (model : Model) :
    model.withoutDefaults.taggedBy = model.taggedBy := by
  obtain ⟨name, schema, shape⟩ := model
  cases shape <;> rfl

namespace ModelSet

/-- A set without the defaults of all fields. -/
def withoutDefaults (set : ModelSet) : ModelSet :=
  { set with models := set.models.map Model.withoutDefaults }

variable {set : ModelSet}

theorem model_withoutDefaults (m : ModelId) :
    set.withoutDefaults.model m = (set.model m).withoutDefaults := by
  simp only [model, withoutDefaults, Array.getD_eq_getD_getElem?, Array.getElem?_map]
  cases set.models[m]? <;> rfl

theorem shape_withoutDefaults (m : ModelId) :
    (set.withoutDefaults.model m).shape = (set.model m).shape.withoutDefaults :=
  congrArg Model.shape (model_withoutDefaults m)

theorem taggedBy_withoutDefaults (m : ModelId) :
    (set.withoutDefaults.model m).taggedBy = (set.model m).taggedBy := by
  rw [model_withoutDefaults, Model.taggedBy_withoutDefaults]

theorem trims_withoutDefaults (set : ModelSet) : set.Trims set.withoutDefaults where
  name m := by rw [model_withoutDefaults, Model.withoutDefaults]
  shape m := by
    rw [shape_withoutDefaults]
    cases (set.model m).shape with
    | object fields =>
        refine .object (List.forall₂_map_right_iff.mpr ?_)
        exact List.forall₂_same.mpr fun _ _ => .inr rfl
    | union alternatives discriminator tags => exact .union alternatives discriminator tags
  anchor _ := rfl

theorem fields_of_withoutDefaults {m : ModelId} {trimmed : List Field}
    (h : (set.withoutDefaults.model m).shape = .object trimmed) :
    ∃ fields, (set.model m).shape = .object fields ∧
      trimmed = fields.map Field.withoutDefault := by
  rw [shape_withoutDefaults] at h
  generalize (set.model m).shape = shape at h
  cases shape with
  | object fields =>
      cases h
      exact ⟨fields, rfl, rfl⟩
  | union => cases h

theorem union_withoutDefaults_iff {m : ModelId} {alternatives : List Ty}
    {discriminator : Option Discriminator} {tags : Keyed Nat} :
    (set.withoutDefaults.model m).shape = .union alternatives discriminator tags ↔
      (set.model m).shape = .union alternatives discriminator tags := by
  rw [shape_withoutDefaults]
  cases (set.model m).shape with
  | object fields => simp [Shape.withoutDefaults]
  | union => exact Iff.rfl

/-! ## Acceptance -/

theorem declares_withoutDefaults_iff {m : ModelId} {members : Keyed Json} :
    (set.withoutDefaults.model m).Declares members ↔ (set.model m).Declares members := by
  simp only [Model.Declares, (trims_withoutDefaults set).isSome_field]

mutual

/-- What is accepted without the defaults is accepted with them. -/
theorem Accepts.of_withoutDefaults {type : Ty} {value : Json} :
    Accepts set.withoutDefaults type value → Accepts set type value
  | .scalar hdecode => .scalar hdecode
  | .literal => .literal
  | .array hall => .array fun value hmem => (hall value hmem).of_withoutDefaults
  | .object hshape hfields hdeclared => by
      obtain ⟨fields, hshape', heq⟩ := fields_of_withoutDefaults hshape
      refine .object hshape' (fun field hmem => ?_) (declares_withoutDefaults_iff.mp hdeclared)
      exact (hfields field.withoutDefault (heq ▸ List.mem_map_of_mem hmem)).of_withoutDefault rfl
  | .tagged hshape hby hmember htag htype haccepts =>
      .tagged (union_withoutDefaults_iff.mp hshape) ((taggedBy_withoutDefaults _).symm.trans hby)
        hmember htag htype haccepts.of_withoutDefaults
  | .untagged hshape hby hmem haccepts =>
      .untagged (union_withoutDefaults_iff.mp hshape) ((taggedBy_withoutDefaults _).symm.trans hby)
        hmem haccepts.of_withoutDefaults
  | .anchor hanchor hmem haccepts => .anchor hanchor hmem haccepts.of_withoutDefaults
termination_by structural h => h

theorem AcceptsField.of_withoutDefault {members : Keyed Json} {field trimmed : Field} :
    AcceptsField set.withoutDefaults members trimmed → trimmed = field.withoutDefault →
      AcceptsField set members field
  | .leftOut hnone hopt, heq => by
      rw [heq] at hnone hopt
      exact .leftOut hnone hopt
  | .skipped hnull hopt, heq => by
      rw [heq] at hnull hopt
      exact .skipped hnull hopt
  | .given hsome hpermits haccepts, heq => by
      have haccepts := haccepts.of_withoutDefaults
      rw [heq] at hsome hpermits haccepts
      exact .given hsome hpermits haccepts
termination_by structural h => h

end

end ModelSet

/-! ## What a value gives -/

namespace Instance

mutual

/-- The instance without the fields that the value does not give. Only a default can have filled in
such a field; a variant keeps its index. -/
def given : Instance → Json → Instance
  | .array items, .arr values => .array (givenItems items values)
  | .object m entries, .obj members => .object m (givenFields entries members)
  | .variant union index answer, value => .variant union index (answer.given value)
  | answer, _ => answer

/-- Items without the fields that their values do not give. -/
def givenItems : List Instance → List Json → List Instance
  | item :: items, value :: values => item.given value :: givenItems items values
  | items, _ => items

/-- The entries of an object whose names are keys of the value. -/
def givenFields : List (String × Instance) → Keyed Json → List (String × Instance)
  | [], _ => []
  | (name, answer) :: rest, members =>
    match members.get? name with
    | some value => (name, answer.given value) :: givenFields rest members
    | none => givenFields rest members

end

@[simp] theorem given_scalar (scalar : Scalar) (value : Json) :
    (Instance.scalar scalar).given value = .scalar scalar := by
  cases value <;> rfl

end Instance

namespace ModelSet

variable {set : ModelSet}

mutual

/-- Without the defaults, a value is read as the instance without what they have filled in. -/
theorem Reads.withoutDefaults {type : Ty} {value : Json} {answer : Instance} :
    Reads set type value answer → Reads set.withoutDefaults type value (answer.given value)
  | .scalar hdecode => by
      rw [Instance.given_scalar]
      exact .scalar hdecode
  | .literal => .literal
  | .array hitems => .array hitems.withoutDefaults
  | .object hshape hfields hdeclared => by
      refine .object ?_ hfields.withoutDefaults (declares_withoutDefaults_iff.mpr hdeclared)
      rw [shape_withoutDefaults, hshape]
      rfl
  | .tagged hshape hby hmember htag htype hread =>
      .tagged (union_withoutDefaults_iff.mpr hshape) ((taggedBy_withoutDefaults _).trans hby)
        hmember htag htype hread.withoutDefaults
  | .untagged hshape hby hbefore hread =>
      .untagged (union_withoutDefaults_iff.mpr hshape) ((taggedBy_withoutDefaults _).trans hby)
        (fun other hmem haccepts => hbefore other hmem haccepts.of_withoutDefaults)
        hread.withoutDefaults
  | .anchor hanchor hsplit hbefore hread =>
      .anchor hanchor hsplit
        (fun other hmem haccepts => hbefore other hmem haccepts.of_withoutDefaults)
        hread.withoutDefaults
termination_by structural h => h

theorem ReadsItems.withoutDefaults {item : Ty} {values : List Json} {answers : List Instance} :
    ReadsItems set item values answers →
      ReadsItems set.withoutDefaults item values (Instance.givenItems answers values)
  | .nil => .nil
  | .cons hread hrest => .cons hread.withoutDefaults hrest.withoutDefaults
termination_by structural h => h

theorem ReadsField.withoutDefault {members : Keyed Json} {field : Field}
    {answer : Option Instance} :
    ReadsField set members field answer →
      ∃ given, ReadsField set.withoutDefaults members field.withoutDefault given ∧
        ∀ rest, Instance.givenFields ((answer.map fun value => (field.name, value)).toList ++ rest)
            members =
          (given.map fun value => (field.name, value)).toList ++ Instance.givenFields rest members
  | .leftOut hnone hopt _ => ⟨none, .leftOut hnone hopt rfl, fun _ => rfl⟩
  | .unfit hnone hopt _ _ => ⟨none, .leftOut hnone hopt rfl, fun _ => rfl⟩
  | .filled hnone hopt _ _ =>
      ⟨none, .leftOut hnone hopt rfl, fun _ => by simp [Instance.givenFields, hnone]⟩
  | .skipped hnull hopt =>
      ⟨some .null, .skipped hnull hopt, fun _ => by
        simp [Instance.givenFields, hnull, Instance.given]⟩
  | .given hsome hheld hpermits hread =>
      ⟨some _, .given hsome hheld hpermits hread.withoutDefaults, fun _ => by
        simp [Instance.givenFields, hsome]⟩
termination_by structural h => h

theorem ReadsFields.withoutDefaults {members : Keyed Json} {fields : List Field}
    {entries : List (String × Instance)} :
    ReadsFields set members fields entries →
      ReadsFields set.withoutDefaults members (fields.map Field.withoutDefault)
        (Instance.givenFields entries members)
  | .nil => .nil
  | .cons hread hrest => by
      obtain ⟨given, hgiven, heq⟩ := hread.withoutDefault
      rw [heq]
      exact .cons hgiven hrest.withoutDefaults
termination_by structural h => h

end

end ModelSet

/-! ## Decoding -/

/-- The same value, the same violations and the same report. -/
def Likeness.exact : Likeness where
  values := Eq
  kinds := Eq
  reports := Eq

theorem Likeness.exact_lawful : exact.Lawful where
  reordered := by
    rintro value _ rfl
    exact .refl value
  self _ := rfl
  items := by
    rintro items _ ⟨⟩
    exact List.forall₂_same.mpr fun _ _ => rfl
  member := by
    rintro members _ key value value' ⟨⟩ hvalue hvalue'
    exact Option.some.inj (hvalue.symm.trans hvalue')
  sameKind _ := rfl
  notInEnum := by
    rintro value _ permitted rfl
    rfl
  literalMismatch := by
    rintro value _ tag rfl
    rfl
  size h := congrArg (fun report => report.violations.size) h
  fresh h := congrArg Report.fresh h
  enter := by
    rintro report _ segment rfl
    rfl
  leave h := congrArg Report.leave h
  record h hkind := congrArg₂ Report.record h hkind
  undeclared := by
    rintro members _ report _ model ⟨⟩ rfl
    rfl

namespace Document

/-- Where decoding with a compiled set terminates, it terminates without the defaults. It fails for
the same violations, or reads the same instance without the fields that the value does not give,
which are the fields that were filled in. -/
theorem compile_decode_withoutDefaults {doc : Document} {set : ModelSet}
    (h : doc.compile = .ok set) {type : Ty} {value : Json} (hends : set.Terminates type value) :
    set.withoutDefaults.Terminates type value ∧
      set.withoutDefaults.decode type value =
        (set.decode type value).map fun answer => answer.given value := by
  have htags := ModelSet.tagsInRange (compile_wellFormed h)
  obtain ⟨hends', hdecode⟩ := hends.decode_follows Likeness.exact_lawful rfl htags
    (ModelSet.trims_withoutDefaults set) rfl
  refine ⟨hends', ?_⟩
  rcases hdecode with ⟨answer, answer', hok, hread, hok', hread'⟩ |
    ⟨after, after', hafter, herror, herror'⟩
  · rw [hok, hok', hread'.unique hread.withoutDefaults]
    rfl
  · rw [herror, herror', show after = after' from hafter]
    rfl

/-- Without its default the second alternative is still selected, and nothing is filled in. -/
theorem requiredOrDefault_given :
    requiredOrDefault.compile = .ok requiredOrDefaultModels ∧
      requiredOrDefaultModels.Terminates (.array (.model 2)) (.arr [.obj []]) ∧
      requiredOrDefaultModels.decode (.array (.model 2)) (.arr [.obj []]) =
        .ok (.array [.variant 2 1 (.object 1 [("y", .scalar (.int 1))])]) ∧
      requiredOrDefaultModels.withoutDefaults.decode (.array (.model 2)) (.arr [.obj []]) =
        .ok (.array [.variant 2 1 (.object 1 [])]) := by
  have hends : requiredOrDefaultModels.Terminates (.array (.model 2)) (.arr [.obj []]) :=
    ⟨4, by rfl⟩
  have hdecode : requiredOrDefaultModels.decode (.array (.model 2)) (.arr [.obj []]) =
      .ok (.array [.variant 2 1 (.object 1 [("y", .scalar (.int 1))])]) := by rfl
  refine ⟨requiredOrDefault_compile, hends, hdecode, ?_⟩
  rw [(compile_decode_withoutDefaults requiredOrDefault_compile hends).2, hdecode]
  rfl

end Document
end OpenApi
