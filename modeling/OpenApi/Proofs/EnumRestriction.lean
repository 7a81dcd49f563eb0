-- SUMMARY: Restricted fields of decoded instances hold what permitted values decode to, or defaults.
import OpenApi.Proofs.Decoding.Alike
import OpenApi.Proofs.MemberConjunction
import OpenApi.Proofs.RoundTrip

/-!
# Restricted fields

A value that is given for a field with an enumeration is compared with the values of the
enumeration, so what the field holds is what one of them decodes to. A default is only
checked against the type. Where it is none of the permitted values, an instance that
leaves the field out holds it all the same, and this is the only way for a field to hold
anything else.
-/

namespace OpenApi

/-! ## Parts of instances -/

/-- An instance stands somewhere inside another one, or is all of it. -/
inductive Instance.PartOf (part : Instance) : Instance → Prop where
  | self : PartOf part part
  | item {items : List Instance} {item : Instance} :
      item ∈ items → PartOf part item → PartOf part (.array items)
  | field {m : ModelId} {entries : List (String × Instance)} {name : String} {value : Instance} :
      (name, value) ∈ entries → PartOf part value → PartOf part (.object m entries)
  | variant {union : ModelId} {index : Nat} {value : Instance} :
      PartOf part value → PartOf part (.variant union index value)

namespace ModelSet

variable {set : ModelSet}

theorem ReadsItems.exists_value {item : Ty} {values : List Json} {answers : List Instance}
    {answer : Instance} :
    ReadsItems set item values answers → answer ∈ answers → ∃ value, Reads set item value answer
  | .nil, hmem => by cases hmem
  | .cons hread hrest, hmem => by
      rcases List.mem_cons.mp hmem with rfl | hmem
      · exact ⟨_, hread⟩
      · exact hrest.exists_value hmem

theorem ReadsFields.exists_field {members : Keyed Json} {fields : List Field}
    {entries : Keyed Instance} {name : String} {held : Instance} :
    ReadsFields set members fields entries → (name, held) ∈ entries →
      ∃ field ∈ fields, ReadsField set members field (some held)
  | .nil, hmem => by cases hmem
  | @ReadsFields.cons _ _ _ _ answer _ hread hrest, hmem => by
      rcases List.mem_append.mp hmem with hmem | hmem
      · cases answer with
        | none => cases hmem
        | some value =>
            cases List.mem_singleton.mp hmem
            exact ⟨_, List.mem_cons_self, hread⟩
      · obtain ⟨field, hfield, hheld⟩ := hrest.exists_field hmem
        exact ⟨field, List.mem_cons_of_mem _ hfield, hheld⟩

/-- Where names are distinct, the entry for a field is what the object holds for it. -/
theorem ReadsFields.readsField {members : Keyed Json} {fields : List Field}
    {entries : Keyed Instance} (h : ReadsFields set members fields entries)
    (hnodup : (fields.map (·.name)).Nodup) :
    ∀ field ∈ fields, ReadsField set members field (entries.get? field.name) := by
  induction fields generalizing entries with
  | nil => simp
  | cons first rest ih =>
      cases h with
      | cons hread hrest =>
          exact (hrest.forall_entry_iff hnodup fun field held =>
            ReadsField set members field held).mpr ⟨hread, ih hrest (List.nodup_cons.mp hnodup).2⟩

/-- What a field holds is null or was read from a value. -/
theorem ReadsField.null_or_reads {members : Keyed Json} {field : Field} {held : Instance} :
    ReadsField set members field (some held) →
      held = .null ∨ ∃ value, Reads set field.type value held
  | .filled _ _ _ hread => .inr ⟨_, hread⟩
  | .skipped _ _ => .inl rfl
  | .given _ _ _ hread => .inr ⟨_, hread⟩

/-- An instance of an anchor is one of a variant. -/
theorem Reads.exists_concrete {type : Ty} {value : Json} {answer : Instance}
    (h : Reads set type value answer) :
    ∃ concrete, (∀ schema, concrete ≠ .anchor schema) ∧ Reads set concrete value answer := by
  by_cases hanchor : ∃ schema, type = .anchor schema
  · obtain ⟨schema, rfl⟩ := hanchor
    cases h with
    | anchor _ _ _ hread => exact ⟨.model _, by simp, hread⟩
  · exact ⟨type, fun schema heq => hanchor ⟨schema, heq⟩, h⟩

/-- An object inside an instance was read by its own model. -/
theorem Reads.exists_object {m : ModelId} {entries : Keyed Instance} {whole : Instance}
    (hpart : (Instance.object m entries).PartOf whole) {type : Ty} {value : Json}
    (h : Reads set type value whole) :
    ∃ members, Reads set (.model m) (.obj members) (.object m entries) := by
  induction hpart generalizing type value with
  | self =>
      obtain ⟨concrete, hne, hread⟩ := h.exists_concrete
      cases hread with
      | object hshape hfields hdeclared => exact ⟨_, .object hshape hfields hdeclared⟩
      | anchor => exact absurd rfl (hne _)
  | item hmem _ ih =>
      obtain ⟨concrete, hne, hread⟩ := h.exists_concrete
      cases hread with
      | array hitems =>
          obtain ⟨_, hitem⟩ := hitems.exists_value hmem
          exact ih hitem
      | anchor => exact absurd rfl (hne _)
  | field hmem hpart ih =>
      obtain ⟨concrete, hne, hread⟩ := h.exists_concrete
      cases hread with
      | object _ hfields _ =>
          obtain ⟨_, -, hheld⟩ := hfields.exists_field hmem
          rcases hheld.null_or_reads with rfl | ⟨_, hread⟩
          · cases hpart
          · exact ih hread
      | anchor => exact absurd rfl (hne _)
  | variant _ ih =>
      obtain ⟨concrete, hne, hread⟩ := h.exists_concrete
      cases hread with
      | tagged _ _ _ _ _ hread => exact ih hread
      | untagged _ _ _ hread => exact ih hread
      | anchor => exact absurd rfl (hne _)

/-! ## What a restricted field holds -/

variable (set) in
/-- A field holds what one of its permitted values decodes to, up to the sign of a zero. -/
def HoldsPermitted (field : Field) (held : Instance) : Prop :=
  ∃ permitted allowed answer, field.enum = some permitted ∧ allowed ∈ permitted ∧
    set.decode field.type allowed = .ok answer ∧
    held.mapNumbers Double.unsigned = answer.mapNumbers Double.unsigned

variable (set) in
/-- The restricted fields of all objects inside an instance hold permitted values, or null where
they are optional. -/
def Restricted (whole : Instance) : Prop :=
  ∀ m entries, (Instance.object m entries).PartOf whole → ∀ field ∈ (set.model m).fields,
    ∀ held, Keyed.get? entries field.name = some held → field.enum.isSome = true →
      field.required = false ∧ held = .null ∨ set.HoldsPermitted field held

variable (set) in
/-- A field was left out and holds its default, which is none of the permitted values. -/
structure FilledOutside (m : ModelId) (entries : Keyed Instance) (field : Field)
    (held : Instance) : Prop where
  optional : field.required = false
  default : ∃ default, field.default = some default ∧ ¬ field.Permits default ∧
    set.decode field.type default = .ok held
  leftOut : ∃ members, Keyed.get? members field.name = none ∧
    set.decode (.model m) (.obj members) = .ok (.object m entries)

variable (set) in
/-- Each default that is filled in for a restricted field of some object is what a permitted value
decodes to. -/
def FillsPermitted : Prop :=
  ∀ m, ∀ field ∈ (set.model m).fields, field.required = false → field.enum.isSome = true →
    ∀ default held, field.default = some default → set.decode field.type default = .ok held →
    (∃ members answer, Keyed.get? members field.name = none ∧
      set.decode (.model m) (.obj members) = .ok answer) → set.HoldsPermitted field held

/-- The keys of objects in permitted values are distinct. -/
def DistinctEnums (set : ModelSet) : Prop :=
  ∀ m, ∀ field ∈ (set.model m).fields, ∀ permitted, field.enum = some permitted →
    ∀ allowed ∈ permitted, allowed.Distinct

/-- An object that leaves a field out holds what its default decodes to. -/
theorem get?_of_leftOut (hnames : set.DistinctFields) {m : ModelId} {field : Field} (hfield : field ∈ (set.model m).fields)
    (hopt : field.required = false) {default : Json} {held : Instance}
    (hdefault : field.default = some default)
    (hdecode : set.decode field.type default = .ok held) {members : Keyed Json}
    {answer : Instance} (hnone : members.get? field.name = none)
    (hanswer : set.decode (.model m) (.obj members) = .ok answer) :
    ∃ entries, answer = .object m entries ∧ Keyed.get? entries field.name = some held := by
  cases hshape : (set.model m).shape with
  | union => simp [Model.fields, hshape] at hfield
  | object fields =>
      rw [Model.fields, hshape] at hfield
      cases reads_of_decode hanswer with
      | tagged hshape' => cases hshape.symm.trans hshape'
      | untagged hshape' => cases hshape.symm.trans hshape'
      | @object _ _ _ entries hshape' hfields _ =>
          cases hshape.symm.trans hshape'
          have hfilled := ReadsField.filled hnone hopt hdefault (reads_of_decode hdecode)
          have hfound := hfields.readsField (hnames m fields hshape) field hfield
          exact ⟨entries, rfl, hfound.unique hfilled⟩

section Restricted

variable (htags : set.TagsInRange) (hends : ∀ type value, set.Terminates type value)
include htags hends

/-- What is read from a value that is the same as a permitted one is what that decodes to. -/
theorem HoldsPermitted.of_permits {field : Field} {permitted : List Json} {value : Json}
    {held : Instance} (henum : field.enum = some permitted)
    (hdistinct : ∀ allowed ∈ permitted, allowed.Distinct) (hpermits : field.Permits value)
    (h : set.Reads field.type value held) : set.HoldsPermitted field held := by
  obtain ⟨allowed, hmem, hsame⟩ := List.any_eq_true.mp (hpermits permitted henum)
  have halike := (hdistinct allowed hmem).alikeBy hsame
  obtain ⟨answer, hread, heq⟩ := h.alike Double.separates_unsigned halike.symm
  exact ⟨permitted, allowed, answer, henum, hmem,
    ((hends _ _).decode_eq_ok_iff htags).mpr hread, heq⟩

/-- A restricted field holds null, what a permitted value decodes to, or a default that is none. -/
theorem ReadsField.restricted {members : Keyed Json} {field : Field} {permitted : List Json}
    {held : Instance} (henum : field.enum = some permitted)
    (hdistinct : ∀ allowed ∈ permitted, allowed.Distinct)
    (h : set.ReadsField members field (some held)) :
    field.required = false ∧ held = .null ∨ set.HoldsPermitted field held ∨
      members.get? field.name = none ∧ field.required = false ∧
        ∃ default, field.default = some default ∧ ¬ field.Permits default ∧
          set.decode field.type default = .ok held := by
  cases h with
  | skipped _ hopt => exact .inl ⟨hopt, rfl⟩
  | given _ _ hpermits hread =>
      exact .inr (.inl (.of_permits htags hends henum hdistinct hpermits hread))
  | @filled _ _ default _ hnone hopt hdefault hread =>
      by_cases hpermits : field.Permits default
      · exact .inr (.inl (.of_permits htags hends henum hdistinct hpermits hread))
      · exact .inr (.inr ⟨hnone, hopt, default, hdefault, hpermits,
          ((hends _ _).decode_eq_ok_iff htags).mpr hread⟩)

variable (hnames : set.DistinctFields) (henums : set.DistinctEnums)
include hnames henums

/-- Inside an instance that was read, a restricted field holds null, what a permitted value decodes
to, or a default that is none. -/
theorem Reads.restricted_or_filled {type : Ty} {value : Json} {whole : Instance}
    (h : set.Reads type value whole) {m : ModelId} {entries : Keyed Instance}
    (hpart : (Instance.object m entries).PartOf whole) {field : Field}
    (hfield : field ∈ (set.model m).fields) {held : Instance}
    (hheld : entries.get? field.name = some held) (hsome : field.enum.isSome = true) :
    field.required = false ∧ held = .null ∨ set.HoldsPermitted field held ∨
      set.FilledOutside m entries field held := by
  obtain ⟨members, hread⟩ := h.exists_object hpart
  have hdecode := ((hends _ _).decode_eq_ok_iff htags).mpr hread
  obtain ⟨permitted, henum⟩ := Option.isSome_iff_exists.mp hsome
  cases hread with
  | @object _ fields _ _ hshape hfields _ =>
      rw [Model.fields, hshape] at hfield
      have hfound := hfields.readsField (hnames m fields hshape) field hfield
      rw [hheld] at hfound
      have hdistinct := henums m field (by rwa [Model.fields, hshape]) permitted henum
      rcases hfound.restricted htags hends henum hdistinct with
        hnull | hpermitted | ⟨hnone, hopt, hdefault⟩
      · exact .inl hnull
      · exact .inr (.inl hpermitted)
      · exact .inr (.inr ⟨hopt, hdefault, members, hnone, hdecode⟩)

/-- All instances are restricted exactly if the defaults that are filled in are. -/
theorem restricted_iff_fillsPermitted :
    (∀ type value answer, set.decode type value = .ok answer → set.Restricted answer) ↔
      set.FillsPermitted := by
  constructor
  · intro hall m field hfield hopt hsome default held hdefault hdecode hleft
    obtain ⟨members, answer, hnone, hanswer⟩ := hleft
    obtain ⟨entries, rfl, hheld⟩ :=
      get?_of_leftOut hnames hfield hopt hdefault hdecode hnone hanswer
    rcases hall _ _ _ hanswer m entries .self field hfield held hheld hsome with
      ⟨-, rfl⟩ | hpermitted
    · exact absurd rfl (reads_of_decode hdecode).toJson_ne_null
    · exact hpermitted
  · intro hfills type value answer hanswer m entries hpart field hfield held hheld hsome
    rcases (reads_of_decode hanswer).restricted_or_filled htags hends hnames henums hpart hfield
      hheld hsome with hnull | hpermitted | hfilled
    · exact .inl hnull
    · exact .inr hpermitted
    · obtain ⟨hopt, ⟨default, hdefault, -, hdecode⟩, members, hnone, hobject⟩ := hfilled
      exact .inr (hfills m field hfield hopt hsome default held hdefault hdecode
        ⟨members, _, hnone, hobject⟩)

end Restricted
end ModelSet

/-! ## Compiled sets -/

theorem IsField.keepsEnum {doc : Document} {registry : Registry} {models : ModelTable}
    {context : Context} : PropertyLaw.KeepsEnum doc (IsField doc registry models context) :=
  fun _ _ _ h => ⟨congrArg Field.name h.rest, congrArg Field.enum h.rest⟩

namespace Document

/-- The keys of objects in permitted values are distinct: objects are maps. -/
def DistinctEnums (doc : Document) : Prop :=
  ∀ schema ∈ doc.schemas, ∀ permitted, schema.enum = some permitted →
    ∀ allowed ∈ permitted, allowed.Distinct

variable {doc : Document} {set : ModelSet}

theorem DistinctEnums.schema (h : doc.DistinctEnums) (id : SchemaId) {permitted : List Json}
    (henum : (doc.schema id).enum = some permitted) : ∀ allowed ∈ permitted, allowed.Distinct := by
  rcases doc.schema_cases id with hmem | hsilent
  · exact h _ hmem permitted henum
  · rw [hsilent] at henum
    cases henum

/-- The restrictions of fields are those of properties. -/
theorem compile_distinctEnums (hdistinct : doc.DistinctEnums) (h : doc.compile = .ok set) :
    set.DistinctEnums := by
  intro m field hfield permitted henum
  cases hshape : (set.model m).shape with
  | union => simp [Model.fields, hshape] at hfield
  | object fields =>
      rw [Model.fields, hshape] at hfield
      rcases Nat.lt_or_ge m set.models.size with hlt | hge
      · obtain ⟨context, -, hmeans⟩ := ModelSet.means_model (compile_wellFormed h) hlt
        rw [hshape] at hmeans
        obtain ⟨_, edge, -, -, hsame⟩ :=
          hmeans.hasFields.restrictsTo IsField.keepsEnum field hfield permitted henum
        exact hdistinct.schema edge.id hsame
      · cases hshape.symm.trans (ModelSet.shape_of_size_le hge)
        cases hfield

/-- In a decoded instance a restricted field holds null, what a permitted value decodes to, or a
default that was filled in. So all instances are restricted exactly if no default that is filled
in is anything but what a permitted value decodes to. -/
theorem compile_decode_restricted (hdistinct : doc.DistinctProperties)
    (henums : doc.DistinctEnums) (h : doc.compile = .ok set)
    (hends : ∀ type value, set.Terminates type value) :
    (∀ type value answer, set.decode type value = .ok answer →
      ∀ m entries, (Instance.object m entries).PartOf answer →
        ∀ field ∈ (set.model m).fields, ∀ held, Keyed.get? entries field.name = some held →
          field.enum.isSome = true →
          field.required = false ∧ held = .null ∨ set.HoldsPermitted field held ∨
            set.FilledOutside m entries field held) ∧
      ((∀ type value answer, set.decode type value = .ok answer → set.Restricted answer) ↔
        set.FillsPermitted) := by
  have htags := ModelSet.tagsInRange (compile_wellFormed h)
  have hnames := compile_distinctFields hdistinct h
  have hpermitted := compile_distinctEnums henums h
  refine ⟨?_, ModelSet.restricted_iff_fillsPermitted htags hends hnames hpermitted⟩
  intro type value answer hdecode m entries hpart field hfield held hheld hsome
  exact (ModelSet.reads_of_decode hdecode).restricted_or_filled htags hends hnames hpermitted
    hpart hfield hheld hsome

/-! ## A default that is not permitted -/

/-- An object with a field that is restricted to one text and has another one as its default. -/
def strayDefault : Document where
  dialect := .openApi30
  schemas := #[
    { dialect := .openApi30, identity := some "S", type := some .object
      properties := [("f", { id := 1 })] },
    { dialect := .openApi30, identity := some "S.f", type := some .string
      enum := some [.str "a"], default := some (.str "b") }]
  named := [("S", 0)]

/-- The field of `strayDefault`. -/
def strayField : Field where
  name := "f"
  type := .scalar .text
  default := some (.str "b")
  enum := some [.str "a"]

/-- The model of `strayDefault`. -/
def strayDefaultModels : ModelSet where
  models := #[{ name := "S", schema := 0, shape := .object [strayField] }]
  bySchema := [(0, 0)]
  roots := [("S", some (.model 0))]

theorem strayDefault_compile : strayDefault.compile = .ok strayDefaultModels := by rfl

theorem strayDefault_distinct : strayDefault.DistinctProperties ∧ strayDefault.DistinctEnums := by
  constructor
  · simp [DistinctProperties, strayDefault, Keyed.keys]
  · simp only [DistinctEnums, strayDefault, List.mem_toArray, List.forall_mem_cons]
    refine ⟨by simp, ?_, by simp⟩
    intro permitted henum allowed hmem
    cases henum
    cases List.mem_singleton.mp hmem
    exact .str "a"

private theorem strayDefaultModels_fields {m : ModelId} {fields : List Field} {field : Field}
    (hshape : (strayDefaultModels.model m).shape = .object fields) (hmem : field ∈ fields) :
    field = strayField := by
  match m with
  | 0 =>
      cases hshape
      exact List.mem_singleton.mp hmem
  | m + 1 =>
      cases hshape.symm.trans (ModelSet.shape_of_size_le (Nat.le_add_left 1 m))
      cases hmem

theorem strayDefaultModels_terminates (type : Ty) (value : Json) :
    strayDefaultModels.Terminates type value := by
  have hwf := compile_wellFormed strayDefault_compile
  have hunions : strayDefaultModels.NoUnionCycle := by
    intro m hcycle
    obtain ⟨inner, hfirst, -⟩ := Relation.TransGen.head'_iff.mp hcycle
    match m with
    | 0 => cases hfirst
    | m + 1 =>
        rw [ModelSet.Alternative, ModelSet.shape_of_size_le (Nat.le_add_left 1 m)] at hfirst
        cases hfirst
  have hdefaults : strayDefaultModels.NoDefaultCycle := by
    -- The default is a text, and checking one asks for nothing else.
    intro goal hdefault hcycle
    obtain ⟨m, fields, field, hshape, hmem, -, htype, -⟩ := hdefault
    obtain ⟨type, value⟩ := goal
    cases strayDefaultModels_fields hshape hmem
    cases htype
    obtain ⟨_, hfirst, -⟩ := Relation.TransGen.head'_iff.mp hcycle
    cases hfirst
  exact ModelSet.terminates_of_noCycles hunions hdefaults (ModelSet.tagsInRange hwf)
    (ModelSet.anchor_notMem_alternatives hwf) type value

/-- What is given for the field is the permitted text, and not all instances are restricted. -/
theorem strayDefault_decode_restricted :
    strayDefault.DistinctProperties ∧ strayDefault.DistinctEnums ∧
      strayDefault.compile = .ok strayDefaultModels ∧
      (∀ type value, strayDefaultModels.Terminates type value) ∧
      strayDefaultModels.decode (.model 0) (.obj [("f", .str "a")]) =
        .ok (.object 0 [("f", .scalar (.text "a"))]) ∧
      strayDefaultModels.HoldsPermitted strayField (.scalar (.text "a")) := by
  obtain ⟨hdistinct, henums⟩ := strayDefault_distinct
  have hdecode : strayDefaultModels.decode (.model 0) (.obj [("f", .str "a")]) =
      .ok (.object 0 [("f", .scalar (.text "a"))]) := by rfl
  refine ⟨hdistinct, henums, strayDefault_compile, strayDefaultModels_terminates, hdecode, ?_⟩
  have hfield : strayField ∈ (strayDefaultModels.model 0).fields := List.mem_singleton.mpr rfl
  rcases (compile_decode_restricted hdistinct henums strayDefault_compile
    strayDefaultModels_terminates).1 _ _ _ hdecode _ _ .self strayField hfield _ rfl rfl with
    ⟨-, hnull⟩ | hpermitted | ⟨-, ⟨default, hdefault, -, hother⟩, -⟩
  · cases hnull
  · exact hpermitted
  · cases hdefault
    have hstray : strayDefaultModels.decode strayField.type (.str "b") =
        .ok (.scalar (.text "b")) := by rfl
    simp [hstray] at hother

/-- An object without the field holds the default that the enumeration does not permit. -/
theorem strayDefault_unrestricted :
    strayDefault.DistinctProperties ∧ strayDefault.compile = .ok strayDefaultModels ∧
      (∀ type value, strayDefaultModels.Terminates type value) ∧
      strayDefaultModels.decode (.model 0) (.obj []) =
        .ok (.object 0 [("f", .scalar (.text "b"))]) ∧
      ¬ strayDefaultModels.Restricted (.object 0 [("f", .scalar (.text "b"))]) := by
  refine ⟨strayDefault_distinct.1, strayDefault_compile, strayDefaultModels_terminates, by rfl, ?_⟩
  intro hrestricted
  have hfield : strayField ∈ (strayDefaultModels.model 0).fields := List.mem_singleton.mpr rfl
  rcases hrestricted 0 _ .self strayField hfield _ rfl rfl with
    ⟨-, hnull⟩ | ⟨permitted, allowed, answer, henum, hmem, hdecode, heq⟩
  · cases hnull
  · cases henum
    cases List.mem_singleton.mp hmem
    cases hdecode
    simp [Instance.mapNumbers, Scalar.mapNumber] at heq

end Document
end OpenApi
