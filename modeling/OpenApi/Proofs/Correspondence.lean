-- SUMMARY: The JSON of a decoded instance has what the value had, and besides only defaults.
import OpenApi.Proofs.RoundTrip

/-!
# Written values

An instance is written back value by value. `Corresponds` says how a written value
stands to the value that was decoded: the same items, the same members, each text as
it was, and each other scalar as what it was decoded to. A written object may have
members that the value had not, but only for optional fields that were left out, and
then they are written from the defaults of these fields.
-/

namespace OpenApi

/-! ## Texts -/

namespace ScalarType

/-- A text that is decoded to a text stays as it is. -/
theorem eq_of_decodeText {type : ScalarType} {text content : String}
    (h : type.decodeText text = .ok (.text content)) : text = content := by
  cases type with
  | text | password | binary | path =>
      cases h
      rfl
  | byte | email | nameEmail | uri | uuid => exact (Scalar.text.inj (text_of_keep h)).symm
  | date | dateTime | time =>
      simp only [decodeText] at h
      split at h <;> cases h
  | ipv4Network | ipv6Network | ipAnyNetwork | regex =>
      simp only [decodeText] at h
      split at h <;> cases h
      rfl
  | ipv4 | ipv6 | ipAny =>
      simp only [decodeText] at h
      split at h
      · cases h
      · split at h <;> cases h
  | boolean | integer | float | timeDelta => cases h

/-- Only a string is decoded to a text, and the text is the string. -/
theorem eq_str_of_decode {type : ScalarType} {value : Json} {content : String}
    (h : type.decode value = .ok (.text content)) : value = .str content := by
  cases type with
  | boolean =>
      simp only [decode] at h
      split at h <;> cases h
  | integer | float | timeDelta =>
      simp only [decode] at h
      split at h
      · split at h <;> cases h
      · cases h
      · cases h
  | text | byte | binary | date | dateTime | time | password | email | nameEmail | uri | uuid
    | ipv4 | ipv6 | ipAny | ipv4Network | ipv6Network | ipAnyNetwork | regex | path =>
      simp only [decode] at h
      split at h
      · rw [eq_of_decodeText h]
      · cases h

end ScalarType

namespace ModelSet

/-! ## Correspondence -/

variable (set : ModelSet)

mutual

/-- A value is written as another by a type. -/
inductive Corresponds : Ty → Json → Json → Prop where
  | text {type : ScalarType} {content : String} :
      type.decode (.str content) = .ok (.text content) →
        Corresponds (.scalar type) (.str content) (.str content)
  | scalar {type : ScalarType} {value : Json} {decoded : Scalar} :
      type.decode value = .ok decoded → (∀ content, decoded ≠ .text content) →
        Corresponds (.scalar type) value decoded.toJson
  | literal {tag : String} : Corresponds (.literal tag) (.str tag) (.str tag)
  | array {item : Ty} {values written : List Json} :
      CorrespondItems item values written → Corresponds (.array item) (.arr values) (.arr written)
  /-- All members are written, and each written member belongs to a field. -/
  | object {m : ModelId} {fields : List Field} {members written : Keyed Json} :
      (set.model m).shape = .object fields → (∀ key ∈ members.keys, key ∈ written.keys) →
        (set.model m).Declares written →
        (∀ field ∈ fields, ∀ value, written.get? field.name = some value →
          CorrespondsField members field value) →
        Corresponds (.model m) (.obj members) (.obj written)
  /-- The alternative is the one that the union selects. -/
  | variant {m : ModelId} {index : Nat} {type : Ty} {value written : Json} {answer : Instance} :
      set.Reads (.model m) value (.variant m index answer) →
        (set.model m).shape.alternatives[index]? = some type → Corresponds type value written →
        Corresponds (.model m) value written
  /-- The variant is the one that the instance is of. -/
  | anchor {schema : SchemaId} {variant : ModelId} {value written : Json} {answer : Instance} :
      set.Reads (.anchor schema) value answer → set.Reads (.model variant) value answer →
        Corresponds (.model variant) value written → Corresponds (.anchor schema) value written

/-- Items are written one by one. -/
inductive CorrespondItems : Ty → List Json → List Json → Prop where
  | nil {item : Ty} : CorrespondItems item [] []
  | cons {item : Ty} {value written : Json} {values rest : List Json} :
      Corresponds item value written → CorrespondItems item values rest →
        CorrespondItems item (value :: values) (written :: rest)

/-- What is written for a field of an object with these members. -/
inductive CorrespondsField : Keyed Json → Field → Json → Prop where
  | null {members : Keyed Json} {field : Field} :
      members.get? field.name = some .null → field.required = false →
        CorrespondsField members field .null
  | given {members : Keyed Json} {field : Field} {value written : Json} :
      members.get? field.name = some value → Corresponds field.type value written →
        CorrespondsField members field written
  | default {members : Keyed Json} {field : Field} {default written : Json} :
      members.get? field.name = none → field.required = false → field.default = some default →
        set.Accepts field.type default → Corresponds field.type default written →
        CorrespondsField members field written

end

/-! ## What is read is written so -/

variable {set}

/-- A scalar is written as what it was decoded to, and a text as it was. -/
theorem corresponds_scalar {type : ScalarType} {value : Json} {decoded : Scalar}
    (h : type.decode value = .ok decoded) :
    set.Corresponds (.scalar type) value decoded.toJson := by
  cases decoded with
  | text content =>
      have hvalue := ScalarType.eq_str_of_decode h
      subst hvalue
      exact .text h
  | _ => exact .scalar h nofun

/-- How a field without a member, or with one, is held. -/
def HeldField (set : ModelSet) (members : Keyed Json) (field : Field) (held : Option Instance) :
    Prop :=
  (∀ value, members.get? field.name = some value → held.isSome = true) ∧
    ∀ answer, held = some answer → set.CorrespondsField members field answer.toJson

mutual

/-- The JSON of an instance corresponds to the value that the instance was read from. -/
theorem Reads.corresponds (hnames : set.DistinctFields) {type : Ty} {value : Json}
    {answer : Instance} :
    Reads set type value answer → set.Corresponds type value answer.toJson
  | .scalar hdecode => corresponds_scalar hdecode
  | .literal => .literal
  | .array hitems => .array (hitems.corresponds hnames)
  | @Reads.object _ m fields members entries hshape hfields hdeclared => by
      have hheld := hfields.held hnames (hnames _ _ hshape)
      refine .object hshape (fun key hkey => ?_) (hfields.declares hshape) ?_
      · -- A key of the value is the name of a field, which then holds something.
        obtain ⟨field, hfield⟩ := Option.isSome_iff_exists.mp (hdeclared key hkey)
        have hmem : field ∈ fields := by
          simpa [Model.fields, hshape] using List.mem_of_find?_eq_some hfield
        have hname : field.name = key := by simpa using List.find?_some hfield
        obtain ⟨value, hvalue⟩ := Keyed.exists_get?_of_mem_keys hkey
        obtain ⟨answer, hanswer⟩ :=
          Option.isSome_iff_exists.mp ((hheld field hmem).1 value (hname ▸ hvalue))
        rw [keys_toJsonFields, ← hname]
        exact Keyed.mem_keys_of_get? hanswer
      · intro field hmem value hvalue
        rw [get?_toJsonFields] at hvalue
        obtain ⟨answer, hanswer, rfl⟩ := Option.map_eq_some_iff.mp hvalue
        exact (hheld field hmem).2 answer hanswer
  | .tagged hshape hby hmember htag htype hread =>
      .variant (.tagged hshape hby hmember htag htype hread)
        (by simpa [hshape, Shape.alternatives] using htype) (hread.corresponds hnames)
  | .untagged hshape hby hbefore hread =>
      .variant (.untagged hshape hby hbefore hread) (by simp [hshape, Shape.alternatives])
        (hread.corresponds hnames)
  | .anchor hanchor hsplit hbefore hread =>
      .anchor (.anchor hanchor hsplit hbefore hread) hread (hread.corresponds hnames)
termination_by structural h => h

theorem ReadsItems.corresponds (hnames : set.DistinctFields) {item : Ty} {values : List Json}
    {answers : List Instance} :
    ReadsItems set item values answers →
      set.CorrespondItems item values (Instance.toJsonItems answers)
  | .nil => .nil
  | .cons hread hrest => .cons (hread.corresponds hnames) (hrest.corresponds hnames)
termination_by structural h => h

theorem ReadsField.held (hnames : set.DistinctFields) {members : Keyed Json} {field : Field}
    {held : Option Instance} :
    ReadsField set members field held → set.HeldField members field held
  | .leftOut hnone _ _ | .unfit hnone _ _ _ => ⟨by simp [hnone], nofun⟩
  | .filled hnone hopt hdefault hread => by
      refine ⟨by simp, ?_⟩
      rintro _ ⟨⟩
      exact .default hnone hopt hdefault hread.accepts (hread.corresponds hnames)
  | .skipped hnull hopt => by
      refine ⟨by simp, ?_⟩
      rintro _ ⟨⟩
      exact .null hnull hopt
  | .given hsome _ _ hread => by
      refine ⟨by simp, ?_⟩
      rintro _ ⟨⟩
      exact .given hsome (hread.corresponds hnames)
termination_by structural h => h

theorem ReadsFields.held (hnames : set.DistinctFields) {members : Keyed Json}
    {fields : List Field} {entries : Keyed Instance} :
    ReadsFields set members fields entries → (fields.map (·.name)).Nodup →
      ∀ field ∈ fields, set.HeldField members field (entries.get? field.name)
  | .nil, _ => by simp
  | .cons hread hrest, hnodup =>
      (hrest.forall_entry_iff hnodup _).mpr
        ⟨hread.held hnames, hrest.held hnames (List.nodup_cons.mp hnodup).2⟩
termination_by structural h => h

end

end ModelSet

namespace Document

variable {doc : Document} {set : ModelSet}

/-! ## Written values of compiled sets -/

/-- What is decoded by a compiled set is written with all that the value had. It has more only where
an optional field was left out and has a default that fits. -/
theorem compile_decode_corresponds (hdistinct : doc.DistinctProperties)
    (h : doc.compile = .ok set) {type : Ty} {value : Json} {answer : Instance}
    (hdecode : set.decode type value = .ok answer) :
    set.Corresponds type value answer.toJson :=
  (ModelSet.reads_of_decode hdecode).corresponds (compile_distinctFields hdistinct h)

/-- A date is written in its own spelling, and a rank that was left out is written from its
default. -/
theorem agenda_corresponds :
    agenda.DistinctProperties ∧ agenda.compile = .ok agendaModels ∧
      agendaModels.decode (.model 2) (.obj [("due", .str "2024-1-5")]) = .ok agendaTask ∧
      agendaModels.Corresponds (.model 2) (.obj [("due", .str "2024-1-5")])
        (.obj [("due", .str "2024-01-05"), ("rank", .num (.int 1))]) := by
  have hdistinct : agenda.DistinctProperties := by simp [DistinctProperties, agenda, Keyed.keys]
  have hcompile : agenda.compile = .ok agendaModels := by rfl
  have hdecode :
      agendaModels.decode (.model 2) (.obj [("due", .str "2024-1-5")]) = .ok agendaTask := by rfl
  exact ⟨hdistinct, hcompile, hdecode, compile_decode_corresponds hdistinct hcompile hdecode⟩

end Document
end OpenApi
