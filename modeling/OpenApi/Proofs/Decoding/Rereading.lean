-- SUMMARY: When an instance is read again from its own JSON.
import OpenApi.Proofs.Decoding.Contract
import OpenApi.Proofs.ScalarSpelling

/-!
# Reading again

A type makes one instance of a value. Written back, the instance has its scalars in
one spelling and its defaults filled in, so the checks and choices behind it meet
another value. `Keeps` says that they come out as before: enumerations still have the
value, tags still select the alternative, and no earlier alternative accepts what it
refused. Where field names are distinct, that is all it takes.
-/

namespace OpenApi

namespace ModelSet

variable {set : ModelSet}

/-! ## JSON of fields -/

theorem get?_toJsonFields (entries : Keyed Instance) (name : String) :
    Keyed.get? (Instance.toJsonFields entries) name = (entries.get? name).map Instance.toJson := by
  induction entries with
  | nil => rfl
  | cons entry rest ih =>
      obtain ⟨key, value⟩ := entry
      simp only [Instance.toJsonFields, Keyed.get?_cons, ih]
      split <;> rfl

theorem keys_toJsonFields (entries : Keyed Instance) :
    Keyed.keys (Instance.toJsonFields entries) = entries.keys := by
  induction entries with
  | nil => rfl
  | cons entry rest ih =>
      obtain ⟨key, value⟩ := entry
      simpa [Instance.toJsonFields, Keyed.keys] using ih

/-! ## Choices that come out as before -/

variable (set) in
mutual

/-- The choices behind an instance of a type come out the same for its own JSON. -/
inductive Keeps : Ty → Instance → Prop where
  | scalar {type : ScalarType} {value : Scalar} : Keeps (.scalar type) (.scalar value)
  | literal {tag : String} {value : Scalar} : Keeps (.literal tag) (.scalar value)
  | array {item : Ty} {items : List Instance} :
      (∀ answer ∈ items, Keeps item answer) → Keeps (.array item) (.array items)
  | object {m : ModelId} {fields : List Field} {entries : Keyed Instance} :
      (set.model m).shape = .object fields →
        (∀ field ∈ fields, ∀ value, entries.get? field.name = some value →
          KeepsField field value) → Keeps (.model m) (.object m entries)
  /-- The tag in the JSON selects the alternative. -/
  | tagged {m : ModelId} {alternatives : List Ty} {discriminator : Option Discriminator}
      {tags : Keyed Nat} {selector : Discriminator} {members : Keyed Json} {tag : String}
      {index : Nat} {type : Ty} {answer : Instance} :
      (set.model m).shape = .union alternatives discriminator tags →
        (set.model m).taggedBy = some selector → answer.toJson = .obj members →
        members.get? selector.property = some (.str tag) → tags.get? tag = some index →
        alternatives[index]? = some type → Keeps type answer →
        Keeps (.model m) (.variant m index answer)
  /-- No alternative before the selected one accepts the JSON. -/
  | untagged {m : ModelId} {alternatives : List Ty} {discriminator : Option Discriminator}
      {tags : Keyed Nat} {index : Nat} {type : Ty} {answer : Instance} :
      (set.model m).shape = .union alternatives discriminator tags →
        (set.model m).taggedBy = none → alternatives[index]? = some type →
        (∀ other ∈ alternatives.take index, ¬ Accepts set other answer.toJson) →
        Keeps type answer → Keeps (.model m) (.variant m index answer)
  | anchor {schema : SchemaId} {anchor : Anchor} {before after : List ModelId} {variant : ModelId}
      {answer : Instance} :
      set.anchor schema = some anchor → anchor.variants = before ++ variant :: after →
        (∀ other ∈ before, ¬ Accepts set (.model other) answer.toJson) →
        Keeps (.model variant) answer → Keeps (.anchor schema) answer

/-- What a field holds is null, or its JSON is in the enumeration if there is one. -/
inductive KeepsField : Field → Instance → Prop where
  | null {field : Field} : KeepsField field .null
  | value {field : Field} {value : Instance} :
      field.Permits value.toJson → Keeps field.type value → KeepsField field value

end

/-- The fields of each object have different names. -/
def DistinctFields (set : ModelSet) : Prop :=
  ∀ m fields, (set.model m).shape = .object fields → (fields.map (·.name)).Nodup

/-! ## One field after another -/

section Fields

variable {members : Keyed Json} {field : Field} {answer : Option Instance}
variable {entries : Keyed Instance}

/-- The entry for a field, and the entries for the fields behind it. -/
theorem get?_entry (name : String) :
    Keyed.get? ((answer.map fun value => (field.name, value)).toList ++ entries) name =
      if name = field.name then answer.or (entries.get? name) else entries.get? name := by
  cases answer with
  | none => simp
  | some value =>
      simp only [Option.map_some, Option.toList_some, List.singleton_append, Keyed.get?_cons,
        beq_iff_eq, Option.some_or]

/-- Where names are distinct, the fields behind a field have no entry for it. -/
theorem ReadsFields.get?_eq_none {fields : List Field}
    (h : ReadsFields set members fields entries) {name : String}
    (hname : name ∉ fields.map (·.name)) : entries.get? name = none := by
  cases hget : entries.get? name with
  | none => rfl
  | some value => exact absurd (h.names_sublist.subset (Keyed.mem_keys_of_get? hget)) hname

/-- What holds for each field and its entry holds for the first field and for those behind it. -/
theorem ReadsFields.forall_entry_iff {rest : List Field} (h : ReadsFields set members rest entries)
    (hnodup : ((field :: rest).map (·.name)).Nodup) (P : Field → Option Instance → Prop) :
    (∀ f ∈ field :: rest, P f (Keyed.get?
      ((answer.map fun value => (field.name, value)).toList ++ entries) f.name)) ↔
      P field answer ∧ ∀ f ∈ rest, P f (entries.get? f.name) := by
  rw [List.map_cons, List.nodup_cons] at hnodup
  have hfirst : Keyed.get? ((answer.map fun value => (field.name, value)).toList ++ entries)
      field.name = answer := by
    rw [get?_entry, if_pos rfl, h.get?_eq_none hnodup.1, Option.or_none]
  have hrest : ∀ f ∈ rest, Keyed.get?
      ((answer.map fun value => (field.name, value)).toList ++ entries) f.name =
        entries.get? f.name := by
    intro f hmem
    rw [get?_entry, if_neg]
    exact fun heq => hnodup.1 (heq ▸ List.mem_map_of_mem hmem)
  rw [List.forall_mem_cons, hfirst]
  exact and_congr_right fun _ => forall₂_congr fun f hmem => by rw [hrest f hmem]

end Fields

/-- An object has no keys but those of its fields. -/
theorem ReadsFields.declares {m : ModelId} {fields : List Field} {members : Keyed Json}
    {entries : Keyed Instance} (hshape : (set.model m).shape = .object fields)
    (h : ReadsFields set members fields entries) :
    (set.model m).Declares (Instance.toJsonFields entries) := by
  intro key hkey
  rw [keys_toJsonFields] at hkey
  obtain ⟨field, hmem, rfl⟩ := List.mem_map.mp (h.names_sublist.subset hkey)
  rw [Model.field, List.find?_isSome]
  exact ⟨field, by rwa [Model.fields, hshape], beq_self_eq_true _⟩

/-- An instance of a model says which model it is of. -/
theorem Reads.model_of_keeps {m m' : ModelId} {value : Json} {answer : Instance}
    (h : Reads set (.model m) value answer) (hkeeps : Keeps set (.model m') answer) : m' = m := by
  cases h <;> cases hkeeps <;> rfl

/-! ## Reading the JSON of an instance -/

mutual

/-- An instance whose choices come out as before is read again from its JSON. -/
theorem Reads.again (hnames : set.DistinctFields) {type : Ty} {value : Json} {answer : Instance} :
    Reads set type value answer → Keeps set type answer → Reads set type answer.toJson answer
  | .scalar hdecode, _ => .scalar (ScalarType.decode_toJson hdecode)
  | .literal, _ => .literal
  | .array hitems, hkeeps => by
      cases hkeeps with
      | array hall => exact .array (hitems.again hnames hall)
  | .object hshape hfields hdeclared, hkeeps => by
      cases hkeeps with
      | object hshape' hall =>
          cases hshape.symm.trans hshape'
          refine .object hshape (hfields.again hnames (hnames _ _ hshape) ?_ hall)
            (hfields.declares hshape)
          exact fun field _ => get?_toJsonFields _ _
  | .tagged hshape hby hmember htag htype hread, hkeeps => by
      cases hkeeps with
      | tagged hshape' hby' hjson hmember' htag' htype' hkeeps =>
          cases hshape.symm.trans hshape'
          cases hby.symm.trans hby'
          cases htype.symm.trans htype'
          have hagain := hread.again hnames hkeeps
          rw [hjson] at hagain
          rw [Instance.toJson, hjson]
          exact .tagged hshape hby hmember' htag' htype hagain
      | untagged _ hby' => cases hby.symm.trans hby'
  | .untagged hshape hby _ hread, hkeeps => by
      cases hkeeps with
      | tagged _ hby' => cases hby.symm.trans hby'
      | untagged hshape' _ htype hbefore hkeeps =>
          obtain ⟨rfl, -, -⟩ := Shape.union.inj (hshape.symm.trans hshape')
          rw [List.getElem?_append_right (Nat.le_refl _), Nat.sub_self] at htype
          cases htype
          rw [List.take_left] at hbefore
          exact .untagged hshape hby hbefore (hread.again hnames hkeeps)
  | .anchor _ _ _ hread, hkeeps => by
      cases hkeeps with
      | anchor hanchor hsplit hbefore hkeeps =>
          -- The instance does not say which variant took it, but its model does.
          cases hread.model_of_keeps hkeeps
          exact .anchor hanchor hsplit hbefore (hread.again hnames hkeeps)
termination_by structural h => h

theorem ReadsItems.again (hnames : set.DistinctFields) {item : Ty} {values : List Json}
    {answers : List Instance} :
    ReadsItems set item values answers → (∀ answer ∈ answers, Keeps set item answer) →
      ReadsItems set item (Instance.toJsonItems answers) answers
  | .nil, _ => .nil
  | .cons hread hrest, hkeeps => by
      rw [List.forall_mem_cons] at hkeeps
      exact .cons (hread.again hnames hkeeps.1) (hrest.again hnames hkeeps.2)
termination_by structural h => h

theorem ReadsField.again (hnames : set.DistinctFields) {members members' : Keyed Json}
    {field : Field} {answer : Option Instance} :
    ReadsField set members field answer →
      (∀ value, answer = some value → KeepsField set field value) →
      members'.get? field.name = answer.map Instance.toJson →
      ReadsField set members' field answer
  | .leftOut _ hopt hdefault, _, hmember => .leftOut hmember hopt hdefault
  | .unfit _ hopt hdefault hunfit, _, hmember => .unfit hmember hopt hdefault hunfit
  | .filled _ hopt hdefault hread, hkeeps, hmember => by
      -- A default that was filled in is there now, so it is checked like any other value.
      have hne := hread.toJson_ne_null
      cases hkeeps _ rfl with
      | null => exact absurd rfl hne
      | value hpermits hkeeps =>
          exact .given hmember (fun _ => hne) hpermits (hread.again hnames hkeeps)
  | .skipped _ hopt, _, hmember => .skipped hmember hopt
  | .given _ _ _ hread, hkeeps, hmember => by
      have hne := hread.toJson_ne_null
      cases hkeeps _ rfl with
      | null => exact absurd rfl hne
      | value hpermits hkeeps =>
          exact .given hmember (fun _ => hne) hpermits (hread.again hnames hkeeps)
termination_by structural h => h

theorem ReadsFields.again (hnames : set.DistinctFields) {members members' : Keyed Json}
    {fields : List Field} {entries : Keyed Instance} :
    ReadsFields set members fields entries → (fields.map (·.name)).Nodup →
      (∀ field ∈ fields,
        members'.get? field.name = (entries.get? field.name).map Instance.toJson) →
      (∀ field ∈ fields, ∀ value, entries.get? field.name = some value →
        KeepsField set field value) →
      ReadsFields set members' fields entries
  | .nil, _, _, _ => .nil
  | .cons hread hrest, hnodup, hmembers, hkeeps => by
      have hmembers := (hrest.forall_entry_iff hnodup fun field held =>
        members'.get? field.name = held.map Instance.toJson).mp hmembers
      have hkeeps := (hrest.forall_entry_iff hnodup fun field held =>
        ∀ value, held = some value → KeepsField set field value).mp hkeeps
      exact .cons (hread.again hnames hkeeps.1 hmembers.1)
        (hrest.again hnames (List.nodup_cons.mp hnodup).2 hmembers.2 hkeeps.2)
termination_by structural h => h

end

/-! ## What is read again -/

mutual

/-- What is read from the JSON of an instance as that instance keeps its choices. -/
theorem Reads.keeps (hnames : set.DistinctFields) {type : Ty} {value : Json} {answer : Instance} :
    Reads set type value answer → value = answer.toJson → Keeps set type answer
  | .scalar _, _ => .scalar
  | .literal, _ => .literal
  | .array hitems, heq => .array (hitems.keeps hnames (Json.arr.inj heq))
  | .object hshape hfields _, heq => by
      refine .object hshape (hfields.keeps hnames (hnames _ _ hshape) fun field _ => ?_)
      rw [Json.obj.inj heq, get?_toJsonFields]
  | .tagged hshape hby hmember htag htype hread, heq =>
      .tagged hshape hby heq.symm hmember htag htype (hread.keeps hnames heq)
  | .untagged hshape hby hbefore hread, heq => by
      refine .untagged hshape hby ?_ ?_ (hread.keeps hnames heq)
      · rw [List.getElem?_append_right (Nat.le_refl _), Nat.sub_self]
        rfl
      · rw [List.take_left]
        exact fun other hmem => heq ▸ hbefore other hmem
  | .anchor hanchor hsplit hbefore hread, heq =>
      .anchor hanchor hsplit (heq ▸ hbefore) (hread.keeps hnames heq)
termination_by structural h => h

theorem ReadsItems.keeps (hnames : set.DistinctFields) {item : Ty} {values : List Json}
    {answers : List Instance} :
    ReadsItems set item values answers → values = Instance.toJsonItems answers →
      ∀ answer ∈ answers, Keeps set item answer
  | .nil, _ => by simp
  | .cons hread hrest, heq => by
      obtain ⟨hfirst, hmore⟩ := List.cons.inj heq
      exact List.forall_mem_cons.mpr ⟨hread.keeps hnames hfirst, hrest.keeps hnames hmore⟩
termination_by structural h => h

theorem ReadsField.keeps (hnames : set.DistinctFields) {members : Keyed Json} {field : Field}
    {answer : Option Instance} :
    ReadsField set members field answer →
      members.get? field.name = answer.map Instance.toJson →
      ∀ value, answer = some value → KeepsField set field value
  | .leftOut _ _ _, _ => nofun
  | .unfit _ _ _ _, _ => nofun
  | .filled hnone _ _ _, hmember => by cases hnone.symm.trans hmember
  | .skipped _ _, _ => by
      rintro _ ⟨⟩
      exact .null
  | .given hsome _ hpermits hread, hmember => by
      rintro _ ⟨⟩
      have heq := Option.some.inj (hsome.symm.trans hmember)
      exact .value (heq ▸ hpermits) (hread.keeps hnames heq)
termination_by structural h => h

theorem ReadsFields.keeps (hnames : set.DistinctFields) {members : Keyed Json}
    {fields : List Field} {entries : Keyed Instance} :
    ReadsFields set members fields entries → (fields.map (·.name)).Nodup →
      (∀ field ∈ fields,
        members.get? field.name = (entries.get? field.name).map Instance.toJson) →
      ∀ field ∈ fields, ∀ value, entries.get? field.name = some value →
        KeepsField set field value
  | .nil, _, _ => by simp
  | .cons hread hrest, hnodup, hmembers => by
      have hmembers := (hrest.forall_entry_iff hnodup fun field held =>
        members.get? field.name = held.map Instance.toJson).mp hmembers
      refine (hrest.forall_entry_iff hnodup fun field held =>
        ∀ value, held = some value → KeepsField set field value).mpr ⟨?_, ?_⟩
      · exact hread.keeps hnames hmembers.1
      · exact hrest.keeps hnames (List.nodup_cons.mp hnodup).2 hmembers.2
termination_by structural h => h

end

/-- An instance of a value is that of its own JSON too exactly if its choices come out as before. -/
theorem Reads.again_iff (hnames : set.DistinctFields) {type : Ty} {value : Json}
    {answer : Instance} (h : set.Reads type value answer) :
    set.Reads type answer.toJson answer ↔ set.Keeps type answer :=
  ⟨fun hagain => hagain.keeps hnames rfl, fun hkeeps => h.again hnames hkeeps⟩

end ModelSet
end OpenApi
