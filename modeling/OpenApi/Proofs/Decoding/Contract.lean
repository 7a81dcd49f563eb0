-- SUMMARY: Which values a type accepts, and the instance that it makes of an accepted value.
import OpenApi.Decoding

/-!
# The contract of decoding

`Accepts` says which values a type accepts: what an object has to hold, and which
alternative of a union has to accept. `Reads` says besides which instance a value is:
the alternative that was selected, and the defaults that were filled in. Neither
knows of reports, scratch reports or depths. What is read is accepted, and a value is
read as one instance only.
-/

namespace OpenApi

/-- A field permits every value, or the values of its enumeration if it has one. -/
def Field.Permits (field : Field) (value : Json) : Prop :=
  ∀ permitted, field.enum = some permitted →
    permitted.any (fun allowed => allowed.same value) = true

/-- Each key is the name of a field. -/
def Model.Declares (model : Model) (members : Keyed Json) : Prop :=
  ∀ key ∈ members.keys, (model.field key).isSome = true

namespace ModelSet

variable (set : ModelSet)

/-! ## Acceptance -/

mutual

/-- The values that a type accepts. -/
inductive Accepts : Ty → Json → Prop where
  | scalar {type : ScalarType} {value : Json} {scalar : Scalar} :
      type.decode value = .ok scalar → Accepts (.scalar type) value
  | literal {tag : String} : Accepts (.literal tag) (.str tag)
  | array {item : Ty} {values : List Json} :
      (∀ value ∈ values, Accepts item value) → Accepts (.array item) (.arr values)
  | object {m : ModelId} {fields : List Field} {members : Keyed Json} :
      (set.model m).shape = .object fields → (∀ field ∈ fields, AcceptsField members field) →
        (set.model m).Declares members → Accepts (.model m) (.obj members)
  /-- The tag of the value selects the alternative. -/
  | tagged {m : ModelId} {alternatives : List Ty} {discriminator : Option Discriminator}
      {tags : Keyed Nat} {selector : Discriminator} {members : Keyed Json} {tag : String}
      {index : Nat} {type : Ty} :
      (set.model m).shape = .union alternatives discriminator tags →
        (set.model m).taggedBy = some selector →
        members.get? selector.property = some (.str tag) → tags.get? tag = some index →
        alternatives[index]? = some type → Accepts type (.obj members) →
        Accepts (.model m) (.obj members)
  | untagged {m : ModelId} {alternatives : List Ty} {discriminator : Option Discriminator}
      {tags : Keyed Nat} {type : Ty} {value : Json} :
      (set.model m).shape = .union alternatives discriminator tags →
        (set.model m).taggedBy = none → type ∈ alternatives → Accepts type value →
        Accepts (.model m) value
  | anchor {schema : SchemaId} {anchor : Anchor} {variant : ModelId} {value : Json} :
      set.anchor schema = some anchor → variant ∈ anchor.variants →
        Accepts (.model variant) value → Accepts (.anchor schema) value

/-- What an object with these members may hold for a field. -/
inductive AcceptsField : Keyed Json → Field → Prop where
  | leftOut {members : Keyed Json} {field : Field} :
      members.get? field.name = none → field.required = false → AcceptsField members field
  | skipped {members : Keyed Json} {field : Field} :
      members.get? field.name = some .null → field.required = false → AcceptsField members field
  | given {members : Keyed Json} {field : Field} {value : Json} :
      members.get? field.name = some value → field.Permits value → Accepts field.type value →
        AcceptsField members field

end

/-! ## Reading -/

mutual

/-- The instance that a type makes of a value. -/
inductive Reads : Ty → Json → Instance → Prop where
  | scalar {type : ScalarType} {value : Json} {scalar : Scalar} :
      type.decode value = .ok scalar → Reads (.scalar type) value (.scalar scalar)
  | literal {tag : String} : Reads (.literal tag) (.str tag) (.scalar (.text tag))
  | array {item : Ty} {values : List Json} {items : List Instance} :
      ReadsItems item values items → Reads (.array item) (.arr values) (.array items)
  | object {m : ModelId} {fields : List Field} {members : Keyed Json}
      {entries : List (String × Instance)} :
      (set.model m).shape = .object fields → ReadsFields members fields entries →
        (set.model m).Declares members → Reads (.model m) (.obj members) (.object m entries)
  /-- The index is the one that the tags give. -/
  | tagged {m : ModelId} {alternatives : List Ty} {discriminator : Option Discriminator}
      {tags : Keyed Nat} {selector : Discriminator} {members : Keyed Json} {tag : String}
      {index : Nat} {type : Ty} {answer : Instance} :
      (set.model m).shape = .union alternatives discriminator tags →
        (set.model m).taggedBy = some selector →
        members.get? selector.property = some (.str tag) → tags.get? tag = some index →
        alternatives[index]? = some type → Reads type (.obj members) answer →
        Reads (.model m) (.obj members) (.variant m index answer)
  /-- No alternative before the selected one accepts the value. -/
  | untagged {m : ModelId} {before after : List Ty} {discriminator : Option Discriminator}
      {tags : Keyed Nat} {type : Ty} {value : Json} {answer : Instance} :
      (set.model m).shape = .union (before ++ type :: after) discriminator tags →
        (set.model m).taggedBy = none → (∀ other ∈ before, ¬ Accepts set other value) →
        Reads type value answer → Reads (.model m) value (.variant m before.length answer)
  | anchor {schema : SchemaId} {anchor : Anchor} {before after : List ModelId} {variant : ModelId}
      {value : Json} {answer : Instance} :
      set.anchor schema = some anchor → anchor.variants = before ++ variant :: after →
        (∀ other ∈ before, ¬ Accepts set (.model other) value) →
        Reads (.model variant) value answer → Reads (.anchor schema) value answer

/-- The instances of items. -/
inductive ReadsItems : Ty → List Json → List Instance → Prop where
  | nil {item : Ty} : ReadsItems item [] []
  | cons {item : Ty} {value : Json} {rest : List Json} {answer : Instance}
      {answers : List Instance} :
      Reads item value answer → ReadsItems item rest answers →
        ReadsItems item (value :: rest) (answer :: answers)

/-- What an instance holds for a field. A default that is not of the type is left out. -/
inductive ReadsField : Keyed Json → Field → Option Instance → Prop where
  | leftOut {members : Keyed Json} {field : Field} :
      members.get? field.name = none → field.required = false → field.default = none →
        ReadsField members field none
  | unfit {members : Keyed Json} {field : Field} {default : Json} :
      members.get? field.name = none → field.required = false → field.default = some default →
        ¬ Accepts set field.type default → ReadsField members field none
  | filled {members : Keyed Json} {field : Field} {default : Json} {answer : Instance} :
      members.get? field.name = none → field.required = false → field.default = some default →
        Reads field.type default answer → ReadsField members field (some answer)
  | skipped {members : Keyed Json} {field : Field} :
      members.get? field.name = some .null → field.required = false →
        ReadsField members field (some .null)
  | given {members : Keyed Json} {field : Field} {value : Json} {answer : Instance} :
      members.get? field.name = some value → (field.required = false → value ≠ .null) →
        field.Permits value → Reads field.type value answer →
        ReadsField members field (some answer)

/-- What an instance holds for the fields of an object, in the order of the model. -/
inductive ReadsFields : Keyed Json → List Field → List (String × Instance) → Prop where
  | nil {members : Keyed Json} : ReadsFields members [] []
  | cons {members : Keyed Json} {field : Field} {rest : List Field} {answer : Option Instance}
      {entries : List (String × Instance)} :
      ReadsField members field answer → ReadsFields members rest entries →
        ReadsFields members (field :: rest)
          ((answer.map fun value => (field.name, value)).toList ++ entries)

end

/-! ## Laws of acceptance -/

variable {set}

theorem accepts_scalar_iff {type : ScalarType} {value : Json} :
    set.Accepts (.scalar type) value ↔ ∃ scalar, type.decode value = .ok scalar := by
  constructor
  · intro h
    cases h with
    | scalar hdecode => exact ⟨_, hdecode⟩
  · intro h
    obtain ⟨scalar, hdecode⟩ := h
    exact .scalar hdecode

theorem accepts_literal_iff {tag : String} {value : Json} :
    set.Accepts (.literal tag) value ↔ value = .str tag := by
  constructor
  · intro h
    cases h
    rfl
  · intro heq
    subst heq
    exact .literal

theorem accepts_array_iff {item : Ty} {value : Json} :
    set.Accepts (.array item) value ↔
      ∃ values, value = .arr values ∧ ∀ value ∈ values, set.Accepts item value := by
  constructor
  · intro h
    cases h with
    | array hitems => exact ⟨_, rfl, hitems⟩
  · intro h
    obtain ⟨values, rfl, hitems⟩ := h
    exact .array hitems

theorem accepts_anchor_iff {schema : SchemaId} {value : Json} :
    set.Accepts (.anchor schema) value ↔
      ∃ anchor, set.anchor schema = some anchor ∧
        ∃ variant ∈ anchor.variants, set.Accepts (.model variant) value := by
  constructor
  · intro h
    cases h with
    | anchor hanchor hmem haccepts => exact ⟨_, hanchor, _, hmem, haccepts⟩
  · intro h
    obtain ⟨anchor, hanchor, variant, hmem, haccepts⟩ := h
    exact .anchor hanchor hmem haccepts

section Models

variable {m : ModelId} {value : Json}

theorem accepts_object_iff {fields : List Field} (hshape : (set.model m).shape = .object fields) :
    set.Accepts (.model m) value ↔
      ∃ members, value = .obj members ∧ (∀ field ∈ fields, set.AcceptsField members field) ∧
        (set.model m).Declares members := by
  constructor
  · intro h
    cases h with
    | object hshape' hfields hdeclared =>
        cases hshape.symm.trans hshape'
        exact ⟨_, rfl, hfields, hdeclared⟩
    | tagged hshape' => cases hshape.symm.trans hshape'
    | untagged hshape' => cases hshape.symm.trans hshape'
  · intro h
    obtain ⟨members, rfl, hfields, hdeclared⟩ := h
    exact .object hshape hfields hdeclared

variable {alternatives : List Ty} {discriminator : Option Discriminator} {tags : Keyed Nat}
variable (hshape : (set.model m).shape = .union alternatives discriminator tags)
include hshape

theorem accepts_tagged_iff {selector : Discriminator}
    (hby : (set.model m).taggedBy = some selector) :
    set.Accepts (.model m) value ↔
      ∃ members : Keyed Json, value = .obj members ∧
        ∃ tag index type, members.get? selector.property = some (.str tag) ∧
          tags.get? tag = some index ∧ alternatives[index]? = some type ∧
          set.Accepts type value := by
  constructor
  · intro h
    cases h with
    | object hshape' => cases hshape.symm.trans hshape'
    | tagged hshape' hby' hmember htag htype haccepts =>
        cases hshape.symm.trans hshape'
        cases hby.symm.trans hby'
        exact ⟨_, rfl, _, _, _, hmember, htag, htype, haccepts⟩
    | untagged _ hby' => cases hby.symm.trans hby'
  · intro h
    obtain ⟨members, rfl, tag, index, type, hmember, htag, htype, haccepts⟩ := h
    exact .tagged hshape hby hmember htag htype haccepts

theorem accepts_untagged_iff (hby : (set.model m).taggedBy = none) :
    set.Accepts (.model m) value ↔ ∃ type ∈ alternatives, set.Accepts type value := by
  constructor
  · intro h
    cases h with
    | object hshape' => cases hshape.symm.trans hshape'
    | tagged _ hby' => cases hby.symm.trans hby'
    | untagged hshape' _ hmem haccepts =>
        cases hshape.symm.trans hshape'
        exact ⟨_, hmem, haccepts⟩
  · intro h
    obtain ⟨type, hmem, haccepts⟩ := h
    exact .untagged hshape hby hmem haccepts

end Models

/-! ## What is read is accepted -/

mutual

theorem Reads.accepts {type : Ty} {value : Json} {answer : Instance} :
    Reads set type value answer → Accepts set type value
  | .scalar hdecode => .scalar hdecode
  | .literal => .literal
  | .array hitems => .array hitems.accepts
  | .object hshape hfields hdeclared => .object hshape hfields.accepts hdeclared
  | .tagged hshape hby hmember htag htype hread =>
      .tagged hshape hby hmember htag htype hread.accepts
  | .untagged hshape hby _ hread => .untagged hshape hby (by simp) hread.accepts
  | .anchor hanchor hsplit _ hread => .anchor hanchor (by simp [hsplit]) hread.accepts

theorem ReadsItems.accepts {item : Ty} {values : List Json} {answers : List Instance} :
    ReadsItems set item values answers → ∀ value ∈ values, Accepts set item value
  | .nil => by simp
  | .cons hread hrest => by
      have hhead := hread.accepts
      have htail := hrest.accepts
      simpa using ⟨hhead, htail⟩

theorem ReadsField.accepts {members : Keyed Json} {field : Field} {answer : Option Instance} :
    ReadsField set members field answer → AcceptsField set members field
  | .leftOut hnone hopt _ => .leftOut hnone hopt
  | .unfit hnone hopt _ _ => .leftOut hnone hopt
  | .filled hnone hopt _ _ => .leftOut hnone hopt
  | .skipped hnull hopt => .skipped hnull hopt
  | .given hsome _ hpermits hread => .given hsome hpermits hread.accepts

theorem ReadsFields.accepts {members : Keyed Json} {fields : List Field}
    {entries : List (String × Instance)} :
    ReadsFields set members fields entries → ∀ field ∈ fields, AcceptsField set members field
  | .nil => by simp
  | .cons hread hrest => by
      have hhead := hread.accepts
      have htail := hrest.accepts
      simpa using ⟨hhead, htail⟩

end

/-! ## One instance of a value -/

/-- Only one split of a list has the first entry of a kind in the middle. -/
theorem first_unique {α : Type} {P : α → Prop} {before before' after after' : List α} {x x' : α}
    (heq : before ++ x :: after = before' ++ x' :: after') (hbefore : ∀ y ∈ before, ¬ P y)
    (hbefore' : ∀ y ∈ before', ¬ P y) (hx : P x) (hx' : P x') : before = before' ∧ x = x' := by
  rcases List.append_eq_append_iff.mp heq with ⟨more, rfl, hrest⟩ | ⟨more, rfl, hrest⟩
  · cases more with
    | nil => exact ⟨(List.append_nil _).symm, (List.cons.inj hrest).1⟩
    | cons y more =>
        cases (List.cons.inj hrest).1
        exact absurd hx (hbefore' x (by simp))
  · cases more with
    | nil => exact ⟨List.append_nil _, (List.cons.inj hrest).1.symm⟩
    | cons y more =>
        cases (List.cons.inj hrest).1
        exact absurd hx' (hbefore x' (by simp))

mutual

/-- A type makes at most one instance of a value. -/
theorem Reads.unique {type : Ty} {value : Json} {answer answer' : Instance} :
    Reads set type value answer → Reads set type value answer' → answer = answer'
  | .scalar hdecode, .scalar hdecode' => by
      cases hdecode.symm.trans hdecode'
      rfl
  | .literal, .literal => rfl
  | .array hitems, .array hitems' => by rw [hitems.unique hitems']
  | .object hshape hfields _, h' => by
      cases h' with
      | object hshape' hfields' =>
          cases hshape.symm.trans hshape'
          rw [hfields.unique hfields']
      | tagged hshape' => cases hshape.symm.trans hshape'
      | untagged hshape' => cases hshape.symm.trans hshape'
  | .tagged hshape hby hmember htag htype hread, h' => by
      cases h' with
      | object hshape' => cases hshape.symm.trans hshape'
      | tagged hshape' hby' hmember' htag' htype' hread' =>
          cases hshape.symm.trans hshape'
          cases hby.symm.trans hby'
          cases hmember.symm.trans hmember'
          cases htag.symm.trans htag'
          cases htype.symm.trans htype'
          rw [hread.unique hread']
      | untagged _ hby' => cases hby.symm.trans hby'
  | .untagged hshape hby hbefore hread, h' => by
      cases h' with
      | object hshape' => cases hshape.symm.trans hshape'
      | tagged _ hby' => cases hby.symm.trans hby'
      | untagged hshape' _ hbefore' hread' =>
          obtain ⟨heq, -, -⟩ := Shape.union.inj (hshape.symm.trans hshape')
          obtain ⟨rfl, rfl⟩ :=
            first_unique heq hbefore hbefore' hread.accepts hread'.accepts
          rw [hread.unique hread']
  | .anchor hanchor hsplit hbefore hread, .anchor hanchor' hsplit' hbefore' hread' => by
      cases hanchor.symm.trans hanchor'
      obtain ⟨-, rfl⟩ := first_unique (P := fun variant => Accepts set (.model variant) value)
        (hsplit.symm.trans hsplit') hbefore hbefore' hread.accepts hread'.accepts
      exact hread.unique hread'
termination_by structural h => h

theorem ReadsItems.unique {item : Ty} {values : List Json} {answers answers' : List Instance} :
    ReadsItems set item values answers → ReadsItems set item values answers' → answers = answers'
  | .nil, .nil => rfl
  | .cons hread hrest, .cons hread' hrest' => by rw [hread.unique hread', hrest.unique hrest']
termination_by structural h => h

theorem ReadsField.unique {members : Keyed Json} {field : Field}
    {answer answer' : Option Instance} :
    ReadsField set members field answer → ReadsField set members field answer' → answer = answer'
  | .leftOut hnone _ hdefault, h' => by
      cases h' with
      | leftOut | unfit => rfl
      | filled _ _ hdefault' => cases hdefault.symm.trans hdefault'
      | skipped hsome => cases hnone.symm.trans hsome
      | given hsome => cases hnone.symm.trans hsome
  | .unfit hnone _ hdefault hunfit, h' => by
      cases h' with
      | leftOut | unfit => rfl
      | filled _ _ hdefault' hread' =>
          cases hdefault.symm.trans hdefault'
          exact absurd hread'.accepts hunfit
      | skipped hsome => cases hnone.symm.trans hsome
      | given hsome => cases hnone.symm.trans hsome
  | .filled hnone _ hdefault hread, h' => by
      cases h' with
      | leftOut _ _ hdefault' => cases hdefault.symm.trans hdefault'
      | unfit _ _ hdefault' hunfit =>
          cases hdefault.symm.trans hdefault'
          exact absurd hread.accepts hunfit
      | filled _ _ hdefault' hread' =>
          cases hdefault.symm.trans hdefault'
          rw [hread.unique hread']
      | skipped hsome => cases hnone.symm.trans hsome
      | given hsome => cases hnone.symm.trans hsome
  | .skipped hsome hopt, h' => by
      cases h' with
      | leftOut hnone | unfit hnone | filled hnone => cases hsome.symm.trans hnone
      | skipped => rfl
      | given hsome' hvalue =>
          cases hsome.symm.trans hsome'
          exact absurd rfl (hvalue hopt)
  | .given hsome hvalue _ hread, h' => by
      cases h' with
      | leftOut hnone | unfit hnone | filled hnone => cases hsome.symm.trans hnone
      | skipped hsome' hopt =>
          cases hsome.symm.trans hsome'
          exact absurd rfl (hvalue hopt)
      | given hsome' _ _ hread' =>
          cases hsome.symm.trans hsome'
          rw [hread.unique hread']
termination_by structural h => h

theorem ReadsFields.unique {members : Keyed Json} {fields : List Field}
    {entries entries' : List (String × Instance)} :
    ReadsFields set members fields entries → ReadsFields set members fields entries' →
      entries = entries'
  | .nil, .nil => rfl
  | .cons hread hrest, .cons hread' hrest' => by rw [hread.unique hread', hrest.unique hrest']
termination_by structural h => h

end

/-! ## Instances that are read -/

/-- Nothing that is read from a value is written as null. -/
theorem Reads.toJson_ne_null {type : Ty} {value : Json} {answer : Instance} :
    Reads set type value answer → answer.toJson ≠ .null
  | @Reads.scalar _ _ _ decoded _ => by cases decoded <;> nofun
  | .literal => nofun
  | .array _ => nofun
  | .object _ _ _ => nofun
  | .tagged _ _ _ _ _ hread => hread.toJson_ne_null
  | .untagged _ _ _ hread => hread.toJson_ne_null
  | .anchor _ _ _ hread => hread.toJson_ne_null

/-- The fields of an object stand in the order of the model, and each has an entry at most once. -/
theorem ReadsFields.names_sublist {members : Keyed Json} {fields : List Field}
    {entries : Keyed Instance} :
    ReadsFields set members fields entries → entries.keys.Sublist (fields.map (·.name))
  | .nil => .slnil
  | @ReadsFields.cons _ _ _ _ answer _ _ hrest => by
      cases answer with
      | none => exact hrest.names_sublist.cons _
      | some value => exact hrest.names_sublist.cons_cons _

end ModelSet
end OpenApi
