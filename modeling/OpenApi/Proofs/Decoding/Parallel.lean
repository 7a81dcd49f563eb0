-- SUMMARY: Two checks side by side: on reordered values, and with some defaults left out.
import OpenApi.Proofs.Decoding.Reordered
import OpenApi.Proofs.Decoding.Unbounded

/-!
# Parallel checks

Two checks go side by side, one of them on reordered values and with a set that lacks
some of the defaults. They go the same way: where the first ends the second ends too,
with an instance if the first has one, and with a report that is alike. A default is
checked with a scratch report, so nothing of it comes back but what its field holds, and
what a field holds decides on nothing.

A `Likeness` says in what the values, the violations and the reports may differ. What it
has to satisfy are the laws in `Likeness.Lawful`, one for each thing that a check does
with a value or a report.
-/

namespace OpenApi

/-! ## Following computations -/

/-- Where the first computation has a result, the second has a related one. -/
def Follows {α β : Type} (related : α → β → Prop) (first : Option α) (second : Option β) : Prop :=
  ∀ result, first = some result → ∃ result', second = some result' ∧ related result result'

namespace Follows

variable {α β γ δ : Type} {related : α → β → Prop} {next : γ → δ → Prop}

theorem pure {result : α} {result' : β} (h : related result result') :
    Follows related (some result) (some result') := by
  rintro _ ⟨⟩
  exact ⟨result', rfl, h⟩

theorem imp {related' : α → β → Prop} {first : Option α} {second : Option β}
    (h : Follows related first second)
    (himp : ∀ {result result'}, related result result' → related' result result') :
    Follows related' first second := by
  intro result hfirst
  obtain ⟨result', hsecond, hrelated⟩ := h result hfirst
  exact ⟨result', hsecond, himp hrelated⟩

theorem bind {first : Option α} {second : Option β} {f : α → Option γ} {g : β → Option δ}
    (h : Follows related first second)
    (hnext : ∀ result result', related result result' → Follows next (f result) (g result')) :
    Follows next (first.bind f) (second.bind g) := by
  intro last hlast
  obtain ⟨result, hfirst, hlast⟩ := Option.bind_eq_some_iff.mp hlast
  obtain ⟨result', hsecond, hrelated⟩ := h result hfirst
  obtain ⟨last', hlast', hnext⟩ := hnext result result' hrelated last hlast
  exact ⟨last', Option.bind_eq_some_iff.mpr ⟨result', hsecond, hlast'⟩, hnext⟩

end Follows

/-! ## Fewer defaults -/

/-- A field that must be given or stays empty. -/
def Field.withoutDefault (field : Field) : Field := { field with default := none }

/-- The second field is the first, or lacks its default. -/
def Field.Trims (field trimmed : Field) : Prop := trimmed = field ∨ trimmed = field.withoutDefault

/-- The fields of the second shape lack some defaults. -/
inductive Shape.Trims : Shape → Shape → Prop where
  | object {fields trimmed : List Field} :
      List.Forall₂ Field.Trims fields trimmed → Shape.Trims (.object fields) (.object trimmed)
  | union (alternatives : List Ty) (discriminator : Option Discriminator) (tags : Keyed Nat) :
      Shape.Trims (.union alternatives discriminator tags) (.union alternatives discriminator tags)

/-- The second set is the first without some of the defaults. -/
structure ModelSet.Trims (set trimmed : ModelSet) : Prop where
  name : ∀ m, (trimmed.model m).name = (set.model m).name
  shape : ∀ m, (set.model m).shape.Trims (trimmed.model m).shape
  anchor : ∀ schema, trimmed.anchor schema = set.anchor schema

namespace Field.Trims

variable {field trimmed : Field} (h : field.Trims trimmed)
include h

theorem name_eq : trimmed.name = field.name := by
  rcases h with rfl | rfl <;> rfl

theorem type_eq : trimmed.type = field.type := by
  rcases h with rfl | rfl <;> rfl

theorem required_eq : trimmed.required = field.required := by
  rcases h with rfl | rfl <;> rfl

theorem enum_eq : trimmed.enum = field.enum := by
  rcases h with rfl | rfl <;> rfl

end Field.Trims

theorem Shape.Trims.refl (shape : Shape) : shape.Trims shape := by
  cases shape with
  | object fields => exact .object (List.forall₂_same.mpr fun _ _ => .inl rfl)
  | union alternatives discriminator tags => exact .union alternatives discriminator tags

theorem ModelSet.Trims.refl (set : ModelSet) : set.Trims set where
  name := fun _ => rfl
  shape := fun _ => .refl _
  anchor := fun _ => rfl

section Trims

variable {set trimmed : ModelSet} (h : set.Trims trimmed)
include h

theorem ModelSet.Trims.typeName (type : Ty) : trimmed.typeName type = set.typeName type := by
  induction type with
  | scalar | literal => rfl
  | array item ih => rw [ModelSet.typeName, ModelSet.typeName, ih]
  | model m => exact h.name m
  | anchor schema => rw [ModelSet.typeName, ModelSet.typeName, h.anchor]

theorem ModelSet.Trims.fields (m : ModelId) :
    List.Forall₂ Field.Trims (set.model m).fields (trimmed.model m).fields := by
  have hshape := h.shape m
  unfold Model.fields
  generalize (set.model m).shape = shape at hshape
  generalize (trimmed.model m).shape = shape' at hshape
  cases hshape with
  | object hfields => exact hfields
  | union => exact .nil

theorem ModelSet.Trims.taggedBy (m : ModelId) :
    (trimmed.model m).taggedBy = (set.model m).taggedBy := by
  have hshape := h.shape m
  unfold Model.taggedBy
  generalize (set.model m).shape = shape at hshape
  generalize (trimmed.model m).shape = shape' at hshape
  cases hshape <;> rfl

theorem ModelSet.Trims.isSome_field (m : ModelId) (key : String) :
    ((trimmed.model m).field key).isSome = ((set.model m).field key).isSome := by
  have hfields := h.fields m
  unfold Model.field
  generalize (set.model m).fields = fields at hfields
  generalize (trimmed.model m).fields = trimmed at hfields
  induction hfields with
  | nil => rfl
  | cons hfield _ ih =>
      rw [List.find?_cons, List.find?_cons, hfield.name_eq]
      split
      · rfl
      · exact ih

end Trims

theorem ModelSet.Trims.undeclared {set trimmed : ModelSet} (h : set.Trims trimmed) (m : ModelId) :
    Check.undeclared (trimmed.model m) = Check.undeclared (set.model m) := by
  funext members report
  simp only [Check.undeclared, h.isSome_field, h.name]

/-! ## Likeness -/

/-- In what the values, the violations and the reports of two checks may differ. -/
structure Likeness where
  values : Json → Json → Prop
  kinds : ViolationKind → ViolationKind → Prop
  reports : Report → Report → Prop

namespace Likeness

/-- What a check does keeps values, violations and reports alike. Of two values that are alike
only the text may show the order of keys. -/
structure Lawful (like : Likeness) : Prop where
  reordered : ∀ {value value'}, like.values value value' → value.Reordered value'
  self : ∀ value, like.values value value
  items : ∀ {items items'}, like.values (.arr items) (.arr items') →
    List.Forall₂ like.values items items'
  member : ∀ {members members' key value value'}, like.values (.obj members) (.obj members') →
    Keyed.get? members key = some value → Keyed.get? members' key = some value' →
    like.values value value'
  sameKind : ∀ kind, like.kinds kind kind
  notInEnum : ∀ {value value'} permitted, like.values value value' →
    like.kinds (.notInEnum value.compact permitted) (.notInEnum value'.compact permitted)
  literalMismatch : ∀ {value value'} tag, like.values value value' →
    like.kinds (.literalMismatch tag value.compact) (.literalMismatch tag value'.compact)
  size : ∀ {report report'}, like.reports report report' →
    report.violations.size = report'.violations.size
  fresh : ∀ {report report'}, like.reports report report' → like.reports report.fresh report'.fresh
  enter : ∀ {report report'} segment, like.reports report report' →
    like.reports (report.enter segment) (report'.enter segment)
  leave : ∀ {report report'}, like.reports report report' → like.reports report.leave report'.leave
  record : ∀ {report report' kind kind'}, like.reports report report' → like.kinds kind kind' →
    like.reports (report.record kind) (report'.record kind')
  undeclared : ∀ {members members' report report'} model,
    like.values (.obj members) (.obj members') → like.reports report report' →
    like.reports (Check.undeclared model members report) (Check.undeclared model members' report')

theorem Lawful.get? {like : Likeness} (hlike : like.Lawful) {members members' : Keyed Json}
    (h : like.values (.obj members) (.obj members')) (key : String) :
    (members.get? key = none ∧ members'.get? key = none) ∨
      ∃ value value', members.get? key = some value ∧ members'.get? key = some value' ∧
        like.values value value' := by
  have halike := (hlike.reordered h).alike
  cases hvalue : members.get? key with
  | none => exact .inl ⟨rfl, halike.get?_eq_none hvalue⟩
  | some value =>
      obtain ⟨value', hvalue', -⟩ := halike.exists_get? hvalue
      exact .inr ⟨value, value', rfl, hvalue', hlike.member h hvalue hvalue'⟩

/-- The reports afterwards are alike. -/
def Afterwards (like : Likeness) {α : Type} (outcome outcome' : α × Report) : Prop :=
  like.reports outcome.2 outcome'.2

/-- Both checks have an instance or neither does, and the reports afterwards are alike. -/
def Outcomes (like : Likeness) (outcome outcome' : Option Instance × Report) : Prop :=
  outcome.1.isSome = outcome'.1.isSome ∧ like.Afterwards outcome outcome'

end Likeness

namespace Check

/-- The second check follows the first one. -/
def Parallel (like : Likeness) (check check' : Check) : Prop :=
  ∀ ⦃type value value' report report'⦄, like.values value value' → like.reports report report' →
    Follows like.Outcomes (check type value report) (check' type value' report')

variable {like : Likeness} (hlike : like.Lawful)
variable {report report' : Report} {value value' : Json}
include hlike

/-! ## Reports -/

theorem refuse_follows (hreport : like.reports report report') {kind kind' : ViolationKind}
    (hkind : like.kinds kind kind') :
    Follows like.Outcomes (refuse kind report) (refuse kind' report') :=
  .pure ⟨rfl, hlike.record hreport hkind⟩

theorem inside_follows (hreport : like.reports report report') (segment : Segment)
    {part part' : Report → Option (Option Instance × Report)}
    (hpart : ∀ {report report'}, like.reports report report' →
      Follows like.Afterwards (part report) (part' report')) :
    Follows like.Afterwards (inside segment part report) (inside segment part' report') := by
  intro outcome houtcome
  obtain ⟨found, hfound, rfl⟩ := Option.map_eq_some_iff.mp houtcome
  obtain ⟨found', hfound', hafter⟩ := hpart (hlike.enter segment hreport) found hfound
  exact ⟨_, Option.map_eq_some_iff.mpr ⟨found', hfound', rfl⟩, hlike.leave hafter⟩

/-- Whether violations have been added shows in the sizes of the reports. -/
theorem unlessViolated_isSome (hreport : like.reports report report') {after after' : Report}
    (hafter : like.reports after after') (found found' : Instance) :
    (unlessViolated report after found).isSome = (unlessViolated report' after' found').isSome := by
  unfold unlessViolated
  rw [hlike.size hreport, hlike.size hafter]
  split <;> rfl

/-! ## Arrays -/

variable {check check' : Check} (hcheck : Parallel like check check')
include hcheck

theorem items_follows (hreport : like.reports report report') {item : Ty} {place : Nat}
    {items items' : List Json} (hitems : List.Forall₂ like.values items items') :
    Follows like.Afterwards (Check.items check item place items report)
      (Check.items check' item place items' report') := by
  induction hitems generalizing place report report' with
  | nil => exact .pure hreport
  | cons hvalue _ ih =>
      have hfirst := inside_follows hlike hreport (.index place) fun hreport =>
        (@hcheck item _ _ _ _ hvalue hreport).imp fun h => h.2
      refine hfirst.bind fun outcome outcome' hmiddle => ?_
      exact (ih hmiddle).bind fun rest rest' hafter => .pure hafter

variable {set trimmed : ModelSet} (htrims : set.Trims trimmed)

include htrims in
theorem array_follows (hvalue : like.values value value') (hreport : like.reports report report')
    {item : Ty} :
    Follows like.Outcomes (array set check item value report)
      (array trimmed check' item value' report') := by
  have hreordered := hlike.reordered hvalue
  unfold array
  cases hreordered with
  | arr =>
      simp only [Option.bind_eq_bind]
      refine (items_follows hlike hcheck hreport (hlike.items hvalue)).bind
        fun outcome outcome' hafter => ?_
      exact .pure ⟨unlessViolated_isSome hlike hreport hafter _ _, hafter⟩
  | null | bool | num | str | obj =>
      refine refuse_follows hlike hreport ?_
      rw [htrims.typeName]
      exact hlike.sameKind _

/-! ## Objects -/

section Fields

variable {field field' : Field} (hfield : field.Trims field')
include hfield

theorem given_follows (hvalue : like.values value value')
    (hreport : like.reports report report') :
    Follows like.Outcomes (given check field value report)
      (given check' field' value' report') := by
  unfold given
  rw [hfield.enum_eq, hfield.type_eq]
  cases field.enum with
  | none => exact hcheck hvalue hreport
  | some permitted =>
      simp only [(hlike.reordered hvalue).any_same]
      split
      · exact hcheck hvalue hreport
      · exact refuse_follows hlike hreport (hlike.notInEnum _ hvalue)

/-- What a field holds that is left out does not show in the report. -/
theorem leftOut_follows (hreport : like.reports report report') :
    Follows like.Afterwards (leftOut check field report) (leftOut check' field' report') := by
  intro outcome houtcome
  unfold leftOut at houtcome ⊢
  cases hdefault : field.default with
  | none =>
      have hnone : field'.default = none := by
        rcases hfield with rfl | rfl
        · exact hdefault
        · rfl
      rw [hnone]
      simp only [hdefault, Option.some.injEq] at houtcome
      subst houtcome
      exact ⟨_, rfl, hreport⟩
  | some default =>
      simp only [hdefault, Option.bind_eq_bind, Option.bind_eq_some_iff] at houtcome
      obtain ⟨found, hfound, heq⟩ := houtcome
      cases heq
      rcases hfield with rfl | rfl
      · obtain ⟨found', hfound', -⟩ :=
          hcheck (hlike.self default) (hlike.fresh hreport) found hfound
        exact ⟨(found'.1, report'), by simp [hdefault, hfound'], hreport⟩
      · exact ⟨(none, report'), rfl, hreport⟩

theorem field_follows {members members' : Keyed Json}
    (hmembers : like.values (.obj members) (.obj members'))
    (hreport : like.reports report report') :
    Follows like.Afterwards (Check.field check members field report)
      (Check.field check' members' field' report') := by
  have hgiven {value value' : Json} (hvalue : like.values value value') :=
    (given_follows hlike hcheck hfield hvalue hreport).imp fun h => h.2
  unfold Check.field
  rw [hfield.name_eq, hfield.required_eq]
  rcases hlike.get? hmembers field.name with
    ⟨hnone, hnone'⟩ | ⟨value, value', hsome, hsome', hvalue⟩
  · rw [hnone, hnone']
    dsimp only
    split
    · exact (refuse_follows hlike hreport (hlike.sameKind _)).imp fun h => h.2
    · exact leftOut_follows hlike hcheck hfield hreport
  · rw [hsome, hsome']
    have hreordered := hlike.reordered hvalue
    cases hreordered with
    | null =>
        dsimp only
        split
        · exact hgiven hvalue
        · exact .pure hreport
    | bool | num | str | arr | obj => exact hgiven hvalue

end Fields

theorem fields_follows {members members' : Keyed Json}
    (hmembers : like.values (.obj members) (.obj members')) {fields fields' : List Field}
    (hfields : List.Forall₂ Field.Trims fields fields') (hreport : like.reports report report') :
    Follows like.Afterwards (Check.fields check members fields report)
      (Check.fields check' members' fields' report') := by
  induction hfields generalizing report report' with
  | nil => exact .pure hreport
  | @cons field _ _ _ hfield _ ih =>
      have hfirst := inside_follows hlike hreport (.field field.name) fun hreport =>
        field_follows hlike hcheck hfield hmembers hreport
      simp only [Check.fields, Option.bind_eq_bind, hfield.name_eq]
      refine hfirst.bind fun outcome outcome' hmiddle => ?_
      exact (ih hmiddle).bind fun rest rest' hafter => .pure hafter

include htrims in
theorem object_follows (hvalue : like.values value value') (hreport : like.reports report report')
    {m : ModelId} :
    Follows like.Outcomes (object set check m value report)
      (object trimmed check' m value' report') := by
  have hreordered := hlike.reordered hvalue
  unfold object
  cases hreordered with
  | obj =>
      simp only [Option.bind_eq_bind]
      refine (fields_follows hlike hcheck hvalue (htrims.fields m) hreport).bind
        fun outcome outcome' hafter => ?_
      have hafter' := hlike.undeclared (set.model m) hvalue hafter
      rw [htrims.undeclared]
      exact .pure ⟨unlessViolated_isSome hlike hreport hafter' _ _, hafter'⟩
  | null | bool | num | str | arr =>
      refine refuse_follows hlike hreport ?_
      rw [htrims.name]
      exact hlike.sameKind _

/-! ## Unions and anchors -/

theorem firstMatch_follows (hvalue : like.values value value')
    (hreport : like.reports report report') {types : List Ty} {place : Nat} :
    Follows (fun found found' => found.map Prod.fst = found'.map Prod.fst)
      (firstMatch check value report place types)
      (firstMatch check' value' report' place types) := by
  induction types generalizing place with
  | nil => exact .pure rfl
  | cons type rest ih =>
      simp only [firstMatch, Option.bind_eq_bind]
      refine (hcheck hvalue (hlike.fresh hreport)).bind fun outcome outcome' hafter => ?_
      obtain ⟨answer, scratch⟩ := outcome
      obtain ⟨answer', scratch'⟩ := outcome'
      obtain ⟨hanswer, hscratch⟩ := hafter
      have hclean : scratch.violations.isEmpty = scratch'.violations.isEmpty := by
        rw [Array.isEmpty, Array.isEmpty, hlike.size hscratch]
      cases answer <;> cases answer' <;> simp only [Option.isSome, reduceCtorEq] at hanswer
      · exact ih
      · dsimp only
        rw [hclean]
        split
        · exact .pure rfl
        · exact ih

/-- The first candidate that accepts is the same one for both, so one check has an instance where
the other has one. -/
theorem tried_follows (hvalue : like.values value value') (hreport : like.reports report report')
    {types : List Ty} {kind : ViolationKind} (wrap : Nat → Instance → Instance) :
    Follows like.Outcomes
      ((firstMatch check value report 0 types).bind fun
        | some (place, found) => some (some (wrap place found), report)
        | none => refuse kind report)
      ((firstMatch check' value' report' 0 types).bind fun
        | some (place, found) => some (some (wrap place found), report')
        | none => refuse kind report') := by
  refine (firstMatch_follows hlike hcheck hvalue hreport).bind fun found found' hfound => ?_
  cases found with
  | none =>
      cases found' with
      | none => exact refuse_follows hlike hreport (hlike.sameKind _)
      | some _ => cases hfound
  | some found =>
      cases found' with
      | none => cases hfound
      | some found' => exact .pure ⟨rfl, hreport⟩

omit hcheck in
theorem select_eq {members members' : Keyed Json}
    (hmembers : like.values (.obj members) (.obj members')) {name : String}
    {discriminator : Discriminator} {tags : Keyed Nat} :
    select name discriminator tags members = select name discriminator tags members' := by
  unfold select
  rcases hlike.get? hmembers discriminator.property with
    ⟨hnone, hnone'⟩ | ⟨value, value', hsome, hsome', hvalue⟩
  · rw [hnone, hnone']
  · rw [hsome, hsome']
    cases hlike.reordered hvalue <;> rfl

section Sets

include htrims

theorem untagged_follows (hvalue : like.values value value') (hreport : like.reports report report')
    {m : ModelId} {alternatives : List Ty} :
    Follows like.Outcomes (untagged set check m alternatives value report)
      (untagged trimmed check' m alternatives value' report') := by
  unfold untagged
  rw [htrims.name]
  exact tried_follows hlike hcheck hvalue hreport _

theorem anchor_follows (hvalue : like.values value value') (hreport : like.reports report report')
    {schema : SchemaId} :
    Follows like.Outcomes (anchor set check schema value report)
      (anchor trimmed check' schema value' report') := by
  unfold anchor
  rw [htrims.anchor]
  split
  · exact refuse_follows hlike hreport (hlike.sameKind _)
  · split
    · exact refuse_follows hlike hreport (hlike.sameKind _)
    · exact tried_follows hlike hcheck hvalue hreport fun _ found => found

theorem tagged_follows (hvalue : like.values value value') (hreport : like.reports report report')
    {m : ModelId} {alternatives : List Ty} {discriminator : Discriminator} {tags : Keyed Nat} :
    Follows like.Outcomes (tagged set check m alternatives discriminator tags value report)
      (tagged trimmed check' m alternatives discriminator tags value' report') := by
  have hreordered := hlike.reordered hvalue
  unfold tagged
  rw [htrims.name]
  cases hreordered with
  | @obj members members' =>
      dsimp only
      rw [select_eq hlike hvalue]
      split
      · rename_i kind _
        have hinside := hlike.enter (.field discriminator.property) hreport
        exact .pure ⟨rfl, hlike.leave (hlike.record hinside (hlike.sameKind kind))⟩
      · rename_i index _
        cases alternatives[index]? with
        | none =>
            intro outcome houtcome
            cases houtcome
        | some type =>
            refine (hcheck hvalue hreport).bind fun outcome outcome' hafter => ?_
            obtain ⟨hanswer, hafter⟩ := hafter
            exact .pure ⟨by simpa using hanswer, hafter⟩
  | null | bool | num | str | arr => exact refuse_follows hlike hreport (hlike.sameKind _)

theorem model_follows (hvalue : like.values value value') (hreport : like.reports report report')
    {m : ModelId} :
    Follows like.Outcomes (Check.model set check m value report)
      (Check.model trimmed check' m value' report') := by
  have hobject := object_follows hlike hcheck htrims hvalue hreport (m := m)
  have hshape := htrims.shape m
  unfold Check.model
  dsimp only
  rw [htrims.taggedBy]
  generalize (set.model m).shape = shape at hshape
  generalize (trimmed.model m).shape = shape' at hshape
  cases hshape with
  | object _ => exact hobject
  | union alternatives _ tags =>
      dsimp only
      split
      · exact tagged_follows hlike hcheck htrims hvalue hreport
      · exact untagged_follows hlike hcheck htrims hvalue hreport

theorem type_follows : Parallel like (Check.type set check) (Check.type trimmed check') := by
  intro type value value' report report' hvalue hreport
  have hreordered := hlike.reordered hvalue
  cases type with
  | scalar type =>
      simp only [Check.type, type.decode_reordered hreordered]
      split
      · exact .pure ⟨rfl, hreport⟩
      · exact refuse_follows hlike hreport (hlike.sameKind _)
  | literal tag =>
      simp only [Check.type, hreordered.isString_eq]
      split
      · exact .pure ⟨rfl, hreport⟩
      · exact refuse_follows hlike hreport (hlike.literalMismatch tag hvalue)
  | array item => exact array_follows hlike hcheck htrims hvalue hreport
  | model m => exact model_follows hlike hcheck htrims hvalue hreport
  | anchor schema => exact anchor_follows hlike hcheck htrims hvalue hreport

end Sets

omit hcheck in
include htrims in
/-- A check follows any other on like values, also with a set that lacks some defaults. -/
theorem upTo_follows (depth : Nat) : Parallel like (upTo set depth) (upTo trimmed depth) := by
  induction depth with
  | zero =>
      intro type value value' report report' hvalue hreport outcome houtcome
      cases houtcome
  | succ depth ih => exact type_follows hlike ih htrims

end Check

/-! ## Decoding -/

namespace ModelSet

variable {set trimmed : ModelSet} {type : Ty} {value value' : Json}

theorem Trims.tagsInRange (h : set.Trims trimmed) (htags : set.TagsInRange) :
    trimmed.TagsInRange := by
  intro m alternatives discriminator tags hshape
  have htrims := h.shape m
  rw [hshape] at htrims
  generalize hfirst : (set.model m).shape = shape at htrims
  cases htrims with
  | union => exact htags m alternatives discriminator tags hfirst

/-- Where one decoding terminates, the other does: both read an instance, or both fail with alike
reports. -/
theorem Terminates.decode_follows {like : Likeness} (hlike : like.Lawful)
    (hroot : like.reports {} {}) (htags : set.TagsInRange) (htrims : set.Trims trimmed)
    (hvalue : like.values value value') (hends : set.Terminates type value) :
    trimmed.Terminates type value' ∧
      ((∃ answer answer', set.decode type value = .ok answer ∧ set.Reads type value answer ∧
          trimmed.decode type value' = .ok answer' ∧ trimmed.Reads type value' answer') ∨
        ∃ after after', like.reports after after' ∧
          set.decode type value =
            .error (.failed
              { target := set.typeName type, violations := after.violations.toList }) ∧
          trimmed.decode type value' =
            .error (.failed
              { target := set.typeName type, violations := after'.violations.toList })) := by
  obtain ⟨depth, hdepth⟩ := hends
  obtain ⟨⟨answer, after⟩, hcheck⟩ := Option.isSome_iff_exists.mp hdepth
  obtain ⟨⟨answer', after'⟩, hcheck', hanswer, hafter⟩ :=
    Check.upTo_follows hlike htrims depth hvalue hroot _ hcheck
  refine ⟨⟨depth, Option.isSome_iff_exists.mpr ⟨_, hcheck'⟩⟩, ?_⟩
  rcases decode_of_upTo htags hcheck with ⟨found, rfl, hread, hok⟩ | ⟨rfl, -, -, herror⟩
  all_goals
    rcases decode_of_upTo (htrims.tagsInRange htags) hcheck' with
      ⟨found', rfl, hread', hok'⟩ | ⟨rfl, -, -, herror'⟩
  · exact .inl ⟨found, found', hok, hread, hok', hread'⟩
  · cases hanswer
  · cases hanswer
  · rw [htrims.typeName] at herror'
    exact .inr ⟨after, after', hafter, herror, herror'⟩

end ModelSet
end OpenApi
