-- SUMMARY: Which checks a check asks for, and the depth at which a check ends.
import OpenApi.Proofs.Decoding.Outcome
import OpenApi.Proofs.Model.Alternatives

/-!
# What a check asks for

A check of a value against a type asks for the checks of its parts: of items and
members against their types, of defaults for what is left out, and of the same value
against alternatives and variants until one of them accepts it. `Consults` are these
steps. A check ends within a depth exactly where no chain of steps is longer.
-/

namespace OpenApi

open ModelSet

namespace ModelSet

/-- A value to be checked against a type. -/
abbrev Goal := Ty × Json

variable (set : ModelSet)

/-! ## Steps -/

/-- What the check of a field asks for. -/
inductive ConsultsField (members : Keyed Json) (field : Field) : Goal → Prop where
  | given {value : Json} :
      members.get? field.name = some value → (field.required = false → value ≠ .null) →
        field.Permits value → ConsultsField members field (field.type, value)
  | default {default : Json} :
      members.get? field.name = none → field.required = false → field.default = some default →
        ConsultsField members field (field.type, default)

/-- What the check of a goal asks for. -/
inductive Consults : Goal → Goal → Prop where
  | item {item : Ty} {values : List Json} {value : Json} :
      value ∈ values → Consults (.array item, .arr values) (item, value)
  | field {m : ModelId} {fields : List Field} {members : Keyed Json} {field : Field}
      {goal : Goal} :
      (set.model m).shape = .object fields → field ∈ fields → ConsultsField members field goal →
        Consults (.model m, .obj members) goal
  | tagged {m : ModelId} {alternatives : List Ty} {discriminator : Option Discriminator}
      {tags : Keyed Nat} {selector : Discriminator} {members : Keyed Json} {tag : String}
      {index : Nat} {type : Ty} :
      (set.model m).shape = .union alternatives discriminator tags →
        (set.model m).taggedBy = some selector →
        members.get? selector.property = some (.str tag) → tags.get? tag = some index →
        alternatives[index]? = some type → Consults (.model m, .obj members) (type, .obj members)
  /-- An alternative is tried where those before it do not accept the value. -/
  | untagged {m : ModelId} {before after : List Ty} {discriminator : Option Discriminator}
      {tags : Keyed Nat} {type : Ty} {value : Json} :
      (set.model m).shape = .union (before ++ type :: after) discriminator tags →
        (set.model m).taggedBy = none → (∀ other ∈ before, ¬ Accepts set other value) →
        Consults (.model m, value) (type, value)
  | variant {schema : SchemaId} {anchor : Anchor} {before after : List ModelId}
      {variant : ModelId} {value : Json} :
      set.anchor schema = some anchor → anchor.variants = before ++ variant :: after →
        (∀ other ∈ before, ¬ Accepts set (.model other) value) →
        Consults (.anchor schema, value) (.model variant, value)

/-- No chain of steps from a goal is as long as the bound. -/
def EndsWithin : Nat → Goal → Prop
  | 0, _ => False
  | depth + 1, goal => ∀ next, set.Consults goal next → EndsWithin depth next

end ModelSet

/-! ## Parts of checks -/

namespace Check

/-- Two checks that follow each other end where both do. -/
private theorem isSome_bind_iff {α β : Type} {first : Option α} {next : α → Option β} {P : Prop}
    (h : ∀ answer, first = some answer → ((next answer).isSome = true ↔ P)) :
    (first.bind next).isSome = true ↔ first.isSome = true ∧ P := by
  cases first with
  | none => simp
  | some answer => simpa using h answer rfl

theorem isSome_inside {segment : Segment} {check : Report → Option (Option Instance × Report)}
    {report : Report} :
    (inside segment check report).isSome = (check (report.enter segment)).isSome :=
  Option.isSome_map

variable {set : ModelSet} {check : Check} {ends : Goal → Prop}
variable (hends : ∀ {type value report},
  (check type value report).isSome = true ↔ ends (type, value))

section Parts

include hends

theorem items_isSome {item : Ty} {values : List Json} {place : Nat} {report : Report} :
    (items check item place values report).isSome = true ↔
      ∀ value ∈ values, ends (item, value) := by
  induction values generalizing place report with
  | nil => simp [items]
  | cons value rest ih =>
      simp only [items, Option.bind_eq_bind]
      rw [isSome_bind_iff (P := ∀ value ∈ rest, ends (item, value)), isSome_inside, hends,
        List.forall_mem_cons]
      intro entry _
      obtain ⟨answer, middle⟩ := entry
      rw [isSome_bind_iff (P := True), ih, and_true]
      simp

theorem array_isSome {item : Ty} {value : Json} {report : Report} :
    (array set check item value report).isSome = true ↔
      ∀ next, set.Consults (.array item, value) next → ends next := by
  unfold array
  split
  · rename_i values
    simp only [Option.bind_eq_bind]
    rw [isSome_bind_iff (P := True), items_isSome hends, and_true]
    · constructor
      · intro h next hnext
        cases hnext with
        | item hmem => exact h _ hmem
      · intro h value hmem
        exact h _ (.item hmem)
    · simp
  · rename_i hother
    refine iff_of_true rfl ?_
    intro next hnext
    cases hnext with
    | item => exact absurd rfl (hother _)

theorem given_isSome {field : Field} {value : Json} {report : Report} :
    (given check field value report).isSome = true ↔
      (field.Permits value → ends (field.type, value)) := by
  unfold given
  split
  · rename_i hnone
    have hpermits : field.Permits value := fun permitted hsome => by simp [hnone] at hsome
    simp [hpermits, hends]
  · rename_i permitted hsome
    have hpermits : field.Permits value ↔
        permitted.any (fun allowed => allowed.same value) = true := by
      simp [Field.Permits, hsome]
    split
    · rename_i hany
      rw [hends, hpermits]
      simp [hany]
    · rename_i hany
      rw [hpermits]
      simp [hany, refuse]

theorem leftOut_isSome {field : Field} {report : Report} :
    (leftOut check field report).isSome = true ↔
      ∀ default, field.default = some default → ends (field.type, default) := by
  unfold leftOut
  split
  · rename_i hnone
    simp [hnone]
  · rename_i default hsome
    simp only [Option.bind_eq_bind]
    rw [isSome_bind_iff (P := True), hends]
    · simp [hsome]
    · simp

theorem field_isSome {members : Keyed Json} {next : Field} {report : Report} :
    (field check members next report).isSome = true ↔
      ∀ goal, ConsultsField members next goal → ends goal := by
  -- A value that is not skipped over is checked, and then nothing else is asked for.
  have hgiven {value : Json} (hmember : members.get? next.name = some value)
      (hheld : next.required = false → value ≠ .null) :
      (given check next value report).isSome = true ↔
        ∀ goal, ConsultsField members next goal → ends goal := by
    rw [given_isSome hends]
    constructor
    · intro h goal hgoal
      cases hgoal with
      | given hmember' _ hpermits =>
          cases hmember.symm.trans hmember'
          exact h hpermits
      | default hnone => cases hmember.symm.trans hnone
    · intro h hpermits
      exact h _ (.given hmember hheld hpermits)
  unfold field
  split
  · rename_i hnone
    split
    · rename_i hrequired
      refine iff_of_true rfl ?_
      intro goal hgoal
      cases hgoal with
      | given hmember => cases hnone.symm.trans hmember
      | default _ hopt => simp [hrequired] at hopt
    · rename_i hrequired
      rw [leftOut_isSome hends]
      constructor
      · intro h goal hgoal
        cases hgoal with
        | given hmember => cases hnone.symm.trans hmember
        | default _ _ hdefault => exact h _ hdefault
      · intro h default hdefault
        exact h _ (.default hnone (by simpa using hrequired) hdefault)
  · rename_i hnull
    split
    · rename_i hrequired
      exact hgiven hnull (by simp [hrequired])
    · rename_i hrequired
      refine iff_of_true rfl ?_
      intro goal hgoal
      cases hgoal with
      | given hmember hheld =>
          cases hnull.symm.trans hmember
          exact absurd rfl (hheld (by simpa using hrequired))
      | default hnone => cases hnull.symm.trans hnone
  · rename_i value hother hmember
    exact hgiven hmember fun _ => hother

theorem fields_isSome {members : Keyed Json} {fields : List Field} {report : Report} :
    (Check.fields check members fields report).isSome = true ↔
      ∀ field ∈ fields, ∀ goal, ConsultsField members field goal → ends goal := by
  induction fields generalizing report with
  | nil => simp [Check.fields]
  | cons next rest ih =>
      simp only [Check.fields, Option.bind_eq_bind]
      rw [isSome_bind_iff
        (P := ∀ field ∈ rest, ∀ goal, ConsultsField members field goal → ends goal),
        isSome_inside, field_isSome hends, List.forall_mem_cons]
      intro entry _
      obtain ⟨answer, middle⟩ := entry
      rw [isSome_bind_iff (P := True), ih, and_true]
      simp

theorem object_isSome {m : ModelId} {fields : List Field} {value : Json} {report : Report}
    (hshape : (set.model m).shape = .object fields) :
    (object set check m value report).isSome = true ↔
      ∀ next, set.Consults (.model m, value) next → ends next := by
  have hfields : (set.model m).fields = fields := by simp [Model.fields, hshape]
  unfold object
  split
  · rename_i members
    simp only [hfields, Option.bind_eq_bind]
    rw [isSome_bind_iff (P := True), fields_isSome hends, and_true]
    · constructor
      · intro h next hnext
        cases hnext with
        | field hshape' hmem hgoal =>
            cases hshape.symm.trans hshape'
            exact h _ hmem _ hgoal
        | tagged hshape' => cases hshape.symm.trans hshape'
        | untagged hshape' => cases hshape.symm.trans hshape'
      · intro h field hmem goal hgoal
        exact h _ (.field hshape hmem hgoal)
    · simp
  · rename_i hother
    refine iff_of_true rfl ?_
    intro next hnext
    cases hnext with
    | field => exact absurd rfl (hother _)
    | tagged hshape' => cases hshape.symm.trans hshape'
    | untagged hshape' => cases hshape.symm.trans hshape'

end Parts

/-! ## Unions and anchors -/

variable (hcheck : Settles set check)
include hends hcheck

theorem firstMatch_isSome {value : Json} {types : List Ty} {report : Report} {place : Nat} :
    (firstMatch check value report place types).isSome = true ↔
      ∀ before type after, types = before ++ type :: after →
        (∀ other ∈ before, ¬ set.Accepts other value) → ends (type, value) := by
  induction types generalizing place with
  | nil => simp [firstMatch]
  | cons type rest ih =>
      simp only [firstMatch, Option.bind_eq_bind]
      rw [isSome_bind_iff (P := ¬ set.Accepts type value → ∀ before type' after,
        rest = before ++ type' :: after → (∀ other ∈ before, ¬ set.Accepts other value) →
          ends (type', value)), hends]
      · constructor
        · intro h before type' after hsplit hbefore
          obtain ⟨hfirst, hrest⟩ := h
          cases before with
          | nil =>
              cases hsplit
              exact hfirst
          | cons other before =>
              cases hsplit
              rw [List.forall_mem_cons] at hbefore
              exact hrest hbefore.1 before type' after rfl hbefore.2
        · intro h
          refine ⟨h [] type rest rfl (by simp), fun hnot before type' after hsplit hbefore => ?_⟩
          apply h (type :: before) type' after (by simp [hsplit])
          rw [List.forall_mem_cons]
          exact ⟨hnot, hbefore⟩
      · -- Whether the rest is tried depends on what the first check has found.
        intro entry hscratch
        obtain ⟨answer, scratch⟩ := entry
        cases hcheck hscratch with
        | clean hreport hreads =>
            obtain ⟨found, rfl, hread⟩ := hreads
            subst hreport
            simp [Report.fresh, hread.accepts]
        | violated _ _ hnot =>
            obtain ⟨rfl, hnot⟩ := hnot
            simp only [hnot, not_false_eq_true, forall_const]
            exact ih

section Unions

variable {m : ModelId} {alternatives : List Ty} {discriminator : Option Discriminator}
variable {tags : Keyed Nat} {value : Json} {report : Report}
variable (hshape : (set.model m).shape = .union alternatives discriminator tags)
include hshape

omit hcheck in
theorem tagged_isSome (htags : set.TagsInRange) {selector : Discriminator}
    (hby : (set.model m).taggedBy = some selector) :
    (tagged set check m alternatives selector tags value report).isSome = true ↔
      ∀ next, set.Consults (.model m, value) next → ends next := by
  -- Only the tag of an object selects anything.
  have hnext (next : Goal) (h : set.Consults (.model m, value) next) :
      ∃ members tag index type, value = .obj members ∧
        Keyed.get? members selector.property = some (.str tag) ∧ tags.get? tag = some index ∧
        alternatives[index]? = some type ∧ next = (type, value) := by
    cases h with
    | field hshape' => cases hshape.symm.trans hshape'
    | tagged hshape' hby' hmember htag htype =>
        cases hshape.symm.trans hshape'
        cases hby.symm.trans hby'
        exact ⟨_, _, _, _, rfl, hmember, htag, htype, rfl⟩
    | untagged _ hby' => cases hby.symm.trans hby'
  unfold tagged
  simp only
  split
  · rename_i members
    split
    · rename_i kind hselect
      apply iff_of_true (by simp [isSome_inside, refuse])
      intro next h
      obtain ⟨members', tag, index, type, hmembers, hmember, htag, -⟩ := hnext next h
      cases hmembers
      simp [select, hmember, htag] at hselect
    · rename_i index hselect
      obtain ⟨tag, hmember, htag⟩ := select_eq_ok hselect
      have hlt := htags m _ _ _ hshape tag index htag
      have htype := List.getElem?_eq_getElem hlt
      simp only [htype, Option.bind_eq_bind, Option.bind_some]
      rw [isSome_bind_iff (P := True), hends, and_true]
      · constructor
        · intro h next hstep
          obtain ⟨members', tag', index', type, hmembers, hmember', htag', htype', rfl⟩ :=
            hnext next hstep
          cases hmembers
          cases hmember.symm.trans hmember'
          cases htag.symm.trans htag'
          cases htype.symm.trans htype'
          exact h
        · intro h
          exact h _ (.tagged hshape hby hmember htag htype)
      · simp
  · rename_i hother
    refine iff_of_true rfl ?_
    intro next h
    obtain ⟨members, tag, index, type, rfl, -⟩ := hnext next h
    exact absurd rfl (hother members)

theorem untagged_isSome (hby : (set.model m).taggedBy = none) :
    (untagged set check m alternatives value report).isSome = true ↔
      ∀ next, set.Consults (.model m, value) next → ends next := by
  simp only [untagged, Option.bind_eq_bind]
  rw [isSome_bind_iff (P := True), firstMatch_isSome hends hcheck, and_true]
  · constructor
    · intro h next hnext
      cases hnext with
      | field hshape' => cases hshape.symm.trans hshape'
      | tagged _ hby' => cases hby.symm.trans hby'
      | untagged hshape' _ hbefore =>
          cases hshape.symm.trans hshape'
          exact h _ _ _ rfl hbefore
    · intro h before type after heq hbefore
      subst heq
      exact h _ (.untagged hshape hby hbefore)
  · intro found hfound
    cases found <;> simp [refuse]

end Unions

theorem anchor_isSome {schema : SchemaId} {value : Json} {report : Report} :
    (Check.anchor set check schema value report).isSome = true ↔
      ∀ next, set.Consults (.anchor schema, value) next → ends next := by
  unfold Check.anchor
  split
  · rename_i hnone
    refine iff_of_true rfl ?_
    intro next hnext
    cases hnext with
    | variant hanchor => cases hnone.symm.trans hanchor
  · rename_i anchor hanchor
    split
    · rename_i hempty
      refine iff_of_true rfl ?_
      intro next hnext
      cases hnext with
      | variant hanchor' hvariants =>
          cases hanchor.symm.trans hanchor'
          simp [hvariants] at hempty
    · simp only [Option.bind_eq_bind]
      rw [isSome_bind_iff (P := True), firstMatch_isSome hends hcheck, and_true]
      · constructor
        · intro h next hnext
          cases hnext with
          | variant hanchor' hvariants hbefore =>
              cases hanchor.symm.trans hanchor'
              apply h _ _ _ (by rw [hvariants, List.map_append, List.map_cons])
              rw [List.forall_mem_map]
              exact hbefore
        · intro h before type after hsplit hbefore
          obtain ⟨before, rest, hvariants, rfl, hrest⟩ := List.map_eq_append_iff.mp hsplit
          obtain ⟨variant, after, rfl, rfl, -⟩ := List.map_eq_cons_iff.mp hrest
          exact h _ (.variant hanchor hvariants fun other hmem =>
            hbefore _ (List.mem_map_of_mem hmem))
      · intro found hfound
        cases found <;> simp [refuse]

/-! ## Whole checks -/

variable (htags : set.TagsInRange)
include htags

theorem model_isSome {m : ModelId} {value : Json} {report : Report} :
    (Check.model set check m value report).isSome = true ↔
      ∀ next, set.Consults (.model m, value) next → ends next := by
  unfold Check.model
  simp only
  split
  · rename_i fields hshape
    exact object_isSome hends hshape
  · rename_i alternatives discriminator tags hshape
    split
    · exact tagged_isSome hends hshape htags ‹_›
    · exact untagged_isSome hends hcheck hshape ‹_›

theorem type_isSome {type : Ty} {value : Json} {report : Report} :
    (Check.type set check type value report).isSome = true ↔
      ∀ next, set.Consults (type, value) next → ends next := by
  cases type with
  | scalar type =>
      refine iff_of_true ?_ ?_
      · simp only [Check.type]
        split <;> rfl
      · intro next hnext
        cases hnext
  | literal tag =>
      refine iff_of_true ?_ ?_
      · simp only [Check.type]
        split <;> rfl
      · intro next hnext
        cases hnext
  | array item => exact array_isSome hends
  | model m => exact model_isSome hends hcheck htags
  | anchor schema => exact anchor_isSome hends hcheck

omit hends hcheck in
/-- A check ends exactly where every chain of steps ends before the depth is used up. -/
theorem upTo_isSome_iff {depth : Nat} {type : Ty} {value : Json} {report : Report} :
    (upTo set depth type value report).isSome = true ↔ set.EndsWithin depth (type, value) := by
  induction depth generalizing type value report with
  | zero => simp [upTo, EndsWithin]
  | succ depth ih => exact type_isSome ih (upTo_settles set depth) htags

end Check
end OpenApi
