-- SUMMARY: Which violations a check reports, each with its place below the value.
import OpenApi.Proofs.Decoding.Outcome

/-!
# Reported violations

`Reports` says which violations a type finds in a value, in their order and with their
places below the value: one at the value itself where it is refused as a whole, else
those of its parts. Alternatives that were tried and defaults that were filled in are
no parts. A check that ends adds exactly these violations to its report, below the
place where it stands.
-/

namespace OpenApi

/-! ## Places -/

namespace Violation

/-- A violation seen from one step further out. -/
def inside (segment : Segment) (violation : Violation) : Violation :=
  { violation with path := segment :: violation.path }

/-- A violation below a place, seen from the root. -/
def below (place : Path) (violation : Violation) : Violation :=
  { violation with path := place ++ violation.path }

@[simp] theorem below_root (violation : Violation) : violation.below [] = violation := rfl

@[simp] theorem path_inside (segment : Segment) (violation : Violation) :
    (violation.inside segment).path = segment :: violation.path := rfl

@[simp] theorem kind_inside (segment : Segment) (violation : Violation) :
    (violation.inside segment).kind = violation.kind := rfl

theorem below_enter (place : Path) (segment : Segment) (violation : Violation) :
    violation.below (place ++ [segment]) = (violation.inside segment).below place := by
  simp [below, inside]

end Violation

namespace Report

/-- Add violations below the place where the report stands. -/
def add (report : Report) (found : List Violation) : Report :=
  { report with violations := report.violations ++ (found.map (·.below report.path)).toArray }

@[simp] theorem add_nil (report : Report) : report.add [] = report := by
  simp [add]

theorem add_append (report : Report) (first second : List Violation) :
    report.add (first ++ second) = (report.add first).add second := by
  simp [add, Array.append_assoc]

theorem record_eq_add (report : Report) (kind : ViolationKind) :
    report.record kind = report.add [⟨[], kind⟩] := by
  simp [record, add, Violation.below]

/-- What is found further in is found below here. -/
theorem leave_add (report : Report) (segment : Segment) (found : List Violation) :
    ((report.enter segment).add found).leave = report.add (found.map (·.inside segment)) := by
  simp [add, enter, leave, Violation.below_enter, Function.comp_def]

end Report

/-! ## What is reported -/

/-- The violations for the keys of an object that a model does not declare. -/
def Model.undeclaredKeys (model : Model) (members : Keyed Json) : List Violation :=
  (members.keys.filter fun key => !(model.field key).isSome).map fun key =>
    ⟨[.field key], .unexpectedField model.name⟩

namespace ModelSet

variable (set : ModelSet)

/-- A value is refused as a whole, for one violation at its own place. -/
inductive Refuses : Ty → Json → ViolationKind → Prop where
  | scalar {type : ScalarType} {value : Json} {kind : ViolationKind} :
      type.decode value = .error kind → Refuses (.scalar type) value kind
  | literal {tag : String} {value : Json} :
      value ≠ .str tag → Refuses (.literal tag) value (.literalMismatch tag value.compact)
  | array {item : Ty} {value : Json} :
      (∀ values, value ≠ .arr values) →
        Refuses (.array item) value (.wrongType (set.typeName (.array item)) value.kind)
  | object {m : ModelId} {fields : List Field} {value : Json} :
      (set.model m).shape = .object fields → (∀ members, value ≠ .obj members) →
        Refuses (.model m) value (.wrongType (set.model m).name value.kind)
  | tagged {m : ModelId} {selector : Discriminator} {value : Json} :
      (set.model m).taggedBy = some selector → (∀ members, value ≠ .obj members) →
        Refuses (.model m) value (.wrongType (set.model m).name value.kind)
  | untagged {m : ModelId} {alternatives : List Ty} {discriminator : Option Discriminator}
      {tags : Keyed Nat} {value : Json} :
      (set.model m).shape = .union alternatives discriminator tags →
        (set.model m).taggedBy = none → (∀ type ∈ alternatives, ¬ set.Accepts type value) →
        Refuses (.model m) value (.noMatchingAlternative (set.model m).name alternatives.length)
  | noAnchor {schema : SchemaId} {value : Json} :
      set.anchor schema = none → Refuses (.anchor schema) value (.noVariant "<anchor>")
  | noVariants {schema : SchemaId} {anchor : Anchor} {value : Json} :
      set.anchor schema = some anchor → anchor.variants = [] →
        Refuses (.anchor schema) value (.noVariant anchor.name)
  | variants {schema : SchemaId} {anchor : Anchor} {value : Json} :
      set.anchor schema = some anchor →
        (∀ variant ∈ anchor.variants, ¬ set.Accepts (.model variant) value) →
        Refuses (.anchor schema) value (.noMatchingAlternative anchor.name anchor.variants.length)

mutual

/-- The violations that a type finds in a value. -/
inductive Reports : Ty → Json → List Violation → Prop where
  | refused {type : Ty} {value : Json} {kind : ViolationKind} :
      Refuses set type value kind → Reports type value [⟨[], kind⟩]
  | scalar {type : ScalarType} {value : Json} {scalar : Scalar} :
      type.decode value = .ok scalar → Reports (.scalar type) value []
  | literal {tag : String} : Reports (.literal tag) (.str tag) []
  | array {item : Ty} {values : List Json} {found : List Violation} :
      ReportsItems item 0 values found → Reports (.array item) (.arr values) found
  | object {m : ModelId} {fields : List Field} {members : Keyed Json} {found : List Violation} :
      (set.model m).shape = .object fields → ReportsFields members fields found →
        Reports (.model m) (.obj members) (found ++ (set.model m).undeclaredKeys members)
  /-- The tag does not select an alternative. -/
  | unselected {m : ModelId} {alternatives : List Ty} {discriminator : Option Discriminator}
      {tags : Keyed Nat} {selector : Discriminator} {members : Keyed Json}
      {kind : ViolationKind} :
      (set.model m).shape = .union alternatives discriminator tags →
        (set.model m).taggedBy = some selector →
        Check.select (set.model m).name selector tags members = .error kind →
        Reports (.model m) (.obj members) [⟨[.field selector.property], kind⟩]
  | tagged {m : ModelId} {alternatives : List Ty} {discriminator : Option Discriminator}
      {tags : Keyed Nat} {selector : Discriminator} {members : Keyed Json} {tag : String}
      {index : Nat} {type : Ty} {found : List Violation} :
      (set.model m).shape = .union alternatives discriminator tags →
        (set.model m).taggedBy = some selector →
        members.get? selector.property = some (.str tag) → tags.get? tag = some index →
        alternatives[index]? = some type → Reports type (.obj members) found →
        Reports (.model m) (.obj members) found
  | untagged {m : ModelId} {alternatives : List Ty} {discriminator : Option Discriminator}
      {tags : Keyed Nat} {value : Json} :
      (set.model m).shape = .union alternatives discriminator tags →
        (set.model m).taggedBy = none → Accepts set (.model m) value → Reports (.model m) value []
  | anchor {schema : SchemaId} {value : Json} :
      Accepts set (.anchor schema) value → Reports (.anchor schema) value []

/-- The violations in items, the first of which stands at a place. -/
inductive ReportsItems : Ty → Nat → List Json → List Violation → Prop where
  | nil {item : Ty} {place : Nat} : ReportsItems item place [] []
  | cons {item : Ty} {place : Nat} {value : Json} {rest : List Json}
      {first more : List Violation} :
      Reports item value first → ReportsItems item (place + 1) rest more →
        ReportsItems item place (value :: rest) (first.map (·.inside (.index place)) ++ more)

/-- The violations at the place of a field. -/
inductive ReportsField : Keyed Json → Field → List Violation → Prop where
  | missing {members : Keyed Json} {field : Field} :
      members.get? field.name = none → field.required = true →
        ReportsField members field [⟨[.field field.name], .missingField⟩]
  | leftOut {members : Keyed Json} {field : Field} :
      members.get? field.name = none → field.required = false → ReportsField members field []
  | skipped {members : Keyed Json} {field : Field} :
      members.get? field.name = some .null → field.required = false →
        ReportsField members field []
  | outside {members : Keyed Json} {field : Field} {value : Json} {permitted : List Json} :
      members.get? field.name = some value → field.enum = some permitted →
        ¬ field.Permits value →
        ReportsField members field [⟨[.field field.name],
          .notInEnum value.compact (String.intercalate ", " (permitted.map Json.compact))⟩]
  | given {members : Keyed Json} {field : Field} {value : Json} {found : List Violation} :
      members.get? field.name = some value → (field.required = false → value ≠ .null) →
        field.Permits value → Reports field.type value found →
        ReportsField members field (found.map (·.inside (.field field.name)))

/-- The violations at the places of fields. -/
inductive ReportsFields : Keyed Json → List Field → List Violation → Prop where
  | nil {members : Keyed Json} : ReportsFields members [] []
  | cons {members : Keyed Json} {field : Field} {rest : List Field}
      {first more : List Violation} :
      ReportsField members field first → ReportsFields members rest more →
        ReportsFields members (field :: rest) (first ++ more)

end
end ModelSet

/-! ## What checks report -/

namespace Check

/-- A check of a value has added to the report what the type finds in the value. -/
def Adds (set : ModelSet) (type : Ty) (value : Json) (report after : Report) : Prop :=
  ∃ found, set.Reports type value found ∧ after = report.add found

/-- Where a check ends, it has added to the report what the type finds in the value. -/
def Collects (set : ModelSet) (check : Check) : Prop :=
  ∀ {type : Ty} {value : Json} {report : Report} {answer : Option Instance} {after : Report},
    check type value report = some (answer, after) → Adds set type value report after

variable {set : ModelSet} {check : Check}

theorem Adds.refused {type : Ty} {value : Json} {report : Report} {kind : ViolationKind}
    (h : set.Refuses type value kind) : Adds set type value report (report.record kind) :=
  ⟨_, .refused h, report.record_eq_add kind⟩

theorem Adds.nothing {type : Ty} {value : Json} {report : Report}
    (h : set.Reports type value []) : Adds set type value report report :=
  ⟨[], h, report.add_nil.symm⟩

section Parts

variable (hcheck : Collects set check)
include hcheck

theorem items_collect {item : Ty} {values : List Json} {place : Nat} {report after : Report}
    {answers : List Instance} (h : items check item place values report = some (answers, after)) :
    ∃ found, set.ReportsItems item place values found ∧ after = report.add found := by
  induction values generalizing place report answers with
  | nil =>
      cases h
      exact ⟨[], .nil, (Report.add_nil _).symm⟩
  | cons value rest ih =>
      simp only [items, Option.bind_eq_bind, Option.bind_eq_some_iff, Prod.exists] at h
      obtain ⟨answer, middle, hfirst, answers', after', hrest, heq⟩ := h
      cases heq
      obtain ⟨inner, hinner, rfl⟩ := inside_eq_some hfirst
      obtain ⟨first, hreports, rfl⟩ := hcheck hinner
      obtain ⟨more, hmore, rfl⟩ := ih hrest
      exact ⟨_, .cons hreports hmore, by rw [Report.leave_add, Report.add_append]⟩

theorem array_collects {item : Ty} {value : Json} {report after : Report}
    {answer : Option Instance} (h : array set check item value report = some (answer, after)) :
    Adds set (.array item) value report after := by
  unfold array at h
  split at h
  · simp only [Option.bind_eq_bind, Option.bind_eq_some_iff, Prod.exists] at h
    obtain ⟨answers, after', hitems, heq⟩ := h
    cases heq
    obtain ⟨found, hfound, rfl⟩ := items_collect hcheck hitems
    exact ⟨found, .array hfound, rfl⟩
  · rename_i hother
    cases h
    exact .refused (.array hother)

/-! ## Objects -/

theorem given_collects {members : Keyed Json} {field : Field} {value : Json}
    {report after : Report} {answer : Option Instance}
    (hmember : members.get? field.name = some value)
    (hheld : field.required = false → value ≠ .null)
    (h : given check field value (report.enter (.field field.name)) = some (answer, after)) :
    ∃ found, set.ReportsField members field found ∧ after.leave = report.add found := by
  have hchecked (hpermits : field.Permits value)
      (h : check field.type value (report.enter (.field field.name)) = some (answer, after)) :
      ∃ found, set.ReportsField members field found ∧ after.leave = report.add found := by
    obtain ⟨found, hfound, rfl⟩ := hcheck h
    exact ⟨_, .given hmember hheld hpermits hfound, Report.leave_add ..⟩
  unfold given at h
  split at h
  · rename_i hnone
    exact hchecked (fun permitted hsome => by simp [hnone] at hsome) h
  · rename_i permitted hsome
    split at h
    · rename_i hany
      refine hchecked (fun other hother => ?_) h
      cases hsome.symm.trans hother
      exact hany
    · rename_i hany
      cases h
      refine ⟨_, .outside hmember hsome fun hpermits => hany (hpermits permitted hsome), ?_⟩
      rw [Report.record_eq_add, Report.leave_add]
      rfl

theorem field_collects {members : Keyed Json} {next : Field} {report after : Report}
    {answer : Option Instance}
    (h : inside (.field next.name) (field check members next) report = some (answer, after)) :
    ∃ found, set.ReportsField members next found ∧ after = report.add found := by
  obtain ⟨inner, hinner, rfl⟩ := inside_eq_some h
  unfold field at hinner
  split at hinner
  · rename_i hnone
    split at hinner
    · rename_i hrequired
      cases hinner
      refine ⟨_, .missing hnone hrequired, ?_⟩
      rw [Report.record_eq_add, Report.leave_add]
      rfl
    · rename_i hrequired
      refine ⟨[], .leftOut hnone (by simpa using hrequired), ?_⟩
      -- A default is checked with a report of its own.
      have hsame : inner = report.enter (.field next.name) := by
        unfold leftOut at hinner
        split at hinner
        · cases hinner
          rfl
        · simp only [Option.bind_eq_bind, Option.bind_eq_some_iff, Prod.exists] at hinner
          obtain ⟨_, _, -, heq⟩ := hinner
          cases heq
          rfl
      rw [hsame, Report.leave_enter, Report.add_nil]
  · rename_i hnull
    split at hinner
    · rename_i hrequired
      exact given_collects hcheck hnull (by simp [hrequired]) hinner
    · rename_i hrequired
      cases hinner
      exact ⟨[], .skipped hnull (by simpa using hrequired), by simp⟩
  · rename_i value hother hmember
    exact given_collects hcheck hmember (fun _ => hother) hinner

theorem fields_collect {members : Keyed Json} {fields : List Field} {report after : Report}
    {entries : List (String × Instance)}
    (h : Check.fields check members fields report = some (entries, after)) :
    ∃ found, set.ReportsFields members fields found ∧ after = report.add found := by
  induction fields generalizing report entries with
  | nil =>
      cases h
      exact ⟨[], .nil, (Report.add_nil _).symm⟩
  | cons next rest ih =>
      simp only [Check.fields, Option.bind_eq_bind, Option.bind_eq_some_iff, Prod.exists] at h
      obtain ⟨answer, middle, hfirst, entries', after', hrest, heq⟩ := h
      cases heq
      obtain ⟨first, hreports, rfl⟩ := field_collects hcheck hfirst
      obtain ⟨more, hmore, rfl⟩ := ih hrest
      exact ⟨_, .cons hreports hmore, by rw [Report.add_append]⟩

omit hcheck in
theorem undeclared_eq_add (model : Model) (members : Keyed Json) (report : Report) :
    undeclared model members report = report.add (model.undeclaredKeys members) := by
  unfold undeclared Model.undeclaredKeys
  induction members.keys generalizing report with
  | nil => simp
  | cons key rest ih =>
      rw [List.foldl_cons, ih]
      by_cases hsome : (model.field key).isSome
      · rw [if_pos hsome, List.filter_cons_of_neg (by simp [hsome])]
      · rw [if_neg hsome, List.filter_cons_of_pos (by simpa using hsome), List.map_cons,
          Report.record_eq_add, Report.leave_add, ← Report.add_append]
        rfl

theorem object_collects {m : ModelId} {fields : List Field} {value : Json}
    {report after : Report} {answer : Option Instance}
    (hshape : (set.model m).shape = .object fields)
    (h : object set check m value report = some (answer, after)) :
    Adds set (.model m) value report after := by
  have hfields : (set.model m).fields = fields := by simp [Model.fields, hshape]
  unfold object at h
  split at h
  · rename_i members
    simp only [hfields, Option.bind_eq_bind, Option.bind_eq_some_iff, Prod.exists] at h
    obtain ⟨entries, middle, hentries, heq⟩ := h
    cases heq
    obtain ⟨found, hfound, rfl⟩ := fields_collect hcheck hentries
    exact ⟨_, .object hshape hfound, by rw [undeclared_eq_add, Report.add_append]⟩
  · rename_i hother
    cases h
    exact .refused (.object hshape hother)

/-! ## Unions and anchors -/

theorem tagged_collects {m : ModelId} {alternatives : List Ty}
    {discriminator : Option Discriminator} {tags : Keyed Nat} {selector : Discriminator}
    {value : Json} {report after : Report} {answer : Option Instance}
    (hshape : (set.model m).shape = .union alternatives discriminator tags)
    (hby : (set.model m).taggedBy = some selector)
    (h : tagged set check m alternatives selector tags value report = some (answer, after)) :
    Adds set (.model m) value report after := by
  unfold tagged at h
  simp only at h
  split at h
  · rename_i members
    split at h
    · rename_i kind hselect
      obtain ⟨inner, hinner, rfl⟩ := inside_eq_some h
      cases hinner
      refine ⟨_, .unselected hshape hby hselect, ?_⟩
      rw [Report.record_eq_add, Report.leave_add]
      rfl
    · rename_i index hselect
      obtain ⟨tag, hmember, htag⟩ := select_eq_ok hselect
      simp only [Option.bind_eq_bind, Option.bind_eq_some_iff, Prod.exists] at h
      obtain ⟨type, htype, answer', after', hinner, heq⟩ := h
      cases heq
      obtain ⟨found, hfound, rfl⟩ := hcheck hinner
      exact ⟨found, .tagged hshape hby hmember htag htype hfound, rfl⟩
  · rename_i hother
    cases h
    exact .refused (.tagged hby hother)

end Parts

section Candidates

variable (hsettles : Settles set check)
include hsettles

theorem untagged_collects {m : ModelId} {alternatives : List Ty}
    {discriminator : Option Discriminator} {tags : Keyed Nat} {value : Json}
    {report after : Report} {answer : Option Instance}
    (hshape : (set.model m).shape = .union alternatives discriminator tags)
    (hby : (set.model m).taggedBy = none)
    (h : untagged set check m alternatives value report = some (answer, after)) :
    Adds set (.model m) value report after := by
  simp only [untagged, Option.bind_eq_bind, Option.bind_eq_some_iff] at h
  obtain ⟨found, hfound, h⟩ := h
  cases found with
  | some found =>
      cases h
      obtain ⟨before, type, after, rfl, -, -, hread⟩ := firstMatch_some hsettles hfound
      exact .nothing (.untagged hshape hby (.untagged hshape hby (by simp) hread.accepts))
  | none =>
      cases h
      exact .refused (.untagged hshape hby (firstMatch_none hsettles hfound))

theorem anchor_collects {schema : SchemaId} {value : Json} {report after : Report}
    {answer : Option Instance}
    (h : Check.anchor set check schema value report = some (answer, after)) :
    Adds set (.anchor schema) value report after := by
  unfold Check.anchor at h
  split at h
  · rename_i hnone
    cases h
    exact .refused (.noAnchor hnone)
  · rename_i anchor hanchor
    split at h
    · rename_i hempty
      cases h
      exact .refused (.noVariants hanchor (List.isEmpty_iff.mp hempty))
    · simp only [Option.bind_eq_bind, Option.bind_eq_some_iff] at h
      obtain ⟨found, hfound, h⟩ := h
      cases found with
      | some found =>
          cases h
          obtain ⟨before, type, after, hsplit, -, -, hread⟩ := firstMatch_some hsettles hfound
          have hmem : type ∈ anchor.variants.map Ty.model := by simp [hsplit]
          obtain ⟨variant, hvariant, rfl⟩ := List.mem_map.mp hmem
          exact .nothing (.anchor (.anchor hanchor hvariant hread.accepts))
      | none =>
          cases h
          exact .refused (.variants hanchor fun variant hmem =>
            firstMatch_none hsettles hfound _ (List.mem_map_of_mem hmem))

end Candidates

/-! ## Types -/

theorem type_collects (hsettles : Settles set check) (hcheck : Collects set check) :
    Collects set (Check.type set check) := by
  intro type value report answer after h
  cases type with
  | scalar type =>
      simp only [Check.type] at h
      split at h
      · cases h
        exact .nothing (.scalar ‹_›)
      · cases h
        exact .refused (.scalar ‹_›)
  | literal tag =>
      simp only [Check.type] at h
      split at h
      · rename_i hstring
        cases h
        obtain rfl := isString_iff.mp hstring
        exact .nothing .literal
      · rename_i hstring
        cases h
        exact .refused (.literal fun heq => hstring (isString_iff.mpr heq))
  | array item => exact array_collects hcheck h
  | model m =>
      simp only [Check.type, Check.model] at h
      cases hshape : (set.model m).shape with
      | object fields =>
          simp only [hshape] at h
          exact object_collects hcheck hshape h
      | union alternatives discriminator tags =>
          simp only [hshape] at h
          split at h
          · exact tagged_collects hcheck hshape ‹_› h
          · exact untagged_collects hsettles hshape ‹_› h
  | anchor schema => exact anchor_collects hsettles h

/-- A check of any depth that ends has added exactly what the type finds in the value. -/
theorem upTo_collects (set : ModelSet) (depth : Nat) : Collects set (upTo set depth) := by
  induction depth with
  | zero =>
      intro type value report answer after h
      cases h
  | succ depth ih => exact type_collects (upTo_settles set depth) ih

end Check

/-- Decoding refuses a value with all that its type finds wrong with it, and that is something. -/
theorem ModelSet.reports_of_decode {set : ModelSet} {type : Ty} {value : Json} {failure : Failure}
    (h : set.decode type value = .error (.failed failure)) :
    set.Reports type value failure.violations ∧ failure.violations ≠ [] ∧
      ¬ set.Accepts type value := by
  unfold ModelSet.decode at h
  simp only at h
  split at h
  · rename_i found report hcheck
    -- A check that gives an instance reports nothing.
    cases Check.upTo_settles set _ hcheck with
    | clean hreport hreads =>
        subst hreport
        cases h
    | violated _ _ hnot => cases hnot.1
  · rename_i report hcheck
    cases h
    obtain ⟨found, hfound, rfl⟩ := Check.upTo_collects set _ hcheck
    cases Check.upTo_settles set _ hcheck with
    | clean _ hreads => cases hreads.choose_spec.1
    | violated _ hsize hnot =>
        refine ⟨by simpa [Report.add] using hfound, ?_, hnot.2⟩
        intro hnil
        have hempty : (({} : Report).add found).violations = #[] := Array.toList_eq_nil_iff.mp hnil
        simp [hempty] at hsize
  · cases h

end OpenApi
