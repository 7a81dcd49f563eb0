-- SUMMARY: What a check that ends has found: the instance that a value is, or a refusal.
import OpenApi.Proofs.Decoding.Contract

/-!
# Outcomes of checks

All parts of a check add to one report, and what decides is whether the report has
grown. `Outcome` says that a part either leaves the report exactly as it was, or
comes back to the same place with more violations. Outcomes of parts that follow
each other are put together by `Outcome.andThen`, so the check of a whole grows the
report exactly where one of its parts does.
-/

namespace OpenApi

open ModelSet

/-- A part of a check either leaves the report as it was, or adds violations to it. -/
inductive Outcome (report : Report) (fits unfit : Prop) (after : Report) : Prop where
  | clean : after = report → fits → Outcome report fits unfit after
  | violated : after.path = report.path → report.violations.size < after.violations.size →
      unfit → Outcome report fits unfit after

namespace Outcome

variable {report middle after : Report} {fits fits' unfit unfit' : Prop}

theorem imp (h : Outcome report fits unfit after) (hfits : fits → fits')
    (hunfit : unfit → unfit') : Outcome report fits' unfit' after := by
  cases h with
  | clean hreport h => exact .clean hreport (hfits h)
  | violated hpath hsize h => exact .violated hpath hsize (hunfit h)

/-- Of two parts that follow each other both have to fit. -/
theorem andThen (h : Outcome report fits unfit middle) (h' : Outcome middle fits' unfit' after) :
    Outcome report (fits ∧ fits') (unfit ∨ unfit') after := by
  cases h with
  | clean hreport h =>
      subst hreport
      exact h'.imp (fun h' => ⟨h, h'⟩) .inr
  | violated hpath hsize h =>
      cases h' with
      | clean hreport h' =>
          subst hreport
          exact .violated hpath hsize (.inl h)
      | violated hpath' hsize' h' =>
          exact .violated (hpath'.trans hpath) (Nat.lt_trans hsize hsize') (.inr h')

theorem record (kind : ViolationKind) (h : unfit) :
    Outcome report fits unfit (report.record kind) :=
  .violated rfl (by simp [Report.record]) h

/-- What is found further in counts here. -/
theorem leave {segment : Segment} (h : Outcome (report.enter segment) fits unfit after) :
    Outcome report fits unfit after.leave := by
  cases h with
  | clean hreport h =>
      subst hreport
      exact .clean (Report.leave_enter report segment) h
  | violated hpath hsize h =>
      refine .violated ?_ hsize h
      simp [Report.leave, hpath, Report.enter]

theorem unlessViolated (value : Instance) (h : Outcome report fits unfit after) :
    Outcome report (Check.unlessViolated report after value = some value ∧ fits)
      (Check.unlessViolated report after value = none ∧ unfit) after := by
  cases h with
  | clean hreport h =>
      subst hreport
      exact .clean rfl ⟨by simp [Check.unlessViolated], h⟩
  | violated hpath hsize h =>
      refine .violated hpath hsize ⟨?_, h⟩
      simp [Check.unlessViolated, Nat.ne_of_gt hsize]

end Outcome

/-! ## Checks of parts -/

namespace Check

/-- What a check of a value against a type finds. -/
abbrev Finding (set : ModelSet) (type : Ty) (value : Json) (report : Report)
    (answer : Option Instance) (after : Report) : Prop :=
  Outcome report (∃ found, answer = some found ∧ set.Reads type value found)
    (answer = none ∧ ¬ set.Accepts type value) after

/-- Where a check ends, it has found whether the type accepts the value. -/
def Settles (set : ModelSet) (check : Check) : Prop :=
  ∀ {type : Ty} {value : Json} {report : Report} {answer : Option Instance} {after : Report},
    check type value report = some (answer, after) → Finding set type value report answer after

theorem isString_iff {tag : String} {value : Json} :
    value.isString tag = true ↔ value = .str tag := by
  cases value <;> simp [Json.isString]

theorem select_eq_ok {name : String} {selector : Discriminator} {tags : Keyed Nat}
    {members : Keyed Json} {index : Nat} (h : select name selector tags members = .ok index) :
    ∃ tag, members.get? selector.property = some (.str tag) ∧ tags.get? tag = some index := by
  unfold select at h
  split at h
  · cases h
  · rename_i tag hmember
    split at h
    · rename_i index' htag
      cases h
      exact ⟨tag, hmember, htag⟩
    · cases h
  · cases h

/-- A check further in comes back with what it has found there. -/
theorem inside_eq_some {segment : Segment}
    {check : Report → Option (Option Instance × Report)} {report after : Report}
    {answer : Option Instance} (h : inside segment check report = some (answer, after)) :
    ∃ inner, check (report.enter segment) = some (answer, inner) ∧ after = inner.leave := by
  obtain ⟨⟨found, inner⟩, hcheck, heq⟩ := Option.map_eq_some_iff.mp h
  cases heq
  exact ⟨inner, hcheck, rfl⟩

variable {set : ModelSet} {check : Check} (hcheck : Settles set check)
include hcheck

theorem items_settles {item : Ty} {values : List Json} {place : Nat} {report after : Report}
    {answers : List Instance}
    (h : items check item place values report = some (answers, after)) :
    Outcome report (set.ReadsItems item values answers)
      (¬ ∀ value ∈ values, set.Accepts item value) after := by
  induction values generalizing place report answers with
  | nil =>
      cases h
      exact .clean rfl .nil
  | cons value rest ih =>
      simp only [items, Option.bind_eq_bind, Option.bind_eq_some_iff, Prod.exists] at h
      obtain ⟨answer, middle, hfirst, answers', after', hrest, heq⟩ := h
      cases heq
      obtain ⟨inner, hinner, rfl⟩ := inside_eq_some hfirst
      -- The first item and the rest are two parts, and the report grows where one of them does.
      refine ((hcheck hinner).leave.andThen (ih hrest)).imp ?_ ?_
      · intro hcase
        obtain ⟨⟨found, rfl, hread⟩, hreads⟩ := hcase
        exact .cons hread hreads
      · intro hcase hall
        rcases hcase with ⟨-, hnot⟩ | hnot
        · exact hnot (hall value (by simp))
        · exact hnot fun other hmem => hall other (List.mem_cons_of_mem _ hmem)

theorem array_settles {item : Ty} {value : Json} {report after : Report}
    {answer : Option Instance} (h : array set check item value report = some (answer, after)) :
    Finding set (.array item) value report answer after := by
  unfold array at h
  split at h
  · rename_i values
    simp only [Option.bind_eq_bind, Option.bind_eq_some_iff, Prod.exists] at h
    obtain ⟨answers, after', hitems, heq⟩ := h
    cases heq
    refine ((items_settles hcheck hitems).unlessViolated (.array answers)).imp ?_ ?_
    · intro hcase
      obtain ⟨hanswer, hreads⟩ := hcase
      exact ⟨_, hanswer, .array hreads⟩
    · intro hcase
      obtain ⟨hanswer, hnot⟩ := hcase
      refine ⟨hanswer, fun haccepts => hnot ?_⟩
      obtain ⟨values', hvalues, hall⟩ := accepts_array_iff.mp haccepts
      cases hvalues
      exact hall
  · rename_i hother
    cases h
    refine .record _ ⟨rfl, fun haccepts => ?_⟩
    obtain ⟨values, rfl, -⟩ := accepts_array_iff.mp haccepts
    exact hother values rfl

/-! ## Checks of objects -/

theorem given_settles {field : Field} {value : Json} {report after : Report}
    {answer : Option Instance} (h : given check field value report = some (answer, after)) :
    Outcome report
      (field.Permits value ∧ ∃ found, answer = some found ∧ set.Reads field.type value found)
      (answer = none ∧ ¬ (field.Permits value ∧ set.Accepts field.type value)) after := by
  unfold given at h
  split at h
  · rename_i hnone
    have hpermits : field.Permits value := fun permitted hsome => by simp [hnone] at hsome
    refine (hcheck h).imp (fun hfound => ⟨hpermits, hfound⟩) ?_
    intro hcase
    obtain ⟨hanswer, hnot⟩ := hcase
    exact ⟨hanswer, fun haccepts => hnot haccepts.2⟩
  · rename_i permitted hsome
    split at h
    · rename_i hany
      have hpermits : field.Permits value := by
        intro other hother
        cases hsome.symm.trans hother
        exact hany
      refine (hcheck h).imp (fun hfound => ⟨hpermits, hfound⟩) ?_
      intro hcase
      obtain ⟨hanswer, hnot⟩ := hcase
      exact ⟨hanswer, fun haccepts => hnot haccepts.2⟩
    · rename_i hany
      cases h
      exact .record _ ⟨rfl, fun haccepts => hany (haccepts.1 permitted hsome)⟩

/-- A default never adds to the report, whether it is of the type or not. -/
theorem leftOut_settles {members : Keyed Json} {field : Field} {report after : Report}
    {answer : Option Instance} (hnone : members.get? field.name = none)
    (hopt : field.required = false)
    (h : leftOut check field report = some (answer, after)) :
    after = report ∧ set.ReadsField members field answer := by
  unfold leftOut at h
  split at h
  · rename_i hdefault
    cases h
    exact ⟨rfl, .leftOut hnone hopt hdefault⟩
  · rename_i default hdefault
    simp only [Option.bind_eq_bind, Option.bind_eq_some_iff, Prod.exists] at h
    obtain ⟨answer', scratch, hscratch, heq⟩ := h
    cases heq
    -- The default has a scratch report of its own, which decides whether it is filled in.
    refine ⟨rfl, ?_⟩
    cases hcheck hscratch with
    | clean _ hfound =>
        obtain ⟨found, rfl, hread⟩ := hfound
        exact .filled hnone hopt hdefault hread
    | violated _ _ hnot =>
        obtain ⟨rfl, hnot⟩ := hnot
        exact .unfit hnone hopt hdefault hnot

theorem field_settles {members : Keyed Json} {next : Field} {report after : Report}
    {answer : Option Instance} (h : field check members next report = some (answer, after)) :
    Outcome report (set.ReadsField members next answer)
      (¬ set.AcceptsField members next) after := by
  -- A value that is not skipped over is accepted by being given.
  have hgiven {value : Json} (hmember : members.get? next.name = some value)
      (hheld : next.required = false → value ≠ .null)
      (h : given check next value report = some (answer, after)) :
      Outcome report (set.ReadsField members next answer)
        (¬ set.AcceptsField members next) after := by
    refine (given_settles hcheck h).imp ?_ ?_
    · intro hcase
      obtain ⟨hpermits, found, rfl, hread⟩ := hcase
      exact .given hmember hheld hpermits hread
    · intro hcase haccepts
      obtain ⟨-, hnot⟩ := hcase
      cases haccepts with
      | leftOut hnone => cases hmember.symm.trans hnone
      | skipped hnull hopt =>
          cases hmember.symm.trans hnull
          exact hheld hopt rfl
      | given hmember' hpermits haccepts =>
          cases hmember.symm.trans hmember'
          exact hnot ⟨hpermits, haccepts⟩
  unfold field at h
  split at h
  · rename_i hnone
    split at h
    · rename_i hrequired
      cases h
      refine .record _ fun haccepts => ?_
      cases haccepts with
      | leftOut _ hopt => simp [hrequired] at hopt
      | skipped hnull => cases hnone.symm.trans hnull
      | given hmember => cases hnone.symm.trans hmember
    · rename_i hrequired
      obtain ⟨hreport, hread⟩ := leftOut_settles hcheck hnone (by simpa using hrequired) h
      exact .clean hreport hread
  · rename_i hnull
    split at h
    · rename_i hrequired
      exact hgiven hnull (by simp [hrequired]) h
    · rename_i hrequired
      cases h
      exact .clean rfl (.skipped hnull (by simpa using hrequired))
  · rename_i value hother hmember
    exact hgiven hmember (fun _ => hother) h

theorem fields_settle {members : Keyed Json} {fields : List Field} {report after : Report}
    {entries : List (String × Instance)}
    (h : Check.fields check members fields report = some (entries, after)) :
    Outcome report (set.ReadsFields members fields entries)
      (¬ ∀ field ∈ fields, set.AcceptsField members field) after := by
  induction fields generalizing report entries with
  | nil =>
      cases h
      exact .clean rfl .nil
  | cons next rest ih =>
      simp only [Check.fields, Option.bind_eq_bind, Option.bind_eq_some_iff, Prod.exists] at h
      obtain ⟨answer, middle, hfirst, entries', after', hrest, heq⟩ := h
      cases heq
      obtain ⟨inner, hinner, rfl⟩ := inside_eq_some hfirst
      refine ((field_settles hcheck hinner).leave.andThen (ih hrest)).imp ?_ ?_
      · intro hcase
        obtain ⟨hread, hreads⟩ := hcase
        exact .cons hread hreads
      · intro hcase hall
        rcases hcase with hnot | hnot
        · exact hnot (hall next (by simp))
        · exact hnot fun other hmem => hall other (List.mem_cons_of_mem _ hmem)

omit hcheck in
theorem undeclared_settles (model : Model) (members : Keyed Json) (report : Report) :
    Outcome report (model.Declares members) (¬ model.Declares members)
      (undeclared model members report) := by
  unfold undeclared Model.Declares
  induction members.keys generalizing report with
  | nil => exact .clean rfl (by simp)
  | cons key rest ih =>
      rw [List.foldl_cons]
      have hkey : Outcome report ((model.field key).isSome = true)
          (¬ (model.field key).isSome = true)
          (if (model.field key).isSome then report
            else ((report.enter (.field key)).record (.unexpectedField model.name)).leave) := by
        split
        · exact .clean rfl ‹_›
        · exact (Outcome.record _ ‹_›).leave
      refine (hkey.andThen (ih _)).imp ?_ ?_
      · intro h
        obtain ⟨hfirst, hrest⟩ := h
        simpa using ⟨hfirst, hrest⟩
      · intro h hall
        rcases h with hnot | hnot
        · exact hnot (hall key (by simp))
        · exact hnot fun other hmem => hall other (List.mem_cons_of_mem _ hmem)

theorem object_settles {m : ModelId} {fields : List Field} {value : Json} {report after : Report}
    {answer : Option Instance} (hshape : (set.model m).shape = .object fields)
    (h : object set check m value report = some (answer, after)) :
    Finding set (.model m) value report answer after := by
  have hfields : (set.model m).fields = fields := by simp [Model.fields, hshape]
  unfold object at h
  split at h
  · rename_i members
    simp only [hfields, Option.bind_eq_bind, Option.bind_eq_some_iff, Prod.exists] at h
    obtain ⟨entries, middle, hentries, heq⟩ := h
    cases heq
    have hall := (fields_settle hcheck hentries).andThen
      (undeclared_settles (set.model m) members middle)
    refine (hall.unlessViolated (.object m entries)).imp ?_ ?_
    · intro hcase
      obtain ⟨hanswer, hreads, hdeclared⟩ := hcase
      exact ⟨_, hanswer, .object hshape hreads hdeclared⟩
    · intro hcase
      obtain ⟨hanswer, hnot⟩ := hcase
      refine ⟨hanswer, fun haccepts => ?_⟩
      obtain ⟨members', hmembers, hfits, hdeclared⟩ := (accepts_object_iff hshape).mp haccepts
      cases hmembers
      rcases hnot with hnot | hnot
      · exact hnot hfits
      · exact hnot hdeclared
  · rename_i hother
    cases h
    refine .record _ ⟨rfl, fun haccepts => ?_⟩
    obtain ⟨members, rfl, -⟩ := (accepts_object_iff hshape).mp haccepts
    exact hother members rfl

/-! ## Checks of unions and anchors -/

/-- The first type either accepts the value and is the match, or does not and is passed over. -/
theorem firstMatch_cons {value : Json} {type : Ty} {rest : List Ty} {report : Report}
    {place : Nat} {result : Option (Nat × Instance)}
    (h : firstMatch check value report place (type :: rest) = some result) :
    (∃ found, result = some (place, found) ∧ set.Reads type value found) ∨
      (¬ set.Accepts type value ∧
        firstMatch check value report (place + 1) rest = some result) := by
  simp only [firstMatch, Option.bind_eq_bind, Option.bind_eq_some_iff, Prod.exists] at h
  obtain ⟨answer, scratch, hscratch, h⟩ := h
  -- The scratch report starts without violations, so it is empty exactly where the value fits.
  cases hcheck hscratch with
  | clean hreport hreads =>
      obtain ⟨found, rfl, hread⟩ := hreads
      subst hreport
      simp only [Report.fresh, Array.isEmpty_empty, if_true, Option.some.injEq] at h
      exact .inl ⟨found, h.symm, hread⟩
  | violated _ _ hnot =>
      obtain ⟨rfl, hnot⟩ := hnot
      exact .inr ⟨hnot, h⟩

theorem firstMatch_some {value : Json} {types : List Ty} {report : Report} {place index : Nat}
    {answer : Instance}
    (h : firstMatch check value report place types = some (some (index, answer))) :
    ∃ before type after, types = before ++ type :: after ∧ index = place + before.length ∧
      (∀ other ∈ before, ¬ set.Accepts other value) ∧ set.Reads type value answer := by
  induction types generalizing place with
  | nil => cases h
  | cons type rest ih =>
      rcases firstMatch_cons hcheck h with ⟨found, heq, hread⟩ | ⟨hnot, hrest⟩
      · cases heq
        exact ⟨[], type, rest, rfl, rfl, by simp, hread⟩
      · obtain ⟨before, type', after, rfl, rfl, hbefore, hread⟩ := ih hrest
        refine ⟨type :: before, type', after, rfl, ?_, ?_, hread⟩
        · simp only [List.length_cons]
          omega
        · simpa using ⟨hnot, hbefore⟩

theorem firstMatch_none {value : Json} {types : List Ty} {report : Report} {place : Nat}
    (h : firstMatch check value report place types = some none) :
    ∀ type ∈ types, ¬ set.Accepts type value := by
  induction types generalizing place with
  | nil => simp
  | cons type rest ih =>
      rcases firstMatch_cons hcheck h with ⟨found, heq, -⟩ | ⟨hnot, hrest⟩
      · cases heq
      · simpa using ⟨hnot, ih hrest⟩

section Unions

variable {m : ModelId} {alternatives : List Ty} {discriminator : Option Discriminator}
variable {tags : Keyed Nat} {value : Json} {report after : Report} {answer : Option Instance}
variable (hshape : (set.model m).shape = .union alternatives discriminator tags)
include hshape

theorem tagged_settles {selector : Discriminator} (hby : (set.model m).taggedBy = some selector)
    (h : tagged set check m alternatives selector tags value report = some (answer, after)) :
    Finding set (.model m) value report answer after := by
  unfold tagged at h
  simp only at h
  split at h
  · rename_i members
    split at h
    · rename_i kind hselect
      obtain ⟨inner, hinner, rfl⟩ := inside_eq_some h
      cases hinner
      refine (Outcome.record kind ⟨rfl, fun haccepts => ?_⟩).leave
      obtain ⟨members', hmembers, tag, index, type, hmember, htag, -⟩ :=
        (accepts_tagged_iff hshape hby).mp haccepts
      cases hmembers
      simp [select, hmember, htag] at hselect
    · rename_i index hselect
      obtain ⟨tag, hmember, htag⟩ := select_eq_ok hselect
      simp only [Option.bind_eq_bind, Option.bind_eq_some_iff, Prod.exists] at h
      obtain ⟨type, htype, answer', after', hinner, heq⟩ := h
      cases heq
      refine (hcheck hinner).imp ?_ ?_
      · intro hcase
        obtain ⟨found, rfl, hread⟩ := hcase
        exact ⟨_, rfl, .tagged hshape hby hmember htag htype hread⟩
      · intro hcase
        obtain ⟨rfl, hnot⟩ := hcase
        refine ⟨rfl, fun haccepts => ?_⟩
        -- No other alternative could accept the value: its tag selects this one.
        obtain ⟨members', hmembers, tag', index', type', hmember', htag', htype', haccepts'⟩ :=
          (accepts_tagged_iff hshape hby).mp haccepts
        cases hmembers
        cases hmember.symm.trans hmember'
        cases htag.symm.trans htag'
        cases htype.symm.trans htype'
        exact hnot haccepts'
  · rename_i hother
    cases h
    refine .record _ ⟨rfl, fun haccepts => ?_⟩
    obtain ⟨members, rfl, -⟩ := (accepts_tagged_iff hshape hby).mp haccepts
    exact hother members rfl

theorem untagged_settles (hby : (set.model m).taggedBy = none)
    (h : untagged set check m alternatives value report = some (answer, after)) :
    Finding set (.model m) value report answer after := by
  simp only [untagged, Option.bind_eq_bind, Option.bind_eq_some_iff] at h
  obtain ⟨found, hfound, h⟩ := h
  cases found with
  | some found =>
      cases h
      obtain ⟨before, type, after, rfl, hindex, hbefore, hread⟩ := firstMatch_some hcheck hfound
      rw [Nat.zero_add] at hindex
      exact .clean rfl ⟨_, rfl, hindex ▸ .untagged hshape hby hbefore hread⟩
  | none =>
      cases h
      refine .record _ ⟨rfl, fun haccepts => ?_⟩
      obtain ⟨type, hmem, haccepts⟩ := (accepts_untagged_iff hshape hby).mp haccepts
      exact firstMatch_none hcheck hfound type hmem haccepts

end Unions

theorem anchor_settles {schema : SchemaId} {value : Json} {report after : Report}
    {answer : Option Instance}
    (h : Check.anchor set check schema value report = some (answer, after)) :
    Finding set (.anchor schema) value report answer after := by
  unfold Check.anchor at h
  split at h
  · rename_i hnone
    cases h
    refine .record _ ⟨rfl, fun haccepts => ?_⟩
    obtain ⟨anchor, hanchor, -⟩ := accepts_anchor_iff.mp haccepts
    cases hnone.symm.trans hanchor
  · rename_i anchor hanchor
    split at h
    · rename_i hempty
      cases h
      refine .record _ ⟨rfl, fun haccepts => ?_⟩
      obtain ⟨anchor', hanchor', variant, hmem, -⟩ := accepts_anchor_iff.mp haccepts
      cases hanchor.symm.trans hanchor'
      rw [List.isEmpty_iff.mp hempty] at hmem
      cases hmem
    · simp only [Option.bind_eq_bind, Option.bind_eq_some_iff] at h
      obtain ⟨found, hfound, h⟩ := h
      cases found with
      | some found =>
          cases h
          obtain ⟨before, type, after, hsplit, -, hbefore, hread⟩ :=
            firstMatch_some hcheck hfound
          -- The types that are tried are the models of the variants, in their order.
          obtain ⟨before, rest, hvariants, rfl, hrest⟩ := List.map_eq_append_iff.mp hsplit
          obtain ⟨variant, after, rfl, rfl, -⟩ := List.map_eq_cons_iff.mp hrest
          have hrefused : ∀ other ∈ before, ¬ set.Accepts (.model other) value :=
            fun other hmem => hbefore _ (List.mem_map_of_mem hmem)
          exact .clean rfl ⟨_, rfl, .anchor hanchor hvariants hrefused hread⟩
      | none =>
          cases h
          refine .record _ ⟨rfl, fun haccepts => ?_⟩
          obtain ⟨anchor', hanchor', variant, hmem, haccepts⟩ := accepts_anchor_iff.mp haccepts
          cases hanchor.symm.trans hanchor'
          exact firstMatch_none hcheck hfound _ (List.mem_map_of_mem hmem) haccepts

/-! ## Checks of types -/

theorem model_settles {m : ModelId} {value : Json} {report after : Report}
    {answer : Option Instance} (h : Check.model set check m value report = some (answer, after)) :
    Finding set (.model m) value report answer after := by
  unfold Check.model at h
  cases hshape : (set.model m).shape with
  | object fields =>
      simp only [hshape] at h
      exact object_settles hcheck hshape h
  | union alternatives discriminator tags =>
      simp only [hshape] at h
      split at h
      · exact tagged_settles hcheck hshape ‹_› h
      · exact untagged_settles hcheck hshape ‹_› h

theorem type_settles : Settles set (Check.type set check) := by
  intro type value report answer after h
  cases type with
  | scalar type =>
      simp only [Check.type] at h
      split at h
      · rename_i scalar hdecode
        cases h
        exact .clean rfl ⟨_, rfl, .scalar hdecode⟩
      · rename_i kind hdecode
        cases h
        refine .record _ ⟨rfl, fun haccepts => ?_⟩
        obtain ⟨scalar, hscalar⟩ := accepts_scalar_iff.mp haccepts
        cases hdecode.symm.trans hscalar
  | literal tag =>
      simp only [Check.type] at h
      split at h
      · rename_i hstring
        cases h
        obtain rfl := isString_iff.mp hstring
        exact .clean rfl ⟨_, rfl, .literal⟩
      · rename_i hstring
        cases h
        refine .record _ ⟨rfl, fun haccepts => ?_⟩
        exact hstring (isString_iff.mpr (accepts_literal_iff.mp haccepts))
  | array item => exact array_settles hcheck h
  | model m => exact model_settles hcheck h
  | anchor schema => exact anchor_settles hcheck h

omit hcheck in
/-- A check of any depth has found whether the type accepts the value where it ends. -/
theorem upTo_settles (set : ModelSet) (depth : Nat) : Settles set (upTo set depth) := by
  induction depth with
  | zero =>
      intro type value report answer after h
      cases h
  | succ depth ih => exact type_settles ih

end Check

/-- What decoding answers is what the type makes of the value. -/
theorem ModelSet.reads_of_decode {set : ModelSet} {type : Ty} {value : Json} {answer : Instance}
    (h : set.decode type value = .ok answer) : set.Reads type value answer := by
  unfold ModelSet.decode at h
  simp only at h
  split at h
  · rename_i found report hcheck
    split at h
    · cases h
      cases Check.upTo_settles set _ hcheck with
      | clean _ hreads =>
          obtain ⟨_, hfound, hread⟩ := hreads
          cases hfound
          exact hread
      | violated _ _ hnot => cases hnot.1
    · cases h
  · cases h
  · cases h

end OpenApi
