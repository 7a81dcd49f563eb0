-- SUMMARY: Where the violations of a refused value stand, and which part each is from.
import OpenApi.Proofs.Decoding.Places
import OpenApi.Proofs.RoundTrip

/-!
# Places of violations

All violations of a refused value stand at different places, and each place is in the
value. A part that is visited reports what stands at and below its own place, and no
other part does. So a union without tags and an anchor report one violation where they
refuse a value, whatever their alternatives find wrong with it, and a field that may be
left out reports none.
-/

namespace OpenApi

/-! ## Violations from a place on -/

/-- The violations at a place and below it. -/
def violationsFrom (place : Path) (found : List Violation) : List Violation :=
  found.filter fun violation => place.isPrefixOf violation.path

section From

variable {segment : Segment} {place : Path} {found more : List Violation}

theorem violationsFrom_root : violationsFrom [] found = found := by
  simp [violationsFrom]

theorem violationsFrom_append :
    violationsFrom place (found ++ more) = violationsFrom place found ++ violationsFrom place more :=
  List.filter_append ..

theorem violationsFrom_inside :
    violationsFrom (segment :: place) (found.map (·.inside segment)) =
      (violationsFrom place found).map (·.inside segment) := by
  rw [violationsFrom, violationsFrom, List.filter_map]
  congr 2
  funext violation
  simp

theorem violationsFrom_eq_nil (h : ∀ violation ∈ found, ∀ rest, violation.path ≠ segment :: rest) :
    violationsFrom (segment :: place) found = [] := by
  rw [violationsFrom, List.filter_eq_nil_iff]
  intro violation hmem hprefix
  obtain ⟨rest, hrest⟩ := List.isPrefixOf_iff_prefix.mp hprefix
  exact h violation hmem (place ++ rest) hrest.symm

end From

namespace ModelSet

/-! ## Visited parts -/

variable (set : ModelSet)

/-- A check visits the parts of a value that report for themselves: items, the values of fields,
and the alternative that a tag selects. Alternatives that are tried and defaults do not. -/
inductive Visits : Ty → Json → Path → Ty → Json → Prop where
  | here {type : Ty} {value : Json} : Visits type value [] type value
  | item {item last : Ty} {values : List Json} {place : Nat} {value inner : Json} {rest : Path} :
      values[place]? = some value → Visits item value rest last inner →
        Visits (.array item) (.arr values) (.index place :: rest) last inner
  | field {m : ModelId} {fields : List Field} {members : Keyed Json} {field : Field}
      {value inner : Json} {rest : Path} {last : Ty} :
      (set.model m).shape = .object fields → field ∈ fields →
        members.get? field.name = some value → (field.required = false → value ≠ .null) →
        field.Permits value → Visits field.type value rest last inner →
        Visits (.model m) (.obj members) (.field field.name :: rest) last inner
  | tagged {m : ModelId} {alternatives : List Ty} {discriminator : Option Discriminator}
      {tags : Keyed Nat} {selector : Discriminator} {members : Keyed Json} {tag : String}
      {index : Nat} {type last : Ty} {inner : Json} {rest : Path} :
      (set.model m).shape = .union alternatives discriminator tags →
        (set.model m).taggedBy = some selector →
        members.get? selector.property = some (.str tag) → tags.get? tag = some index →
        alternatives[index]? = some type → Visits type (.obj members) rest last inner →
        Visits (.model m) (.obj members) rest last inner

variable {set}

/-! ## What parts report -/

theorem Reports.of_array {item : Ty} {values : List Json} {found : List Violation}
    (h : set.Reports (.array item) (.arr values) found) : set.ReportsItems item 0 values found := by
  cases h with
  | array hitems => exact hitems
  | refused hrefuses =>
      cases hrefuses with
      | array hother => exact absurd rfl (hother values)

theorem Reports.of_object {m : ModelId} {fields : List Field} {members : Keyed Json}
    {found : List Violation} (hshape : (set.model m).shape = .object fields)
    (h : set.Reports (.model m) (.obj members) found) :
    ∃ own, set.ReportsFields members fields own ∧
      found = own ++ (set.model m).undeclaredKeys members := by
  have hnone : (set.model m).taggedBy = none := by simp [Model.taggedBy, hshape]
  cases h with
  | object hshape' hfields =>
      cases hshape.symm.trans hshape'
      exact ⟨_, hfields, rfl⟩
  | refused hrefuses =>
      cases hrefuses with
      | object _ hother => exact absurd rfl (hother members)
      | tagged hby => cases hnone.symm.trans hby
      | untagged hshape' => cases hshape.symm.trans hshape'
  | unselected hshape' => cases hshape.symm.trans hshape'
  | tagged hshape' => cases hshape.symm.trans hshape'
  | untagged hshape' => cases hshape.symm.trans hshape'

theorem Reports.of_tagged {m : ModelId} {alternatives : List Ty}
    {discriminator : Option Discriminator} {tags : Keyed Nat} {selector : Discriminator}
    {members : Keyed Json} {tag : String} {index : Nat} {type : Ty} {found : List Violation}
    (hshape : (set.model m).shape = .union alternatives discriminator tags)
    (hby : (set.model m).taggedBy = some selector)
    (hmember : members.get? selector.property = some (.str tag))
    (htag : tags.get? tag = some index) (htype : alternatives[index]? = some type)
    (h : set.Reports (.model m) (.obj members) found) : set.Reports type (.obj members) found := by
  cases h with
  | tagged hshape' hby' hmember' htag' htype' hreports =>
      cases hshape.symm.trans hshape'
      cases hby.symm.trans hby'
      cases hmember.symm.trans hmember'
      cases htag.symm.trans htag'
      cases htype.symm.trans htype'
      exact hreports
  | refused hrefuses =>
      cases hrefuses with
      | object hshape' => cases hshape.symm.trans hshape'
      | tagged _ hother => exact absurd rfl (hother members)
      | untagged _ hby' => cases hby.symm.trans hby'
  | object hshape' => cases hshape.symm.trans hshape'
  | unselected hshape' hby' hselect =>
      cases hshape.symm.trans hshape'
      cases hby.symm.trans hby'
      simp [Check.select, hmember, htag] at hselect
  | untagged _ hby' => cases hby.symm.trans hby'

/-- A union without tags that refuses a value reports this alone. -/
theorem Reports.of_untagged {m : ModelId} {alternatives : List Ty}
    {discriminator : Option Discriminator} {tags : Keyed Nat} {value : Json}
    {found : List Violation}
    (hshape : (set.model m).shape = .union alternatives discriminator tags)
    (hby : (set.model m).taggedBy = none) (hrefused : ¬ set.Accepts (.model m) value)
    (h : set.Reports (.model m) value found) :
    found = [⟨[], .noMatchingAlternative (set.model m).name alternatives.length⟩] := by
  cases h with
  | refused hrefuses =>
      cases hrefuses with
      | object hshape' => cases hshape.symm.trans hshape'
      | tagged hby' => cases hby.symm.trans hby'
      | untagged hshape' =>
          cases hshape.symm.trans hshape'
          rfl
  | object hshape' => cases hshape.symm.trans hshape'
  | unselected _ hby' => cases hby.symm.trans hby'
  | tagged _ hby' => cases hby.symm.trans hby'
  | untagged _ _ haccepts => exact absurd haccepts hrefused

/-- An anchor that refuses a value reports this alone. -/
theorem Reports.of_anchor {schema : SchemaId} {value : Json} {found : List Violation}
    (hrefused : ¬ set.Accepts (.anchor schema) value)
    (h : set.Reports (.anchor schema) value found) :
    ∃ kind, found = [⟨[], kind⟩] ∧ set.Refuses (.anchor schema) value kind := by
  cases h with
  | refused hrefuses => exact ⟨_, rfl, hrefuses⟩
  | anchor haccepts => exact absurd haccepts hrefused

/-- What fields report from the place of one of them on is what that one reports. -/
theorem ReportsFields.violationsFrom_field {members : Keyed Json} {field : Field} :
    ∀ {fields : List Field} {found : List Violation}, ReportsFields set members fields found →
      (fields.map (·.name)).Nodup → field ∈ fields →
      ∃ own, set.ReportsField members field own ∧
        ∀ rest, violationsFrom (.field field.name :: rest) found =
          violationsFrom (.field field.name :: rest) own
  | _, _, .nil, _, hmem => by cases hmem
  | _, _, @ReportsFields.cons _ _ next rest first more hfirst hrest, hnodup, hmem => by
      rw [List.map_cons, List.nodup_cons] at hnodup
      rcases List.mem_cons.mp hmem with rfl | hmem
      · refine ⟨first, hfirst, fun place => ?_⟩
        have hmore : violationsFrom (.field field.name :: place) more = [] := by
          refine violationsFrom_eq_nil fun violation hviolation path heq => ?_
          obtain ⟨other, hother, _, hpath⟩ := hrest.path_eq violation hviolation
          have hname := Segment.field.inj (List.cons.inj (hpath.symm.trans heq)).1
          exact hnodup.1 (hname ▸ List.mem_map_of_mem hother)
        rw [violationsFrom_append, hmore, List.append_nil]
      · obtain ⟨own, hown, heq⟩ := hrest.violationsFrom_field hnodup.2 hmem
        refine ⟨own, hown, fun place => ?_⟩
        have hnext : violationsFrom (.field field.name :: place) first = [] := by
          refine violationsFrom_eq_nil fun violation hviolation path heq => ?_
          obtain ⟨_, hpath⟩ := hfirst.path_eq violation hviolation
          have hname := Segment.field.inj (List.cons.inj (hpath.symm.trans heq)).1
          exact hnodup.1 (hname ▸ List.mem_map_of_mem hmem)
        rw [violationsFrom_append, hnext, List.nil_append, heq]

/-- What items report from the place of one of them on is what that one reports. -/
theorem ReportsItems.violationsFrom_index {item : Ty} {value : Json} :
    ∀ {start index : Nat} {values : List Json} {found : List Violation},
      ReportsItems set item start values found → values[index]? = some value →
      ∃ own, set.Reports item value own ∧
        ∀ rest, violationsFrom (.index (start + index) :: rest) found =
          (violationsFrom rest own).map (·.inside (.index (start + index)))
  | _, _, _, _, .nil, hvalue => by simp at hvalue
  | start, 0, _, _, @ReportsItems.cons _ _ _ _ _ first more hfirst hrest, hvalue => by
      cases hvalue
      refine ⟨first, hfirst, fun place => ?_⟩
      have hmore : violationsFrom (.index start :: place) more = [] := by
        refine violationsFrom_eq_nil fun violation hviolation path heq => ?_
        obtain ⟨index, _, hle, hpath⟩ := hrest.exists_index violation hviolation
        have hindex := Segment.index.inj (List.cons.inj (hpath.symm.trans heq)).1
        omega
      rw [Nat.add_zero, violationsFrom_append, violationsFrom_inside, hmore, List.append_nil]
  | start, index + 1, _, _, @ReportsItems.cons _ _ _ _ _ first more _ hrest, hvalue => by
      rw [List.getElem?_cons_succ] at hvalue
      obtain ⟨own, hown, heq⟩ := hrest.violationsFrom_index hvalue
      have hshift : start + 1 + index = start + (index + 1) := by omega
      refine ⟨own, hown, fun place => ?_⟩
      have hnext : violationsFrom (.index (start + (index + 1)) :: place)
          (first.map (·.inside (.index start))) = [] := by
        refine violationsFrom_eq_nil fun violation hviolation path hpath => ?_
        obtain ⟨inner, -, rfl⟩ := List.mem_map.mp hviolation
        have hindex := Segment.index.inj (List.cons.inj hpath).1
        omega
      rw [violationsFrom_append, hnext, List.nil_append, ← hshift, heq]

/-- A key that a model declares is not reported as undeclared, nor is anything below it. -/
theorem violationsFrom_undeclaredKeys {m : ModelId} {fields : List Field} {field : Field}
    {members : Keyed Json} {rest : Path} (hshape : (set.model m).shape = .object fields)
    (hfield : field ∈ fields) :
    violationsFrom (.field field.name :: rest) ((set.model m).undeclaredKeys members) = [] := by
  refine violationsFrom_eq_nil fun violation hviolation path heq => ?_
  obtain ⟨key, hnone, hpath⟩ := path_of_undeclaredKeys hviolation
  have hname := Segment.field.inj (List.cons.inj (hpath.symm.trans heq)).1
  have hsome : ((set.model m).field field.name).isSome = true := by
    rw [Model.field, List.find?_isSome, Model.fields, hshape]
    exact ⟨field, hfield, beq_self_eq_true _⟩
  rw [hname] at hnone
  exact absurd (hsome.symm.trans hnone) (by simp)

section Named

variable (hnames : set.DistinctFields)
include hnames

/-- What an object reports from the place of a field on is what the field reports. -/
theorem Reports.violationsFrom_field {m : ModelId} {fields : List Field} {field : Field}
    {members : Keyed Json} {found : List Violation}
    (hshape : (set.model m).shape = .object fields) (hfield : field ∈ fields)
    (h : set.Reports (.model m) (.obj members) found) :
    ∃ own, set.ReportsField members field own ∧
      ∀ rest, violationsFrom (.field field.name :: rest) found =
        violationsFrom (.field field.name :: rest) own := by
  obtain ⟨all, hall, rfl⟩ := h.of_object hshape
  obtain ⟨own, hown, heq⟩ := hall.violationsFrom_field (hnames m fields hshape) hfield
  refine ⟨own, hown, fun rest => ?_⟩
  rw [violationsFrom_append, heq, violationsFrom_undeclaredKeys hshape hfield, List.append_nil]

/-- From the place of a visited part on, exactly what the part reports is reported. -/
theorem Visits.violationsFrom {type last : Ty} {value inner : Json} {place : Path}
    (hvisits : set.Visits type value place last inner) {found : List Violation}
    (h : set.Reports type value found) :
    ∃ own, set.Reports last inner own ∧
      ∀ rest, OpenApi.violationsFrom (place ++ rest) found =
        (OpenApi.violationsFrom rest own).map (·.below place) := by
  induction hvisits generalizing found with
  | here => exact ⟨found, h, fun rest => by simp⟩
  | item hvalue _ ih =>
      obtain ⟨own, hown, heq⟩ := h.of_array.violationsFrom_index hvalue
      obtain ⟨lastOwn, hlast, hrest⟩ := ih hown
      refine ⟨lastOwn, hlast, fun rest => ?_⟩
      rw [Nat.zero_add] at heq
      rw [List.cons_append, heq, hrest, List.map_map]
      rfl
  | field hshape hfield hmember hheld hpermits _ ih =>
      obtain ⟨own, hown, heq⟩ := h.violationsFrom_field hnames hshape hfield
      cases hown with
      | missing hnone => cases hnone.symm.trans hmember
      | leftOut hnone => cases hnone.symm.trans hmember
      | skipped hnull hopt =>
          cases hnull.symm.trans hmember
          exact absurd rfl (hheld hopt)
      | outside hmember' _ hnot =>
          cases hmember'.symm.trans hmember
          exact absurd hpermits hnot
      | given hmember' _ _ hreports =>
          cases hmember'.symm.trans hmember
          obtain ⟨lastOwn, hlast, hrest⟩ := ih hreports
          refine ⟨lastOwn, hlast, fun rest => ?_⟩
          rw [List.cons_append, heq, violationsFrom_inside, hrest, List.map_map]
          rfl
  | tagged hshape hby hmember htag htype _ ih =>
      exact ih (h.of_tagged hshape hby hmember htag htype)

/-- A visited part that reports one violation at its own place is reported for this alone. -/
theorem Visits.violationsFrom_eq {type last : Ty} {value inner : Json} {place : Path}
    (hvisits : set.Visits type value place last inner) {found : List Violation}
    (h : set.Reports type value found) {P : ViolationKind → Prop}
    (hlast : ∀ own, set.Reports last inner own → ∃ kind, own = [⟨[], kind⟩] ∧ P kind) :
    ∃ kind, OpenApi.violationsFrom place found = [⟨place, kind⟩] ∧ P kind := by
  obtain ⟨own, hown, heq⟩ := hvisits.violationsFrom hnames h
  obtain ⟨kind, rfl, hkind⟩ := hlast own hown
  have hfrom := heq []
  rw [List.append_nil, violationsFrom_root] at hfrom
  exact ⟨kind, by simpa [Violation.below] using hfrom, hkind⟩

/-- A field that may be left out is reported for nothing where it is. -/
theorem Visits.violationsFrom_leftOut {type : Ty} {value : Json} {place : Path} {m : ModelId}
    {members : Keyed Json} (hvisits : set.Visits type value place (.model m) (.obj members))
    {found : List Violation} (h : set.Reports type value found) {field : Field}
    (hfield : field ∈ (set.model m).fields) (hopt : field.required = false)
    (hnone : members.get? field.name = none) :
    OpenApi.violationsFrom (place ++ [.field field.name]) found = [] := by
  cases hshape : (set.model m).shape with
  | union => simp [Model.fields, hshape] at hfield
  | object fields =>
      rw [Model.fields, hshape] at hfield
      obtain ⟨own, hown, heq⟩ := hvisits.violationsFrom hnames h
      obtain ⟨fieldOwn, hfieldOwn, hrest⟩ := hown.violationsFrom_field hnames hshape hfield
      rw [heq, hrest]
      cases hfieldOwn with
      | missing _ hrequired => cases hopt.symm.trans hrequired
      | leftOut => rfl
      | skipped hnull => cases hnone.symm.trans hnull
      | outside hmember => cases hnone.symm.trans hmember
      | given hmember => cases hnone.symm.trans hmember

end Named

/-! ## Refused values -/

variable (set) in
/-- The violations say where a value is wrong: each at a place of its own in the value. A union
without tags and an anchor that refuse a part are reported for this alone, and a field that may be
left out for nothing. -/
structure Pinpoints (type : Ty) (value : Json) (violations : List Violation) : Prop where
  nonempty : violations ≠ []
  different : AtDifferentPlaces violations
  located : ∀ violation ∈ violations, violation.Located value
  untagged : ∀ {place m inner failure alternatives discriminator tags},
    set.Visits type value place (.model m) inner →
    (set.model m).shape = .union alternatives discriminator tags →
    (set.model m).taggedBy = none → set.decode (.model m) inner = .error (.failed failure) →
    violationsFrom place violations =
      [⟨place, .noMatchingAlternative (set.model m).name alternatives.length⟩]
  anchor : ∀ {place schema inner failure}, set.Visits type value place (.anchor schema) inner →
    set.decode (.anchor schema) inner = .error (.failed failure) →
    ∃ kind, violationsFrom place violations = [⟨place, kind⟩] ∧
      set.Refuses (.anchor schema) inner kind
  leftOut : ∀ {place m members field}, set.Visits type value place (.model m) (.obj members) →
    field ∈ (set.model m).fields → field.required = false →
    Keyed.get? members field.name = none →
    violationsFrom (place ++ [.field field.name]) violations = []

theorem DistinctFields.pinpoints (hnames : set.DistinctFields) {type : Ty} {value : Json}
    (hvalue : value.Distinct) {failure : Failure}
    (h : set.decode type value = .error (.failed failure)) :
    set.Pinpoints type value failure.violations := by
  obtain ⟨hreports, hne, -⟩ := reports_of_decode h
  refine ⟨hne, hreports.atDifferentPlaces hnames hvalue, hreports.located, ?_, ?_, ?_⟩
  · intro place m inner failure alternatives discriminator tags hvisits hshape hby hfails
    obtain ⟨-, -, hrefused⟩ := reports_of_decode hfails
    obtain ⟨kind, heq, rfl⟩ := hvisits.violationsFrom_eq hnames hreports
      (fun own hown => ⟨_, hown.of_untagged hshape hby hrefused, rfl⟩)
    exact heq
  · intro place schema inner failure hvisits hfails
    obtain ⟨-, -, hrefused⟩ := reports_of_decode hfails
    exact hvisits.violationsFrom_eq hnames hreports fun own hown => hown.of_anchor hrefused
  · intro place m members field hvisits hfield hopt hnone
    exact hvisits.violationsFrom_leftOut hnames hreports hfield hopt hnone

end ModelSet

namespace Document

variable {doc : Document} {set : ModelSet}

/-- A compiled set that refuses a value says where the value is wrong. -/
theorem compile_decode_pinpoints (hdistinct : doc.DistinctProperties) (h : doc.compile = .ok set)
    {type : Ty} {value : Json} (hvalue : value.Distinct) {failure : Failure}
    (hdecode : set.decode type value = .error (.failed failure)) :
    set.Pinpoints type value failure.violations :=
  (compile_distinctFields hdistinct h).pinpoints hvalue hdecode

/-! ## An order that is refused -/

/-- Orders with lines that are numbers or texts, and a note that may be left out. -/
def orders : Document where
  dialect := .openApi30
  schemas := #[
    { dialect := .openApi30, identity := some "Order", type := some .object, required := ["id"]
      properties := [("id", { id := 2 }), ("lines", { id := 3 }), ("note", { id := 4 })] },
    { dialect := .openApi30, identity := some "Line", anyOf := [{ id := 2 }, { id := 5 }] },
    { dialect := .openApi30, identity := some "Order.id", type := some .integer },
    { dialect := .openApi30, identity := some "Order.lines", type := some .array
      items := some { id := 1, reference := some "#/components/schemas/Line" } },
    { dialect := .openApi30, identity := some "Order.note", type := some .string
      default := some (.num (.int 0)) },
    { dialect := .openApi30, identity := some "Line.anyOf.1", type := some .string }]
  named := [("Order", 0), ("Line", 1)]

/-- The models of `orders`. -/
def ordersModels : ModelSet where
  models := #[
    { name := "Order", schema := 0
      shape := .object [
        { name := "id", type := .scalar .integer, required := true },
        { name := "lines", type := .array (.model 1) },
        { name := "note", type := .scalar .text, default := some (.num (.int 0)) }] },
    { name := "Line", schema := 1, shape := .union [.scalar .integer, .scalar .text] none [] }]
  bySchema := [(1, 1), (0, 0)]
  roots := [("Order", some (.model 0)), ("Line", some (.model 1))]

set_option maxRecDepth 2000 in
theorem orders_compile : orders.compile = .ok ordersModels := by rfl

/-- An order without a number, with a line that is neither number nor text, and with a date. -/
def faultyOrder : Json := .obj [("date", .null), ("lines", .arr [.str "a", .bool true])]

/-- What is wrong with the order. -/
def orderViolations : List Violation := [
  ⟨[.field "id"], .missingField⟩,
  ⟨[.field "lines", .index 1], .noMatchingAlternative "Line" 2⟩,
  ⟨[.field "date"], .unexpectedField "Order"⟩]

theorem faultyOrder_distinct : faultyOrder.Distinct := by
  refine .obj (by decide) ?_
  simp only [List.forall_mem_cons]
  refine ⟨.null, .arr ?_, by simp⟩
  simp only [List.forall_mem_cons]
  exact ⟨.str "a", .bool true, by simp⟩

/-- The default of the note is no text, but that is not reported. -/
theorem orders_decode_pinpoints :
    orders.DistinctProperties ∧ orders.compile = .ok ordersModels ∧ faultyOrder.Distinct ∧
      ordersModels.decode (.model 0) faultyOrder =
        .error (.failed { target := "Order", violations := orderViolations }) ∧
      ordersModels.Pinpoints (.model 0) faultyOrder orderViolations := by
  have hdistinct : orders.DistinctProperties := by simp [DistinctProperties, orders, Keyed.keys]
  have hdecode : ordersModels.decode (.model 0) faultyOrder =
      .error (.failed { target := "Order", violations := orderViolations }) := by rfl
  exact ⟨hdistinct, orders_compile, faultyOrder_distinct, hdecode,
    compile_decode_pinpoints hdistinct orders_compile faultyOrder_distinct hdecode⟩

end Document
end OpenApi
