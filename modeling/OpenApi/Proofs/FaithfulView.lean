-- SUMMARY: Sets with one view accept the same values, but for unions whose tags select nothing.
import OpenApi.Proofs.DecodingContract
import OpenApi.Proofs.Json.Compact
import OpenApi.Proofs.Model.View
import OpenApi.Proofs.RoundTrip

/-!
# What the view does not show

A view shows the mapping of a discriminator by the alternatives that its tags select, and
shows no mapping where they select none. A union with a mapping is told apart by tags all
the same: if its tags select nothing, it refuses every value. Without the mapping the view is
the same, and the union accepts what its alternatives accept. This is all that two sets with
one view may differ in.
-/

namespace OpenApi

namespace ModelSet

variable {set set' : ModelSet}

/-- Values of a model are told apart by tags in both sets, or in neither. -/
def SameDispatch (set set' : ModelSet) (m : ModelId) : Prop :=
  (set.model m).taggedBy.isSome = (set'.model m).taggedBy.isSome

/-- A model accepts no value. -/
def Vacant (set : ModelSet) (m : ModelId) : Prop := ∀ value, ¬ set.Accepts (.model m) value

/-- A discriminator by whose tags a value selects an alternative has a mapping. -/
def TagsMapped (set : ModelSet) : Prop :=
  ∀ m alternatives discriminator tags,
    (set.model m).shape = .union alternatives (some discriminator) tags → tags ≠ [] →
      discriminator.isTagged = true

/-! ## Shapes that are shown alike -/

/-- Entries at one place stand beside each other. -/
theorem exists_getElem? {α β : Type} {R : α → β → Prop} {xs : List α} {ys : List β}
    (h : List.Forall₂ R xs ys) {place : Nat} {x : α} (hx : xs[place]? = some x) :
    ∃ y, ys[place]? = some y ∧ R x y := by
  induction h generalizing place with
  | nil => cases hx
  | cons hfirst _ ih =>
      cases place with
      | zero =>
          cases hx
          exact ⟨_, rfl, hfirst⟩
      | succ place => exact ih hx

theorem isSome_field_iff {model : Model} {fields : List Field}
    (hshape : model.shape = .object fields) (key : String) :
    (model.field key).isSome ↔ key ∈ fields.map (·.name) := by
  simp [Model.field, Model.fields, hshape, List.find?_isSome]

/-- Fields that are shown alike declare the same keys. -/
theorem declares_of_sameFields {model model' : Model} {fields fields' : List Field}
    {members : Keyed Json} (hdeclared : model.Declares members)
    (hshape : model.shape = .object fields) (hshape' : model'.shape = .object fields')
    (hsame : List.Forall₂ (SameField set set') fields fields') : model'.Declares members := by
  intro key hkey
  obtain ⟨field, hfield, hname⟩ :=
    List.mem_map.mp ((isSome_field_iff hshape key).mp (hdeclared key hkey))
  obtain ⟨field', hfield', heq⟩ := exists_of_mem_left hsame hfield
  exact (isSome_field_iff hshape' key).mpr
    (List.mem_map.mpr ⟨field', hfield', heq.name.symm.trans hname⟩)

theorem taggedBy_eq_some_iff {model : Model} {alternatives : List Ty}
    {discriminator : Option Discriminator} {tags : Keyed Nat}
    (hshape : model.shape = .union alternatives discriminator tags) {selector : Discriminator} :
    model.taggedBy = some selector ↔ discriminator = some selector ∧ selector.isTagged = true := by
  simp [Model.taggedBy, hshape, Option.filter_eq_some_iff]

theorem SameModels.exists_fields (h : set.SameModels set') {m : ModelId} {fields : List Field}
    (hshape : (set.model m).shape = .object fields) :
    ∃ fields', (set'.model m).shape = .object fields' ∧
      List.Forall₂ (SameField set set') fields fields' := by
  have hsame := h m
  rw [hshape] at hsame
  generalize (set'.model m).shape = shape' at hsame
  cases hsame with
  | object hfields => exact ⟨_, rfl, hfields⟩

theorem SameModels.exists_union (h : set.SameModels set') {m : ModelId} {alternatives : List Ty}
    {discriminator : Option Discriminator} {tags : Keyed Nat}
    (hshape : (set.model m).shape = .union alternatives discriminator tags) :
    ∃ alternatives' discriminator' tags',
      (set'.model m).shape = .union alternatives' discriminator' tags' ∧
      List.Forall₂ (SameType set set') alternatives alternatives' ∧
      discriminator.map (·.property) = discriminator'.map (·.property) ∧
      (discriminator.isSome → tags = tags') := by
  have hsame := h m
  rw [hshape] at hsame
  generalize (set'.model m).shape = shape' at hsame
  cases hsame with
  | union halternatives hproperty htags => exact ⟨_, _, _, rfl, halternatives, hproperty, htags⟩

theorem SameDispatch.taggedBy_eq_none {m : ModelId} (h : set.SameDispatch set' m)
    (hby : (set.model m).taggedBy = none) : (set'.model m).taggedBy = none := by
  rwa [SameDispatch, hby, Option.isSome_none, eq_comm, Option.isSome_eq_false_iff,
    Option.isNone_iff_eq_none] at h

/-- A union that is told apart by tags has the same tags in both sets. -/
theorem SameModels.exists_tagged (h : set.SameModels set') {m : ModelId} {alternatives : List Ty}
    {discriminator : Option Discriminator} {tags : Keyed Nat} {selector : Discriminator}
    (hshape : (set.model m).shape = .union alternatives discriminator tags)
    (hby : (set.model m).taggedBy = some selector) (hsame : set.SameDispatch set' m) :
    ∃ alternatives' discriminator' selector',
      (set'.model m).shape = .union alternatives' discriminator' tags ∧
      (set'.model m).taggedBy = some selector' ∧ selector.property = selector'.property ∧
      List.Forall₂ (SameType set set') alternatives alternatives' := by
  obtain ⟨alternatives', discriminator', tags', hshape', htypes, hproperty, htags⟩ :=
    h.exists_union hshape
  obtain ⟨rfl, -⟩ := (taggedBy_eq_some_iff hshape).mp hby
  rw [SameDispatch, hby, Option.isSome_some, eq_comm, Option.isSome_iff_exists] at hsame
  obtain ⟨selector', hby'⟩ := hsame
  obtain ⟨rfl, -⟩ := (taggedBy_eq_some_iff hshape').mp hby'
  obtain rfl := htags rfl
  exact ⟨_, _, selector', hshape', hby', Option.some.inj hproperty, htypes⟩

/-! ## Acceptance -/

mutual

/-- What one set accepts is accepted by another that is shown alike, if a union accepts nothing
where only one of the sets tells its values apart by tags. -/
theorem Accepts.sameType (hmodels : set.SameModels set')
    (hdispatch : ∀ m, set.SameDispatch set' m ∨ set.Vacant m) {type type' : Ty} {value : Json} :
    Accepts set type value → SameType set set' type type' → Accepts set' type' value
  | .scalar hdecode, hsame => by
      cases hsame
      exact .scalar hdecode
  | .literal, hsame => by
      cases hsame
      exact .literal
  | .array hitems, hsame => by
      cases hsame with
      | array hitem =>
          exact .array fun value hmem => (hitems value hmem).sameType hmodels hdispatch hitem
  | .object hshape hfields hdeclared, hsame => by
      cases hsame
      obtain ⟨fields', hshape', hsame⟩ := hmodels.exists_fields hshape
      have hdeclared' := declares_of_sameFields hdeclared hshape hshape' hsame
      refine .object hshape' (fun field' hmem' => ?_) hdeclared'
      obtain ⟨field, hmem, hfield⟩ := exists_of_mem_right hsame hmem'
      exact (hfields field hmem).sameField hmodels hdispatch hfield
  | .tagged hshape hby hmember htag htype haccepts, hsame => by
      cases hsame
      have hsame := (hdispatch _).resolve_right fun hvacant =>
        hvacant _ (.tagged hshape hby hmember htag htype haccepts)
      obtain ⟨alternatives', discriminator', selector', hshape', hby', hproperty, htypes⟩ :=
        hmodels.exists_tagged hshape hby hsame
      obtain ⟨type', hmem', htype'⟩ := exists_getElem? htypes htype
      exact .tagged hshape' hby' (hproperty ▸ hmember) htag hmem'
        (haccepts.sameType hmodels hdispatch htype')
  | .untagged hshape hby hmem haccepts, hsame => by
      cases hsame
      have hsame := (hdispatch _).resolve_right fun hvacant =>
        hvacant _ (.untagged hshape hby hmem haccepts)
      obtain ⟨alternatives', discriminator', tags', hshape', htypes, -, -⟩ :=
        hmodels.exists_union hshape
      obtain ⟨type', hmem', htype⟩ := exists_of_mem_left htypes hmem
      exact .untagged hshape' (hsame.taggedBy_eq_none hby) hmem'
        (haccepts.sameType hmodels hdispatch htype)
  | .anchor hanchor hmem haccepts, hsame => by
      cases hsame with
      | anchor hvariants =>
          rw [hanchor, Option.map_some, eq_comm, Option.map_eq_some_iff] at hvariants
          obtain ⟨anchor', hanchor', heq⟩ := hvariants
          exact .anchor hanchor' (heq ▸ hmem) (haccepts.sameType hmodels hdispatch (.model _))
termination_by structural h => h

theorem AcceptsField.sameField (hmodels : set.SameModels set')
    (hdispatch : ∀ m, set.SameDispatch set' m ∨ set.Vacant m) {members : Keyed Json}
    {field field' : Field} :
    AcceptsField set members field → SameField set set' field field' →
      AcceptsField set' members field'
  | .leftOut hnone hopt, hsame =>
      .leftOut (hsame.name ▸ hnone) (hsame.required ▸ hopt)
  | .skipped hnull hopt, hsame => .skipped (hsame.name ▸ hnull) (hsame.required ▸ hopt)
  | .given hsome hpermits haccepts, hsame => by
      refine .given (hsame.name ▸ hsome) (fun permitted henum => ?_)
        (haccepts.sameType hmodels hdispatch hsame.type)
      exact hpermits permitted (hsame.enum.trans henum)
termination_by structural h => h

end

/-- A union whose tags select nothing accepts nothing if its values are told apart by them. -/
theorem vacant_of_isTagged {m : ModelId} {alternatives : List Ty} {discriminator : Discriminator}
    (hshape : (set.model m).shape = .union alternatives (some discriminator) [])
    (htagged : discriminator.isTagged = true) : set.Vacant m := by
  intro value haccepts
  have hby := (taggedBy_eq_some_iff hshape).mpr ⟨rfl, htagged⟩
  obtain ⟨_, -, _, _, _, -, htag, -⟩ := (accepts_tagged_iff hshape hby).mp haccepts
  cases htag

/-- Where unions accept nothing unless both sets tell their values apart alike, two sets that are
shown alike accept the same values. -/
theorem accepts_iff_of_sameType (hmodels : set.SameModels set') (hmodels' : set'.SameModels set)
    (hdispatch : ∀ m, set.SameDispatch set' m ∨ set.Vacant m ∧ set'.Vacant m) {type type' : Ty}
    {value : Json} (h : set.SameType set' type type') (h' : set'.SameType set type' type) :
    set.Accepts type value ↔ set'.Accepts type' value where
  mp haccepts := haccepts.sameType hmodels (fun m => (hdispatch m).imp_right (·.1)) h
  mpr haccepts := haccepts.sameType hmodels' (fun m => (hdispatch m).imp Eq.symm (·.2)) h'

/-- If a model of one set tells its values apart by tags and that of the other does not, then both
are unions with a discriminator, and the mapping that one of them has selects nothing. -/
theorem SameModels.shapes_of_not_sameDispatch (h : set.SameModels set') (hmapped : set.TagsMapped)
    (hmapped' : set'.TagsMapped) {m : ModelId} (hdiffer : ¬ set.SameDispatch set' m) :
    ∃ alternatives alternatives' discriminator discriminator',
      (set.model m).shape = .union alternatives (some discriminator) [] ∧
      (set'.model m).shape = .union alternatives' (some discriminator') [] ∧
      discriminator.property = discriminator'.property ∧
      discriminator.isTagged ≠ discriminator'.isTagged := by
  have hsame := h m
  have hmapped := hmapped m
  have hmapped' := hmapped' m
  unfold SameDispatch Model.taggedBy at hdiffer
  generalize (set.model m).shape = shape at hsame hmapped hdiffer
  generalize (set'.model m).shape = shape' at hsame hmapped' hdiffer
  cases hsame with
  | object => exact absurd rfl hdiffer
  | @union alternatives alternatives' discriminator discriminator' tags tags' _ hproperty htags =>
      cases discriminator with
      | none =>
          obtain rfl : discriminator' = none := by simpa [eq_comm] using hproperty
          exact absurd rfl hdiffer
      | some discriminator =>
          obtain ⟨discriminator', rfl, hkey⟩ : ∃ d, discriminator' = some d ∧
              discriminator.property = d.property := by
            simpa [eq_comm] using hproperty
          obtain rfl := htags rfl
          have htagged : discriminator.isTagged ≠ discriminator'.isTagged := by
            simpa [Option.filter_some, apply_ite Option.isSome] using hdiffer
          obtain rfl : tags = [] := by
            by_contra hne
            exact htagged ((hmapped _ _ _ rfl hne).trans (hmapped' _ _ _ rfl hne).symm)
          exact ⟨_, _, _, _, rfl, rfl, hkey, htagged⟩

end ModelSet

namespace Document

variable {doc doc' : Document} {set set' : ModelSet}

/-- The tags of a compiled union come from the mapping of its discriminator. -/
theorem compile_tagsMapped (h : doc.compile = .ok set) : set.TagsMapped := by
  intro m alternatives discriminator tags hshape htags
  obtain ⟨found, -, heq⟩ := ModelSet.isUnion_model (compile_wellFormed h) hshape
  obtain ⟨-, hdiscriminator, hmapped⟩ := Shape.union.inj (hshape.symm.trans heq)
  rw [Discriminator.isTagged, Option.isSome_iff_ne_none]
  intro hnone
  apply htags
  rw [hmapped, Schema.mapping, ← hdiscriminator, Option.bind_some, hnone]
  rfl

/-- Two documents with one view have roots of the same names. A union may be told apart by tags in
one of them alone only if its tags select nothing. If no such union accepts a value in either, then
all models accept the same values in both, and only then; and decoding under a root, where it ends
in both, succeeds in both or in neither. -/
theorem compile_view (hdistinct : doc.DistinctProperties) (hdistinct' : doc'.DistinctProperties)
    (h : doc.compile = .ok set) (h' : doc'.compile = .ok set')
    (hview : set.view.compact = set'.view.compact) :
    (∀ name, (set.root name).isSome = (set'.root name).isSome) ∧
    (∀ m, ¬ set.SameDispatch set' m →
      ∃ alternatives alternatives' discriminator discriminator',
        (set.model m).shape = .union alternatives (some discriminator) [] ∧
        (set'.model m).shape = .union alternatives' (some discriminator') [] ∧
        discriminator.property = discriminator'.property ∧
        discriminator.isTagged ≠ discriminator'.isTagged) ∧
    ((∀ m, set.SameDispatch set' m ∨ set.Vacant m ∧ set'.Vacant m) ↔
      ∀ m value, set.Accepts (.model m) value ↔ set'.Accepts (.model m) value) ∧
    ((∀ m, set.SameDispatch set' m ∨ set.Vacant m ∧ set'.Vacant m) →
      ∀ name type type', set.root name = some type → set'.root name = some type' →
        ∀ value, set.Terminates type value → set'.Terminates type' value →
          ((∃ answer, set.decode type value = .ok answer) ↔
            ∃ answer, set'.decode type' value = .ok answer)) := by
  have heq := Json.compact_injective hview
  have hfields := compile_distinctFields hdistinct h
  have hfields' := compile_distinctFields hdistinct' h'
  have hmodels := ModelSet.sameModels_of_view hfields hfields' heq
  have hmodels' := ModelSet.sameModels_of_view hfields' hfields heq.symm
  have hdiffer := fun m => hmodels.shapes_of_not_sameDispatch (m := m)
    (compile_tagsMapped h) (compile_tagsMapped h')
  refine ⟨fun name => ?_, hdiffer, ⟨fun hdispatch m value => ?_, fun haccepts m => ?_⟩, ?_⟩
  · generalize hroot : set.root name = root
    generalize hroot' : set'.root name = root'
    have hsame := ModelSet.sameRoot_of_view heq name
    rw [hroot, hroot'] at hsame
    cases hsame <;> rfl
  · exact ModelSet.accepts_iff_of_sameType hmodels hmodels' hdispatch (.model m) (.model m)
  · refine or_iff_not_imp_left.mpr fun hother => ?_
    obtain ⟨_, _, discriminator, discriminator', hshape, hshape', -, htagged⟩ := hdiffer m hother
    -- The one of the two that has a mapping refuses every value, and so does the other.
    cases hone : discriminator.isTagged with
    | true =>
        have hvacant := ModelSet.vacant_of_isTagged hshape hone
        exact ⟨hvacant, fun value h => hvacant value ((haccepts m value).mpr h)⟩
    | false =>
        have hvacant := ModelSet.vacant_of_isTagged hshape' (by simpa [hone] using htagged.symm)
        exact ⟨fun value h => hvacant value ((haccepts m value).mp h), hvacant⟩
  · intro hdispatch name type type' hroot hroot' value hends hends'
    have hsame := ModelSet.sameRoot_of_view heq name
    have hsame' := ModelSet.sameRoot_of_view heq.symm name
    rw [hroot, hroot'] at hsame hsame'
    rw [((compile_decode h).2 type value hends).1, ((compile_decode h').2 type' value hends').1]
    cases hsame with
    | some hsame =>
        cases hsame' with
        | some hsame' =>
            exact ModelSet.accepts_iff_of_sameType hmodels hmodels' hdispatch hsame hsame'

/-! ## Mappings that the view does not show -/

/-- A hierarchy of one variant, whose mapping may write the variant in several ways. -/
def parcels (box : String) : Document where
  dialect := .openApi30
  schemas := #[
    { dialect := .openApi30, identity := some "Parcel"
      oneOf := [{ id := 1, reference := some "#/components/schemas/Box" }]
      discriminator := some { property := "kind", mapping := some [("box", box)] } },
    { dialect := .openApi30, identity := some "Box", type := some .object
      properties := [("kind", { id := 2 })] },
    { dialect := .openApi30, identity := some "Box.kind", type := some .string }]
  named := [("Parcel", 0), ("Box", 1)]

/-- The models of `parcels`. -/
def parcelsModels (box : String) : ModelSet where
  models := #[
    { name := "Parcel", schema := 0
      shape := .union [.model 1]
        (some { property := "kind", mapping := some [("box", box)] }) [("box", 0)] },
    { name := "Box", schema := 1
      shape := .object [{ name := "kind", type := .literal "box" }] }]
  bySchema := [(1, 1), (0, 0)]
  roots := [("Parcel", some (.model 0)), ("Box", some (.model 1))]

/-- The variant may be written as a reference or by its name: the views are the same, and a value
that one set accepts is accepted by the other. -/
theorem parcels_view :
    ∃ box box' : String, box ≠ box' ∧ (parcels box).DistinctProperties ∧
      (parcels box').DistinctProperties ∧ (parcels box).compile = .ok (parcelsModels box) ∧
      (parcels box').compile = .ok (parcelsModels box') ∧
      (parcelsModels box).view.compact = (parcelsModels box').view.compact ∧
      (∀ m, (parcelsModels box).SameDispatch (parcelsModels box') m) ∧
      (parcelsModels box).Terminates (.model 0) (.obj [("kind", .str "box")]) ∧
      (parcelsModels box').Terminates (.model 0) (.obj [("kind", .str "box")]) ∧
      ∃ answer, (parcelsModels box').decode (.model 0) (.obj [("kind", .str "box")]) =
        .ok answer := by
  have hdistinct : ∀ box, (parcels box).DistinctProperties := by
    simp [DistinctProperties, parcels, Keyed.keys]
  have hcompile : (parcels "#/components/schemas/Box").compile =
      .ok (parcelsModels "#/components/schemas/Box") := rfl
  have hcompile' : (parcels "Box").compile = .ok (parcelsModels "Box") := rfl
  have hview : ∀ box box', (parcelsModels box).view = (parcelsModels box').view :=
    fun _ _ => by
      simp [ModelSet.view, ModelSet.viewModel, ModelSet.viewRoot, ModelSet.viewType,
        ModelSet.shapeMembers, ModelSet.viewDiscriminator, ModelSet.typeMembers,
        ModelSet.linkMembers, ModelSet.viewField, ModelSet.model, ModelSet.anchorsByName,
        parcelsModels]
  have hsame : ∀ box box' m, (parcelsModels box).SameDispatch (parcelsModels box') m := by
    intro box box' m
    rcases m with _ | _ | m <;> rfl
  have hends : ∀ box, (parcelsModels box).Terminates (.model 0) (.obj [("kind", .str "box")]) :=
    fun box => ⟨4, by rfl⟩
  have htext := congrArg Json.compact (hview "#/components/schemas/Box" "Box")
  obtain ⟨-, -, -, haccept⟩ :=
    compile_view (hdistinct _) (hdistinct _) hcompile hcompile' htext
  refine ⟨_, _, by decide, hdistinct _, hdistinct _, hcompile, hcompile', htext, hsame _ _,
    hends _, hends _, ?_⟩
  exact (haccept (fun m => .inl (hsame _ _ m)) "Parcel" _ _ rfl rfl _ (hends _) (hends _)).mp
    ⟨_, rfl⟩

/-- A union of integers with a discriminator, with or without a mapping. -/
def measures (mapping : Option (Keyed String)) : Document where
  dialect := .openApi30
  schemas := #[
    { dialect := .openApi30, identity := some "Measure", oneOf := [{ id := 1 }]
      discriminator := some { property := "kind", mapping } },
    { dialect := .openApi30, identity := some "Measure.oneOf.0", type := some .integer }]
  named := [("Measure", 0)]

/-- The models of `measures` if the mapping selects nothing. -/
def measuresModels (mapping : Option (Keyed String)) : ModelSet where
  models := #[
    { name := "Measure", schema := 0
      shape := .union [.scalar .integer] (some { property := "kind", mapping }) [] }]
  bySchema := [(0, 0)]
  roots := [("Measure", some (.model 0))]

/-- With an empty mapping the view is the one without a mapping; yet an integer is refused with it
and accepted without it. -/
theorem measures_view :
    (measures (some [])).DistinctProperties ∧ (measures none).DistinctProperties ∧
      (measures (some [])).compile = .ok (measuresModels (some [])) ∧
      (measures none).compile = .ok (measuresModels none) ∧
      (measuresModels (some [])).anchors = [] ∧ (measuresModels none).anchors = [] ∧
      (measuresModels (some [])).view.compact = (measuresModels none).view.compact ∧
      (measuresModels (some [])).root "Measure" = some (.model 0) ∧
      (measuresModels none).root "Measure" = some (.model 0) ∧
      (measuresModels (some [])).Terminates (.model 0) (.num (.int 5)) ∧
      (measuresModels none).Terminates (.model 0) (.num (.int 5)) ∧
      (¬ ∃ answer, (measuresModels (some [])).decode (.model 0) (.num (.int 5)) = .ok answer) ∧
      ∃ answer, (measuresModels none).decode (.model 0) (.num (.int 5)) = .ok answer := by
  have hdistinct : ∀ mapping, (measures mapping).DistinctProperties := by
    simp [DistinctProperties, measures, Keyed.keys]
  have hview : (measuresModels (some [])).view = (measuresModels none).view := by
    simp [ModelSet.view, ModelSet.viewModel, ModelSet.viewRoot, ModelSet.viewType,
      ModelSet.shapeMembers, ModelSet.viewDiscriminator, ModelSet.typeMembers,
      ModelSet.linkMembers, ModelSet.model, ModelSet.anchorsByName, measuresModels]
  refine ⟨hdistinct _, hdistinct _, rfl, rfl, rfl, rfl, congrArg Json.compact hview, rfl, rfl,
    ⟨2, by rfl⟩, ⟨2, by rfl⟩, ?_, _, rfl⟩
  rintro ⟨answer, hok⟩
  cases hok

end Document
end OpenApi
