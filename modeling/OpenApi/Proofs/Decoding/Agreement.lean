-- SUMMARY: Model sets that agree on the types in use decode, name and view them alike.
import OpenApi.Decoding
import OpenApi.Proofs.Model.Alternatives
import OpenApi.View

/-!
# Sets that agree on types

Two sets agree on some types if the models and anchors among them are the same in both
and refer to such types only. Whatever else the sets hold is never looked at: names,
views and checks of these types come out alike. For checks this is shown with the depth:
what is answered in one set within some depth is answered in the other within any depth
that is not smaller.
-/

namespace OpenApi
namespace ModelSet

/-- Both sets have the same models and anchors for some types, and these refer to such types
only. -/
structure AgreeOn (known : Ty → Prop) (first second : ModelSet) : Prop where
  item : ∀ {item}, known (.array item) → known item
  model : ∀ {m}, known (.model m) → first.model m = second.model m
  types : ∀ {m}, known (.model m) → ∀ type ∈ (first.model m).shape.types, known type
  anchor : ∀ {schema}, known (.anchor schema) → first.anchor schema = second.anchor schema
  variants : ∀ {schema anchor}, known (.anchor schema) → first.anchor schema = some anchor →
    ∀ variant ∈ anchor.variants, known (.model variant)

/-- What the first check answers for these types, the second answers too. -/
def Answers (known : Ty → Prop) (check check' : Check) : Prop :=
  ∀ ⦃type value report outcome⦄, known type → check type value report = some outcome →
    check' type value report = some outcome

variable {known : Ty → Prop} {first second : ModelSet}

theorem AgreeOn.symm (h : AgreeOn known first second) : AgreeOn known second first where
  item := h.item
  model := fun hm => (h.model hm).symm
  types := fun hm => h.model hm ▸ h.types hm
  anchor := fun hanchor => (h.anchor hanchor).symm
  variants := fun hknown hanchor => h.variants hknown ((h.anchor hknown).trans hanchor)

theorem agreeOn_self (set : ModelSet) : AgreeOn (fun _ => True) set set where
  item := fun _ => trivial
  model := fun _ => rfl
  types := fun _ _ _ => trivial
  anchor := fun _ => rfl
  variants := fun _ _ _ _ => trivial

section Reads

variable (h : AgreeOn known first second)
include h

/-! ## Names and views -/

theorem AgreeOn.typeName {type : Ty} (hknown : known type) :
    first.typeName type = second.typeName type := by
  induction type with
  | scalar | literal => rfl
  | array item ih => rw [ModelSet.typeName, ModelSet.typeName, ih (h.item hknown)]
  | model m => exact congrArg Model.name (h.model hknown)
  | anchor schema => rw [ModelSet.typeName, ModelSet.typeName, h.anchor hknown]

theorem AgreeOn.link {m : ModelId} (hknown : known (.model m)) : first.link m = second.link m := by
  rw [ModelSet.link, ModelSet.link, linkMembers, linkMembers, h.model hknown]

theorem AgreeOn.typeMembers {type : Ty} (hknown : known type) :
    first.typeMembers type = second.typeMembers type := by
  induction type with
  | scalar | literal => rfl
  | array item ih => rw [ModelSet.typeMembers, ModelSet.typeMembers, ih (h.item hknown)]
  | model m =>
      rw [ModelSet.typeMembers, ModelSet.typeMembers, linkMembers, linkMembers, h.model hknown]
  | anchor schema =>
      rw [ModelSet.typeMembers, ModelSet.typeMembers, ← h.anchor hknown]
      cases hanchor : first.anchor schema with
      | none => rfl
      | some anchor =>
          have hlinks : anchor.variants.map first.link = anchor.variants.map second.link :=
            List.map_congr_left fun variant hmem => h.link (h.variants hknown hanchor variant hmem)
          simp only [hlinks]

theorem AgreeOn.viewType {type : Ty} (hknown : known type) :
    first.viewType type = second.viewType type := by
  rw [ModelSet.viewType, ModelSet.viewType, h.typeMembers hknown]

theorem AgreeOn.viewModel {m : ModelId} (hknown : known (.model m)) :
    first.viewModel m (first.model m) = second.viewModel m (second.model m) := by
  have htypes := h.types hknown
  rw [ModelSet.viewModel, ModelSet.viewModel, ← h.model hknown]
  cases hshape : (first.model m).shape with
  | object fields =>
      rw [hshape] at htypes
      have hfields : fields.map (fun field => (field.name, first.viewField field)) =
          fields.map fun field => (field.name, second.viewField field) := by
        refine List.map_congr_left fun field hmem => ?_
        rw [viewField, viewField, h.typeMembers (htypes _ (List.mem_map_of_mem hmem))]
      simp only [shapeMembers, hfields]
  | union alternatives discriminator tags =>
      rw [hshape] at htypes
      have halternatives : alternatives.map first.viewType = alternatives.map second.viewType :=
        List.map_congr_left fun type hmem => h.viewType (htypes type hmem)
      simp only [shapeMembers, halternatives]

/-! ## Checks -/

variable {check check' : Check} (hcheck : Answers known check check')
include hcheck

omit h hcheck in
private theorem inside_answer {part part' : Report → Option (Option Instance × Report)}
    (hpart : ∀ {report outcome}, part report = some outcome → part' report = some outcome)
    {segment : Segment} {report : Report} {outcome : Option Instance × Report}
    (heq : Check.inside segment part report = some outcome) :
    Check.inside segment part' report = some outcome := by
  obtain ⟨found, hfound, rfl⟩ := Option.map_eq_some_iff.mp heq
  rw [Check.inside, hpart hfound]
  rfl

omit h in
theorem AgreeOn.items {item : Ty} (hknown : known item) {values : List Json} {place : Nat}
    {report : Report} {outcome : List Instance × Report}
    (heq : Check.items check item place values report = some outcome) :
    Check.items check' item place values report = some outcome := by
  induction values generalizing place report outcome with
  | nil => exact heq
  | cons value rest ih =>
      simp only [Check.items, Option.bind_eq_bind, Option.bind_eq_some_iff] at heq ⊢
      obtain ⟨answer, hanswer, answers, hanswers, heq⟩ := heq
      exact ⟨answer, inside_answer (fun heq => hcheck hknown heq) hanswer, answers, ih hanswers,
        heq⟩

theorem AgreeOn.array {item : Ty} (hknown : known (.array item)) {value : Json} {report : Report}
    {outcome : Option Instance × Report}
    (heq : Check.array first check item value report = some outcome) :
    Check.array second check' item value report = some outcome := by
  unfold Check.array at heq ⊢
  split at heq
  · simp only [Option.bind_eq_bind, Option.bind_eq_some_iff] at heq ⊢
    obtain ⟨answers, hanswers, heq⟩ := heq
    exact ⟨answers, items hcheck (h.item hknown) hanswers, heq⟩
  · rw [← h.typeName hknown]
    exact heq

omit h in
theorem AgreeOn.given {field : Field} (hknown : known field.type) {value : Json} {report : Report}
    {outcome : Option Instance × Report}
    (heq : Check.given check field value report = some outcome) :
    Check.given check' field value report = some outcome := by
  unfold Check.given at heq ⊢
  split at heq
  · exact hcheck hknown heq
  · split at heq
    · rename_i hany
      rw [if_pos hany]
      exact hcheck hknown heq
    · rename_i hany
      rw [if_neg hany]
      exact heq

omit h in
theorem AgreeOn.leftOut {field : Field} (hknown : known field.type) {report : Report}
    {outcome : Option Instance × Report} (heq : Check.leftOut check field report = some outcome) :
    Check.leftOut check' field report = some outcome := by
  unfold Check.leftOut at heq ⊢
  split at heq
  · exact heq
  · simp only [Option.bind_eq_bind, Option.bind_eq_some_iff] at heq ⊢
    obtain ⟨answer, hanswer, heq⟩ := heq
    exact ⟨answer, hcheck hknown hanswer, heq⟩

omit h in
theorem AgreeOn.field {members : Keyed Json} {field : Field} (hknown : known field.type)
    {report : Report} {outcome : Option Instance × Report}
    (heq : Check.field check members field report = some outcome) :
    Check.field check' members field report = some outcome := by
  unfold Check.field at heq ⊢
  split at heq
  · split at heq
    · rename_i hrequired
      rw [if_pos hrequired]
      exact heq
    · rename_i hrequired
      rw [if_neg hrequired]
      exact leftOut hcheck hknown heq
  · split at heq
    · rename_i hrequired
      rw [if_pos hrequired]
      exact given hcheck hknown heq
    · rename_i hrequired
      rw [if_neg hrequired]
      exact heq
  · exact given hcheck hknown heq

omit h in
theorem AgreeOn.fields {members : Keyed Json} {fields : List Field}
    (hknown : ∀ field ∈ fields, known field.type) {report : Report}
    {outcome : List (String × Instance) × Report}
    (heq : Check.fields check members fields report = some outcome) :
    Check.fields check' members fields report = some outcome := by
  induction fields generalizing report outcome with
  | nil => exact heq
  | cons field rest ih =>
      rw [List.forall_mem_cons] at hknown
      simp only [Check.fields, Option.bind_eq_bind, Option.bind_eq_some_iff] at heq ⊢
      obtain ⟨answer, hanswer, answers, hanswers, heq⟩ := heq
      exact ⟨answer, inside_answer (fun heq => AgreeOn.field hcheck hknown.1 heq) hanswer, answers,
        ih hknown.2 hanswers, heq⟩

omit h in
theorem AgreeOn.firstMatch {types : List Ty} (hknown : ∀ type ∈ types, known type) {value : Json}
    {report : Report} {place : Nat} {outcome : Option (Nat × Instance)}
    (heq : Check.firstMatch check value report place types = some outcome) :
    Check.firstMatch check' value report place types = some outcome := by
  induction types generalizing place with
  | nil => exact heq
  | cons type rest ih =>
      rw [List.forall_mem_cons] at hknown
      simp only [Check.firstMatch, Option.bind_eq_bind, Option.bind_eq_some_iff] at heq ⊢
      obtain ⟨⟨answer, scratch⟩, hanswer, heq⟩ := heq
      refine ⟨(answer, scratch), hcheck hknown.1 hanswer, ?_⟩
      cases answer with
      | none => exact ih hknown.2 heq
      | some accepted =>
          simp only at heq ⊢
          split at heq
          · rename_i hclean
            rw [if_pos hclean]
            exact heq
          · rename_i hclean
            rw [if_neg hclean]
            exact ih hknown.2 heq

theorem AgreeOn.object {m : ModelId} (hknown : known (.model m)) {value : Json} {report : Report}
    {outcome : Option Instance × Report}
    (heq : Check.object first check m value report = some outcome) :
    Check.object second check' m value report = some outcome := by
  have hfields : ∀ field ∈ (first.model m).fields, known field.type := by
    intro field hmem
    have htypes := h.types hknown
    unfold Model.fields at hmem
    split at hmem
    · rename_i fields hshape
      exact htypes _ (hshape ▸ List.mem_map_of_mem hmem)
    · cases hmem
  unfold Check.object at heq ⊢
  rw [← h.model hknown]
  dsimp only at heq ⊢
  split at heq
  · simp only [Option.bind_eq_bind, Option.bind_eq_some_iff] at heq ⊢
    obtain ⟨answers, hanswers, heq⟩ := heq
    exact ⟨answers, fields hcheck hfields hanswers, heq⟩
  · exact heq

theorem AgreeOn.tagged {m : ModelId} (hknown : known (.model m)) {alternatives : List Ty}
    (halternatives : ∀ type ∈ alternatives, known type) {discriminator : Discriminator}
    {tags : Keyed Nat} {value : Json} {report : Report} {outcome : Option Instance × Report}
    (heq : Check.tagged first check m alternatives discriminator tags value report = some outcome) :
    Check.tagged second check' m alternatives discriminator tags value report = some outcome := by
  unfold Check.tagged at heq ⊢
  rw [← h.model hknown]
  dsimp only at heq ⊢
  split at heq
  · rename_i members
    cases hselect : Check.select (first.model m).name discriminator tags members with
    | error kind =>
        rw [hselect] at heq
        exact heq
    | ok index =>
        rw [hselect] at heq
        simp only [Option.bind_eq_bind, Option.bind_eq_some_iff] at heq ⊢
        obtain ⟨type, htype, answer, hanswer, heq⟩ := heq
        have hmem : type ∈ alternatives := List.mem_of_getElem? htype
        exact ⟨type, htype, answer, hcheck (halternatives type hmem) hanswer, heq⟩
  · exact heq

theorem AgreeOn.untagged {m : ModelId} (hknown : known (.model m)) {alternatives : List Ty}
    (halternatives : ∀ type ∈ alternatives, known type) {value : Json} {report : Report}
    {outcome : Option Instance × Report}
    (heq : Check.untagged first check m alternatives value report = some outcome) :
    Check.untagged second check' m alternatives value report = some outcome := by
  unfold Check.untagged at heq ⊢
  rw [← h.model hknown]
  simp only [Option.bind_eq_bind, Option.bind_eq_some_iff] at heq ⊢
  obtain ⟨found, hfound, heq⟩ := heq
  exact ⟨found, firstMatch hcheck halternatives hfound, heq⟩

theorem AgreeOn.anchorCheck {schema : SchemaId} (hknown : known (.anchor schema)) {value : Json}
    {report : Report} {outcome : Option Instance × Report}
    (heq : Check.anchor first check schema value report = some outcome) :
    Check.anchor second check' schema value report = some outcome := by
  unfold Check.anchor at heq ⊢
  rw [← h.anchor hknown]
  cases hanchor : first.anchor schema with
  | none =>
      rw [hanchor] at heq
      exact heq
  | some anchor =>
      rw [hanchor] at heq
      simp only at heq ⊢
      split at heq
      · rename_i hempty
        rw [if_pos hempty]
        exact heq
      · rename_i hempty
        rw [if_neg hempty]
        simp only [Option.bind_eq_bind, Option.bind_eq_some_iff] at heq ⊢
        obtain ⟨found, hfound, heq⟩ := heq
        have hvariants : ∀ type ∈ anchor.variants.map Ty.model, known type := by
          intro type hmem
          obtain ⟨variant, hvariant, rfl⟩ := List.mem_map.mp hmem
          exact h.variants hknown hanchor variant hvariant
        exact ⟨found, firstMatch hcheck hvariants hfound, heq⟩

theorem AgreeOn.modelCheck {m : ModelId} (hknown : known (.model m)) {value : Json}
    {report : Report} {outcome : Option Instance × Report}
    (heq : Check.model first check m value report = some outcome) :
    Check.model second check' m value report = some outcome := by
  have htypes := h.types hknown
  unfold Check.model at heq ⊢
  rw [← h.model hknown]
  dsimp only at heq ⊢
  split at heq
  · exact h.object hcheck hknown heq
  · rename_i alternatives discriminator tags hshape
    rw [hshape] at htypes
    split at heq
    · exact h.tagged hcheck hknown htypes heq
    · exact h.untagged hcheck hknown htypes heq

theorem AgreeOn.typeCheck {goal : Ty} (hknown : known goal) {value : Json} {report : Report}
    {outcome : Option Instance × Report}
    (heq : Check.type first check goal value report = some outcome) :
    Check.type second check' goal value report = some outcome := by
  cases goal with
  | scalar type => exact heq
  | literal tag => exact heq
  | array item => exact h.array hcheck hknown heq
  | model m => exact h.modelCheck hcheck hknown heq
  | anchor schema => exact h.anchorCheck hcheck hknown heq

end Reads

/-- What is answered within some depth is answered alike in the other set within any greater. -/
theorem AgreeOn.upTo (h : AgreeOn known first second) {depth depth' : Nat} (hle : depth ≤ depth')
    {goal : Ty} (hknown : known goal) {value : Json} {report : Report}
    {outcome : Option Instance × Report}
    (heq : Check.upTo first depth goal value report = some outcome) :
    Check.upTo second depth' goal value report = some outcome := by
  induction depth generalizing depth' goal value report outcome with
  | zero => cases heq
  | succ depth ih =>
      obtain ⟨depth', rfl⟩ := Nat.exists_eq_add_of_le hle
      rw [Nat.add_right_comm]
      exact h.typeCheck (fun _ _ _ _ hknown heq => ih (Nat.le_add_right _ _) hknown heq) hknown heq

end ModelSet
end OpenApi
