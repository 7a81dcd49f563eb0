-- SUMMARY: The places of reported violations: they are in the value, and all different.
import OpenApi.Proofs.Decoding.Alike
import OpenApi.Proofs.Decoding.Rereading
import OpenApi.Proofs.Decoding.Reported
import Mathlib.Data.List.Nodup

/-!
# Places

A violation stands at what is wrong with a value, or at the key that an object lacks.
Violations of different parts start with different steps, so where the keys of objects
and the names of fields are distinct, no two violations stand at one place.
-/

namespace OpenApi

/-! ## Places in values -/

namespace Json

/-- The value one step further in. -/
def child : Json → Segment → Option Json
  | .arr items, .index place => items[place]?
  | .obj members, .field name => Keyed.get? members name
  | _, _ => none

/-- The value at a place inside a value. -/
def at? : Json → Path → Option Json
  | value, [] => some value
  | value, segment :: rest => (value.child segment).bind fun inner => inner.at? rest

end Json

/-- Something is not there, so its own place is not in the value. -/
def ViolationKind.isMissing : ViolationKind → Bool
  | .missingField | .missingDiscriminator _ => true
  | _ => false

namespace Violation

/-- The place of a violation is in the value; that of something missing is a key which an object
at the place around it lacks. -/
def Located (value : Json) (violation : Violation) : Prop :=
  if violation.kind.isMissing then
    ∃ parent key members, violation.path = parent ++ [.field key] ∧
      value.at? parent = some (.obj members) ∧ Keyed.get? members key = none
  else ∃ node, value.at? violation.path = some node

theorem located_here {value : Json} {kind : ViolationKind} (h : kind.isMissing = false) :
    Located value ⟨[], kind⟩ := by
  simp [Located, h, Json.at?]

theorem located_child {value inner : Json} {segment : Segment} {kind : ViolationKind}
    (hchild : value.child segment = some inner) (h : kind.isMissing = false) :
    Located value ⟨[segment], kind⟩ := by
  simp [Located, h, Json.at?, hchild]

theorem located_missing {members : Keyed Json} {key : String} {kind : ViolationKind}
    (hnone : members.get? key = none) (h : kind.isMissing = true) :
    Located (.obj members) ⟨[.field key], kind⟩ := by
  rw [Located, if_pos h]
  exact ⟨[], key, members, rfl, rfl, hnone⟩

theorem Located.inside {value inner : Json} {segment : Segment} {violation : Violation}
    (hchild : value.child segment = some inner) (h : violation.Located inner) :
    (violation.inside segment).Located value := by
  unfold Located at *
  rw [kind_inside, path_inside]
  split at h
  · rename_i hmissing
    obtain ⟨parent, key, members, hpath, hparent, hnone⟩ := h
    rw [if_pos hmissing, hpath]
    exact ⟨segment :: parent, key, members, rfl, by simp [Json.at?, hchild, hparent], hnone⟩
  · rename_i hmissing
    obtain ⟨node, hnode⟩ := h
    rw [if_neg hmissing]
    exact ⟨node, by simp [Json.at?, hchild, hnode]⟩

end Violation

/-! ## Refusals -/

namespace ScalarType

variable {type : ScalarType} {kind : ViolationKind}

theorem isMissing_of_keep {ok : Bool} {text reason : String}
    (h : type.keep ok text reason = .error kind) : kind.isMissing = false := by
  unfold keep at h
  split at h <;> cases h
  rfl

theorem isMissing_of_decodeText {text : String} (h : type.decodeText text = .error kind) :
    kind.isMissing = false := by
  cases type with
  | text | password | binary | path => cases h
  | byte | email | nameEmail | uri | uuid => exact isMissing_of_keep h
  | boolean | integer | float | timeDelta =>
      cases h
      rfl
  | date | dateTime | time | ipv4Network | ipv6Network | ipAnyNetwork | regex =>
      simp only [decodeText] at h
      split at h <;> cases h
      rfl
  | ipv4 | ipv6 | ipAny =>
      simp only [decodeText] at h
      split at h
      · cases h
        rfl
      · split at h <;> cases h
        rfl

/-- A scalar is refused for what it is. -/
theorem isMissing_of_decode {value : Json} (h : type.decode value = .error kind) :
    kind.isMissing = false := by
  unfold decode at h
  split at h
  · split at h <;> cases h
    rfl
  · split at h
    · split at h <;> cases h
      rfl
    · cases h
      rfl
    · cases h
      rfl
  · split at h
    · split at h <;> cases h
    · cases h
    · cases h
      rfl
  · split at h
    · split at h <;> cases h
    · cases h
    · cases h
      rfl
  · split at h
    · exact isMissing_of_decodeText h
    · cases h
      rfl

end ScalarType

/-- What does not select an alternative is not there, or it is a member of the object. -/
theorem Check.located_of_select {name : String} {selector : Discriminator} {tags : Keyed Nat}
    {members : Keyed Json} {kind : ViolationKind}
    (h : select name selector tags members = .error kind) :
    Violation.Located (.obj members) ⟨[.field selector.property], kind⟩ := by
  unfold select at h
  split at h
  · rename_i hnone
    cases h
    exact Violation.located_missing hnone rfl
  · rename_i tag hmember
    split at h <;> cases h
    exact Violation.located_child hmember rfl
  · rename_i hmember
    cases h
    exact Violation.located_child hmember rfl

namespace ModelSet

variable {set : ModelSet}

theorem Refuses.isMissing {type : Ty} {value : Json} {kind : ViolationKind}
    (h : set.Refuses type value kind) : kind.isMissing = false := by
  cases h with
  | scalar hdecode => exact ScalarType.isMissing_of_decode hdecode
  | _ => rfl

/-! ## Reported violations are in the value -/

theorem located_of_undeclaredKeys {model : Model} {members : Keyed Json} {violation : Violation}
    (h : violation ∈ model.undeclaredKeys members) : violation.Located (.obj members) := by
  obtain ⟨key, hkey, rfl⟩ := List.mem_map.mp h
  obtain ⟨value, hvalue⟩ := Keyed.exists_get?_of_mem_keys (List.mem_filter.mp hkey).1
  exact Violation.located_child hvalue rfl

mutual

theorem Reports.located {type : Ty} {value : Json} {found : List Violation} :
    Reports set type value found → ∀ violation ∈ found, violation.Located value
  | .refused hrefuses => by
      rw [List.forall_mem_singleton]
      exact Violation.located_here hrefuses.isMissing
  | .scalar _ | .literal | .untagged _ _ _ | .anchor _ => by simp
  | .array hitems => hitems.located [] rfl
  | .object _ hfields => by
      intro violation hmem
      rcases List.mem_append.mp hmem with hmem | hmem
      · exact hfields.located violation hmem
      · exact located_of_undeclaredKeys hmem
  | .unselected _ _ hselect => by
      rw [List.forall_mem_singleton]
      exact Check.located_of_select hselect
  | .tagged _ _ _ _ _ hreports => hreports.located

theorem ReportsItems.located {item : Ty} {place : Nat} {values : List Json}
    {found : List Violation} :
    ReportsItems set item place values found → ∀ before : List Json, place = before.length →
      ∀ violation ∈ found, violation.Located (.arr (before ++ values))
  | .nil, _, _ => by simp
  | @ReportsItems.cons _ _ _ value rest _ _ hfirst hrest, before, hplace => by
      intro violation hmem
      rcases List.mem_append.mp hmem with hmem | hmem
      · obtain ⟨inner, hinner, rfl⟩ := List.mem_map.mp hmem
        refine (hfirst.located inner hinner).inside ?_
        simp [Json.child, hplace]
      · have hlater := hrest.located (before ++ [value]) (by simp [hplace])
        rw [List.append_assoc] at hlater
        exact hlater violation hmem

theorem ReportsField.located {members : Keyed Json} {field : Field} {found : List Violation} :
    ReportsField set members field found → ∀ violation ∈ found, violation.Located (.obj members)
  | .missing hnone _ => by
      rw [List.forall_mem_singleton]
      exact Violation.located_missing hnone rfl
  | .leftOut _ _ | .skipped _ _ => by simp
  | .outside hmember _ _ => by
      rw [List.forall_mem_singleton]
      exact Violation.located_child hmember rfl
  | .given hmember _ _ hreports => by
      intro violation hmem
      obtain ⟨inner, hinner, rfl⟩ := List.mem_map.mp hmem
      exact (hreports.located inner hinner).inside hmember

theorem ReportsFields.located {members : Keyed Json} {fields : List Field}
    {found : List Violation} :
    ReportsFields set members fields found → ∀ violation ∈ found, violation.Located (.obj members)
  | .nil => by simp
  | .cons hfirst hrest => by
      intro violation hmem
      rcases List.mem_append.mp hmem with hmem | hmem
      · exact hfirst.located violation hmem
      · exact hrest.located violation hmem

end

/-! ## Reported violations stand at different places -/

/-- What items report stands inside items, from the first one on. -/
theorem ReportsItems.exists_index {item : Ty} {place : Nat} {values : List Json}
    {found : List Violation} :
    ReportsItems set item place values found →
      ∀ violation ∈ found, ∃ index rest, place ≤ index ∧ violation.path = .index index :: rest
  | .nil => by simp
  | .cons _ hrest => by
      intro violation hmem
      rcases List.mem_append.mp hmem with hmem | hmem
      · obtain ⟨inner, -, rfl⟩ := List.mem_map.mp hmem
        exact ⟨_, inner.path, Nat.le_refl _, rfl⟩
      · obtain ⟨index, rest, hle, hpath⟩ := hrest.exists_index violation hmem
        exact ⟨index, rest, Nat.le_of_succ_le hle, hpath⟩

/-- What a field reports stands at or in the field. -/
theorem ReportsField.path_eq {members : Keyed Json} {field : Field} {found : List Violation}
    (h : ReportsField set members field found) :
    ∀ violation ∈ found, ∃ rest, violation.path = .field field.name :: rest := by
  cases h with
  | missing | outside => simp
  | leftOut | skipped => simp
  | given =>
      intro violation hmem
      obtain ⟨inner, -, rfl⟩ := List.mem_map.mp hmem
      exact ⟨inner.path, rfl⟩

theorem ReportsFields.path_eq {members : Keyed Json} {fields : List Field}
    {found : List Violation} :
    ReportsFields set members fields found →
      ∀ violation ∈ found, ∃ field ∈ fields, ∃ rest, violation.path = .field field.name :: rest
  | .nil => by simp
  | .cons hfirst hrest => by
      intro violation hmem
      rcases List.mem_append.mp hmem with hmem | hmem
      · obtain ⟨rest, hpath⟩ := hfirst.path_eq violation hmem
        exact ⟨_, List.mem_cons_self, rest, hpath⟩
      · obtain ⟨field, hfield, hpath⟩ := hrest.path_eq violation hmem
        exact ⟨field, List.mem_cons_of_mem _ hfield, hpath⟩

/-- The undeclared keys are no fields. -/
theorem path_of_undeclaredKeys {model : Model} {members : Keyed Json} {violation : Violation}
    (h : violation ∈ model.undeclaredKeys members) :
    ∃ key, (model.field key).isSome = false ∧ violation.path = [.field key] := by
  obtain ⟨key, hkey, rfl⟩ := List.mem_map.mp h
  exact ⟨key, by simpa using (List.mem_filter.mp hkey).2, rfl⟩

end ModelSet

/-- The violations stand at different places. -/
def AtDifferentPlaces (found : List Violation) : Prop := (found.map (·.path)).Nodup

theorem AtDifferentPlaces.append {first second : List Violation} (h : AtDifferentPlaces first)
    (h' : AtDifferentPlaces second)
    (hne : ∀ violation ∈ first, ∀ other ∈ second, violation.path ≠ other.path) :
    AtDifferentPlaces (first ++ second) := by
  rw [AtDifferentPlaces, List.map_append, List.nodup_append]
  refine ⟨h, h', fun path hpath path' hpath' => ?_⟩
  obtain ⟨violation, hmem, rfl⟩ := List.mem_map.mp hpath
  obtain ⟨other, hother, rfl⟩ := List.mem_map.mp hpath'
  exact hne violation hmem other hother

theorem AtDifferentPlaces.inside {found : List Violation} (h : AtDifferentPlaces found)
    (segment : Segment) : AtDifferentPlaces (found.map (·.inside segment)) := by
  have hcons : (found.map (·.inside segment)).map (·.path) =
      (found.map (·.path)).map (segment :: ·) := by simp [Function.comp_def]
  rw [AtDifferentPlaces, hcons]
  exact h.map List.cons_injective

namespace ModelSet

variable {set : ModelSet}

theorem undeclaredKeys_atDifferentPlaces {model : Model} {members : Keyed Json}
    (h : members.keys.Nodup) : AtDifferentPlaces (model.undeclaredKeys members) := by
  rw [AtDifferentPlaces, Model.undeclaredKeys, List.map_map]
  refine (h.filter _).map fun key key' heq => ?_
  simpa using heq

mutual

theorem Reports.atDifferentPlaces (hnames : set.DistinctFields) {type : Ty} {value : Json}
    {found : List Violation} :
    Reports set type value found → value.Distinct → AtDifferentPlaces found
  | .refused _, _ | .unselected _ _ _, _ => by simp [AtDifferentPlaces]
  | .scalar _, _ | .literal, _ | .untagged _ _ _, _ | .anchor _, _ => by simp [AtDifferentPlaces]
  | .array hitems, hvalue => by
      cases hvalue with
      | arr hdistinct => exact hitems.atDifferentPlaces hnames hdistinct
  | @Reports.object _ m fields _ _ hshape hfields, hvalue => by
      cases hvalue with
      | obj hkeys hdistinct =>
          refine (hfields.atDifferentPlaces hnames (hnames m fields hshape) hdistinct).append
            (undeclaredKeys_atDifferentPlaces hkeys) fun violation hmem other hother heq => ?_
          obtain ⟨field, hfield, rest, hpath⟩ := hfields.path_eq violation hmem
          obtain ⟨key, hnone, hpath'⟩ := path_of_undeclaredKeys hother
          obtain ⟨hname, -⟩ := List.cons.inj (hpath.symm.trans (heq.trans hpath'))
          cases hname
          have hsome : ((set.model m).field field.name).isSome = true := by
            rw [Model.field, List.find?_isSome, Model.fields, hshape]
            exact ⟨field, hfield, beq_self_eq_true _⟩
          exact absurd (hsome.symm.trans hnone) (by simp)
  | .tagged _ _ _ _ _ hreports, hvalue => hreports.atDifferentPlaces hnames hvalue

theorem ReportsItems.atDifferentPlaces (hnames : set.DistinctFields) {item : Ty} {place : Nat}
    {values : List Json} {found : List Violation} :
    ReportsItems set item place values found → (∀ value ∈ values, value.Distinct) →
      AtDifferentPlaces found
  | .nil, _ => by simp [AtDifferentPlaces]
  | .cons hfirst hrest, hvalues => by
      rw [List.forall_mem_cons] at hvalues
      refine ((hfirst.atDifferentPlaces hnames hvalues.1).inside _).append
        (hrest.atDifferentPlaces hnames hvalues.2) fun violation hmem other hother heq => ?_
      obtain ⟨inner, -, rfl⟩ := List.mem_map.mp hmem
      obtain ⟨index, rest, hle, hpath⟩ := hrest.exists_index other hother
      obtain ⟨hindex, -⟩ := List.cons.inj (heq.trans hpath)
      cases hindex
      exact Nat.not_succ_le_self _ hle

theorem ReportsField.atDifferentPlaces (hnames : set.DistinctFields) {members : Keyed Json}
    {field : Field} {found : List Violation} :
    ReportsField set members field found → (∀ entry ∈ members, entry.2.Distinct) →
      AtDifferentPlaces found
  | .missing _ _, _ | .outside _ _ _, _ => by simp [AtDifferentPlaces]
  | .leftOut _ _, _ | .skipped _ _, _ => by simp [AtDifferentPlaces]
  | .given hmember _ _ hreports, hvalues =>
      (hreports.atDifferentPlaces hnames (hvalues _ (Keyed.mem_of_get? hmember))).inside _

theorem ReportsFields.atDifferentPlaces (hnames : set.DistinctFields) {members : Keyed Json}
    {fields : List Field} {found : List Violation} :
    ReportsFields set members fields found → (fields.map (·.name)).Nodup →
      (∀ entry ∈ members, entry.2.Distinct) → AtDifferentPlaces found
  | .nil, _, _ => by simp [AtDifferentPlaces]
  | .cons hfirst hrest, hnodup, hvalues => by
      rw [List.map_cons, List.nodup_cons] at hnodup
      refine (hfirst.atDifferentPlaces hnames hvalues).append
        (hrest.atDifferentPlaces hnames hnodup.2 hvalues) fun violation hmem other hother heq => ?_
      obtain ⟨rest, hpath⟩ := hfirst.path_eq violation hmem
      obtain ⟨field, hfield, rest', hpath'⟩ := hrest.path_eq other hother
      obtain ⟨hname, -⟩ := List.cons.inj (hpath.symm.trans (heq.trans hpath'))
      rw [Segment.field.injEq] at hname
      exact hnodup.1 (hname ▸ List.mem_map_of_mem hfield)

end
end ModelSet
end OpenApi
