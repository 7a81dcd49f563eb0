-- SUMMARY: Values that differ in the order of members only, and what this order does not show in.
import OpenApi.Proofs.Decoding.Alike
import OpenApi.Proofs.Schema.DistinctNames

/-!
# Reordered values

Two values are `Reordered` if they differ only in the order in which objects at any depth
have their keys. A scalar type makes the same of such values or refuses them for the same
reason, an enumeration has both or neither, and they are read as one instance. What they
are written as does differ.
-/

namespace OpenApi

namespace Json

/-! ## The order of keys -/

mutual

/-- Values that differ in the order of keys only. -/
inductive Reordered : Json → Json → Prop where
  | null : Reordered .null .null
  | bool (value : Bool) : Reordered (.bool value) (.bool value)
  | num (value : Number) : Reordered (.num value) (.num value)
  | str (value : String) : Reordered (.str value) (.str value)
  | arr {items items' : List Json} :
      ReorderedItems items items' → Reordered (.arr items) (.arr items')
  /-- The keys may stand in any order; what stands under each is reordered in turn. -/
  | obj {members members' : List (String × Json)} :
      (Keyed.keys members).Perm (Keyed.keys members') →
        (∀ key value value', Keyed.get? members key = some value →
          Keyed.get? members' key = some value' → Reordered value value') →
        Reordered (.obj members) (.obj members')

/-- Items keep their places. -/
inductive ReorderedItems : List Json → List Json → Prop where
  | nil : ReorderedItems [] []
  | cons {value value' : Json} {items items' : List Json} :
      Reordered value value' → ReorderedItems items items' →
        ReorderedItems (value :: items) (value' :: items')

end

mutual

theorem Reordered.refl : ∀ value : Json, Reordered value value
  | .null => .null
  | .bool value => .bool value
  | .num value => .num value
  | .str value => .str value
  | .arr items => .arr (.refl items)
  | .obj members => by
      refine .obj (.refl _) fun key value value' hvalue hvalue' => ?_
      cases hvalue.symm.trans hvalue'
      exact Reordered.refl_member members (key, value) (Keyed.mem_of_get? hvalue)

theorem ReorderedItems.refl : ∀ items : List Json, ReorderedItems items items
  | [] => .nil
  | value :: rest => .cons (.refl value) (.refl rest)

theorem Reordered.refl_member :
    ∀ members : List (String × Json), ∀ member ∈ members, Reordered member.2 member.2
  | [], _, hmem => by cases hmem
  | (key, value) :: rest, member, hmem => by
      rcases List.mem_cons.mp hmem with rfl | hmem
      · exact .refl value
      · exact Reordered.refl_member rest member hmem

end

theorem ReorderedItems.forall₂ {items items' : List Json} :
    ReorderedItems items items' → List.Forall₂ Reordered items items'
  | .nil => .nil
  | .cons hfirst hrest => .cons hfirst hrest.forall₂
termination_by structural h => h

/-- An object with distinct keys may have its members in any order. -/
theorem Reordered.of_perm {members members' : List (String × Json)}
    (hnodup : (Keyed.keys members).Nodup) (h : members.Perm members') :
    Reordered (.obj members) (.obj members') := by
  refine .obj (List.Perm.map Prod.fst h) fun key value value' hvalue hvalue' => ?_
  have hmem : (key, value') ∈ members := h.mem_iff.mpr (Keyed.mem_of_get? hvalue')
  have hsame : Keyed.get? members key = some value' := lookup_of_mem hnodup hmem
  cases hvalue.symm.trans hsame
  exact .refl value

/-! ## Reordered values are alike -/

mutual

theorem Reordered.alike {value value' : Json} : Reordered value value' → AlikeBy id value value'
  | .null => .null
  | .bool value => .bool value
  | .num (.int value) => .int value
  | .num (.float value) => .float rfl
  | .str value => .str value
  | .arr hitems => .arr hitems.alike
  | .obj hkeys hmembers => by
      refine .obj ?_ (fun key => ?_) fun key value value' h h' =>
        (hmembers key value value' h h').alike
      · simpa [Keyed.keys] using hkeys.length_eq
      · rw [Bool.eq_iff_iff, Keyed.isSome_get?_iff, Keyed.isSome_get?_iff]
        exact hkeys.mem_iff
termination_by structural h => h

theorem ReorderedItems.alike {items items' : List Json} :
    ReorderedItems items items' → AlikeItems id items items'
  | .nil => .nil
  | .cons hfirst hrest => .cons hfirst.alike hrest.alike
termination_by structural h => h

end

variable {value value' : Json}

theorem Reordered.isString_eq (h : Reordered value value') (text : String) :
    value.isString text = value'.isString text := by
  cases h <;> rfl

end Json

/-- At most equal numbers are mapped to one number. -/
theorem Double.separates_id : Double.Separates id := by
  intro x y h
  exact Double.same_iff.mpr (.inl h)

variable {value value' : Json}

theorem ScalarType.decode_reordered (type : ScalarType) (h : value.Reordered value') :
    type.decode value = type.decode value' := by
  cases h with
  | null | bool | num | str => rfl
  | arr | obj => cases type <;> rfl

/-- An enumeration has both values or neither. -/
theorem Json.Reordered.any_same (h : value.Reordered value') (permitted : List Json) :
    permitted.any (fun allowed => allowed.same value) =
      permitted.any fun allowed => allowed.same value' := by
  congr 1
  funext allowed
  rw [Bool.eq_iff_iff]
  exact ⟨h.alike.same Double.separates_id, h.alike.symm.same Double.separates_id⟩

/-! ## Reading reordered values -/

namespace Instance

mutual

@[simp] theorem mapNumbers_id : ∀ answer : Instance, answer.mapNumbers id = answer
  | .null => rfl
  | .scalar value => by cases value <;> rfl
  | .array items => congrArg array (mapNumbersItems_id items)
  | .object m fields => congrArg (object m) (mapNumbersFields_id fields)
  | .variant union index value => congrArg (variant union index) (mapNumbers_id value)

theorem mapNumbersItems_id : ∀ items : List Instance, mapNumbersItems id items = items
  | [] => rfl
  | item :: rest => congrArg₂ List.cons (mapNumbers_id item) (mapNumbersItems_id rest)

theorem mapNumbersFields_id :
    ∀ fields : List (String × Instance), mapNumbersFields id fields = fields
  | [] => rfl
  | (name, value) :: rest =>
      congrArg₂ (fun value rest => (name, value) :: rest) (mapNumbers_id value)
        (mapNumbersFields_id rest)

end

end Instance

/-- A reordered value is read as the same instance. -/
theorem ModelSet.Reads.reordered {set : ModelSet} {type : Ty} {answer : Instance}
    (hread : set.Reads type value answer) (h : value.Reordered value') :
    set.Reads type value' answer := by
  obtain ⟨answer', hread', heq⟩ := hread.alike Double.separates_id h.alike
  rw [Instance.mapNumbers_id, Instance.mapNumbers_id] at heq
  exact heq ▸ hread'

end OpenApi
