-- SUMMARY: Values that differ in the order of members only are decoded alike.
import OpenApi.Proofs.Decoding.Contract
import Mathlib.Data.List.Perm.Subperm

/-!
# Alike values

An object is looked into by its keys, so the order of its members does not matter to
decoding. `AlikeBy f` relates values that differ in this order, and in numbers that `f`
does not tell apart. A type accepts both or neither of two alike values, and the
instances that it makes of them differ in such numbers only. With `Double.unsigned` these
are exactly the values that an enumeration takes for the same.
-/

namespace OpenApi

/-! ## Numbers -/

namespace Double

/-- A number without the sign of a zero. -/
def unsigned (x : Double) : Double := if x.isZero then zero else x

/-- At most the two zeros are mapped to one number. -/
def Separates (f : Double → Double) : Prop := ∀ x y, f x = f y → x.same y = true

theorem same_iff {x y : Double} : x.same y = true ↔ x = y ∨ x.isZero = true ∧ y.isZero = true := by
  simp [same]

theorem same_trans {x y z : Double} (h : x.same y = true) (h' : y.same z = true) :
    x.same z = true := by
  rw [same_iff] at *
  grind

theorem unsigned_eq_of_same {x y : Double} (h : x.same y = true) : x.unsigned = y.unsigned := by
  rcases same_iff.mp h with rfl | ⟨hx, hy⟩
  · rfl
  · simp [unsigned, hx, hy]

theorem separates_unsigned : Separates unsigned := by
  intro x y h
  rw [same_iff]
  have hzero : zero.isZero = true := by decide
  unfold unsigned at h
  split at h <;> split at h <;> grind

end Double

/-! ## Values -/

namespace Keyed

variable {α : Type u}

theorem isSome_get?_iff {entries : Keyed α} {key : String} :
    (entries.get? key).isSome = true ↔ key ∈ entries.keys := by
  rw [Option.isSome_iff_exists]
  exact ⟨fun ⟨_, h⟩ => mem_keys_of_get? h, exists_get?_of_mem_keys⟩

end Keyed

namespace Json

/-- The keys of each object inside a value are distinct. -/
inductive Distinct : Json → Prop where
  | null : Distinct .null
  | bool (value : Bool) : Distinct (.bool value)
  | num (value : Number) : Distinct (.num value)
  | str (value : String) : Distinct (.str value)
  | arr {items : List Json} : (∀ item ∈ items, Distinct item) → Distinct (.arr items)
  | obj {members : List (String × Json)} :
      (Keyed.keys members).Nodup → (∀ entry ∈ members, Distinct entry.2) → Distinct (.obj members)

variable (f : Double → Double)

mutual

/-- Values that differ in the order of members only, and in numbers that `f` maps to the same. -/
inductive AlikeBy : Json → Json → Prop where
  | null : AlikeBy .null .null
  | bool (value : Bool) : AlikeBy (.bool value) (.bool value)
  | int (value : Int) : AlikeBy (.num (.int value)) (.num (.int value))
  | float {x y : Double} : f x = f y → AlikeBy (.num (.float x)) (.num (.float y))
  | str (value : String) : AlikeBy (.str value) (.str value)
  | arr {items items' : List Json} :
      AlikeItems items items' → AlikeBy (.arr items) (.arr items')
  | obj {members members' : List (String × Json)} :
      members.length = members'.length →
        (∀ key, (Keyed.get? members key).isSome = (Keyed.get? members' key).isSome) →
        (∀ key value value', Keyed.get? members key = some value →
          Keyed.get? members' key = some value' → AlikeBy value value') →
        AlikeBy (.obj members) (.obj members')

/-- Items that are alike place by place. -/
inductive AlikeItems : List Json → List Json → Prop where
  | nil : AlikeItems [] []
  | cons {value value' : Json} {items items' : List Json} :
      AlikeBy value value' → AlikeItems items items' →
        AlikeItems (value :: items) (value' :: items')

end

variable {f}

mutual

theorem AlikeBy.symm {value value' : Json} : AlikeBy f value value' → AlikeBy f value' value
  | .null => .null
  | .bool value => .bool value
  | .int value => .int value
  | .float h => .float h.symm
  | .str value => .str value
  | .arr hitems => .arr hitems.symm
  | .obj hlength hkeys hmembers =>
      .obj hlength.symm (fun key => (hkeys key).symm)
        fun key value value' h h' => (hmembers key value' value h' h).symm
termination_by structural h => h

theorem AlikeItems.symm {items items' : List Json} :
    AlikeItems f items items' → AlikeItems f items' items
  | .nil => .nil
  | .cons hfirst hrest => .cons hfirst.symm hrest.symm
termination_by structural h => h

end

/-- A member of an object stands under its key in an alike object as well. -/
theorem AlikeBy.exists_get? {members members' : Keyed Json} {key : String} {value : Json}
    (h : AlikeBy f (.obj members) (.obj members')) (hvalue : members.get? key = some value) :
    ∃ value', members'.get? key = some value' ∧ AlikeBy f value value' := by
  cases h with
  | obj _ hkeys hmembers =>
      have hsome : (members'.get? key).isSome = true := by rw [← hkeys key, hvalue]; rfl
      obtain ⟨value', hvalue'⟩ := Option.isSome_iff_exists.mp hsome
      exact ⟨value', hvalue', hmembers key value value' hvalue hvalue'⟩

theorem AlikeItems.exists_mem {items items' : List Json} {value' : Json} :
    AlikeItems f items items' → value' ∈ items' → ∃ value ∈ items, AlikeBy f value value'
  | .nil, hmem => by cases hmem
  | .cons hfirst hrest, hmem => by
      rcases List.mem_cons.mp hmem with rfl | hmem
      · exact ⟨_, List.mem_cons_self, hfirst⟩
      · obtain ⟨value, hvalue, halike⟩ := hrest.exists_mem hmem
        exact ⟨value, List.mem_cons_of_mem _ hvalue, halike⟩

theorem AlikeBy.get?_eq_none {members members' : Keyed Json} {key : String}
    (h : AlikeBy f (.obj members) (.obj members')) (hnone : members.get? key = none) :
    members'.get? key = none := by
  cases h with
  | obj _ hkeys _ =>
      have hsome := hkeys key
      rw [hnone] at hsome
      exact Option.not_isSome_iff_eq_none.mp (by simp [← hsome])

/-! ## The same values -/

theorem sameMembers_iff {members : List (String × Json)} {others : Keyed Json} :
    sameMembers members others = true ↔
      ∀ entry ∈ members, ∃ other, others.get? entry.1 = some other ∧
        entry.2.same other = true := by
  induction members with
  | nil => simp [sameMembers]
  | cons entry rest ih =>
      obtain ⟨key, value⟩ := entry
      rw [sameMembers, Bool.and_eq_true, ih, List.forall_mem_cons]
      apply and_congr_left
      intro _
      cases others.get? key <;> simp

mutual

/-- What an enumeration takes for the same as a value, it takes for the same as an alike one. -/
theorem AlikeBy.same (hf : Double.Separates f) {value value' : Json} :
    AlikeBy f value value' → ∀ {allowed : Json}, allowed.same value = true →
      allowed.same value' = true
  | .null, _, h | .bool _, _, h | .int _, _, h | .str _, _, h => h
  | .float hxy, allowed, h => by
      cases allowed with
      | num allowed =>
          cases allowed with
          | int _ => cases h
          | float z => exact Double.same_trans h (hf _ _ hxy)
      | null | bool _ | str _ | arr _ | obj _ => cases h
  | .arr hitems, allowed, h => by
      cases allowed with
      | arr allowed => exact hitems.same hf h
      | null | bool _ | num _ | str _ | obj _ => cases h
  | @AlikeBy.obj _ members members' hlength hkeys hmembers, allowed, h => by
      cases allowed with
      | obj allowed =>
          simp only [Json.same, Bool.and_eq_true, beq_iff_eq] at h ⊢
          refine ⟨h.1.trans hlength, sameMembers_iff.mpr fun entry hmem => ?_⟩
          obtain ⟨other, hother, hsame⟩ := sameMembers_iff.mp h.2 entry hmem
          have hsome : (Keyed.get? members' entry.1).isSome = true := by
            rw [← hkeys entry.1, hother]; rfl
          obtain ⟨other', hother'⟩ := Option.isSome_iff_exists.mp hsome
          exact ⟨other', hother', (hmembers _ _ _ hother hother').same hf hsame⟩
      | null | bool _ | num _ | str _ | arr _ => cases h
termination_by structural h => h

theorem AlikeItems.same (hf : Double.Separates f) {items items' : List Json} :
    AlikeItems f items items' → ∀ {allowed : List Json}, sameItems allowed items = true →
      sameItems allowed items' = true
  | .nil, _, h => h
  | .cons hfirst hrest, allowed, h => by
      cases allowed with
      | nil => cases h
      | cons first rest =>
          simp only [sameItems, Bool.and_eq_true] at h ⊢
          exact ⟨hfirst.same hf h.1, hrest.same hf h.2⟩
termination_by structural h => h

end

/-- Objects with as many members have the same keys if all distinct keys of one are among those of
the other. -/
theorem isSome_get?_of_sameMembers {members : List (String × Json)} {others : Keyed Json}
    (hnodup : (Keyed.keys members).Nodup) (hlength : members.length = others.length)
    (h : sameMembers members others = true) (key : String) :
    (Keyed.get? members key).isSome = (others.get? key).isSome := by
  rw [Bool.eq_iff_iff, Keyed.isSome_get?_iff, Keyed.isSome_get?_iff]
  have hsubset : Keyed.keys members ⊆ others.keys := by
    intro name hname
    obtain ⟨entry, hmem, rfl⟩ := List.mem_map.mp hname
    obtain ⟨_, hother, -⟩ := sameMembers_iff.mp h entry hmem
    exact Keyed.mem_keys_of_get? hother
  have hperm : (Keyed.keys members).Perm others.keys :=
    (hnodup.subperm hsubset).perm_of_length_le (by simp [Keyed.keys, hlength])
  exact hperm.mem_iff

theorem alikeItems_of_sameItems {items items' : List Json}
    (hitems : ∀ item ∈ items, ∀ value, item.same value = true → AlikeBy f item value)
    (h : sameItems items items' = true) : AlikeItems f items items' := by
  induction items generalizing items' with
  | nil =>
      cases items' with
      | nil => exact .nil
      | cons _ _ => cases h
  | cons first rest ih =>
      cases items' with
      | nil => cases h
      | cons first' rest' =>
          simp only [sameItems, Bool.and_eq_true] at h
          rw [List.forall_mem_cons] at hitems
          exact .cons (hitems.1 first' h.1) (ih hitems.2 h.2)

theorem alikeBy_of_same_num {n n' : Number} (h : n.same n' = true) :
    AlikeBy Double.unsigned (.num n) (.num n') := by
  cases n with
  | int a =>
      cases n' with
      | int b =>
          obtain rfl : a = b := eq_of_beq h
          exact .int a
      | float _ => cases h
  | float x =>
      cases n' with
      | int _ => cases h
      | float y => exact .float (Double.unsigned_eq_of_same h)

/-- A value whose keys are distinct is alike to all that it is the same as. -/
theorem Distinct.alikeBy {allowed value : Json} (hdistinct : allowed.Distinct)
    (h : allowed.same value = true) : AlikeBy Double.unsigned allowed value := by
  induction hdistinct generalizing value with
  | null =>
      cases value with
      | null => exact .null
      | bool _ | num _ | str _ | arr _ | obj _ => cases h
  | bool b =>
      cases value with
      | bool b' =>
          obtain rfl : b = b' := eq_of_beq h
          exact .bool b
      | null | num _ | str _ | arr _ | obj _ => cases h
  | num n =>
      cases value with
      | num n' => exact alikeBy_of_same_num h
      | null | bool _ | str _ | arr _ | obj _ => cases h
  | str s =>
      cases value with
      | str s' =>
          obtain rfl : s = s' := eq_of_beq h
          exact .str s
      | null | bool _ | num _ | arr _ | obj _ => cases h
  | arr _ ih =>
      cases value with
      | arr items' => exact .arr (alikeItems_of_sameItems (fun item hmem _ => ih item hmem) h)
      | null | bool _ | num _ | str _ | obj _ => cases h
  | @obj members hnodup _ ih =>
      cases value with
      | obj members' =>
          simp only [Json.same, Bool.and_eq_true, beq_iff_eq] at h
          have hkeys := isSome_get?_of_sameMembers hnodup h.1 h.2
          refine .obj h.1 hkeys fun key value value' hvalue hvalue' => ?_
          obtain ⟨other, hother, hsame⟩ := sameMembers_iff.mp h.2 _ (Keyed.mem_of_get? hvalue)
          cases hother.symm.trans hvalue'
          exact ih _ (Keyed.mem_of_get? hvalue) hsame
      | null | bool _ | num _ | str _ | arr _ => cases h

end Json

/-! ## Instances -/

/-- A scalar with its number mapped. -/
def Scalar.mapNumber (f : Double → Double) : Scalar → Scalar
  | .number value => .number (f value)
  | other => other

namespace Instance

variable (f : Double → Double)

mutual

/-- An instance with all its numbers mapped. -/
def mapNumbers : Instance → Instance
  | .null => .null
  | .scalar value => .scalar (value.mapNumber f)
  | .array items => .array (mapNumbersItems items)
  | .object m fields => .object m (mapNumbersFields fields)
  | .variant union index value => .variant union index (mapNumbers value)

/-- Items with all their numbers mapped. -/
def mapNumbersItems : List Instance → List Instance
  | [] => []
  | item :: rest => mapNumbers item :: mapNumbersItems rest

/-- Fields with all their numbers mapped. -/
def mapNumbersFields : List (String × Instance) → List (String × Instance)
  | [] => []
  | (name, value) :: rest => (name, mapNumbers value) :: mapNumbersFields rest

end

theorem mapNumbersFields_entry (name : String) (answer : Option Instance)
    (entries : List (String × Instance)) :
    mapNumbersFields f ((answer.map fun value => (name, value)).toList ++ entries) =
      ((answer.map (mapNumbers f)).map fun value => (name, value)).toList ++
        mapNumbersFields f entries := by
  cases answer <;> rfl

end Instance

/-! ## Decoding alike values -/

open Json (AlikeBy AlikeItems)

variable {f : Double → Double}

theorem ScalarType.decode_alike {type : ScalarType} {value value' : Json} {scalar : Scalar}
    (h : AlikeBy f value value') (hdecode : type.decode value = .ok scalar) :
    ∃ scalar', type.decode value' = .ok scalar' ∧ scalar.mapNumber f = scalar'.mapNumber f := by
  cases h with
  | null | bool | int | str => exact ⟨scalar, hdecode, rfl⟩
  | @float x y hxy =>
      cases type with
      | float | timeDelta =>
          cases hdecode
          exact ⟨.number y, rfl, congrArg Scalar.number hxy⟩
      | _ => cases hdecode
  | arr | obj => cases type <;> cases hdecode

theorem Field.Permits.alike (hf : Double.Separates f) {field : Field} {value value' : Json}
    (hpermits : field.Permits value) (h : AlikeBy f value value') : field.Permits value' := by
  intro permitted henum
  obtain ⟨allowed, hmem, hsame⟩ := List.any_eq_true.mp (hpermits permitted henum)
  exact List.any_eq_true.mpr ⟨allowed, hmem, h.same hf hsame⟩

theorem Model.Declares.alike {model : Model} {members members' : Keyed Json}
    (hdeclared : model.Declares members) (h : AlikeBy f (.obj members) (.obj members')) :
    model.Declares members' := by
  intro key hkey
  obtain ⟨value, hvalue⟩ := Keyed.exists_get?_of_mem_keys hkey
  obtain ⟨_, hvalue', -⟩ := h.symm.exists_get? hvalue
  exact hdeclared key (Keyed.mem_keys_of_get? hvalue')

namespace ModelSet

variable {set : ModelSet}

mutual

/-- A type that accepts a value accepts what is alike. -/
theorem Accepts.alike (hf : Double.Separates f) {type : Ty} {value value' : Json} :
    Accepts set type value → AlikeBy f value value' → Accepts set type value'
  | .scalar hdecode, h => by
      obtain ⟨_, hdecode', -⟩ := ScalarType.decode_alike h hdecode
      exact .scalar hdecode'
  | .literal, h => by
      cases h
      exact .literal
  | .array hall, h => by
      cases h with
      | arr hitems =>
          refine .array fun value' hmem => ?_
          obtain ⟨value, hvalue, halike⟩ := hitems.exists_mem hmem
          exact (hall value hvalue).alike hf halike
  | .object hshape hfields hdeclared, h => by
      cases h with
      | obj hlength hkeys hmembers =>
          have h := AlikeBy.obj hlength hkeys hmembers
          exact .object hshape (fun field hmem => (hfields field hmem).alike hf h) (hdeclared.alike h)
  | .tagged hshape hby hmember htag htype haccepts, h => by
      cases h with
      | obj hlength hkeys hmembers =>
          have h := AlikeBy.obj hlength hkeys hmembers
          obtain ⟨_, hmember', halike⟩ := h.exists_get? hmember
          cases halike
          exact .tagged hshape hby hmember' htag htype (haccepts.alike hf h)
  | .untagged hshape hby hmem haccepts, h => .untagged hshape hby hmem (haccepts.alike hf h)
  | .anchor hanchor hmem haccepts, h => .anchor hanchor hmem (haccepts.alike hf h)
termination_by structural h => h

theorem AcceptsField.alike (hf : Double.Separates f) {members members' : Keyed Json}
    {field : Field} :
    AcceptsField set members field → AlikeBy f (.obj members) (.obj members') →
      AcceptsField set members' field
  | .leftOut hnone hopt, h => .leftOut (h.get?_eq_none hnone) hopt
  | .skipped hnull hopt, h => by
      obtain ⟨_, hnull', halike⟩ := h.exists_get? hnull
      cases halike
      exact .skipped hnull' hopt
  | .given hsome hpermits haccepts, h => by
      obtain ⟨value', hsome', halike⟩ := h.exists_get? hsome
      exact .given hsome' (hpermits.alike hf halike) (haccepts.alike hf halike)
termination_by structural h => h

end

mutual

/-- A type makes the same instance of alike values, up to numbers that `f` maps to the same. -/
theorem Reads.alike (hf : Double.Separates f) {type : Ty} {value value' : Json}
    {answer : Instance} :
    Reads set type value answer → AlikeBy f value value' →
      ∃ answer', Reads set type value' answer' ∧ answer.mapNumbers f = answer'.mapNumbers f
  | .scalar hdecode, h => by
      obtain ⟨scalar', hdecode', heq⟩ := ScalarType.decode_alike h hdecode
      exact ⟨_, .scalar hdecode', congrArg Instance.scalar heq⟩
  | .literal, h => by
      cases h
      exact ⟨_, .literal, rfl⟩
  | .array hread, h => by
      cases h with
      | arr hitems =>
          obtain ⟨answers', hread', heq⟩ := hread.alike hf hitems
          exact ⟨_, .array hread', congrArg Instance.array heq⟩
  | .object hshape hfields hdeclared, h => by
      cases h with
      | obj hlength hkeys hmembers =>
          have h := AlikeBy.obj hlength hkeys hmembers
          obtain ⟨entries', hfields', heq⟩ := hfields.alike hf h
          exact ⟨_, .object hshape hfields' (hdeclared.alike h), congrArg (Instance.object _) heq⟩
  | .tagged hshape hby hmember htag htype hread, h => by
      cases h with
      | obj hlength hkeys hmembers =>
          have h := AlikeBy.obj hlength hkeys hmembers
          obtain ⟨_, hmember', halike⟩ := h.exists_get? hmember
          cases halike
          obtain ⟨answer', hread', heq⟩ := hread.alike hf h
          exact ⟨_, .tagged hshape hby hmember' htag htype hread',
            congrArg (Instance.variant _ _) heq⟩
  | .untagged hshape hby hbefore hread, h => by
      obtain ⟨answer', hread', heq⟩ := hread.alike hf h
      -- What an earlier alternative made of the second value, it would make of the first.
      have hbefore' := fun other hmem haccepts =>
        hbefore other hmem (Accepts.alike hf haccepts h.symm)
      exact ⟨_, .untagged hshape hby hbefore' hread', congrArg (Instance.variant _ _) heq⟩
  | .anchor hanchor hsplit hbefore hread, h => by
      obtain ⟨answer', hread', heq⟩ := hread.alike hf h
      have hbefore' := fun other hmem haccepts =>
        hbefore other hmem (Accepts.alike hf haccepts h.symm)
      exact ⟨answer', .anchor hanchor hsplit hbefore' hread', heq⟩
termination_by structural h => h

theorem ReadsItems.alike (hf : Double.Separates f) {item : Ty} {values values' : List Json}
    {answers : List Instance} :
    ReadsItems set item values answers → AlikeItems f values values' →
      ∃ answers', ReadsItems set item values' answers' ∧
        Instance.mapNumbersItems f answers = Instance.mapNumbersItems f answers'
  | .nil, .nil => ⟨[], .nil, rfl⟩
  | .cons hread hrest, .cons hfirst hmore => by
      obtain ⟨answer', hread', heq⟩ := hread.alike hf hfirst
      obtain ⟨answers', hrest', heqs⟩ := hrest.alike hf hmore
      refine ⟨_, .cons hread' hrest', ?_⟩
      rw [Instance.mapNumbersItems, Instance.mapNumbersItems, heq, heqs]
termination_by structural h => h

theorem ReadsField.alike (hf : Double.Separates f) {members members' : Keyed Json} {field : Field}
    {answer : Option Instance} :
    ReadsField set members field answer → AlikeBy f (.obj members) (.obj members') →
      ∃ answer', ReadsField set members' field answer' ∧
        answer.map (Instance.mapNumbers f) = answer'.map (Instance.mapNumbers f)
  | .leftOut hnone hopt hdefault, h => ⟨_, .leftOut (h.get?_eq_none hnone) hopt hdefault, rfl⟩
  | .unfit hnone hopt hdefault hunfit, h =>
      ⟨_, .unfit (h.get?_eq_none hnone) hopt hdefault hunfit, rfl⟩
  | .filled hnone hopt hdefault hread, h =>
      ⟨_, .filled (h.get?_eq_none hnone) hopt hdefault hread, rfl⟩
  | .skipped hnull hopt, h => by
      obtain ⟨_, hnull', halike⟩ := h.exists_get? hnull
      cases halike
      exact ⟨_, .skipped hnull' hopt, rfl⟩
  | .given hsome hheld hpermits hread, h => by
      obtain ⟨value', hsome', halike⟩ := h.exists_get? hsome
      obtain ⟨answer', hread', heq⟩ := hread.alike hf halike
      refine ⟨_, .given hsome' ?_ (hpermits.alike hf halike) hread', congrArg some heq⟩
      rintro hopt rfl
      cases halike
      exact hheld hopt rfl
termination_by structural h => h

theorem ReadsFields.alike (hf : Double.Separates f) {members members' : Keyed Json}
    {fields : List Field} {entries : List (String × Instance)} :
    ReadsFields set members fields entries → AlikeBy f (.obj members) (.obj members') →
      ∃ entries', ReadsFields set members' fields entries' ∧
        Instance.mapNumbersFields f entries = Instance.mapNumbersFields f entries'
  | .nil, _ => ⟨[], .nil, rfl⟩
  | .cons hread hrest, h => by
      obtain ⟨answer', hread', heq⟩ := hread.alike hf h
      obtain ⟨entries', hrest', heqs⟩ := hrest.alike hf h
      refine ⟨_, .cons hread' hrest', ?_⟩
      rw [Instance.mapNumbersFields_entry, Instance.mapNumbersFields_entry, heq, heqs]
termination_by structural h => h

end

end ModelSet
end OpenApi
