-- SUMMARY: The depth of a decoding is enough: a longer chain of checks comes back to itself.
import OpenApi.Proofs.Decoding.Consults
import OpenApi.Proofs.Decoding.Parts
import Mathlib.Data.List.Perm.Subperm

/-!
# The depth of decoding

The goals that a check comes to are made of finitely many types and values. So a
chain of steps that is longer than there are pairs of them comes to one goal twice,
and then no depth is enough. A goal comes back to itself only where a default
contains itself or a union is its own alternative: every other step goes further
into the value.
-/

namespace OpenApi

open Relation (ReflTransGen TransGen)

/-! ## Chains of steps -/

namespace ModelSet

variable {set : ModelSet}

theorem EndsWithin.reaches {depth : Nat} {goal other : Goal} (h : set.EndsWithin depth goal)
    (hreach : ReflTransGen set.Consults goal other) : ∃ depth', set.EndsWithin depth' other := by
  induction hreach with
  | refl => exact ⟨depth, h⟩
  | tail _ hstep ih =>
      obtain ⟨depth', h'⟩ := ih
      cases depth' with
      | zero => exact h'.elim
      | succ depth' => exact ⟨depth', h' _ hstep⟩

/-- A goal whose chains end does not come back to itself. -/
theorem EndsWithin.not_cycle {depth : Nat} {goal : Goal} (h : set.EndsWithin depth goal) :
    ¬ TransGen set.Consults goal goal := by
  intro hcycle
  induction depth generalizing goal with
  | zero => exact h
  | succ depth ih =>
      obtain ⟨next, hstep, hback⟩ := TransGen.head'_iff.mp hcycle
      exact ih (h next hstep) (TransGen.tail' hback hstep)

/-- A goal that consults others is among finitely many, so a walk of new goals only has an end. -/
theorem endsWithin_of_visited {goals visited : List Goal} {start goal : Goal} {depth : Nat}
    (hgoals : ∀ goal next, ReflTransGen set.Consults start goal → set.Consults goal next →
      goal ∈ goals)
    (hacyclic : ∀ goal, ReflTransGen set.Consults start goal → ¬ TransGen set.Consults goal goal)
    (hreach : ReflTransGen set.Consults start goal)
    (hwalk : ∀ earlier ∈ visited, TransGen set.Consults earlier goal)
    (hnodup : visited.Nodup) (hsubset : visited ⊆ goals)
    (hroom : goals.length < visited.length + depth) : set.EndsWithin depth goal := by
  induction depth generalizing goal visited with
  | zero =>
      -- The walk has come to more different goals than there are.
      have hlen := (hnodup.subperm hsubset).length_le
      omega
  | succ depth ih =>
      intro next hstep
      have hnew : goal ∉ visited := fun hmem => hacyclic goal hreach (hwalk goal hmem)
      have hwalk' : ∀ earlier ∈ goal :: visited, TransGen set.Consults earlier next := by
        rw [List.forall_mem_cons]
        exact ⟨.single hstep, fun earlier hmem => (hwalk earlier hmem).tail hstep⟩
      have hsubset' : goal :: visited ⊆ goals :=
        List.cons_subset.mpr ⟨hgoals goal next hreach hstep, hsubset⟩
      apply ih (hreach.tail hstep) hwalk' (List.nodup_cons.mpr ⟨hnew, hnodup⟩) hsubset'
      simp only [List.length_cons]
      omega

/-! ## Kinds of steps -/

variable (set) in
/-- A default for a field that may be left out, to be checked against the type of the field. -/
def IsDefault (goal : Goal) : Prop :=
  ∃ m fields field, (set.model m).shape = .object fields ∧ field ∈ fields ∧
    field.required = false ∧ field.type = goal.1 ∧ field.default = some goal.2

variable (set) in
/-- A value is checked against the second type in order to check it against the first. -/
inductive Tries : Ty → Ty → Prop where
  | alternative {m : ModelId} {type : Ty} :
      type ∈ (set.model m).shape.alternatives → Tries (.model m) type
  | variant {schema : SchemaId} {variant : ModelId} : Tries (.anchor schema) (.model variant)

/-- A step goes further into the value, to a default, or on with the same value. -/
theorem Consults.kind {goal next : Goal} (h : set.Consults goal next) :
    Json.Child next.2 goal.2 ∨ set.IsDefault next ∨
      (next.2 = goal.2 ∧ set.Tries goal.1 next.1) := by
  cases h with
  | item hmem => exact .inl (.item hmem)
  | field hshape hfield hgoal =>
      cases hgoal with
      | given hmember =>
          obtain ⟨before, after, rfl, -⟩ := List.lookup_eq_some_iff.mp hmember
          exact .inl (.member (List.mem_append_right _ List.mem_cons_self))
      | default _ hopt hdefault =>
          exact .inr (.inl ⟨_, _, _, hshape, hfield, hopt, rfl, hdefault⟩)
  | tagged hshape _ _ _ htype =>
      refine .inr (.inr ⟨rfl, .alternative ?_⟩)
      rw [hshape]
      exact List.mem_of_getElem? htype
  | untagged hshape =>
      refine .inr (.inr ⟨rfl, .alternative ?_⟩)
      simp [hshape, Shape.alternatives]
  | variant => exact .inr (.inr ⟨rfl, .variant⟩)

/-! ## Goals that are come to -/

theorem lt_size_of_field {m : ModelId} {fields : List Field} {field : Field}
    (hshape : (set.model m).shape = .object fields) (hmem : field ∈ fields) :
    m < set.models.size := by
  apply Nat.lt_of_not_le
  intro hge
  cases hshape.symm.trans (shape_of_size_le hge)
  cases hmem

/-- A model that consults others is in the set. -/
theorem Consults.lt_size {m : ModelId} {value : Json} {next : Goal}
    (h : set.Consults (.model m, value) next) : m < set.models.size := by
  apply Nat.lt_of_not_le
  intro hge
  have hshape : (set.model m).shape = .object [] := shape_of_size_le hge
  cases h with
  | field hshape' hmem => exact absurd (lt_size_of_field hshape' hmem) (Nat.not_lt.mpr hge)
  | tagged hshape' => cases hshape.symm.trans hshape'
  | untagged hshape' => cases hshape.symm.trans hshape'

variable {type : Ty} {value : Json}

theorem Consults.type_mem {goal next other : Goal} (h : set.Consults goal next)
    (hmem : goal.1 ∈ set.typesFrom type) (hnext : set.Consults next other) :
    next.1 ∈ set.typesFrom type := by
  cases h with
  | item => exact item_mem_typesFrom type hmem
  | field hshape hfield hgoal =>
      have hlt := Consults.lt_size (.field hshape hfield hgoal)
      have htype := mem_typesFrom_of_model type hlt (type_mem_types hshape hfield)
      cases hgoal <;> exact htype
  | tagged hshape hby hmember htag htype =>
      have hlt := Consults.lt_size (.tagged hshape hby hmember htag htype)
      refine mem_typesFrom_of_model type hlt (alternative_mem_types ?_)
      rw [hshape]
      exact List.mem_of_getElem? htype
  | untagged hshape hby hbefore =>
      have hlt := Consults.lt_size (.untagged hshape hby hbefore)
      refine mem_typesFrom_of_model type hlt (alternative_mem_types ?_)
      rw [hshape]
      simp [Shape.alternatives]
  | variant =>
      -- A variant need not be in the set, but then it consults nothing.
      have hlt := hnext.lt_size
      exact List.mem_append_left _ (List.mem_append_right _ (by simpa using hlt))

theorem Consults.value_mem {goal next : Goal} (h : set.Consults goal next)
    (hmem : goal.2 ∈ set.valuesFrom value) : next.2 ∈ set.valuesFrom value := by
  rcases h.kind with hchild | ⟨m, fields, field, hshape, hfield, -, -, hdefault⟩ | ⟨hsame, -⟩
  · exact child_mem_valuesFrom value hchild hmem
  · exact mem_valuesFrom_of_model value (lt_size_of_field hshape hfield)
      (default_mem_defaults hshape hfield hdefault)
  · exact hsame ▸ hmem

/-- Every goal that is come to and consults others is a pair of such a type and such a value. -/
theorem mem_goals {goal next : Goal}
    (hreach : ReflTransGen set.Consults (type, value) goal) (hstep : set.Consults goal next) :
    goal ∈ set.typesFrom type ×ˢ set.valuesFrom value := by
  suffices h : goal.1 ∈ set.typesFrom type ∧ goal.2 ∈ set.valuesFrom value from
    List.mem_product.mpr h
  induction hreach generalizing next with
  | refl =>
      refine ⟨?_, List.mem_append_left _ value.mem_parts_self⟩
      exact List.mem_append_left _ (List.mem_append_left _ type.mem_parts_self)
  | tail _ hlast ih =>
      obtain ⟨htype, hvalue⟩ := ih hlast
      exact ⟨hlast.type_mem htype hstep, hlast.value_mem hvalue⟩

/-- The depth of a decoding is enough unless a goal comes back to itself. -/
theorem endsWithin_depth
    (hacyclic : ∀ goal, ReflTransGen set.Consults (type, value) goal →
      ¬ TransGen set.Consults goal goal) :
    set.EndsWithin (set.depth type value) (type, value) := by
  refine endsWithin_of_visited (fun _ _ => mem_goals) hacyclic .refl ?_ List.nodup_nil
    (List.nil_subset _) ?_
  · simp
  · simpa using length_goals_lt_depth type value

/-! ## Cycles -/

variable (set) in
/-- The check of a default never comes to the same default again. -/
def NoDefaultCycle : Prop :=
  ∀ goal, set.IsDefault goal → ¬ TransGen set.Consults goal goal

/-- A walk comes to a default, or further into the value, or goes on with the same value. -/
theorem transGen_consults_kind {goal last : Goal} (h : TransGen set.Consults goal last) :
    (∃ filled, set.IsDefault filled ∧ TransGen set.Consults goal filled ∧
      ReflTransGen set.Consults filled last) ∨
    last.2.size < goal.2.size ∨ (last.2 = goal.2 ∧ TransGen set.Tries goal.1 last.1) := by
  induction h with
  | single hstep =>
      rcases hstep.kind with hchild | hdefault | ⟨hsame, htries⟩
      · exact .inr (.inl hchild.size_lt)
      · exact .inl ⟨_, hdefault, .single hstep, .refl⟩
      · exact .inr (.inr ⟨hsame, .single htries⟩)
  | tail hwalk hstep ih =>
      rcases ih with ⟨filled, hdefault, hfirst, hlast⟩ | ih
      · exact .inl ⟨filled, hdefault, hfirst, hlast.tail hstep⟩
      rcases hstep.kind with hchild | hdefault | ⟨hsame, htries⟩
      · rcases ih with hlt | ⟨heq, -⟩
        · exact .inr (.inl (Nat.lt_trans hchild.size_lt hlt))
        · exact .inr (.inl (heq ▸ hchild.size_lt))
      · exact .inl ⟨_, hdefault, hwalk.tail hstep, .refl⟩
      · rcases ih with hlt | ⟨heq, hfirst⟩
        · exact .inr (.inl (hsame ▸ hlt))
        · exact .inr (.inr ⟨hsame.trans heq, hfirst.tail htries⟩)

/-- What is tried and tries others is a model, unless anchors are alternatives. -/
theorem transGen_tries (hplain : ∀ m schema, .anchor schema ∉ (set.model m).shape.alternatives)
    {first last next : Ty} (h : TransGen set.Tries first last) (hnext : set.Tries last next) :
    ∃ inner, last = .model inner ∧
      ∀ outer, first = .model outer → TransGen set.Alternative outer inner := by
  -- The next step rules out that the walk ends at an anchor: it would be an alternative.
  induction h generalizing next with
  | single hstep =>
      cases hnext with
      | variant =>
          cases hstep with
          | alternative hmem => exact absurd hmem (hplain _ _)
      | alternative =>
          refine ⟨_, rfl, ?_⟩
          intro outer heq
          subst heq
          cases hstep with
          | alternative hmem => exact .single hmem
  | tail _ hstep ih =>
      obtain ⟨middle, rfl, hwalk⟩ := ih hstep
      cases hnext with
      | variant =>
          cases hstep with
          | alternative hmem => exact absurd hmem (hplain _ _)
      | alternative =>
          refine ⟨_, rfl, fun outer houter => (hwalk outer houter).tail ?_⟩
          cases hstep with
          | alternative hmem => exact hmem

/-- Goals come back to themselves only by way of defaults and unions that do. -/
theorem not_transGen_consults (hunions : set.NoUnionCycle) (hdefaults : set.NoDefaultCycle)
    (hplain : ∀ m schema, .anchor schema ∉ (set.model m).shape.alternatives) (goal : Goal) :
    ¬ TransGen set.Consults goal goal := by
  intro hcycle
  rcases transGen_consults_kind hcycle with ⟨filled, hdefault, hfirst, hlast⟩ | hlt | ⟨-, htries⟩
  · exact hdefaults filled hdefault (TransGen.trans_right hlast hfirst)
  · exact Nat.lt_irrefl _ hlt
  · obtain ⟨next, hnext, -⟩ := TransGen.head'_iff.mp htries
    obtain ⟨m, hm, hwalk⟩ := transGen_tries hplain htries hnext
    exact hunions m (hwalk m hm)

/-! ## Decoding -/

variable (set) in
/-- Decoding terminates if there is a depth at which the check of the value ends. -/
def Terminates (type : Ty) (value : Json) : Prop :=
  ∃ depth, (Check.upTo set depth type value {}).isSome = true

/-- Decoding terminates unless a union or a default contains itself. -/
theorem terminates_of_noCycles (hunions : set.NoUnionCycle) (hdefaults : set.NoDefaultCycle)
    (htags : set.TagsInRange)
    (hplain : ∀ m schema, .anchor schema ∉ (set.model m).shape.alternatives) (type : Ty)
    (value : Json) : set.Terminates type value := by
  have hdepth : set.EndsWithin (set.depth type value) (type, value) :=
    endsWithin_depth fun goal _ => not_transGen_consults hunions hdefaults hplain goal
  exact ⟨_, (Check.upTo_isSome_iff htags).mpr hdepth⟩

/-- A check that ends at any depth ends at the depth of a decoding. -/
theorem Terminates.isSome_upTo_depth (htags : set.TagsInRange) (h : set.Terminates type value) :
    (Check.upTo set (set.depth type value) type value {}).isSome = true := by
  obtain ⟨depth, hdepth⟩ := h
  rw [Check.upTo_isSome_iff htags] at hdepth ⊢
  apply endsWithin_depth
  intro goal hreach
  obtain ⟨depth', hgoal⟩ := hdepth.reaches hreach
  exact hgoal.not_cycle

/-- Where decoding terminates, it reads the values that the type accepts, and refuses all others. -/
theorem Terminates.decode (htags : set.TagsInRange) (h : set.Terminates type value) :
    (∃ answer, set.decode type value = .ok answer ∧ set.Reads type value answer) ∨
      ((∃ failure, set.decode type value = .error (.failed failure)) ∧
        ¬ set.Accepts type value) := by
  obtain ⟨⟨answer, after⟩, hcheck⟩ := Option.isSome_iff_exists.mp (h.isSome_upTo_depth htags)
  cases Check.upTo_settles set _ hcheck with
  | clean hreport hreads =>
      obtain ⟨found, rfl, hread⟩ := hreads
      subst hreport
      refine .inl ⟨found, ?_, hread⟩
      simp [ModelSet.decode, hcheck]
  | violated _ _ hnot =>
      obtain ⟨rfl, hnot⟩ := hnot
      refine .inr ⟨?_, hnot⟩
      simp [ModelSet.decode, hcheck]

theorem Terminates.decode_eq_ok_iff (htags : set.TagsInRange) (h : set.Terminates type value)
    {answer : Instance} : set.decode type value = .ok answer ↔ set.Reads type value answer := by
  refine ⟨reads_of_decode, fun hread => ?_⟩
  rcases h.decode htags with ⟨answer', hok, hread'⟩ | ⟨-, hnot⟩
  · rw [hok, hread'.unique hread]
  · exact absurd hread.accepts hnot

/-- Decoding has no end exactly where the check of the value has none at any depth. -/
theorem decode_eq_endless_iff (htags : set.TagsInRange) :
    set.decode type value = .error .endless ↔ ¬ set.Terminates type value := by
  refine ⟨fun hendless hends => ?_, fun hendless => ?_⟩
  · rcases hends.decode htags with ⟨answer, hok, -⟩ | ⟨⟨failure, herror⟩, -⟩
    · cases hok.symm.trans hendless
    · cases herror.symm.trans hendless
  · have hnone : Check.upTo set (set.depth type value) type value {} = none :=
      Option.not_isSome_iff_eq_none.mp fun hsome => hendless ⟨_, hsome⟩
    simp [ModelSet.decode, hnone]

end ModelSet
end OpenApi
