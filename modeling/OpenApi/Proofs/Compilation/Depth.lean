-- SUMMARY: The depth of a compilation is enough: at a greater depth it does the same.
import OpenApi.Proofs.Compilation.Retained

/-!
# The depth of compilation

A request that begins a model, an anchor or the members of a schema spends one schema of
the budget, and what it asks for has the room of one more type. A request for an array
spends nothing, but there are fewer arrays from its items on. So requests that are nested
in each other come to an end, however the schemas refer to each other otherwise. An array
that comes back to itself through arrays alone changes nothing on its way, and has no end
at any depth.

`Concurs` puts a step beside another that may ask more deeply: both do the same, and where
the first has no end there is such an array. Each step keeps this while there is room.
-/

namespace OpenApi

open Relation (ReflTransGen TransGen)

/-! ## Chains of arrays -/

namespace Document

variable (doc : Document)

/-- A schema is an array, and another is the schema of its items. -/
def ItemOf (array item : SchemaId) : Prop :=
  (doc.schema array).type = some .array ∧
    ∃ edge, (doc.schema array).items = some edge ∧ edge.id = item

/-- No array comes back to itself through items that are arrays again. -/
def NoArrayCycle : Prop :=
  ∀ id, ¬ TransGen doc.ItemOf id id

open scoped Classical in
/-- The arrays that a schema comes to through items alone, itself included. -/
noncomputable def arraysFrom (id : SchemaId) : Finset SchemaId :=
  (Finset.range doc.schemas.size).filter fun array =>
    (doc.schema array).type = some .array ∧ ReflTransGen doc.ItemOf id array

variable {doc} {id item : SchemaId}

theorem mem_arraysFrom : item ∈ doc.arraysFrom id ↔
    item < doc.schemas.size ∧ (doc.schema item).type = some .array ∧
      ReflTransGen doc.ItemOf id item := by
  simp [arraysFrom]

theorem card_arraysFrom_le (id : SchemaId) : (doc.arraysFrom id).card ≤ doc.schemas.size := by
  rw [← Finset.card_range doc.schemas.size]
  exact Finset.card_le_card fun array hmem => Finset.mem_range.mpr (mem_arraysFrom.mp hmem).1

/-- What an array that comes back to itself holds comes back to itself. -/
theorem ItemOf.loops (h : doc.ItemOf id item) (hloop : TransGen doc.ItemOf id id) :
    TransGen doc.ItemOf item item := by
  obtain ⟨next, hnext, hback⟩ := TransGen.head'_iff.mp hloop
  -- An array has one schema of items.
  obtain rfl : next = item := by
    obtain ⟨-, edge, hedge, rfl⟩ := hnext
    obtain ⟨-, edge', hedge', rfl⟩ := h
    cases hedge.symm.trans hedge'
    rfl
  exact .tail' hback h

/-- From the items of an array on there are fewer arrays, unless it comes back to itself. -/
theorem card_arraysFrom_lt (hloop : ¬ TransGen doc.ItemOf id id) (h : doc.ItemOf id item) :
    (doc.arraysFrom item).card < (doc.arraysFrom id).card := by
  have hsubset : doc.arraysFrom item ⊆ doc.arraysFrom id := by
    intro array hmem
    obtain ⟨hlt, htype, hwalk⟩ := mem_arraysFrom.mp hmem
    exact mem_arraysFrom.mpr ⟨hlt, htype, .head h hwalk⟩
  have hlt : id < doc.schemas.size := by
    apply doc.lt_size_of_ne
    intro hschema
    have htype := h.1
    simp [hschema] at htype
  have hself : id ∈ doc.arraysFrom id := mem_arraysFrom.mpr ⟨hlt, h.1, .refl⟩
  have hnot : id ∉ doc.arraysFrom item := fun hmem =>
    hloop (.head' h (mem_arraysFrom.mp hmem).2.2)
  exact Finset.card_lt_card ((Finset.ssubset_iff_of_subset hsubset).mpr ⟨id, hself, hnot⟩)

end Document

/-! ## Room -/

namespace Compilation

variable (doc : Document)

/-- A depth is enough for a request for the type of any schema. -/
def Room (depth : Nat) (state : Compilation) : Prop :=
  state.cost doc + (doc.schemas.size + 1) ≤ depth

variable {doc} {depth : Nat} {before after : Compilation}

theorem Retains.cost_le (h : before.Retains doc after) : after.cost doc ≤ before.cost doc := by
  refine Compilation.cost_le h.models (fun id hanchor => ?_) (h.merging ▸ List.Subset.refl _)
  obtain ⟨anchor, hanchor⟩ := Option.isSome_iff_exists.mp hanchor
  rw [h.anchors hanchor]
  rfl

theorem Room.retains (hroom : before.Room doc depth) (h : before.Retains doc after) :
    after.Room doc depth :=
  Nat.le_trans (Nat.add_le_add_right h.cost_le _) hroom

theorem Room.lt (hroom : before.Room doc depth) (id : SchemaId) :
    before.cost doc + (doc.arraysFrom id).card < depth := by
  have hle := doc.card_arraysFrom_le id
  unfold Room at hroom
  omega

theorem Room.cost_lt (hroom : before.Room doc depth) : before.cost doc < depth :=
  Nat.lt_of_le_of_lt (Nat.le_add_right _ _) (hroom.lt 0)

end Compilation

/-! ## Steps -/

namespace Compile

variable {α β : Type} {doc : Document} {state : Compilation}

/-- Both steps do the same, and where the first has no end an array holds itself through arrays
alone. -/
structure Concurs (doc : Document) (first second : Compile α) (state : Compilation) : Prop where
  same : first state = second state
  ends : first.Ends state (fun _ _ => True) fun stop _ => stop = .endless → ¬ doc.NoArrayCycle

theorem Concurs.ne_endless {first second : Compile α} (h : Concurs doc first second state)
    (harrays : doc.NoArrayCycle) : (first state).1 ≠ .error .endless := by
  have hends := h.ends
  rcases hrun : first state with ⟨stop | answer, after⟩
  · simp only [Ends, hrun] at hends
    exact fun heq => hends (Except.error.inj heq) harrays
  · rintro ⟨⟩

theorem concurs_pure (answer : α) : Concurs doc (pure answer) (pure answer) state := ⟨rfl, trivial⟩

theorem concurs_throw (error : SchemaError) :
    Concurs doc (throw (.failed error) : Compile α) (throw (.failed error)) state := ⟨rfl, nofun⟩

theorem concurs_ofExcept (result : Except SchemaError α) :
    Concurs doc (ofExcept result) (ofExcept result) state :=
  ⟨rfl, (ends_ofExcept result).mpr ⟨fun _ _ => trivial, fun _ _ => nofun⟩⟩

theorem concurs_modify (change : Compilation → Compilation) :
    Concurs doc (modify change : Compile PUnit) (modify change) state := ⟨rfl, trivial⟩

theorem concurs_modify_bind {change : Compilation → Compilation} {next next' : PUnit → Compile α}
    (h : Concurs doc (next ⟨⟩) (next' ⟨⟩) (change state)) :
    Concurs doc (modify change >>= next) (modify change >>= next') state := ⟨h.same, h.ends⟩

theorem concurs_get_bind {next next' : Compilation → Compile α}
    (h : Concurs doc (next state) (next' state) state) :
    Concurs doc (get >>= next) (get >>= next') state := ⟨h.same, h.ends⟩

/-- What follows a step starts with whatever the step has kept. -/
theorem concurs_bind_of {kept : Compilation → Prop} {first second : Compile α}
    {next next' : α → Compile β} (h : Concurs doc first second state)
    (hkept : first.Ends state (fun _ after => kept after) fun _ _ => True)
    (hnext : ∀ answer after, kept after → Concurs doc (next answer) (next' answer) after) :
    Concurs doc (first >>= next) (second >>= next') state := by
  refine ⟨?_, ?_⟩
  · rw [bind_apply, bind_apply, ← h.same]
    rcases hfirst : first state with ⟨stop | answer, after⟩
    · rfl
    · simp only [Ends, hfirst] at hkept
      exact (hnext answer after hkept).same
  · rw [ends_bind]
    exact (h.ends.and hkept).mono (fun answer after hafter => (hnext answer after hafter.2).ends)
      fun _ _ hstop => hstop.1

theorem concurs_bind {first second : Compile α} {next next' : α → Compile β}
    (h : Concurs doc first second state)
    (hnext : ∀ answer after, Concurs doc (next answer) (next' answer) after) :
    Concurs doc (first >>= next) (second >>= next') state :=
  concurs_bind_of h (h.ends.mono (fun _ _ _ => trivial) fun _ _ _ => trivial)
    fun answer after (_ : True) => hnext answer after

/-- There is room behind a step that only adds to the compilation. -/
theorem concurs_bind_room {depth : Nat} {first second : Compile α} {next next' : α → Compile β}
    (h : Concurs doc first second state) (hretains : first.Retains doc state)
    (hroom : state.Room doc depth)
    (hnext : ∀ answer after, after.Room doc depth →
      Concurs doc (next answer) (next' answer) after) :
    Concurs doc (first >>= next) (second >>= next') state :=
  concurs_bind_of h (hretains.mono (fun _ _ hafter => hroom.retains hafter) fun _ _ _ => trivial)
    hnext

theorem concurs_map {first second : Compile α} (f : α → β) (h : Concurs doc first second state) :
    Concurs doc (f <$> first) (f <$> second) state := by
  simp only [← bind_pure_comp]
  exact concurs_bind h fun answer _ => concurs_pure (f answer)

theorem concurs_between {first second : Compile α} {enter leave : Compilation → Compilation}
    (h : Concurs doc first second (enter state)) :
    Concurs doc (between enter leave first) (between enter leave second) state where
  same := by simp only [between, h.same]
  ends := (ends_between enter leave first).mpr h.ends

/-! ## Loops -/

theorem concurs_foldlM {depth : Nat} {elements : List α} {step step' : β → α → Compile β}
    (hroom : state.Room doc depth)
    (hstep : ∀ element ∈ elements, ∀ found now, now.Room doc depth →
      Concurs doc (step found element) (step' found element) now)
    (hretains : ∀ element ∈ elements, ∀ found now, (step found element).Retains doc now)
    (found : β) : Concurs doc (elements.foldlM step found) (elements.foldlM step' found) state := by
  induction elements generalizing found state with
  | nil => exact concurs_pure found
  | cons element rest ih =>
      rw [List.forall_mem_cons] at hstep hretains
      simp only [List.foldlM_cons]
      refine concurs_bind_room (hstep.1 found state hroom) (hretains.1 found state) hroom ?_
      exact fun found after hafter => ih hafter hstep.2 hretains.2 found

theorem concurs_mapM {depth : Nat} {elements : List α} {step step' : α → Compile β}
    (hroom : state.Room doc depth)
    (hstep : ∀ element ∈ elements, ∀ now, now.Room doc depth →
      Concurs doc (step element) (step' element) now)
    (hretains : ∀ element ∈ elements, ∀ now, (step element).Retains doc now) :
    Concurs doc (elements.mapM step) (elements.mapM step') state := by
  induction elements generalizing state with
  | nil =>
      simp only [List.mapM_nil]
      exact concurs_pure []
  | cons element rest ih =>
      rw [List.forall_mem_cons] at hstep hretains
      simp only [List.mapM_cons]
      refine concurs_bind_room (hstep.1 state hroom) (hretains.1 state) hroom ?_
      intro answer after hafter
      exact concurs_bind (ih hafter hstep.2 hretains.2) fun answers _ => concurs_pure _

theorem concurs_forM {elements : List α} {step step' : α → Compile PUnit}
    (hstep : ∀ element ∈ elements, ∀ now, Concurs doc (step element) (step' element) now) :
    Concurs doc (elements.forM step) (elements.forM step') state := by
  induction elements generalizing state with
  | nil => exact concurs_pure PUnit.unit
  | cons element rest ih =>
      rw [List.forall_mem_cons] at hstep
      simp only [List.forM_eq_forM, List.forM_cons]
      exact concurs_bind (hstep.1 state) fun _ _ => ih hstep.2

end Compile

/-! ## Requests -/

/-- Two kinds of requests do the same within a depth that is enough for what is asked for. -/
structure Requests.Concur (doc : Document) (depth : Nat) (ask ask' : Requests) : Prop where
  retain : ask.Retain doc
  loops : ∀ context id state, TransGen doc.ItemOf id id →
    Compile.Concurs doc (ask.type context id) (ask'.type context id) state
  type : ∀ context id state, state.cost doc + (doc.arraysFrom id).card < depth →
    Compile.Concurs doc (ask.type context id) (ask'.type context id) state
  merged : ∀ context name id state, state.cost doc < depth →
    Compile.Concurs doc (ask.merged context name id) (ask'.merged context name id) state

namespace Compile

variable {doc : Document} {registry : Registry} {depth : Nat} {ask ask' : Requests}
variable {context : Context} {name : String} {state : Compilation} {id : SchemaId}
variable (hask : ask.Concur doc depth ask')
include hask

/-! ### Fields -/

omit hask in
theorem elementType_concurs_of {edge : Edge}
    (h : Concurs doc (ask.type {} edge.id) (ask'.type {} edge.id) { state with unions := [] }) :
    Concurs doc (elementType ask edge) (elementType ask' edge) state :=
  concurs_get_bind (concurs_bind (concurs_between h) fun _ _ => concurs_pure _)

theorem elementType_concurs {edge : Edge}
    (hdepth : state.cost doc + (doc.arraysFrom edge.id).card < depth) :
    Concurs doc (elementType ask edge) (elementType ask' edge) state :=
  elementType_concurs_of (hask.type {} edge.id _ hdepth)

theorem fieldOf_concurs (hroom : state.Room doc depth) {schema : Schema} {edge : Edge} :
    Concurs doc (fieldOf doc ask context schema name edge)
      (fieldOf doc ask' context schema name edge) state := by
  unfold fieldOf
  refine concurs_bind_room (concurs_ofExcept _) (retains_ofExcept _) hroom ?_
  intro tag after hafter
  cases tag with
  | some tag => exact concurs_bind (concurs_pure _) fun _ _ => concurs_pure _
  | none =>
      exact concurs_bind (elementType_concurs hask (hafter.lt edge.id)) fun _ _ => concurs_pure _

theorem fieldsOf_concurs (hroom : state.Room doc depth) {schema : Schema} :
    Concurs doc (fieldsOf doc ask context schema) (fieldsOf doc ask' context schema) state :=
  concurs_mapM hroom (fun _ _ _ hnow => fieldOf_concurs hask hnow)
    fun entry _ now => fieldOf_retains hask.retain context entry.1 now schema entry.2

/-! ### Merging -/

theorem contribution_concurs (hroom : state.Room doc depth) {owner : Schema} {member : Edge} :
    Concurs doc (contribution doc ask context name owner member)
      (contribution doc ask' context name owner member) state := by
  rcases contribution_cases doc context name owner member with
    ⟨-, heq⟩ | ⟨-, heq⟩ | ⟨-, _, _, heq⟩ <;> rw [heq, heq]
  · exact hask.merged context name member.id state hroom.cost_lt
  · exact fieldsOf_concurs hask hroom
  · exact concurs_throw _

theorem mergeMembers_concurs (hroom : state.Room doc depth) {schema : Schema} :
    Concurs doc (mergeMembers doc ask context name schema)
      (mergeMembers doc ask' context name schema) state := by
  have hretains (member : Edge) (merged : List Field) (now : Compilation) :=
    retains_bind (contribution_retains hask.retain context name now schema member)
      fun fields _ _ => retains_ofExcept (absorb name merged fields)
  unfold mergeMembers
  refine concurs_bind_room (concurs_foldlM hroom ?_ (fun member _ => hretains member) [])
    (retains_foldlM (fun merged member now _ => hretains member merged now) []) hroom ?_
  · intro member _ merged now hnow
    exact concurs_bind (contribution_concurs hask hnow) fun _ _ => concurs_ofExcept _
  · intro inherited after hafter
    refine concurs_bind (fieldsOf_concurs hask hafter) fun own _ => ?_
    exact concurs_bind (concurs_ofExcept _) fun _ _ => concurs_pure _

omit hask in
/-- A schema that says nothing asks for nothing. -/
theorem mergeMembers_concurs_empty {dialect : Dialect} :
    Concurs doc (mergeMembers doc ask context name { dialect })
      (mergeMembers doc ask' context name { dialect }) state := by
  refine concurs_bind (concurs_pure []) fun inherited _ => ?_
  refine concurs_bind (concurs_pure []) fun own _ => ?_
  exact concurs_bind (concurs_ofExcept _) fun _ _ => concurs_pure _

theorem mergedFields_concurs (hdepth : state.cost doc ≤ depth) :
    Concurs doc (mergedFields doc ask context name id) (mergedFields doc ask' context name id)
      state := by
  unfold mergedFields
  refine concurs_get_bind ?_
  split
  · exact concurs_throw _
  · rename_i hnew
    refine concurs_between ?_
    by_cases hlt : id < doc.schemas.size
    · exact mergeMembers_concurs hask
        (Nat.le_trans (Compilation.cost_merging hlt (by simpa using hnew)) hdepth)
    · rw [Document.schema, Array.getD, dif_neg hlt]
      exact mergeMembers_concurs_empty

/-! ### Unions and anchors -/

theorem alternativesOf_concurs (hroom : state.Room doc depth) {schema : Schema}
    {members : List Edge} :
    Concurs doc (alternativesOf doc ask context schema members)
      (alternativesOf doc ask' context schema members) state := by
  refine concurs_foldlM hroom (fun member _ found now hnow => ?_) (fun member _ found now => ?_) []
  · refine concurs_bind (hask.type _ _ _ (hnow.lt member.id)) fun type _ => ?_
    cases type <;> exact concurs_pure _
  · refine retains_bind (hask.retain.type _ _ _) fun type _ _ => ?_
    cases type <;> exact retains_pure _

theorem unionOf_concurs (hroom : state.Room doc depth) {members : List Edge} :
    Concurs doc (unionOf doc ask context id members) (unionOf doc ask' context id members)
      state := by
  have hroom' : Compilation.Room doc depth { state with unions := id :: state.unions } := hroom
  refine concurs_bind ?_ fun _ _ => concurs_pure _
  exact concurs_between (alternativesOf_concurs hask hroom')

theorem variantsOf_concurs (hroom : state.Room doc depth) {schema : Schema}
    {targets : List String} :
    Concurs doc (variantsOf doc ask context schema targets)
      (variantsOf doc ask' context schema targets) state := by
  refine concurs_foldlM hroom (fun target _ variants now hnow => ?_)
    (fun target _ variants now => ?_) []
  · cases doc.resolve target with
    | none => exact concurs_throw _
    | some id =>
        refine concurs_bind (hask.type _ _ _ (hnow.lt id)) fun type _ => ?_
        split <;> exact concurs_pure _
  · cases doc.resolve target with
    | none => exact retains_throw _
    | some id =>
        refine retains_bind (hask.retain.type _ _ _) fun type _ _ => ?_
        split <;> exact retains_pure _

theorem registerAnchor_concurs (his : (doc.schema id).isAnchor = true)
    (hdepth : state.cost doc ≤ depth) :
    Concurs doc (registerAnchor doc ask context id) (registerAnchor doc ask' context id) state := by
  unfold registerAnchor
  refine concurs_get_bind ?_
  split
  · exact concurs_pure _
  · rename_i hnew
    have hanchor : state.anchor? id = none := Option.not_isSome_iff_eq_none.mp hnew
    refine concurs_modify_bind ?_
    split
    · exact concurs_pure _
    · rename_i mapping hmapping
      -- What stands beyond the document has no mapping.
      have hlt : id < doc.schemas.size := by
        apply doc.lt_size_of_ne
        intro hschema
        simp [hschema] at hmapping
      have hroom := Nat.le_trans
        (Compilation.cost_addAnchor hlt his hanchor (doc.schema id).label) hdepth
      exact concurs_bind (variantsOf_concurs hask hroom) fun _ _ => concurs_modify _

/-! ### Models and types -/

omit hask in
theorem modelName_concurs (schema : Schema) :
    Concurs doc (modelName schema) (modelName schema) state :=
  ⟨rfl, (modelName_counts state schema).mono (fun _ _ _ => trivial) fun _ _ => False.elim⟩

theorem shapeOf_concurs (hroom : state.Room doc depth) :
    Concurs doc (shapeOf doc ask context name id) (shapeOf doc ask' context name id) state := by
  rcases shapeOf_cases doc context name id with ⟨-, heq⟩ | ⟨-, heq⟩ | ⟨-, heq⟩ <;> rw [heq, heq]
  · exact concurs_bind (mergedFields_concurs hask (Nat.le_of_lt hroom.cost_lt))
      fun _ _ => concurs_pure _
  · exact unionOf_concurs hask hroom
  · exact concurs_bind (fieldsOf_concurs hask hroom) fun _ _ => concurs_pure _

theorem buildModel_concurs (hplain : (doc.schema id).isAnchor = false)
    (hnew : state.model? id = none) (hdepth : state.cost doc ≤ depth) :
    Concurs doc (buildModel doc ask context id) (buildModel doc ask' context id) state := by
  -- What stands beyond the document is an anchor.
  have hlt : id < doc.schemas.size := by
    apply doc.lt_size_of_ne
    intro hschema
    cases hplain.symm.trans (congrArg Schema.isAnchor hschema)
  refine concurs_bind_of (modelName_concurs _)
    ((modelName_counts state (doc.schema id)).mono (fun _ _ h => h) fun _ _ => False.elim) ?_
  rintro name after ⟨anonymous, rfl⟩
  refine concurs_get_bind (concurs_modify_bind ?_)
  have hroom : (({ state with anonymous } : Compilation).reserve id).Room doc depth :=
    Nat.le_trans (Compilation.cost_reserve hlt hplain hnew) hdepth
  refine concurs_bind (shapeOf_concurs hask hroom) fun shape _ => ?_
  exact concurs_modify_bind (concurs_pure _)

theorem modelType_concurs (hdepth : state.cost doc ≤ depth) :
    Concurs doc (modelType doc ask context id) (modelType doc ask' context id) state := by
  unfold modelType
  refine concurs_get_bind ?_
  split
  · split
    · exact concurs_throw _
    · exact concurs_pure _
  · rename_i hnew
    split
    · rename_i his
      exact concurs_bind (registerAnchor_concurs hask his hdepth) fun _ _ => concurs_pure _
    · rename_i hplain
      exact concurs_bind (buildModel_concurs hask (by simpa using hplain) hnew hdepth)
        fun _ _ => concurs_pure _

/-- A request for an array that comes back to itself needs no depth. -/
theorem typeOf_concurs_of_loops (hloop : TransGen doc.ItemOf id id) :
    Concurs doc (typeOf doc registry ask context id) (typeOf doc registry ask' context id)
      state := by
  obtain ⟨_, ⟨htype, items, hitems, rfl⟩, -⟩ := TransGen.head'_iff.mp hloop
  have hitem : doc.ItemOf id items.id := ⟨htype, items, hitems, rfl⟩
  simp only [typeOf, htype, hitems]
  refine concurs_bind ?_ fun _ _ => concurs_pure _
  exact elementType_concurs_of (hask.loops _ _ _ (hitem.loops hloop))

theorem typeOf_concurs (hdepth : state.cost doc + (doc.arraysFrom id).card ≤ depth) :
    Concurs doc (typeOf doc registry ask context id) (typeOf doc registry ask' context id)
      state := by
  by_cases hloop : TransGen doc.ItemOf id id
  · exact typeOf_concurs_of_loops hask hloop
  rcases typeOf_cases doc registry context id with
    ⟨items, htype, hitems, heq⟩ | ⟨-, -, heq⟩ | ⟨_, -, -, heq⟩ | ⟨-, heq⟩ <;> rw [heq, heq]
  · have hless := doc.card_arraysFrom_lt hloop ⟨htype, items, hitems, rfl⟩
    exact concurs_bind (elementType_concurs hask (by omega)) fun _ _ => concurs_pure _
  · exact concurs_throw _
  · exact concurs_bind (concurs_ofExcept _) fun _ _ => concurs_pure _
  · exact modelType_concurs hask (Nat.le_trans (Nat.le_add_right _ _) hdepth)

end Compile

/-! ## Requests of a depth -/

section Requests

variable {doc : Document} {registry : Registry} {depth depth' : Nat} {ask ask' : Requests}

/-- A request for an array that holds itself through arrays alone has no end at any depth, and
changes nothing. -/
theorem requests_loops {id : SchemaId} (hloop : TransGen doc.ItemOf id id) (depth : Nat)
    (context : Context) (state : Compilation) :
    (requests doc registry depth).type context id state = (.error .endless, state) := by
  induction depth generalizing context id state with
  | zero => rfl
  | succ depth ih =>
      obtain ⟨_, ⟨htype, items, hitems, rfl⟩, -⟩ := TransGen.head'_iff.mp hloop
      have hitem : doc.ItemOf id items.id := ⟨htype, items, hitems, rfl⟩
      have hinner := ih (hitem.loops hloop) {} { state with unions := [] }
      change typeOf doc registry (requests doc registry depth) context id state = _
      simp only [typeOf, htype, hitems, Compile.bind_apply, elementType_of_type hinner]
      rfl

/-- No depth at all is enough for nothing. -/
theorem requests_concur_zero
    (hloops : ∀ context id state, TransGen doc.ItemOf id id →
      ask.type context id state = (.error .endless, state)) :
    (requests doc registry 0).Concur doc 0 ask where
  retain := requests_retain doc registry 0
  loops := fun context id state hloop =>
    ⟨(hloops context id state hloop).symm, fun _ harrays => harrays id hloop⟩
  type := fun _ _ _ h => absurd h (Nat.not_lt_zero _)
  merged := fun _ _ _ _ h => absurd h (Nat.not_lt_zero _)

/-- Requests that ask one step more deeply concur where those that they ask do. -/
theorem Requests.Concur.succ (h : (requests doc registry depth).Concur doc depth ask)
    (htype : ∀ context id, ask'.type context id = typeOf doc registry ask context id)
    (hmerged : ∀ context name id,
      ask'.merged context name id = mergedFields doc ask context name id) :
    (requests doc registry (depth + 1)).Concur doc (depth + 1) ask' where
  retain := requests_retain doc registry (depth + 1)
  loops := by
    intro context id state hloop
    rw [htype]
    exact Compile.typeOf_concurs_of_loops h hloop
  type := by
    intro context id state hdepth
    rw [htype]
    exact Compile.typeOf_concurs h (Nat.le_of_lt_succ hdepth)
  merged := by
    intro context name id state hdepth
    rw [hmerged]
    exact Compile.mergedFields_concurs h (Nat.le_of_lt_succ hdepth)

theorem requests_concur (hle : depth ≤ depth') :
    (requests doc registry depth).Concur doc depth (requests doc registry depth') := by
  induction depth generalizing depth' with
  | zero =>
      exact requests_concur_zero fun context _ state hloop => requests_loops hloop _ context state
  | succ depth ih =>
      obtain ⟨depth', rfl⟩ := Nat.exists_eq_add_of_le hle
      rw [Nat.add_right_comm]
      exact .succ (ih (Nat.le_add_right _ _)) (fun _ _ => rfl) fun _ _ _ => rfl

namespace Document

/-- Requests that ask each other for the parts of a schema, however deeply. -/
structure Unbounded (doc : Document) (registry : Registry) (ask : Requests) : Prop where
  type : ∀ context id, ask.type context id = typeOf doc registry ask context id
  merged : ∀ context name id, ask.merged context name id = mergedFields doc ask context name id

theorem Unbounded.concur (harrays : doc.NoArrayCycle) (h : doc.Unbounded registry ask)
    (depth : Nat) : (requests doc registry depth).Concur doc depth ask := by
  induction depth with
  | zero => exact requests_concur_zero fun _ id _ hloop => absurd hloop (harrays id)
  | succ depth ih => exact .succ ih h.type h.merged

end Document

/-! ## The depth of a compilation -/

/-- The depth of a compilation is enough for every request, in every state. -/
theorem Requests.Concur.type_concurs {context : Context} {id : SchemaId} {state : Compilation}
    (h : ask.Concur doc doc.depth ask') :
    Compile.Concurs doc (ask.type context id) (ask'.type context id) state := by
  have hroom : state.Room doc doc.depth := Compilation.cost_le_depth
  exact h.type context id state (hroom.lt id)

theorem Requests.Concur.eq (h : ask.Concur doc doc.depth ask') : ask = ask' := by
  obtain ⟨type, merged⟩ := ask
  obtain ⟨type', merged'⟩ := ask'
  refine congrArg₂ Requests.mk ?_ ?_
  · funext context id state
    exact h.type_concurs.same
  · funext context name id state
    have hroom : state.Room doc doc.depth := Compilation.cost_le_depth
    exact (h.merged context name id state hroom.cost_lt).same

/-- At a greater depth requests do the same, also those that have no end. -/
theorem requests_eq_of_depth_le (hle : doc.depth ≤ depth) :
    requests doc registry depth = requests doc registry doc.depth :=
  (requests_concur hle).eq.symm

end Requests
end OpenApi
