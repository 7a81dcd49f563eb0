-- SUMMARY: Which failed calls of a compilation are as if they had not been made, and what the others leave.
import OpenApi.Proofs.Compilation.Result
import OpenApi.Proofs.Compilation.Retained
import OpenApi.Proofs.Model.Soundness

/-!
# Failed calls

A compilation goes on after a call has failed, and nothing that the call did is taken
back. A call that fails before it comes to a model or an anchor has done nothing. Any
other leaves a model whose slot is empty, or an anchor without variants. Later calls
find it and succeed; no model set comes out of a compilation with an empty slot. Nothing
comes behind a call that has no end.
-/

namespace OpenApi

/-! ## Calls -/

/-- A call for the type of a schema. -/
inductive Call where
  | schema (id : SchemaId)
  | named (name : String)
deriving DecidableEq, Repr

section Calls

variable (doc : Document) (registry : Registry)

namespace Call

/-- What a call does. -/
def step : Call → Compile (Option Ty)
  | .schema id => Compile.schema doc registry id
  | .named name => Compile.named doc registry name

/-- A call asks for a schema. -/
def Asks (id : SchemaId) : Call → Prop
  | .schema id' => id' = id
  | .named name => doc.lookup name = some id

/-- What a call answers. -/
abbrev Answer := Except SchemaError (Option Ty)

/-- Make calls one after another until one has no end. List those that end with their answers, and
give the compilation behind the last of them. -/
def run : List Call → Compilation → List (Call × Answer) × Compilation
  | [], state => ([], state)
  | call :: rest, state =>
    let (answer, after) := call.step doc registry state
    match ended answer with
    | none => ([], state)
    | some answer =>
      let (log, last) := run rest after
      ((call, answer) :: log, last)

end Call

/-- An array of arrays, as many as the number says, of values of another schema, which has a model
or is an anchor. -/
inductive Document.Nests : Nat → SchemaId → SchemaId → Prop where
  | self {id : SchemaId} :
      (doc.schema id).type = none ∨ (doc.schema id).type = some .object → Nests 0 id id
  | items {count : Nat} {id last : SchemaId} {items : Edge} :
      (doc.schema id).type = some .array → (doc.schema id).items = some items →
        Nests count items.id last → Nests (count + 1) id last

/-- A call that comes to no model and to no anchor. -/
def Call.Idle (call : Call) : Prop :=
  ∀ id count last, call.Asks doc id → ¬ doc.Nests count id last

end Calls

/-- The type of arrays of arrays of a schema, given the type of that, if it is no anchor. -/
def nested (last : SchemaId) (type : Option Ty) : Nat → Option Ty
  | 0 => type
  | count + 1 => some (.array ((nested last type count).getD (.anchor last)))

variable {doc : Document} {registry : Registry} {state after : Compilation}
variable {id last : SchemaId} {count depth : Nat} {call : Call} {core : Option Ty}

/-! ## Arrays of arrays -/

theorem nested_getD (last : SchemaId) (core : Option Ty) {id : SchemaId}
    (h : doc.Nests count id last) :
    (nested last core count).getD (.anchor id) = (nested last core count).getD (.anchor last) := by
  cases h <;> rfl

/-- Arrays of arrays have a type, with one level for each array. -/
theorem Document.Nests.exists_type (h : doc.Nests count id last) (registry : Registry) :
    ∃ type, HasType doc registry some id type ∧ (type.getD (.anchor id)).size = count + 1 := by
  induction h with
  | @self id htype =>
      cases hanchor : (doc.schema id).isAnchor with
      | true => exact ⟨none, .anchor hanchor, rfl⟩
      | false => exact ⟨some (.model id), .model ⟨htype, hanchor⟩ rfl, rfl⟩
  | items htype hitems _ ih =>
      obtain ⟨type, hitem, hsize⟩ := ih
      refine ⟨_, .array htype hitems hitem, ?_⟩
      simp only [Option.getD_some, Ty.size, hsize]
      omega

/-- The bound on requests is enough for all arrays of arrays. -/
theorem Document.Nests.lt_depth (h : doc.Nests count id last) : count < doc.depth := by
  obtain ⟨type, htype, hsize⟩ := h.exists_type .standard
  have hle := htype.size_le
  have hcost : ({} : Compilation).cost doc + (doc.schemas.size + 1) ≤ doc.depth :=
    Compilation.cost_le_depth
  omega

/-! ## Calls that begin nothing -/

/-- A schema that is no array of arrays of a model or an anchor has its answer from the document
alone, if it has one. -/
theorem type_of_not_nests (registry : Registry) (h : ∀ count last, ¬ doc.Nests count id last)
    (depth : Nat) (context : Context) :
    ∃ answer, ∀ state, (requests doc registry depth).type context id state = (answer, state) := by
  induction depth generalizing id context with
  | zero => exact ⟨.error .endless, fun _ => rfl⟩
  | succ depth ih =>
      change ∃ answer, ∀ state,
        typeOf doc registry (requests doc registry depth) context id state = (answer, state)
      rcases typeOf_cases doc registry context id with
        ⟨items, htype, hitems, heq⟩ | ⟨-, -, heq⟩ | ⟨primitive, -, -, heq⟩ | ⟨hend, -⟩
      · obtain ⟨answer, hanswer⟩ := ih (fun count last hnests =>
          h (count + 1) last (.items htype hitems hnests)) {}
        refine ⟨answer.map fun type => some (.array (type.getD (.anchor items.id))), ?_⟩
        intro state
        rw [heq, Compile.bind_apply, elementType_of_type (hanswer _)]
        cases answer <;> rfl
      · exact ⟨.error (.failed (.missingItems (doc.schema id).label)), fun _ => by rw [heq]; rfl⟩
      · rw [heq]
        cases registry.resolve primitive (doc.schema id).format with
        | ok scalar => exact ⟨.ok (some (.scalar scalar)), fun _ => rfl⟩
        | error error => exact ⟨.error (.failed error), fun _ => rfl⟩
      · exact absurd (.self hend) (h 0 id)

/-- An idle call that stops once stops for the same reason in every state, and changes none. -/
theorem Call.Idle.step_fails (hidle : call.Idle doc) {before : Compilation}
    {stop : Stop SchemaError} (h : (call.step doc registry before).1 = .error stop)
    (state : Compilation) : call.step doc registry state = (.error stop, state) := by
  cases call with
  | schema id =>
      obtain ⟨answer, hanswer⟩ :=
        type_of_not_nests registry (fun count last => hidle id count last rfl) doc.depth {}
      change (Compile.schema doc registry id before).1 = _ at h
      change Compile.schema doc registry id state = _
      rw [Compile.schema, hanswer] at h ⊢
      exact congrArg (·, state) h
  | named name =>
      change (Compile.named doc registry name before).1 = _ at h
      change Compile.named doc registry name state = _
      cases hlookup : doc.lookup name with
      | none =>
          simp only [Compile.named, hlookup] at h ⊢
          cases h
          rfl
      | some id =>
          obtain ⟨answer, hanswer⟩ := type_of_not_nests registry
            (fun count last => hidle id count last hlookup) doc.depth {}
          simp only [Compile.named, hlookup, Compile.schema, Compile.bind_apply, hanswer] at h ⊢
          cases answer with
          | ok type => cases h
          | error _ =>
              cases h
              rfl

/-! ## Calls that begin something -/

/-- What a failed call has left of a schema: a model with an empty slot, or an anchor without
variants. -/
inductive Compilation.Left (doc : Document) (state : Compilation) (id : SchemaId) :
    Option Ty → Prop where
  | model {m : ModelId} :
      state.model? id = some m → state.slots[m]? = some none → Left doc state id (some (.model m))
  | anchor :
      (doc.schema id).isAnchor = true → state.model? id = none →
        state.anchor? id = some { name := (doc.schema id).label } → Left doc state id none

/-- Nothing that follows takes away what a failed call has left. -/
theorem Compilation.Left.mono (h : state.Left doc id core) (hretains : state.Retains doc after) :
    after.Left doc id core := by
  cases h with
  | model hm hslot => exact .model (hretains.models _ _ hm) (hretains.slots hslot)
  | anchor hanchor hnone hleft =>
      exact .anchor hanchor (hretains.unmodelled hanchor hnone) (hretains.anchors hleft)

/-- A schema that is asked for outside unions fails only where it is begun. -/
theorem modelType_leaves {ask : Requests} (hask : ask.Retain doc) (hunions : state.unions = [])
    (id : SchemaId) :
    (modelType doc ask {} id).Ends state (fun _ _ => True)
      fun _ after => state.Retains doc after ∧ ∃ core, after.Left doc id core := by
  simp only [modelType, Compile.ends_bind, Compile.ends_get, hunions]
  split
  · simp
  · rename_i hnew
    split
    · rename_i hanchor
      simp only [Compile.ends_bind, Compile.ends_pure]
      refine (registerAnchor_retains hask {} state id).mono (fun _ _ _ => trivial) ?_
      rintro error after ⟨hretains, -, hleft⟩
      exact ⟨hretains, none, .anchor hanchor (hretains.unmodelled hanchor hnew) hleft⟩
    · rename_i hmodel
      simp only [Compile.ends_bind, Compile.ends_pure]
      refine (buildModel_retains hask {} state hnew (by simpa using hmodel)).mono
        (fun _ _ _ => trivial) ?_
      rintro error after ⟨hretains, m, hm, hslot⟩
      exact ⟨hretains, _, .model hm hslot⟩

/-- What is left of a schema is its answer. -/
theorem Compilation.Left.modelType_ends {ask : Requests} (h : state.Left doc id core)
    (hunions : state.unions = []) :
    (modelType doc ask {} id).Ends state (fun answer after => answer = core ∧ after = state)
      fun _ _ => False := by
  cases h with
  | model hm =>
      simp only [modelType, Compile.ends_bind, Compile.ends_get, hm, hunions]
      simp
  | anchor hanchor hnone hleft =>
      simp only [modelType, Compile.ends_bind, Compile.ends_get, hnone, hanchor, registerAnchor]
      simp [hleft]

/-- Arrays of arrays fail where the schema at their end does, and else are arrays of its type. -/
theorem type_ends_of_nests (registry : Registry) (h : doc.Nests count id last)
    (hlt : count < depth) (hunions : state.unions = []) {ok : Option Ty → Compilation → Prop}
    {fails : Stop SchemaError → Compilation → Prop}
    (hend : ∀ ask : Requests, ask.Retain doc → (modelType doc ask {} last).Ends state
      (fun type after => ok (nested last type count) after) fails) :
    ((requests doc registry depth).type {} id).Ends state ok fails := by
  induction h generalizing depth ok with
  | @self id htype =>
      obtain ⟨depth, rfl⟩ := Nat.exists_eq_add_of_lt hlt
      have heq : typeOf doc registry (requests doc registry (0 + depth)) {} id =
          modelType doc (requests doc registry (0 + depth)) {} id := by
        rcases htype with htype | htype <;> simp only [typeOf, htype]
      change (typeOf doc registry (requests doc registry (0 + depth)) {} id).Ends state ok fails
      rw [heq]
      exact hend _ (requests_retain doc registry _)
  | @items count id last items htype hitems hnests ih =>
      obtain ⟨depth, rfl⟩ := Nat.exists_eq_add_of_lt hlt
      change (typeOf doc registry (requests doc registry (count + 1 + depth)) {} id).Ends state ok
        fails
      have hstart : ({ state with unions := [] } : Compilation) = state := by rw [← hunions]
      simp only [typeOf, htype, hitems, elementType, Compile.ends_bind, Compile.ends_get,
        Compile.ends_between, Compile.ends_pure, hstart]
      -- Behind an item the unions are those before it, of which there are none.
      have hsame {after : Compilation} (hretains : state.Retains doc after) :
          { after with unions := state.unions } = after := by rw [← hretains.unions]
      have hitem : ((requests doc registry (count + 1 + depth)).type {} items.id).Ends state
          (fun type after => ok (some (.array (type.getD (.anchor items.id)))) after) fails := by
        refine ih (by omega) fun ask hask => ?_
        simpa only [nested_getD last _ hnests, nested] using hend ask hask
      refine (hitem.and ((requests_retain doc registry _).type {} items.id state)).mono ?_ ?_
      · rintro type after ⟨hok, hretains⟩
        rwa [hsame hretains]
      · rintro error after ⟨hfails, hretains⟩
        rwa [hsame hretains]

namespace Call

theorem step_retains (doc : Document) (registry : Registry) (call : Call) (state : Compilation) :
    (call.step doc registry).Retains doc state := by
  cases call with
  | schema id => exact (requests_retain doc registry _).type {} id state
  | named name =>
      change (Compile.named doc registry name).Retains doc state
      unfold Compile.named
      split
      · exact Compile.retains_throw _
      · rename_i id _
        refine Compile.retains_bind ((requests_retain doc registry _).type {} id state)
          fun type now _ => ?_
        simp only [Compile.Retains, Compile.ends_bind, Compile.ends_modify, Compile.ends_pure]
        exact (Compilation.Retains.refl now).restore rfl rfl rfl rfl rfl rfl rfl rfl

theorem retains_of_step {result : Except (Stop SchemaError) (Option Ty)}
    (h : call.step doc registry state = (result, after)) : state.Retains doc after := by
  have hafter := (step_retains doc registry call state).last
  rwa [h] at hafter

/-- A call for arrays of arrays ends as the schema at their end does. -/
theorem step_ends (registry : Registry) (hasks : call.Asks doc id) (hnests : doc.Nests count id last)
    (hunions : state.unions = []) {ok : Option Ty → Prop}
    {fails : Stop SchemaError → Compilation → Prop}
    (hend : ∀ ask : Requests, ask.Retain doc → (modelType doc ask {} last).Ends state
      (fun type _ => ok (nested last type count)) fails) :
    (call.step doc registry).Ends state (fun type _ => ok type) fails := by
  have hschema : ((requests doc registry doc.depth).type {} id).Ends state
      (fun type _ => ok type) fails :=
    type_ends_of_nests registry hnests hnests.lt_depth hunions hend
  cases call with
  | schema id' =>
      obtain rfl : id' = id := hasks
      exact hschema
  | named name =>
      have hlookup : doc.lookup name = some id := hasks
      change (Compile.named doc registry name).Ends state _ _
      simp only [Compile.named, hlookup, Compile.ends_bind, Compile.ends_modify,
        Compile.ends_pure]
      exact hschema

/-- A call that fails leaves the schema that it comes to. -/
theorem step_leaves (registry : Registry) (hasks : call.Asks doc id) (hnests : doc.Nests count id last)
    (hunions : state.unions = []) :
    (call.step doc registry).Ends state (fun _ _ => True)
      fun _ after => ∃ core, after.Left doc last core :=
  step_ends registry hasks hnests hunions fun _ hask =>
    (modelType_leaves hask hunions last).mono (fun _ _ _ => trivial) fun _ _ h => h.2

/-- A call succeeds with what a failed call has left. -/
theorem step_finds (registry : Registry) (hleft : state.Left doc last core)
    (hasks : call.Asks doc id) (hnests : doc.Nests count id last) (hunions : state.unions = []) :
    (call.step doc registry state).1 = .ok (nested last core count) := by
  have hends : (call.step doc registry).Ends state (fun type _ => type = nested last core count)
      fun _ _ => False :=
    step_ends registry hasks hnests hunions fun _ _ =>
      (hleft.modelType_ends hunions).imp fun _ _ h => by rw [h.1]
  rcases hstep : call.step doc registry state with ⟨stop | type, after⟩ <;>
    rw [Compile.Ends, hstep] at hends
  · exact hends.elim
  · rw [hends]

/-! ## Runs -/

variable {calls : List Call} {answer : Answer}

theorem run_cons_of_ended {after : Compilation} (rest : List Call)
    (h : call.step doc registry state = (answer.mapError .failed, after)) :
    run doc registry (call :: rest) state =
      ((call, answer) :: (run doc registry rest after).1, (run doc registry rest after).2) := by
  simp only [run, h, ended_eq_some_iff.mpr rfl]

/-- A call ends, and the others are made behind it, or it has no end and nothing comes of it. -/
theorem run_cons_cases (doc : Document) (registry : Registry) (call : Call) (rest : List Call)
    (state : Compilation) :
    (∃ answer after, call.step doc registry state = (answer.mapError .failed, after) ∧
      run doc registry (call :: rest) state =
        ((call, answer) :: (run doc registry rest after).1, (run doc registry rest after).2)) ∨
      run doc registry (call :: rest) state = ([], state) := by
  rcases hstep : call.step doc registry state with ⟨answer, after⟩
  cases hended : ended answer with
  | none => exact .inr (by simp only [run, hstep, hended])
  | some answer =>
      obtain rfl := ended_eq_some_iff.mp hended
      exact .inl ⟨answer, after, rfl, run_cons_of_ended rest hstep⟩

theorem run_retains (doc : Document) (registry : Registry) (calls : List Call)
    (state : Compilation) :
    state.Retains doc (run doc registry calls state).2 := by
  induction calls generalizing state with
  | nil => exact .refl state
  | cons call rest ih =>
      rcases run_cons_cases doc registry call rest state with ⟨answer, after, hstep, hrun⟩ | hrun
      · rw [hrun]
        exact (retains_of_step hstep).trans (ih after)
      · rw [hrun]
        exact .refl state

/-- An entry of the log is a call that was made somewhere in the run. -/
theorem exists_of_log {before later : List (Call × Answer)}
    (h : (run doc registry calls state).1 = before ++ (call, answer) :: later) :
    ∃ now after rest, state.Retains doc now ∧
      call.step doc registry now = (answer.mapError .failed, after) ∧
      run doc registry rest after = (later, (run doc registry calls state).2) := by
  induction calls generalizing state before with
  | nil => cases before <;> cases h
  | cons first rest ih =>
      rcases run_cons_cases doc registry first rest state with
        ⟨found, after, hstep, hrun⟩ | hrun <;> rw [hrun] at h ⊢
      · cases before with
        | nil =>
            cases h
            exact ⟨state, after, rest, .refl state, hstep, rfl⟩
        | cons entry before =>
            obtain ⟨now, after', rest', hretains, hstep', hrest⟩ := ih (List.cons.inj h).2
            exact ⟨now, after', rest', (retains_of_step hstep).trans hretains, hstep', hrest⟩
      · cases before <;> cases h

/-- Calls find what a failed call has left, however many calls there are in between. -/
theorem run_finds (hleft : state.Left doc last core) (hunions : state.unions = [])
    (hmem : (call, answer) ∈ (run doc registry calls state).1)
    (hasks : call.Asks doc id) (hnests : doc.Nests count id last) :
    answer = .ok (nested last core count) := by
  obtain ⟨before, later, hlog⟩ := List.append_of_mem hmem
  obtain ⟨now, after, rest, hretains, hstep, -⟩ := exists_of_log hlog
  have hfinds := step_finds registry (hleft.mono hretains) hasks hnests
    (hretains.unions.trans hunions)
  rw [hstep] at hfinds
  cases answer <;> cases hfinds
  rfl

/-- Idle calls that fail can be left out of a run. -/
theorem run_filter {keep : Call × Answer → Bool}
    (h : ∀ entry ∈ (run doc registry calls state).1, keep entry = false →
      (∃ error, entry.2 = .error error) ∧ entry.1.Idle doc) :
    run doc registry (((run doc registry calls state).1.filter keep).map (·.1)) state =
      ((run doc registry calls state).1.filter keep, (run doc registry calls state).2) := by
  induction calls generalizing state with
  | nil => rfl
  | cons call rest ih =>
      rcases run_cons_cases doc registry call rest state with
        ⟨answer, after, hstep, hrun⟩ | hrun <;> rw [hrun] at h ⊢
      · rw [List.forall_mem_cons] at h
        have hrest := ih h.2
        cases hkeep : keep (call, answer) with
        | true =>
            rw [List.filter_cons_of_pos hkeep, List.map_cons, run_cons_of_ended _ hstep, hrest]
        | false =>
            obtain ⟨⟨error, rfl⟩, hidle⟩ := h.1 hkeep
            -- The call that is left out has changed nothing.
            cases (hidle.step_fails (by rw [hstep]; rfl) state).symm.trans hstep
            rw [List.filter_cons_of_neg (by simp [hkeep])]
            exact hrest
      · rfl

end Call

/-! ## Finishing -/

theorem Compilation.modelsOf_eq_error (doc : Document) (memo : List (SchemaId × ModelId))
    {slots : List (Option Model)} (h : none ∈ slots) (place : Nat) :
    ∃ label, modelsOf doc memo place slots = .error (.incomplete label) := by
  induction slots generalizing place with
  | nil => cases h
  | cons slot rest ih =>
      cases slot with
      | none => exact ⟨_, rfl⟩
      | some model =>
          obtain ⟨label, hlabel⟩ := ih (by simpa using h) (place + 1)
          exact ⟨label, by simp only [modelsOf, hlabel]; rfl⟩

theorem Compilation.finish_eq_error {m : ModelId} (h : state.slots[m]? = some none) :
    ∃ label, state.finish doc = .error (.incomplete label) := by
  have hmem : none ∈ state.slots.toList := by
    rw [Array.mem_toList_iff]
    exact Array.mem_of_getElem? h
  obtain ⟨label, hlabel⟩ := modelsOf_eq_error doc state.memo hmem 0
  exact ⟨label, by simp only [finish, hlabel]; rfl⟩

theorem Compilation.anchor_finish {set : ModelSet} (h : state.finish doc = .ok set)
    (id : SchemaId) : set.anchor id = state.anchor? id := by
  unfold finish at h
  cases hmodels : modelsOf doc state.memo 0 state.slots.toList with
  | error error =>
      rw [hmodels] at h
      cases h
  | ok models =>
      rw [hmodels] at h
      cases h
      rfl

/-! ## Failed calls -/

namespace Document

/-- What becomes of the calls that fail, among calls that all have an end. Those that come to no
model and no anchor fail wherever they are made, and can be left out without a change of any other
answer or of what has been built. Any other is not taken back: from then on, and also at the end, a
call that comes to the same model or anchor succeeds. If it is a model, its slot stays empty and
nothing can be finished; if it is an anchor, it stays without variants. -/
theorem run_failed (doc : Document) (registry : Registry) (calls : List Call) :
    let log := (Call.run doc registry calls {}).1
    let last := (Call.run doc registry calls {}).2
    (∀ keep : Call × Call.Answer → Bool,
      (∀ entry ∈ log, keep entry = false →
        (∃ error, entry.2 = .error error) ∧ entry.1.Idle doc) →
      Call.run doc registry ((log.filter keep).map (·.1)) {} = (log.filter keep, last)) ∧
    ∀ before call error later, log = before ++ (call, .error error) :: later →
      (call.Idle doc → ∀ answer, (call, answer) ∈ log → answer = .error error) ∧
      ∀ id count schema, call.Asks doc id → doc.Nests count id schema →
        ∃ core,
          (∀ call' id' count', call'.Asks doc id' → doc.Nests count' id' schema →
            (∀ answer, (call', answer) ∈ later → answer = .ok (nested schema core count')) ∧
              (call'.step doc registry last).1 = .ok (nested schema core count')) ∧
          ((∃ m, core = some (.model m) ∧ last.slots[m]? = some none ∧
              ∃ label, last.finish doc = .error (.incomplete label)) ∨
            (doc.schema schema).isAnchor = true ∧ core = none ∧
              ∀ set, last.finish doc = .ok set →
                set.anchor schema = some { name := (doc.schema schema).label }) := by
  intro log last
  refine ⟨fun keep hkeep => Call.run_filter hkeep, ?_⟩
  intro before call error later hlog
  obtain ⟨now, after, rest, hretains, hstep, hrest⟩ := Call.exists_of_log hlog
  refine ⟨?_, ?_⟩
  · intro hidle answer hmem
    obtain ⟨_, _, hother⟩ := List.append_of_mem hmem
    obtain ⟨now', after', -, -, hstep', -⟩ := Call.exists_of_log hother
    rw [hidle.step_fails (by rw [hstep]; rfl) now'] at hstep'
    cases answer <;> cases hstep'
    rfl
  · intro id count schema hasks hnests
    have hleaves := Call.step_leaves registry hasks hnests hretains.unions
    rw [Compile.Ends, hstep] at hleaves
    obtain ⟨core, hleft⟩ := hleaves
    have hunions : after.unions = [] :=
      (Call.retains_of_step hstep).unions.trans hretains.unions
    have hend : last.Left doc schema core := by
      have hlast := Call.run_retains doc registry rest after
      rw [hrest] at hlast
      exact hleft.mono hlast
    have hlastUnions : last.unions = [] := (Call.run_retains doc registry calls {}).unions
    refine ⟨core, ?_, ?_⟩
    · intro call' id' count' hasks' hnests'
      refine ⟨fun answer hmem => ?_, Call.step_finds registry hend hasks' hnests' hlastUnions⟩
      have hmem : (call', answer) ∈ (Call.run doc registry rest after).1 := by rwa [hrest]
      exact Call.run_finds hleft hunions hmem hasks' hnests'
    · cases hend with
      | @model m hm hslot =>
          exact .inl ⟨m, rfl, hslot, Compilation.finish_eq_error hslot⟩
      | anchor hanchor hnone hknown =>
          exact .inr ⟨hanchor, rfl, fun set hset =>
            (Compilation.anchor_finish hset schema).trans hknown⟩

/-- An object with an array without items as a property, and arrays of that object. -/
def missingItems : Document where
  dialect := .openApi30
  schemas := #[
    { dialect := .openApi30, identity := some "X", type := some .object
      properties := [("f", { id := 1 })] },
    { dialect := .openApi30, identity := some "X.f", type := some .array },
    { dialect := .openApi30, identity := some "Xs", type := some .array
      items := some { id := 0, reference := some "#/components/schemas/X" } }]
  named := [("X", 0), ("Xs", 2)]

private theorem missingItems_idle :
    (Call.named "Y").Idle missingItems ∧ (Call.schema 1).Idle missingItems := by
  constructor
  · intro id count last hasks
    have hnone : missingItems.lookup "Y" = none := rfl
    cases hnone.symm.trans hasks
  · rintro id count last rfl hnests
    cases hnests with
    | self htype => rcases htype with htype | htype <;> cases htype
    | items _ hitems => cases hitems

/-- The calls for a name that there is not and for the array without items can be left out. That
for the object leaves an empty slot, so the one for arrays of it succeeds and nothing can be
finished. -/
theorem missingItems_run_failed :
    let calls : List Call := [.named "Y", .schema 1, .named "X", .named "Xs"]
    (Call.run missingItems .standard calls {}).1 =
        [(.named "Y", .error (.unknownSchema "Y")), (.schema 1, .error (.missingItems "X.f")),
          (.named "X", .error (.missingItems "X.f")),
          (.named "Xs", .ok (some (.array (.model 0))))] ∧
      Call.run missingItems .standard [.named "X", .named "Xs"] {} =
        ([(.named "X", .error (.missingItems "X.f")),
          (.named "Xs", .ok (some (.array (.model 0))))],
          (Call.run missingItems .standard calls {}).2) ∧
      ∃ label, (Call.run missingItems .standard calls {}).2.finish missingItems =
        .error (.incomplete label) := by
  intro calls
  have hlog : (Call.run missingItems .standard calls {}).1 =
      [(.named "Y", .error (.unknownSchema "Y")), (.schema 1, .error (.missingItems "X.f")),
        (.named "X", .error (.missingItems "X.f")),
        (.named "Xs", .ok (some (.array (.model 0))))] := rfl
  obtain ⟨hdrop, hfailed⟩ := run_failed missingItems .standard calls
  refine ⟨hlog, ?_, ?_⟩
  · refine hdrop (fun entry => entry.1 == .named "X" || entry.1 == .named "Xs") ?_
    rw [hlog]
    intro entry hmem hkeep
    simp only [List.mem_cons, List.not_mem_nil, or_false] at hmem
    rcases hmem with rfl | rfl | rfl | rfl
    · exact ⟨⟨_, rfl⟩, missingItems_idle.1⟩
    · exact ⟨⟨_, rfl⟩, missingItems_idle.2⟩
    · simp at hkeep
    · simp at hkeep
  · obtain ⟨core, -, hcore⟩ := (hfailed [_, _] _ _ _ hlog).2 0 0 0 rfl (.self (.inr rfl))
    rcases hcore with ⟨m, -, -, hfinish⟩ | ⟨hanchor, -⟩
    · exact hfinish
    · cases hanchor

/-- Leaving out all calls that fail changes what the others answer. -/
theorem missingItems_not_undone :
    ¬ ∀ (doc : Document) (registry : Registry) (calls : List Call),
      let kept := (Call.run doc registry calls {}).1.filter fun entry => entry.2.isOk
      (Call.run doc registry (kept.map (·.1)) {}).1 = kept ∧
        (Call.run doc registry (kept.map (·.1)) {}).2.finish doc =
          (Call.run doc registry calls {}).2.finish doc := by
  intro h
  have hkept := (h missingItems .standard [.schema 0, .schema 0]).1
  have hlog : (Call.run missingItems .standard [.schema 0, .schema 0] {}).1 =
      [(.schema 0, .error (.missingItems "X.f")), (.schema 0, .ok (some (.model 0)))] := rfl
  have halone : (Call.run missingItems .standard [.schema 0] {}).1 =
      [(.schema 0, .error (.missingItems "X.f"))] := rfl
  rw [hlog] at hkept
  cases halone.symm.trans hkept

end Document
end OpenApi
