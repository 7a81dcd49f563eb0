-- SUMMARY: Calls for one schema answer alike, schemas keep their indices apart, and slots stay as they are filled.
import OpenApi.Proofs.Compilation.Indices
import OpenApi.Proofs.FailedCalls

/-!
# Repeated calls

A schema may be asked for again and again, by its id and by its names, and be met in
between behind other schemas and in calls that fail. Whatever was answered is the type of
the schema by the indices that there are, and indices are never given to another schema
nor taken back. So an answer is always the same, and what an index stands for does not
change once it is there.
-/

namespace OpenApi
namespace Call

variable {doc : Document} {registry : Registry} {state : Compilation} {call : Call}
variable {calls : List Call} {id : SchemaId} {type : Option Ty}

theorem step_upholds {holds : Arena → Prop} (hinv : Arena.Invariant doc holds)
    (registry : Registry) (call : Call) : (call.step doc registry).Upholds holds := by
  have hschema (id : SchemaId) : (Compile.schema doc registry id).Upholds holds :=
    (requests_uphold hinv registry doc.depth).type {} id
  cases call with
  | schema id => exact hschema id
  | named name =>
      change (Compile.named doc registry name).Upholds holds
      unfold Compile.named
      split
      · exact Compile.upholds_throw _
      · exact Compile.upholds_bind (hschema _) fun _ _ h => h

theorem upholds_of_step {holds : Arena → Prop} (hinv : Arena.Invariant doc holds)
    (hstate : holds state.arena) {result : Except (Stop SchemaError) (Option Ty)}
    {after : Compilation} (h : call.step doc registry state = (result, after)) :
    holds after.arena := by
  have hafter := (step_upholds hinv registry call state hstate).last
  rwa [h] at hafter

theorem run_upholds {holds : Arena → Prop} (hinv : Arena.Invariant doc holds)
    (hstate : holds state.arena) : holds (run doc registry calls state).2.arena := by
  induction calls generalizing state with
  | nil => exact hstate
  | cons call rest ih =>
      rcases run_cons_cases doc registry call rest state with ⟨answer, after, hstep, hrun⟩ | hrun
      · rw [hrun]
        exact ih (upholds_of_step hinv hstate hstep)
      · rwa [hrun]

/-- What a call answers is the type of the schema that it asks for. -/
theorem step_answers (hstate : state.arena.Indexed doc) (hasks : call.Asks doc id) :
    (call.step doc registry).Ends state
      (fun type after => HasType doc registry after.model? id type) fun _ _ => True := by
  have hschema : (Compile.schema doc registry id).Ends state
      (fun type after => HasType doc registry after.model? id type) fun _ _ => True :=
    requests_answer doc registry doc.depth {} id state hstate
  cases call with
  | schema id' =>
      obtain rfl : id' = id := hasks
      exact hschema
  | named name =>
      have hlookup : doc.lookup name = some id := hasks
      change (Compile.named doc registry name).Ends state _ _
      simp only [Compile.named, hlookup, Compile.ends_bind, Compile.ends_modify,
        Compile.ends_pure]
      exact hschema

/-- What was answered during a run is the type of the schema by the indices at its end. -/
theorem run_answers (hstate : state.arena.Indexed doc) (hasks : call.Asks doc id)
    (hmem : (call, .ok type) ∈ (run doc registry calls state).1) :
    HasType doc registry (run doc registry calls state).2.model? id type := by
  induction calls generalizing state with
  | nil => cases hmem
  | cons first rest ih =>
      rcases run_cons_cases doc registry first rest state with
        ⟨answer, after, hstep, hrun⟩ | hrun <;> rw [hrun] at hmem ⊢
      · rcases List.mem_cons.mp hmem with heq | hmem
        · cases heq
          have hok : (call.step doc registry state).1 = .ok type := by
            rw [hstep]
            rfl
          have htype := (step_answers hstate hasks).of_ok hok
          rw [hstep] at htype
          exact htype.mono (run_retains doc registry rest after).models
        · exact ih (upholds_of_step (Arena.indexed_invariant doc) hstate hstep) hmem
      · cases hmem

/-- Further calls only add to what a run has made. -/
theorem run_append_retains (doc : Document) (registry : Registry) (before after : List Call)
    (state : Compilation) :
    (run doc registry before state).2.Retains doc (run doc registry (before ++ after) state).2 := by
  induction before generalizing state with
  | nil => exact run_retains doc registry after state
  | cons call rest ih =>
      rcases hstep : call.step doc registry state with ⟨answer, now⟩
      simp only [List.cons_append, run, hstep]
      cases ended answer with
      | none => exact .refl state
      | some answer => exact ih now

end Call

namespace Document

/-- However calls follow each other and whichever of them fail, all that are answered for one schema
have one answer, which is the type of the schema by the indices at the end. No two schemas have the
same index, and each keeps its own. A slot that was filled at some time holds the same model at the
end, and this is the model of the schema that has its index. -/
theorem run_stable (doc : Document) (registry : Registry) (calls : List Call) :
    let log := (Call.run doc registry calls {}).1
    let last := (Call.run doc registry calls {}).2
    (∀ id call type, call.Asks doc id → (call, .ok type) ∈ log →
      HasType doc registry last.model? id type ∧
        ∀ call' type', call'.Asks doc id → (call', .ok type') ∈ log → type' = type) ∧
    (∀ id id' m, last.model? id = some m → last.model? id' = some m → id = id') ∧
    ∀ before after, calls = before ++ after →
      let first := (Call.run doc registry before {}).2
      (∀ id m, first.model? id = some m → last.model? id = some m) ∧
      ∀ m model, first.slots[m]? = some (some model) →
        last.slots[m]? = some (some model) ∧ last.model? model.schema = some m := by
  intro log last
  have hlast : last.arena.Indexed doc :=
    Call.run_upholds (Arena.indexed_invariant doc) (Arena.indexed_start doc)
  refine ⟨?_, fun id id' m => hlast.distinct, ?_⟩
  · intro id call type hasks hmem
    have htype := Call.run_answers (Arena.indexed_start doc) hasks hmem
    refine ⟨htype, fun call' type' hasks' hmem' => ?_⟩
    exact (Call.run_answers (Arena.indexed_start doc) hasks' hmem').unique htype
  · rintro before after rfl first
    have hretains : first.Retains doc last := Call.run_append_retains doc registry before after {}
    refine ⟨fun id m => hretains.models id m, fun m model hslot => ?_⟩
    have hfilled := hretains.slots hslot
    exact ⟨hfilled, hlast.owner hfilled⟩

/-- Accounts and their owners, who hold lists of accounts; the history of an account is an array
without items. -/
def accounts : Document where
  dialect := .openApi30
  schemas := #[
    { dialect := .openApi30, identity := some "Account", type := some .object
      properties := [
        ("owner", { id := 1, reference := some "#/components/schemas/Owner" }),
        ("history", { id := 3 })] },
    { dialect := .openApi30, identity := some "Owner", type := some .object
      properties := [
        ("accounts", { id := 2, reference := some "#/components/schemas/Accounts" })] },
    { dialect := .openApi30, identity := some "Accounts", type := some .array
      items := some { id := 0, reference := some "#/components/schemas/Account" } },
    { dialect := .openApi30, identity := some "Account.history", type := some .array },
    { dialect := .openApi30, identity := some "Party"
      discriminator := some { property := "kind" } }]
  named := [("Account", 0), ("Owner", 1), ("Accounts", 2), ("Party", 4)]

/-- The call for accounts fails after it has built the model of owners. That model stays as it is,
and lists of accounts have one type in all calls that succeed. -/
theorem accounts_run_stable :
    let calls : List Call := [.named "Account", .named "Party", .named "Owner", .schema 2,
      .named "Nobody", .schema 1, .named "Accounts", .named "Account"]
    let log := (Call.run accounts .standard calls {}).1
    let first := (Call.run accounts .standard [.named "Account"] {}).2
    let last := (Call.run accounts .standard calls {}).2
    log = [(.named "Account", .error (.missingItems "Account.history")), (.named "Party", .ok none),
        (.named "Owner", .ok (some (.model 1))), (.schema 2, .ok (some (.array (.model 0)))),
        (.named "Nobody", .error (.unknownSchema "Nobody")), (.schema 1, .ok (some (.model 1))),
        (.named "Accounts", .ok (some (.array (.model 0)))),
        (.named "Account", .ok (some (.model 0)))] ∧
      (∀ call type, call.Asks accounts 2 → (call, .ok type) ∈ log →
        type = some (.array (.model 0))) ∧
      ∃ owner, first.slots[1]? = some (some owner) ∧ owner.schema = 1 ∧
        last.slots[1]? = some (some owner) ∧ last.model? 1 = some 1 := by
  intro calls log first last
  have hlog : log = [(.named "Account", .error (.missingItems "Account.history")),
      (.named "Party", .ok none), (.named "Owner", .ok (some (.model 1))),
      (.schema 2, .ok (some (.array (.model 0)))),
      (.named "Nobody", .error (.unknownSchema "Nobody")), (.schema 1, .ok (some (.model 1))),
      (.named "Accounts", .ok (some (.array (.model 0)))),
      (.named "Account", .ok (some (.model 0)))] := rfl
  obtain ⟨hanswers, -, hslots⟩ := run_stable accounts .standard calls
  refine ⟨hlog, fun call type hasks hmem => ?_, ?_⟩
  · have hfirst : (Call.schema 2, .ok (some (.array (.model 0)))) ∈ log := by simp [hlog]
    exact (hanswers 2 (.schema 2) _ rfl hfirst).2 call type hasks hmem
  · obtain ⟨owner, hfilled, hschema⟩ :
        ∃ owner, first.slots[1]? = some (some owner) ∧ owner.schema = 1 := ⟨_, rfl, rfl⟩
    obtain ⟨hlast, hm⟩ := (hslots [.named "Account"] _ rfl).2 1 owner hfilled
    exact ⟨owner, hfilled, hschema, hlast, hschema ▸ hm⟩

end Document
end OpenApi
