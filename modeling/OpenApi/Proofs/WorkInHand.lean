-- SUMMARY: What is being merged and built is the same behind each step, and nothing is between calls.
import OpenApi.Proofs.Compilation.Apart
import OpenApi.Proofs.FailedCalls
import OpenApi.Proofs.RefusedUnions

/-!
# Work in hand

A compilation has two things in hand: the schemas that are being merged, and the chain of
unions that are being built. A schema that is met again while it is in hand is refused.
What a step takes up it puts down again, also where something below it fails; fields and
items put the chain aside and take it up behind. So nothing is in hand between calls, and
a schema that a call refuses has come back to itself, whatever failed before.
-/

namespace OpenApi

open Relation (TransGen)

/-! ## Steps -/

namespace Compile

variable {α : Type} {doc : Document}

/-- A step that leaves in hand what was in hand, wherever it starts and however it ends. -/
def Restores (step : Compile α) : Prop :=
  ∀ state : Compilation,
    (step state).2.merging = state.merging ∧ (step state).2.unions = state.unions

/-- What only adds to a compilation leaves in hand what was in hand. -/
theorem restores_of_retains {step : Compile α} (h : ∀ state, step.Retains doc state) :
    step.Restores := by
  intro state
  have hlast : state.Retains doc (step state).2 := (h state).last
  exact ⟨hlast.merging, hlast.unions⟩

end Compile

/-! ## Refusals -/

namespace Document

variable (doc : Document)

/-- Where a step stops to refuse a schema that is being merged, some schema of that name leads back
to itself, through members or by a walk below them. -/
def Explains (stop : Stop SchemaError) : Prop :=
  ∀ label, stop = .failed (.cyclicAllOf label) → ∃ id, (doc.schema id).label = label ∧
    (TransGen doc.Includes id id ∨ doc.Descends id id)

/-- Where a step stops to refuse a schema that is in hand, some schema of that name comes back to
itself. -/
structure BearsOut (stop : Stop SchemaError) : Prop where
  merging : doc.Explains stop
  unions : doc.Warrants stop

variable {doc} in
theorem Justifies.explains {stop : Stop SchemaError} (h : doc.Justifies stop) :
    doc.Explains stop := by
  intro label hlabel
  obtain ⟨id, hid, hloop⟩ := h label hlabel
  exact ⟨id, hid, .inl hloop⟩

end Document

namespace Compile

variable {α : Type} {doc : Document} {state : Compilation}

/-- Started while nothing is being merged, the first of two steps beside each other refuses no
schema without a loop. -/
theorem Tracks.explains {first second : Compile α} (h : Tracks doc first second [] state)
    (hmerging : state.merging = []) :
    first.Ends state (fun _ _ => True) fun stop _ => doc.Explains stop := by
  have hstart : state.withMerging [] = state := by rw [Compilation.withMerging, ← hmerging]
  cases h with
  | answers hfirst _ _ =>
      rw [hstart] at hfirst
      simp only [Ends, hfirst]
  | fails hfirst _ hjust =>
      rw [hstart] at hfirst
      simpa only [Ends, hfirst] using hjust.explains
  | @refused id _ hfirst hloop _ =>
      rw [hstart] at hfirst
      simp only [Ends, hfirst]
      rintro _ ⟨⟩
      exact ⟨id, rfl, hloop⟩

/-- With nothing in hand, a schema is refused only if the document bears it out. -/
theorem schema_bearsOut (registry : Registry) (id : SchemaId) (hmerging : state.merging = [])
    (hunions : state.unions = []) :
    (schema doc registry id).Ends state (fun _ _ => True) fun stop _ => doc.BearsOut stop := by
  have htracks : Tracks doc (schema doc registry id)
      ((requestsApart doc registry doc.depth).type {} id) [] state :=
    (requests_track doc.depth).type (List.forall_mem_nil _) (by simp [hmerging])
  have hwarrants : (schema doc registry id).Ends state _ _ :=
    (requests_warrant doc registry doc.depth).type Document.chainTo_nil {} state hunions
  exact ((htracks.explains hmerging).and hwarrants).mono (fun _ _ _ => trivial)
    fun _ _ h => ⟨h.1, h.2⟩

end Compile

/-! ## Calls -/

namespace Call

variable {doc : Document} {registry : Registry} {state : Compilation}

/-- With nothing in hand, a call refuses only what the document bears out. -/
theorem step_bearsOut (registry : Registry) (call : Call) (hmerging : state.merging = [])
    (hunions : state.unions = []) :
    (call.step doc registry).Ends state (fun _ _ => True) fun stop _ => doc.BearsOut stop := by
  cases call with
  | schema id => exact Compile.schema_bearsOut registry id hmerging hunions
  | named name =>
      change (Compile.named doc registry name).Ends state _ _
      unfold Compile.named
      split
      · exact ⟨nofun, Document.warrants_of_ne nofun⟩
      · simp only [Compile.ends_bind, Compile.ends_modify, Compile.ends_pure]
        exact Compile.schema_bearsOut registry _ hmerging hunions

/-- So it is with all calls of a run that starts with nothing in hand: a call that has failed leaves
nothing behind that could be taken for work in hand. -/
theorem run_bearsOut {calls : List Call} {call : Call} {error : SchemaError}
    (hmerging : state.merging = []) (hunions : state.unions = [])
    (hmem : (call, .error error) ∈ (run doc registry calls state).1) :
    doc.BearsOut (.failed error) := by
  obtain ⟨before, later, hlog⟩ := List.append_of_mem hmem
  obtain ⟨now, after, rest, hretains, hstep, -⟩ := exists_of_log hlog
  have hends : (call.step doc registry).Ends now (fun _ _ => True) fun stop _ =>
      doc.BearsOut stop :=
    step_bearsOut registry call (hretains.merging.trans hmerging) (hretains.unions.trans hunions)
  rwa [Compile.Ends, hstep] at hends

end Call

namespace Document

/-- The type of a schema, the type of a field or an item, the merged fields of a schema and the
union of its members: in every state each of them leaves what is being merged and the chain of
unions as they were, whether it succeeds or fails and however deep the fault lies. So nothing is in
hand between calls, whichever of them fail, and what a call refuses as part of itself comes back to
itself in the document. -/
theorem calls_restore (doc : Document) (registry : Registry) :
    (∀ depth,
      let ask := requests doc registry depth
      (∀ context id, (ask.type context id).Restores) ∧
      (∀ edge, (elementType ask edge).Restores) ∧
      (∀ context name id, (mergedFields doc ask context name id).Restores) ∧
      ∀ context id members, (unionOf doc ask context id members).Restores) ∧
    ∀ calls,
      let log := (Call.run doc registry calls {}).1
      let last := (Call.run doc registry calls {}).2
      last.merging = [] ∧ last.unions = [] ∧
        ∀ call error, (call, .error error) ∈ log → doc.BearsOut (.failed error) := by
  constructor
  · intro depth ask
    have hask : ask.Retain doc := requests_retain doc registry depth
    exact ⟨fun context id => Compile.restores_of_retains (hask.type context id),
      fun edge => Compile.restores_of_retains fun state => elementType_retains hask state edge,
      fun context name id => Compile.restores_of_retains fun state =>
        mergedFields_retains hask context name state id,
      fun context id members => Compile.restores_of_retains fun state =>
        unionOf_retains hask context state id members⟩
  · intro calls log last
    have hlast : ({} : Compilation).Retains doc last := Call.run_retains doc registry calls {}
    exact ⟨hlast.merging, hlast.unions, fun _ _ => Call.run_bearsOut rfl rfl⟩

/-- A parcel is a box or a number; boxes and the crates made from them have sides without items. -/
def crates : Document where
  dialect := .openApi30
  schemas := #[
    { dialect := .openApi30, identity := some "Parcel"
      oneOf := [{ id := 1, reference := some "#/components/schemas/Box" }, { id := 5 }] },
    { dialect := .openApi30, identity := some "Box", allOf := [{ id := 3 }] },
    { dialect := .openApi30, identity := some "Crate"
      allOf := [{ id := 1, reference := some "#/components/schemas/Box" }] },
    { dialect := .openApi30, identity := some "Box.allOf.0", type := some .object
      properties := [("sides", { id := 4 })] },
    { dialect := .openApi30, identity := some "Box.allOf.0.sides", type := some .array },
    { dialect := .openApi30, identity := some "Parcel.oneOf.1", type := some .integer }]
  named := [("Parcel", 0), ("Box", 1), ("Crate", 2)]

-- The first call fails while parcels are on the chain and boxes are being merged. Crates merge
-- boxes again and fail for the same reason, and parcels are met again; none of them is refused.
example :
    (Call.run crates .standard [.named "Parcel", .named "Crate", .named "Parcel"] {}).1 =
      [(.named "Parcel", .error (.missingItems "Box.allOf.0.sides")),
       (.named "Crate", .error (.missingItems "Box.allOf.0.sides")),
       (.named "Parcel", .ok (some (.model 0)))] := by rfl

end Document
end OpenApi
