-- SUMMARY: When a compilation refuses a schema as a member of itself.
import OpenApi.Proofs.Compilation.Apart

/-!
# Schemas that are members of themselves

Compilation refuses a schema whose merging has begun further up. It takes no account
of the fields and items in between, so it also refuses a schema that has itself only
inside its values. `compileApart` is the compilation that begins anew below fields and
items: it refuses schemas for a reason only, and the two differ only where the one
that is run refuses a schema without one.
-/

namespace OpenApi.Document

open Relation (TransGen)

variable (doc : Document)

/-! ## Compilation apart -/

/-- The type of a named schema, noted as a root. -/
def namedWith (ask : Requests) (name : String) : Compile (Option Ty) := do
  match doc.lookup name with
  | none => throw (.failed (.unknownSchema name))
  | some id =>
    let type ← ask.type {} id
    modify (·.addRoot name type)
    return type

/-- The steps that compile all named schemas with these answers to requests. -/
def compileNamedWith (ask : Requests) : Compile Unit := do
  doc.named.forM fun (_, id) => do
    if (doc.schema id).discriminator.isSome then
      discard (ask.type {} id)
  doc.named.forM fun (name, _) => discard (doc.namedWith ask name)

/-- Compile all named schemas of a document with these answers to requests. -/
def compileWith (ask : Requests) : Except (Stop SchemaError) ModelSet :=
  match doc.compileNamedWith ask {} with
  | (.ok _, state) => (state.finish doc).mapError .failed
  | (.error stop, _) => .error stop

/-- Compile all named schemas of a document, each schema apart from those that are being merged. -/
def compileApart : Except (Stop SchemaError) ModelSet :=
  doc.compileWith (requestsApart doc .standard doc.depth)

theorem compile_eq_compileWith :
    doc.compile = doc.compileWith (requests doc .standard doc.depth) := rfl

/-! ## Both compilations -/

variable {doc}

theorem namedWith_tracks {ask ask' : Requests} (htrack : ask.Track doc ask') (name : String)
    {state : Compilation} (hapart : state.merging = []) :
    Compile.Tracks doc (doc.namedWith ask name) (doc.namedWith ask' name) [] state := by
  unfold namedWith
  split
  · exact Compile.tracks_throw (justifies_of_ne nofun)
  · apply Compile.tracks_bind (htrack.type (by simp) (by simp [hapart]))
    intro type _ _
    exact Compile.tracks_bind (Compile.tracks_modify rfl rfl) fun _ _ _ => Compile.tracks_pure type

theorem compileNamedWith_tracks {ask ask' : Requests} (htrack : ask.Track doc ask') :
    Compile.Tracks doc (doc.compileNamedWith ask) (doc.compileNamedWith ask') [] {} := by
  unfold compileNamedWith
  refine Compile.tracks_bind (Compile.tracks_forM ?_) fun _ after hafter =>
    Compile.tracks_forM ?_
  · intro entry _ now hnow
    obtain ⟨name, id⟩ := entry
    simp only
    split
    · exact Compile.tracks_map (htrack.type (by simp) (by simp [hnow]))
    · exact Compile.tracks_pure _
  · intro entry _ now hnow
    obtain ⟨name, id⟩ := entry
    exact Compile.tracks_map (namedWith_tracks htrack name (hnow.trans hafter))

theorem finish_justifies {state : Compilation} {error : SchemaError}
    (h : state.finish doc = .error error) : doc.Justifies (.failed error) := by
  obtain ⟨identity, rfl⟩ := Compilation.finish_error h
  exact justifies_of_ne nofun

/-- Answers that keep to their reasons make a compilation that does. -/
theorem compileWith_justifies {ask : Requests} (h : (doc.compileNamedWith ask).Keeps doc {})
    {stop : Stop SchemaError} (hstop : doc.compileWith ask = .error stop) :
    doc.Justifies stop := by
  unfold compileWith at hstop
  unfold Compile.Keeps Compile.Ends at h
  split at hstop
  · obtain ⟨error, hfinish, rfl⟩ := exists_of_mapError_eq_error hstop
    exact finish_justifies hfinish
  · rename_i stop' after hrun
    rw [hrun] at h
    cases hstop
    exact h

/-- Two compilations agree, or the first refuses a schema that leads back to itself. -/
theorem compileWith_eq_or_refused {ask ask' : Requests}
    (h : Compile.Tracks doc (doc.compileNamedWith ask) (doc.compileNamedWith ask') [] {}) :
    doc.compileWith ask = doc.compileWith ask' ∨
      ∃ id, doc.compileWith ask = .error (.failed (.cyclicAllOf (doc.schema id).label)) ∧
        (TransGen doc.Includes id id ∨ doc.Descends id id) := by
  have hstart : Compilation.withMerging {} [] = {} := rfl
  unfold compileWith
  cases h with
  | answers hfirst hsecond _ =>
      rw [hstart] at hfirst
      rw [hfirst, hsecond]
      exact .inl rfl
  | fails hfirst hsecond _ =>
      rw [hstart] at hfirst
      rw [hfirst, hsecond]
      exact .inl rfl
  | refused hfirst hcycle _ =>
      rw [hstart] at hfirst
      rw [hfirst]
      exact .inr ⟨_, rfl, hcycle⟩

/-! ## Refusals -/

variable (doc) in
/-- Compilation refuses a schema as its own member only in documents that have such a schema. -/
def RefusesMembersOnly : Prop :=
  ∀ label, doc.compile = .error (.failed (.cyclicAllOf label)) → ∃ id, TransGen doc.Includes id id

/-- Compilation refuses only schemas that lead back to themselves, through members or by a walk
below them. It refuses without a reason exactly where no schema is a member of itself and the
compilation apart gives another answer; that one never refuses without a reason. -/
theorem compile_refuses (doc : Document) :
    (∀ label, doc.compile = .error (.failed (.cyclicAllOf label)) →
      ∃ id, (doc.schema id).label = label ∧
        (TransGen doc.Includes id id ∨ doc.Descends id id)) ∧
    (∀ label, doc.compileApart = .error (.failed (.cyclicAllOf label)) →
      ∃ id, (doc.schema id).label = label ∧ TransGen doc.Includes id id) ∧
    (doc.RefusesMembersOnly ↔
      (∃ id, TransGen doc.Includes id id) ∨ doc.compile = doc.compileApart) := by
  have htrack : (requests doc .standard doc.depth).Track doc
      (requestsApart doc .standard doc.depth) := Compile.requests_track doc.depth
  have htracks := compileNamedWith_tracks htrack
  have hcases : doc.compile = doc.compileApart ∨
      ∃ id, doc.compile = .error (.failed (.cyclicAllOf (doc.schema id).label)) ∧
        (TransGen doc.Includes id id ∨ doc.Descends id id) := by
    rw [compile_eq_compileWith]
    exact compileWith_eq_or_refused htracks
  have hapart (label : String) (h : doc.compileApart = .error (.failed (.cyclicAllOf label))) :
      ∃ id, (doc.schema id).label = label ∧ TransGen doc.Includes id id :=
    compileWith_justifies htracks.keeps h label rfl
  refine ⟨?_, hapart, ?_, ?_⟩
  · intro label h
    rcases hcases with heq | ⟨id, hrefused, hcycle⟩
    · obtain ⟨id, hlabel, hcycle⟩ := hapart label (heq ▸ h)
      exact ⟨id, hlabel, .inl hcycle⟩
    · cases hrefused.symm.trans h
      exact ⟨id, rfl, hcycle⟩
  · -- A compilation that differs from the one apart refuses a schema, which then needs a reason.
    intro honly
    rcases hcases with heq | ⟨id, hrefused, -⟩
    · exact .inr heq
    · exact .inl (honly _ hrefused)
  · intro hreason label h
    rcases hreason with hcycle | heq
    · exact hcycle
    · obtain ⟨id, -, hcycle⟩ := hapart label (heq ▸ h)
      exact ⟨id, hcycle⟩

/-- A schema with a member that has a field of the type of the schema, and a schema derived from
it. -/
def parentField : Document where
  dialect := .openApi30
  schemas := #[
    { dialect := .openApi30, identity := some "T"
      allOf := [{ id := 1, reference := some "#/components/schemas/S" }] },
    { dialect := .openApi30, identity := some "S", allOf := [{ id := 2 }] },
    { dialect := .openApi30, identity := some "S.allOf.0", type := some .object
      properties := [("parent", { id := 1, reference := some "#/components/schemas/S" })] }]
  named := [("T", 0), ("S", 1)]

private theorem parentField_includes {owner member : SchemaId}
    (h : parentField.Includes owner member) : owner < member := by
  obtain ⟨edge, hmem, rfl⟩ := h
  match owner with
  | 0 | 1 =>
      obtain rfl := List.mem_singleton.mp hmem
      decide
  | 2 => cases hmem
  | owner + 3 => cases hmem

/-- Compilation refuses a schema of a document in which none is a member of itself. -/
theorem parentField_refused : ¬ parentField.RefusesMembersOnly := by
  intro h
  -- Members come after the schemas that have them.
  have hlt {first last : SchemaId} (hwalk : TransGen parentField.Includes first last) :
      first < last := by
    induction hwalk with
    | single hstep => exact parentField_includes hstep
    | tail _ hstep ih => exact Nat.lt_trans ih (parentField_includes hstep)
  obtain ⟨id, hcycle⟩ := h "S" rfl
  exact Nat.lt_irrefl id (hlt hcycle)

end OpenApi.Document
