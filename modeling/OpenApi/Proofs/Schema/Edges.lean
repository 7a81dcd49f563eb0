-- SUMMARY: Edges of loaded documents lead to what their references mean, or to schemas without a name.
import OpenApi.Proofs.Schema.Loaded
import OpenApi.Proofs.Schema.Walk

/-!
# Edges of loaded documents

All names are given out before the first schema is converted, and converted schemas are
added behind the slots that were named. So an edge that was written as a reference leads to
the schema that its reference means, and an edge to a schema that was written in place leads
to a slot that no name means.
-/

namespace OpenApi

/-- All edges of a schema. -/
def Schema.edges (schema : Schema) : List Edge :=
  schema.properties.map (·.2) ++ schema.items.toList ++ schema.allOf ++ schema.anyOf ++ schema.oneOf

namespace Document

/-! ## Where edges lead -/

/-- An edge leads to what its reference means. Without a reference it leads to a slot from `first`
on. -/
def Points (doc : Document) (first : SchemaId) (edge : Edge) : Prop :=
  match edge.reference with
  | some reference => doc.resolve reference = some edge.id
  | none => first ≤ edge.id ∧ edge.id < doc.schemas.size

/-- Names mean slots before `first`, and the edges of all schemas lead where they are meant to. -/
structure Wired (doc : Document) (first : SchemaId) : Prop where
  named : ∀ {name id}, doc.lookup name = some id → id < first
  size : first ≤ doc.schemas.size
  edges : ∀ schema ∈ doc.schemas, ∀ edge ∈ schema.edges, doc.Points first edge

/-- A document goes on with the same names, and loses no slot. -/
structure Widens (doc after : Document) : Prop where
  named : after.named = doc.named
  size : doc.schemas.size ≤ after.schemas.size

variable {doc middle after : Document} {first : SchemaId}

theorem Widens.refl (doc : Document) : doc.Widens doc := ⟨rfl, Nat.le_refl _⟩

theorem Widens.trans (h : doc.Widens middle) (h' : middle.Widens after) : doc.Widens after :=
  ⟨h'.named.trans h.named, Nat.le_trans h.size h'.size⟩

theorem Points.widens {edge : Edge} (h : doc.Points first edge) (hwidens : doc.Widens after) :
    after.Points first edge := by
  unfold Points resolve lookup at *
  rw [hwidens.named]
  split at h
  · exact h
  · exact ⟨h.1, Nat.lt_of_lt_of_le h.2 hwidens.size⟩

theorem widens_insert (doc : Document) (schema : Schema) : doc.Widens (doc.insert schema).1 :=
  ⟨rfl, by simp [insert]⟩

theorem widens_replace (doc : Document) (id : SchemaId) (schema : Schema) :
    doc.Widens (doc.replace id schema) := ⟨rfl, by simp [replace]⟩

namespace Wired

theorem insert {schema : Schema} (h : doc.Wired first)
    (hedges : ∀ edge ∈ schema.edges, doc.Points first edge) :
    (doc.insert schema).1.Wired first := by
  have hwidens := widens_insert doc schema
  refine ⟨h.named, Nat.le_trans h.size hwidens.size, fun found hfound edge hedge => ?_⟩
  rcases Array.mem_push.mp hfound with hmem | rfl
  · exact (h.edges found hmem edge hedge).widens hwidens
  · exact (hedges edge hedge).widens hwidens

theorem replace {schema : Schema} (h : doc.Wired first)
    (hedges : ∀ edge ∈ schema.edges, doc.Points first edge) (id : SchemaId) :
    (doc.replace id schema).Wired first := by
  have hwidens := widens_replace doc id schema
  refine ⟨h.named, Nat.le_trans h.size hwidens.size, fun found hfound edge hedge => ?_⟩
  rcases Array.mem_or_eq_of_mem_setIfInBounds hfound with hmem | rfl
  · exact (h.edges found hmem edge hedge).widens hwidens
  · exact (hedges edge hedge).widens hwidens

end Wired

/-! ## Names -/

/-- Before schemas are converted, names mean slots that there are, and no slot has edges. -/
structure Bare (doc : Document) : Prop where
  named : ∀ {name id}, doc.lookup name = some id → id < doc.schemas.size
  edges : ∀ schema ∈ doc.schemas, schema.edges = []

theorem Bare.wired (h : doc.Bare) : doc.Wired doc.schemas.size where
  named := h.named
  size := Nat.le_refl _
  edges := by
    intro schema hmem edge hedge
    rw [h.edges schema hmem] at hedge
    cases hedge

theorem Bare.name (h : doc.Bare) (name : String) {id : SchemaId} (hid : id < doc.schemas.size) :
    (doc.name name id).Bare := by
  refine ⟨fun {other found} hlookup => ?_, h.edges⟩
  unfold lookup Document.name at hlookup
  by_cases heq : other = name
  · rw [heq, Keyed.get?_insert_self] at hlookup
    cases hlookup
    exact hid
  · rw [Keyed.get?_insert_of_ne _ _ heq] at hlookup
    exact h.named hlookup

theorem Bare.reserve (h : doc.Bare) : doc.reserve.1.Bare := by
  refine ⟨fun hlookup => ?_, fun schema hmem => ?_⟩
  · exact Nat.lt_of_lt_of_le (h.named hlookup) (widens_insert doc _).size
  · rcases Array.mem_push.mp hmem with hmem | rfl
    · exact h.edges schema hmem
    · rfl

theorem Bare.reserveNamed (h : doc.Bare) (named : List (String × Wire.Schema)) :
    (reserveNamed doc named).Bare := by
  unfold Document.reserveNamed
  induction named generalizing doc with
  | nil => exact h
  | cons entry rest ih =>
      rw [List.foldl_cons]
      apply ih
      simp only
      split
      · exact h
      · exact h.reserve.name _ (by simp [Document.reserve, Document.insert])

theorem Bare.aliasPass (h : doc.Bare) (aliases : List (String × String)) :
    (aliasPass doc aliases).1.Bare := by
  induction aliases generalizing doc with
  | nil => exact h
  | cons entry rest ih =>
      unfold Document.aliasPass
      split
      · rename_i hresolve
        exact ih (h.name _ (h.named hresolve))
      · exact ih h

theorem Bare.resolveAliases (h : doc.Bare) {fuel : Nat} {aliases : List (String × String)}
    (hresolve : resolveAliases fuel doc aliases = .ok after) : after.Bare := by
  induction fuel generalizing doc aliases with
  | zero =>
      cases aliases <;> cases hresolve
      exact h
  | succ fuel ih =>
      cases aliases with
      | nil =>
          cases hresolve
          exact h
      | cons entry rest =>
          simp only [Document.resolveAliases] at hresolve
          split at hresolve
          · cases hresolve
          · exact ih (h.aliasPass _) hresolve

/-! ## Bodies -/

/-- A step of conversion that makes the given edges. -/
structure Makes (first : SchemaId) (doc : Document) (edges : List Edge) (after : Document) :
    Prop where
  wired : after.Wired first
  widens : doc.Widens after
  points : ∀ edge ∈ edges, after.Points first edge

theorem Wired.makes (h : doc.Wired first) : Makes first doc [] doc :=
  ⟨h, .refl doc, by simp⟩

theorem Makes.append {edges more : List Edge} (h : Makes first doc edges middle)
    (hmore : Makes first middle more after) : Makes first doc (edges ++ more) after where
  wired := hmore.wired
  widens := h.widens.trans hmore.widens
  points := List.forall_mem_append.mpr
    ⟨fun edge hedge => (h.points edge hedge).widens hmore.widens, hmore.points⟩

/-- Linking a child makes its edge, if converting the child makes the edges of the child. -/
theorem Wired.link (h : doc.Wired first) {reference : Option String}
    {converted : Unit → Except SchemaError (Schema × Document)} {edge : Edge}
    (hlink : link doc reference converted = .ok (edge, after))
    (hconverted : ∀ schema middle, converted () = .ok (schema, middle) →
      Makes first doc schema.edges middle) : Makes first doc [edge] after := by
  unfold Document.link at hlink
  split at hlink
  · split at hlink
    · rename_i hresolve
      cases hlink
      exact ⟨h, .refl doc, by simpa [Points] using hresolve⟩
    · cases hlink
  · obtain ⟨⟨schema, middle⟩, hschema, hlink⟩ := exists_of_bind_eq_ok hlink
    cases hlink
    have hmade := hconverted schema middle hschema
    refine ⟨hmade.wired.insert hmade.points, hmade.widens.trans (widens_insert middle schema), ?_⟩
    simpa [Points, Document.insert] using hmade.wired.size

mutual

theorem Wired.convert {identity : String} {written : Wire.Schema} {doc after : Document}
    {schema : Schema} (h : doc.Wired first)
    (hconvert : convert identity written doc = .ok (schema, after)) :
    Makes first doc schema.edges after := by
  obtain ⟨_, type, _, _, properties, required, items, allOf, anyOf, oneOf, _, _, _⟩ := written
  rw [Document.convert] at hconvert
  obtain ⟨_, -, hconvert⟩ := exists_of_bind_eq_ok hconvert
  obtain ⟨⟨_, docP⟩, hconvertP, hconvert⟩ := exists_of_bind_eq_ok hconvert
  obtain ⟨⟨_, docI⟩, hconvertI, hconvert⟩ := exists_of_bind_eq_ok hconvert
  obtain ⟨⟨_, docAll⟩, hconvertAll, hconvert⟩ := exists_of_bind_eq_ok hconvert
  obtain ⟨⟨_, docAny⟩, hconvertAny, hconvert⟩ := exists_of_bind_eq_ok hconvert
  obtain ⟨⟨_, docOne⟩, hconvertOne, hconvert⟩ := exists_of_bind_eq_ok hconvert
  cases hconvert
  have hP := h.convertProperties hconvertP
  have hI := hP.append (hP.wired.convertItems hconvertI)
  have hAll := hI.append (hI.wired.convertMembers hconvertAll)
  have hAny := hAll.append (hAll.wired.convertMembers hconvertAny)
  exact hAny.append (hAny.wired.convertMembers hconvertOne)

theorem Wired.convertProperties {identity : String} {names : List String}
    {written : List (String × Wire.Schema)} {doc after : Document} {edges : List (String × Edge)}
    (h : doc.Wired first)
    (hconvert : convertProperties identity names written doc = .ok (edges, after)) :
    Makes first doc (edges.map (·.2)) after := by
  match written with
  | [] =>
      cases hconvert
      exact h.makes
  | (name, child) :: rest =>
      rw [Document.convertProperties] at hconvert
      obtain ⟨⟨edge, middle⟩, hlink, hconvert⟩ := exists_of_bind_eq_ok hconvert
      obtain ⟨⟨_, _⟩, hrest, hconvert⟩ := exists_of_bind_eq_ok hconvert
      cases hconvert
      have hedge := h.link hlink fun _ _ hchild => h.convert hchild
      -- The mark of a required property does not change where its edge leads.
      have hmarked : Makes first doc
          [{ edge with required := middle.dialect.isLegacy && flagged names name child }] middle :=
        ⟨hedge.wired, hedge.widens, by simpa [Points] using hedge.points⟩
      exact hmarked.append (hedge.wired.convertProperties hrest)

theorem Wired.convertItems {identity : String} {written : Option Wire.Schema}
    {doc after : Document} {edge : Option Edge} (h : doc.Wired first)
    (hconvert : convertItems identity written doc = .ok (edge, after)) :
    Makes first doc edge.toList after := by
  match written with
  | none =>
      cases hconvert
      exact h.makes
  | some child =>
      rw [Document.convertItems] at hconvert
      obtain ⟨⟨_, middle⟩, hlink, hconvert⟩ := exists_of_bind_eq_ok hconvert
      cases hconvert
      exact h.link hlink fun _ _ hchild => h.convert hchild

theorem Wired.convertMembers {identity : String} {place : Nat} {written : List Wire.Schema}
    {doc after : Document} {edges : List Edge} (h : doc.Wired first)
    (hconvert : convertMembers identity place written doc = .ok (edges, after)) :
    Makes first doc edges after := by
  match written with
  | [] =>
      cases hconvert
      exact h.makes
  | child :: rest =>
      rw [Document.convertMembers] at hconvert
      obtain ⟨⟨_, middle⟩, hlink, hconvert⟩ := exists_of_bind_eq_ok hconvert
      obtain ⟨⟨_, _⟩, hrest, hconvert⟩ := exists_of_bind_eq_ok hconvert
      cases hconvert
      have hedge := h.link hlink fun _ _ hchild => h.convert hchild
      exact hedge.append (hedge.wired.convertMembers hrest)

end

theorem Wired.fillNamed {named : List (String × Wire.Schema)} (h : doc.Wired first)
    (hfill : fillNamed named doc = .ok after) : after.Wired first := by
  induction named generalizing doc with
  | nil =>
      cases hfill
      exact h
  | cons entry rest ih =>
      obtain ⟨name, schema⟩ := entry
      rw [Document.fillNamed] at hfill
      split at hfill
      · obtain ⟨⟨body, middle⟩, hbody, hfill⟩ := exists_of_bind_eq_ok hfill
        have hmade := h.convert hbody
        exact ih (hmade.wired.replace hmade.points _) hfill
      · exact ih h hfill

/-! ## Documents -/

theorem wired_of_ofWire {written : Wire.Document} (h : ofWire written = .ok doc) :
    ∃ first, doc.Wired first := by
  obtain ⟨dialect, -, h⟩ := exists_of_bind_eq_ok h
  obtain ⟨middle, hresolve, hfill⟩ := exists_of_bind_eq_ok h
  have hstart : ({ dialect } : Document).Bare := ⟨nofun, by simp⟩
  exact ⟨_, ((hstart.reserveNamed _).resolveAliases hresolve).wired.fillNamed hfill⟩

theorem Loaded.wired (h : doc.Loaded) : ∃ first, doc.Wired first := by
  rcases h with ⟨value, h⟩ | ⟨text, h⟩
  · obtain ⟨written, -, h⟩ := exists_of_bind_eq_ok h
    exact wired_of_ofWire h
  · obtain ⟨written, -, h⟩ := exists_of_bind_eq_ok h
    exact wired_of_ofWire h

theorem Wired.points (h : doc.Wired first) {id : SchemaId} {edge : Edge}
    (hedge : edge ∈ (doc.schema id).edges) : doc.Points first edge := by
  rcases doc.schema_cases id with hmem | hnone
  · exact h.edges _ hmem edge hedge
  · rw [hnone] at hedge
    simp [Schema.edges] at hedge

/-- In a loaded document an edge with a reference leads to what the reference means. -/
theorem Loaded.resolve_reference (h : doc.Loaded) {id : SchemaId} {edge : Edge}
    (hedge : edge ∈ (doc.schema id).edges) {reference : String}
    (hreference : edge.reference = some reference) : doc.resolve reference = some edge.id := by
  obtain ⟨first, hwired⟩ := h.wired
  simpa [Points, hreference] using hwired.points hedge

/-- In a loaded document an edge without a reference leads to a schema that no name means. -/
theorem Loaded.resolve_ne_of_inline (h : doc.Loaded) {id : SchemaId} {edge : Edge}
    (hedge : edge ∈ (doc.schema id).edges) (hreference : edge.reference = none)
    (target : String) : doc.resolve target ≠ some edge.id := by
  obtain ⟨first, hwired⟩ := h.wired
  have hpoints := hwired.points hedge
  simp only [Points, hreference] at hpoints
  intro hresolve
  exact Nat.not_lt.mpr hpoints.1 (hwired.named hresolve)

end Document
end OpenApi
