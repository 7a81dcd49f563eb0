-- SUMMARY: The arena of a loaded document: named schemas, and schemas in place with one owner each.
import Mathlib
import OpenApi.Proofs.AliasChains
import OpenApi.Proofs.Schema.Ownership

/-!
# The structure of loaded documents

A loaded document is a forest with references across it. The trees are the schemas that are
written in place, each held by one edge of its owner; their roots are the schemas that are
named. All other edges are references, so a schema only comes back to itself by way of one.
Where a schema stands in its tree is its identity.
-/

namespace OpenApi.Document

open Relation (TransGen)

/-! ## Structure -/

/-- A schema is written in place inside another one. -/
def HoldsInline (doc : Document) (owner child : SchemaId) : Prop :=
  ∃ edge ∈ (doc.schema owner).edges, edge.reference = none ∧ edge.id = child

/-- The slot of a named schema that is no alias. -/
def IsNamedBody (doc : Document) (named : Keyed Wire.Schema) (id : SchemaId) : Prop :=
  ∃ name, HasBody named name ∧ doc.lookup name = some id

/-- The named schemas as written have become this document. -/
structure Assembled (named : Keyed Wire.Schema) (doc : Document) : Prop where
  slots : ∀ name id, doc.lookup name = some id → id < doc.schemas.size
  edges : ∀ id, ∀ edge ∈ (doc.schema id).edges, edge.id < doc.schemas.size
  references : ∀ id, ∀ edge ∈ (doc.schema id).edges, ∀ reference,
    edge.reference = some reference → doc.resolve reference = some edge.id
  /-- No edge without a reference leads to a named schema. -/
  bodies : ∀ id, doc.IsNamedBody named id → (inlineIds doc.edges).count id = 0
  /-- One edge without a reference leads to any other schema. -/
  children : ∀ id < doc.schemas.size, ¬ doc.IsNamedBody named id →
    (inlineIds doc.edges).count id = 1
  acyclic : ∀ id, ¬ TransGen doc.HoldsInline id id
  /-- No reserved slot is left as it was. -/
  converted : ∀ id < doc.schemas.size, (doc.schema id).identity.isSome = true
  names : ∀ name, HasBody named name →
    ∃ id, doc.lookup name = some id ∧ (doc.schema id).identity = some name
  /-- The identity of a schema in place is that of its owner and its place there. -/
  places : ∀ id owner, (doc.schema id).identity = some owner →
    ∀ place edge, (place, edge) ∈ (doc.schema id).placed → edge.reference = none →
      (doc.schema edge.id).identity = some (owner ++ place)

variable {first : Nat} {front : SchemaId → Schema} {doc : Document}
variable {named : Keyed Wire.Schema}

/-! ## From owned slots -/

theorem Bare.edges_eq_nil (h : doc.Bare) (id : SchemaId) : (doc.schema id).edges = [] := by
  rcases doc.schema_cases id with hmem | hvacant
  · exact h.edges _ hmem
  · rw [hvacant]
    rfl

/-- Before any schema is converted there is nothing that has an owner. -/
theorem Bare.owned (h : doc.Bare) : doc.Owned doc.schemas.size doc.schema [] := by
  constructor
  case size => exact Nat.le_refl _
  case front => exact fun _ _ => rfl
  case once =>
    have hedges : doc.edges = [] :=
      List.flatMap_eq_nil_iff.mpr fun schema hmem => h.edges schema (Array.mem_toList_iff.mp hmem)
    simp [hedges]
  case earlier =>
    intro id _ edge hedge
    rw [h.edges_eq_nil id] at hedge
    cases hedge
  case pending => simp
  case inside =>
    intro id identity _ entry hmem
    have hedge := List.mem_map_of_mem (f := (·.2)) hmem
    rw [Schema.map_located, h.edges_eq_nil id] at hedge
    cases hedge
  case identified => exact fun id hle hlt => absurd hlt (Nat.not_lt.mpr hle)

namespace Owned

variable (h : doc.Owned first front [])
include h

theorem holdsInline {owner child : SchemaId} (hholds : doc.HoldsInline owner child) :
    first ≤ child ∧ (first ≤ owner → child < owner) := by
  obtain ⟨edge, hedge, hinline, rfl⟩ := hholds
  exact ⟨(h.bounds (List.mem_append_right _ (mem_edges hedge)) hinline).1,
    fun hle => h.earlier owner hle edge hedge hinline⟩

/-- On the way into a tree the slots come earlier and earlier. -/
theorem acyclic (id : SchemaId) : ¬ TransGen doc.HoldsInline id id := by
  have hdown : ∀ {owner child}, TransGen doc.HoldsInline owner child →
      first ≤ child ∧ (first ≤ owner → child < owner) := by
    intro owner child hwalk
    induction hwalk with
    | single hstep => exact h.holdsInline hstep
    | tail _ hstep ih =>
        obtain ⟨hle, hlt⟩ := h.holdsInline hstep
        exact ⟨hle, fun howner => Nat.lt_trans (hlt ih.1) (ih.2 howner)⟩
  intro hround
  obtain ⟨hle, hlt⟩ := hdown hround
  exact Nat.lt_irrefl _ (hlt hle)

theorem count_inlineIds (id : SchemaId) :
    (inlineIds doc.edges).count id = if first ≤ id ∧ id < doc.schemas.size then 1 else 0 := by
  have honce : (inlineIds doc.edges).Perm (List.range' first (doc.schemas.size - first)) := by
    simpa using h.once
  have hmem : id ∈ List.range' first (doc.schemas.size - first) ↔
      first ≤ id ∧ id < doc.schemas.size := by
    rw [List.mem_range'_1, Nat.add_sub_of_le h.size]
  rw [honce.count_eq, List.Nodup.count List.nodup_range']
  simp only [hmem]

end Owned

/-! ## Loading -/

section Names

variable {dialect : Dialect} {middle : Document} (hnames : named.keys.Nodup)
variable (h : Resolved named (reserveNamed { dialect } named) middle [])
include hnames h

/-- The named schemas that are no aliases have the first slots, in their order. -/
theorem Resolved.lookup_body {place : Nat} {entry : String × Wire.Schema}
    (hentry : (bodiesOf named)[place]? = some entry) :
    HasBody named entry.1 ∧ middle.lookup entry.1 = some place := by
  obtain ⟨name, schema⟩ := entry
  have hbody : HasBody named name := (hasBody_iff_getElem? hnames).mpr ⟨place, schema, hentry⟩
  have hslot : (reserveNamed { dialect } named).lookup name = some place :=
    (lookup_reserveNamed_iff hnames).mpr ⟨schema, hentry⟩
  obtain ⟨id, hlookup, hstarted⟩ := h.lookup_eq hbody.endsIn
  cases hslot.symm.trans hstarted
  exact ⟨hbody, hlookup⟩

theorem Resolved.isNamedBody_iff (hnamed : doc.named = middle.named) {id : SchemaId} :
    doc.IsNamedBody named id ↔ id < (bodiesOf named).length := by
  simp only [IsNamedBody, lookup, hnamed]
  constructor
  · rintro ⟨name, hbody, hlookup⟩
    obtain ⟨place, schema, hentry⟩ := (hasBody_iff_getElem? hnames).mp hbody
    cases hlookup.symm.trans (h.lookup_body hnames hentry).2
    exact (List.getElem?_eq_some_iff.mp hentry).1
  · intro hlt
    obtain ⟨hbody, hlookup⟩ := h.lookup_body hnames (List.getElem?_eq_getElem hlt)
    exact ⟨_, hbody, hlookup⟩

end Names

/-- Every document that is made of named schemas has their structure. -/
theorem assembled_of_ofWire {written : Wire.Document} (hkeys : written.DistinctKeys)
    (h : ofWire written = .ok doc) :
    ∃ dialect, dialectOf written = .ok dialect ∧ doc.Assembled (namedOf dialect written) := by
  obtain ⟨dialect, hdialect, h⟩ := exists_of_bind_eq_ok h
  obtain ⟨middle, hresolve, hfill⟩ := exists_of_bind_eq_ok h
  refine ⟨dialect, hdialect, ?_⟩
  have hnames := nodup_namedOf hkeys dialect
  have hresolved : Resolved (namedOf dialect written)
      (reserveNamed { dialect } (namedOf dialect written)) middle [] := by
    rcases (resolved_start hnames).resolveAliases hnames (Nat.le_refl _) with
      ⟨doc', hok, hdone⟩ | ⟨_, _, _, _, _, herror⟩
    · cases hresolve.symm.trans hok
      exact hdone
    · cases hresolve.symm.trans herror
  have hbare : middle.Bare := by
    have hstart : ({ dialect } : Document).Bare := ⟨nofun, by simp⟩
    exact (hstart.reserveNamed _).resolveAliases hresolve
  have hsize : middle.schemas.size = (bodiesOf (namedOf dialect written)).length := by
    rw [hresolved.schemas, size_reserveNamed]
    exact Nat.zero_add _
  have hvacant : ∀ id, 0 ≤ id → (middle.schema id).edges = [] := fun id _ => hbare.edges_eq_nil id
  obtain ⟨front, howned, -, hfront⟩ := hbare.owned.fillNamed hbare.wired
    (by rw [hsize, Nat.zero_add])
    (fun place entry hentry => by
      rw [Nat.zero_add]
      exact (hresolved.lookup_body hnames hentry).2)
    hvacant hfill
  have hwired : doc.Wired middle.schemas.size := hbare.wired.fillNamed hfill
  have hnamed : doc.named = middle.named := (widens_of_fillNamed hbare.wired hfill).named
  have hbody : ∀ {id}, doc.IsNamedBody (namedOf dialect written) id ↔ id < middle.schemas.size := by
    intro id
    rw [hsize]
    exact hresolved.isNamedBody_iff hnames hnamed
  constructor
  case slots => exact fun name id hlookup => Nat.lt_of_lt_of_le (hwired.named hlookup) hwired.size
  case edges =>
    intro id edge hedge
    have hpoints := hwired.points hedge
    unfold Points at hpoints
    split at hpoints
    · exact Nat.lt_of_lt_of_le (hwired.named hpoints) hwired.size
    · exact hpoints.2
  case references =>
    intro id edge hedge reference hreference
    simpa [Points, hreference] using hwired.points hedge
  case bodies =>
    intro id hid
    rw [howned.count_inlineIds, if_neg]
    exact fun hle => Nat.not_lt.mpr hle.1 (hbody.mp hid)
  case children =>
    intro id hlt hid
    rw [howned.count_inlineIds, if_pos ⟨Nat.not_lt.mp (mt hbody.mpr hid), hlt⟩]
  case acyclic => exact howned.acyclic
  case converted =>
    intro id hlt
    by_cases hid : id < middle.schemas.size
    · have hentry := List.getElem?_eq_getElem (hsize ▸ hid)
      have hidentity := hfront id _ hentry
      rw [Nat.zero_add] at hidentity
      rw [howned.front id hid, hidentity]
      rfl
    · exact howned.identified id (Nat.not_lt.mp hid) hlt
  case names =>
    intro name hname
    obtain ⟨place, schema, hentry⟩ := (hasBody_iff_getElem? hnames).mp hname
    have hlt : place < middle.schemas.size :=
      hsize ▸ (List.getElem?_eq_some_iff.mp hentry).1
    have hidentity := hfront place _ hentry
    rw [Nat.zero_add] at hidentity
    refine ⟨place, ?_, by rw [howned.front place hlt, hidentity]⟩
    rw [lookup, hnamed]
    exact (hresolved.lookup_body hnames hentry).2
  case places =>
    intro id owner howner place edge hmem hinline
    exact howned.inside id owner howner (owner ++ place, edge)
      (List.mem_map_of_mem (f := fun entry => (owner ++ entry.1, entry.2)) hmem) hinline

/-- A document that is loaded is assembled from the named schemas of what was written. -/
theorem ofJson_assembled {value : Json} (h : ofJson value = .ok doc) :
    ∃ written dialect, Wire.readDocument (.ofJson value) = .ok written ∧
      dialectOf written = .ok dialect ∧ doc.Assembled (namedOf dialect written) := by
  obtain ⟨written, hread, h⟩ := exists_of_bind_eq_ok h
  have hread := eq_ok_of_mapError hread
  obtain ⟨dialect, hdialect, hassembled⟩ :=
    assembled_of_ofWire (Wire.readDocument_distinctKeys hread) h
  exact ⟨written, dialect, hread, hdialect, hassembled⟩

/-! ## A document with all kinds of children -/

/-- Households keep pets, an alias that is declared before what it refers to, and have other
households for neighbours. -/
def householdValue : Json :=
  .obj [
    ("swagger", .str "2.0"),
    ("definitions", .obj [
      ("Pet", .obj [("$ref", .str "#/definitions/Animal")]),
      ("Household", .obj [
        ("properties", .obj [
          ("pets", .obj [("type", .str "array"), ("items", .obj [("$ref", .str "Pet")])]),
          ("address", .obj [
            ("oneOf", .arr [.obj [("type", .str "string")], .obj [("type", .str "integer")]])])]),
        ("allOf", .arr [.obj [("properties", .obj [
          ("neighbour", .obj [("$ref", .str "#/definitions/Household")])])]])]),
      ("Animal", .obj [("anyOf", .arr [.obj [("type", .str "object")]])])])]

/-- The document of `householdValue`. -/
def household : Document where
  dialect := .swagger2
  schemas := #[
    { dialect := .swagger2, identity := some "Household"
      properties := [("pets", { id := 2 }), ("address", { id := 5 })]
      allOf := [{ id := 6 }] },
    { dialect := .swagger2, identity := some "Animal", anyOf := [{ id := 7 }] },
    { dialect := .swagger2, identity := some "Household.pets", type := some .array
      items := some { id := 1, reference := some "Pet" } },
    { dialect := .swagger2, identity := some "Household.address.oneOf.0", type := some .string },
    { dialect := .swagger2, identity := some "Household.address.oneOf.1", type := some .integer },
    { dialect := .swagger2, identity := some "Household.address"
      oneOf := [{ id := 3 }, { id := 4 }] },
    { dialect := .swagger2, identity := some "Household.allOf.0"
      properties := [("neighbour", { id := 0, reference := some "#/definitions/Household" })] },
    { dialect := .swagger2, identity := some "Animal.anyOf.0", type := some .object }]
  named := [("Household", 0), ("Animal", 1), ("Pet", 1)]

/-- What is written in place has its slot after the names, and before what holds it. -/
theorem household_assembled :
    ofJson householdValue = .ok household ∧
      ∃ written dialect, Wire.readDocument (.ofJson householdValue) = .ok written ∧
        dialectOf written = .ok dialect ∧ household.Assembled (namedOf dialect written) := by
  have hload : ofJson householdValue = .ok household := by cbv
  exact ⟨hload, ofJson_assembled hload⟩

end OpenApi.Document
