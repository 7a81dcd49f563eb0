-- SUMMARY: Where the schemas of a loaded document stand, and which of them share an identity.
import Mathlib
import OpenApi.Proofs.Compilation.Result
import OpenApi.Proofs.DocumentStructure
import OpenApi.Proofs.Schema.Locations

/-!
# Identities of schemas

Every schema of a loaded document stands at one location, no two schemas stand at the same,
and the identity of a schema is the text of its location. So two schemas share an identity
exactly where the texts of their locations run together. They never do where names hold no
dot and properties are not called like keywords. The models of schemas without a title are
named by identities, and a name finds the first model that has it.
-/

namespace OpenApi

open Relation (TransGen)

/-! ## Children -/

namespace Schema

/-- The members behind a keyword. -/
def members (schema : Schema) : Keyword → List Edge
  | .allOf => schema.allOf
  | .anyOf => schema.anyOf
  | .oneOf => schema.oneOf

/-- A step from a schema goes along an edge. -/
def Holds (schema : Schema) : SchemaStep → Edge → Prop
  | .property name, edge => (name, edge) ∈ schema.properties
  | .items, edge => schema.items = some edge
  | .member keyword place, edge => (schema.members keyword)[place]? = some edge

/-- The members behind a keyword with the steps to them. -/
def memberSteps (schema : Schema) (keyword : Keyword) : List (SchemaStep × Edge) :=
  (schema.members keyword).zipIdx.map fun entry => (.member keyword entry.2, entry.1)

/-- The edges of a schema with the steps that go along them. -/
def children (schema : Schema) : List (SchemaStep × Edge) :=
  schema.properties.map (fun entry => (.property entry.1, entry.2)) ++
    schema.items.toList.map (fun edge => (.items, edge)) ++
    schema.memberSteps .allOf ++ schema.memberSteps .anyOf ++ schema.memberSteps .oneOf

variable {schema : Schema} {step : SchemaStep} {edge : Edge}

theorem mem_memberSteps {keyword : Keyword} :
    (step, edge) ∈ schema.memberSteps keyword ↔
      ∃ place, step = .member keyword place ∧ (schema.members keyword)[place]? = some edge := by
  simp only [memberSteps, List.mem_map, Prod.exists, List.mk_mem_zipIdx_iff_getElem?, Prod.mk.injEq]
  constructor
  · rintro ⟨_, place, hmem, rfl, rfl⟩
    exact ⟨place, rfl, hmem⟩
  · rintro ⟨place, rfl, hmem⟩
    exact ⟨edge, place, hmem, rfl, rfl⟩

theorem mem_children : (step, edge) ∈ schema.children ↔ schema.Holds step edge := by
  simp only [children, List.mem_append, mem_memberSteps]
  cases step with
  | property name => simp [Holds]
  | items => simp [Holds]
  | member keyword place => cases keyword <;> simp [Holds]

theorem placed_eq (schema : Schema) :
    schema.placed = schema.children.map fun child => (child.1.text, child.2) := by
  have hmembers : ∀ keyword, placedMembers ("." ++ keyword.text ++ ".") 0 (schema.members keyword) =
      (schema.memberSteps keyword).map fun child => (child.1.text, child.2) := by
    intro keyword
    simp [placedMembers, memberSteps, SchemaStep.text, SchemaStep.word, String.append_assoc]
  have hallOf := hmembers .allOf
  have hanyOf := hmembers .anyOf
  have honeOf := hmembers .oneOf
  simp only [Keyword.text, members] at hallOf hanyOf honeOf
  simp only [placed, children, List.map_append, List.map_map]
  rw [← hallOf, ← hanyOf, ← honeOf]
  rfl

theorem map_children (schema : Schema) : schema.children.map (·.2) = schema.edges := by
  rw [← map_placed, placed_eq]
  simp [Function.comp_def]

theorem Holds.mem_placed (h : schema.Holds step edge) : (step.text, edge) ∈ schema.placed := by
  rw [placed_eq]
  exact List.mem_map_of_mem (f := fun child => (child.1.text, child.2)) (mem_children.mpr h)

theorem Holds.mem_edges (h : schema.Holds step edge) : edge ∈ schema.edges := by
  rw [← map_children]
  exact List.mem_map_of_mem (f := (·.2)) (mem_children.mpr h)

/-- A step goes along one edge. -/
theorem Holds.unique (hdistinct : schema.properties.keys.Nodup) {other : Edge}
    (h : schema.Holds step edge) (h' : schema.Holds step other) : edge = other := by
  cases step with
  | property name =>
      rw [Holds, ← Keyed.get?_eq_some_iff hdistinct] at h h'
      exact Option.some.inj (h.symm.trans h')
  | items | member => exact Option.some.inj (h.symm.trans h')

end Schema

namespace Document

variable {doc : Document} {named : Keyed Wire.Schema} {id owner owner' : SchemaId}
variable {step step' : SchemaStep} {edge edge' : Edge} {location location' : Location}

/-- All edges of a document with their owners and the steps that go along them. -/
def children (doc : Document) : List (SchemaId × SchemaStep × Edge) :=
  (List.range doc.schemas.size).flatMap fun owner =>
    (doc.schema owner).children.map fun child => (owner, child)

theorem map_children (doc : Document) : doc.children.map (·.2.2) = doc.edges := by
  have hschemas : (List.range doc.schemas.size).map doc.schema = doc.schemas.toList := by
    refine List.ext_getElem (by simp) fun place hlt hlt' => ?_
    have hbound : place < doc.schemas.size := by simpa using hlt'
    simp [Document.schema, hbound]
  rw [edges, ← hschemas, List.flatMap_map]
  simp only [children, List.map_flatMap, List.map_map, Function.comp_def, Schema.map_children]

theorem mem_children (h : (doc.schema owner).Holds step edge) :
    (owner, step, edge) ∈ doc.children := by
  refine List.mem_flatMap.mpr ⟨owner, List.mem_range.mpr ?_,
    List.mem_map_of_mem (f := fun child => (owner, child)) (Schema.mem_children.mpr h)⟩
  refine doc.lt_size_of_ne fun hvacant => ?_
  have hedge := h.mem_edges
  rw [hvacant] at hedge
  simp [Schema.edges] at hedge

theorem holds_of_mem_children (h : (owner, step, edge) ∈ doc.children) :
    (doc.schema owner).Holds step edge := by
  obtain ⟨_, -, hmem⟩ := List.mem_flatMap.mp h
  obtain ⟨_, hchild, heq⟩ := List.mem_map.mp hmem
  cases heq
  exact Schema.mem_children.mp hchild

/-! ## Locations -/

/-- The location at which a schema of a document stands. -/
inductive Stands (named : Keyed Wire.Schema) (doc : Document) : Location → SchemaId → Prop where
  | named {name : String} {id : SchemaId} :
      HasBody named name → doc.lookup name = some id → Stands named doc ⟨name, []⟩ id
  | inside {location : Location} {owner : SchemaId} {step : SchemaStep} {edge : Edge} :
      Stands named doc location owner → (doc.schema owner).Holds step edge →
        edge.reference = none → Stands named doc (location.inside step) edge.id

/-- At a location stands one schema. -/
theorem Stands.unique (hdistinct : doc.DistinctProperties) {other : SchemaId}
    (hstands : doc.Stands named location id) (hstands' : doc.Stands named location other) :
    id = other := by
  induction hstands generalizing other with
  | @named name id hbody hlookup =>
      generalize hlocation : (⟨name, []⟩ : Location) = location at hstands'
      cases hstands' with
      | named _ hlookup' =>
          cases hlocation
          exact Option.some.inj (hlookup.symm.trans hlookup')
      | inside => simp [Location.inside] at hlocation
  | @inside location owner step edge hstands hholds hinline ih =>
      generalize hlocation : location.inside step = found at hstands'
      cases hstands' with
      | named => simp [Location.inside] at hlocation
      | @inside location' owner' step' edge' hstands' hholds' hinline' =>
          simp only [Location.inside, Location.mk.injEq] at hlocation
          obtain ⟨hname, hsteps⟩ := hlocation
          obtain ⟨hfront, hlast⟩ := List.append_inj' hsteps rfl
          cases List.singleton_inj.mp hlast
          cases Location.ext hname hfront
          cases ih hstands'
          rw [hholds.unique (hdistinct.schema owner) hholds']

namespace Assembled

variable (h : doc.Assembled named)
include h

theorem not_isNamedBody (hholds : (doc.schema owner).Holds step edge)
    (hinline : edge.reference = none) : ¬ doc.IsNamedBody named edge.id := by
  intro hbody
  have hmem := mem_inlineIds (mem_edges hholds.mem_edges) hinline
  rw [← List.count_pos_iff, h.bodies _ hbody] at hmem
  exact Nat.lt_irrefl 0 hmem

/-- A schema that is written in place is written in one place. -/
theorem place_unique (hholds : (doc.schema owner).Holds step edge)
    (hholds' : (doc.schema owner').Holds step' edge') (hinline : edge.reference = none)
    (hinline' : edge'.reference = none) (hid : edge.id = edge'.id) :
    owner = owner' ∧ step = step' := by
  have honce := h.children edge.id (h.edges _ _ hholds.mem_edges)
    (h.not_isNamedBody hholds hinline)
  -- The edges that lead there, with their owners and steps, are a list of one entry.
  rw [inlineIds, ← map_children, List.count_eq_countP, List.countP_map, List.countP_filter,
    List.countP_map, List.countP_eq_length_filter] at honce
  obtain ⟨only, honly⟩ := List.length_eq_one_iff.mp honce
  have hfirst : (owner, step, edge) ∈ [only] := by
    rw [← honly]
    exact List.mem_filter.mpr ⟨mem_children hholds, by simp [hinline]⟩
  have hsecond : (owner', step', edge') ∈ [only] := by
    rw [← honly]
    exact List.mem_filter.mpr ⟨mem_children hholds', by simp [hinline', hid]⟩
  cases (List.mem_singleton.mp hfirst).trans (List.mem_singleton.mp hsecond).symm
  exact ⟨rfl, rfl⟩

/-- A schema that is not named is written in some place. -/
theorem exists_place (hlt : id < doc.schemas.size) (hbody : ¬ doc.IsNamedBody named id) :
    ∃ owner step edge, (doc.schema owner).Holds step edge ∧ edge.reference = none ∧
      edge.id = id := by
  have hmem : id ∈ inlineIds doc.edges := by
    rw [← List.count_pos_iff, h.children id hlt hbody]
    exact Nat.one_pos
  obtain ⟨edge, hedge, rfl⟩ := List.mem_map.mp hmem
  obtain ⟨hedge, hinline⟩ := List.mem_filter.mp hedge
  rw [← map_children] at hedge
  obtain ⟨⟨owner, step, _⟩, hchild, rfl⟩ := List.mem_map.mp hedge
  exact ⟨owner, step, _, holds_of_mem_children hchild, by simpa using hinline, rfl⟩

theorem lt_size (hstands : doc.Stands named location id) : id < doc.schemas.size := by
  cases hstands with
  | named _ hlookup => exact h.slots _ _ hlookup
  | inside _ hholds _ => exact h.edges _ _ hholds.mem_edges

/-- The identity of a schema is the text of its location. -/
theorem identity_eq (hstands : doc.Stands named location id) :
    (doc.schema id).identity = some location.text := by
  induction hstands with
  | named hbody hlookup =>
      obtain ⟨id, hid, hidentity⟩ := h.names _ hbody
      cases hid.symm.trans hlookup
      simpa [Location.text] using hidentity
  | inside _ hholds hinline ih =>
      rw [Location.text_inside]
      exact h.places _ _ ih _ _ hholds.mem_placed hinline

/-- A schema stands at one location. -/
theorem location_unique (hstands : doc.Stands named location id)
    (hstands' : doc.Stands named location' id) : location = location' := by
  induction hstands generalizing location' with
  | named hbody hlookup =>
      cases hstands' with
      | named hbody' hlookup' =>
          have hidentity := h.identity_eq (.named hbody hlookup)
          have hname := hidentity.symm.trans (h.identity_eq (.named hbody' hlookup'))
          simpa [Location.text] using hname
      | inside _ hholds hinline =>
          exact absurd ⟨_, hbody, hlookup⟩ (h.not_isNamedBody hholds hinline)
  | @inside location owner step edge hstands hholds hinline ih =>
      generalize hid : edge.id = id at hstands'
      cases hstands' with
      | named hbody hlookup =>
          exact absurd ⟨_, hbody, hid ▸ hlookup⟩ (h.not_isNamedBody hholds hinline)
      | inside hstands' hholds' hinline' =>
          obtain ⟨rfl, rfl⟩ := h.place_unique hholds hholds' hinline hinline' hid
          rw [ih hstands']

/-- Every schema stands somewhere. -/
theorem exists_location (hlt : id < doc.schemas.size) :
    ∃ location, doc.Stands named location id := by
  -- On the way out of a tree no schema comes twice, so the way ends.
  let outer (owner child : Fin doc.schemas.size) : Prop :=
    TransGen doc.HoldsInline owner child
  have : IsTrans (Fin doc.schemas.size) outer := ⟨fun _ _ _ => TransGen.trans⟩
  have : Std.Irrefl outer := ⟨fun id => h.acyclic id⟩
  have hwell : WellFounded outer := Finite.wellFounded_of_trans_of_irrefl outer
  suffices hall : ∀ child : Fin doc.schemas.size, ∃ location, doc.Stands named location child from
    hall ⟨id, hlt⟩
  intro child
  induction child using hwell.induction with
  | _ child ih =>
      by_cases hbody : doc.IsNamedBody named child
      · obtain ⟨name, hbody, hlookup⟩ := hbody
        exact ⟨_, .named hbody hlookup⟩
      · obtain ⟨owner, step, edge, hholds, hinline, hid⟩ := h.exists_place child.isLt hbody
        have howner : owner < doc.schemas.size := by
          refine doc.lt_size_of_ne fun hvacant => ?_
          have hedge := hholds.mem_edges
          rw [hvacant] at hedge
          simp [Schema.edges] at hedge
        obtain ⟨location, hstands⟩ := ih ⟨owner, howner⟩
          (.single ⟨edge, hholds.mem_edges, hinline, hid⟩)
        rw [← hid]
        exact ⟨_, .inside hstands hholds hinline⟩

end Assembled

/-! ## Identities -/

/-- The names of named schemas that are no aliases hold no dot, and those of properties are
plain. -/
structure PlainNames (doc : Document) : Prop where
  named : ∀ name id, doc.lookup name = some id → (doc.schema id).identity = some name →
    '.' ∉ name.toList
  properties : ∀ id, ∀ name ∈ (doc.schema id).properties.keys, (SchemaStep.property name).Plain

theorem PlainNames.plain (hplain : doc.PlainNames) (h : doc.Assembled named)
    (hstands : doc.Stands named location id) : location.Plain := by
  induction hstands with
  | @named name id hbody hlookup =>
      have hidentity := h.identity_eq (.named hbody hlookup)
      rw [Location.text, SchemaStep.texts_nil, String.append_empty] at hidentity
      exact ⟨hplain.named name id hlookup hidentity, List.forall_mem_nil _⟩
  | @inside location owner step edge _ hholds _ ih =>
      refine ⟨ih.name, List.forall_mem_append.mpr ⟨ih.steps, List.forall_mem_singleton.mpr ?_⟩⟩
      cases step with
      | property name => exact hplain.properties owner name (List.mem_map_of_mem hholds)
      | items | member => trivial

/-- Schemas and locations belong together one to one, and identities are the texts of locations. -/
structure Addressed (named : Keyed Wire.Schema) (doc : Document) : Prop where
  exists_location : ∀ id < doc.schemas.size, ∃ location, doc.Stands named location id
  location_unique : ∀ {location location' id}, doc.Stands named location id →
    doc.Stands named location' id → location = location'
  schema_unique : ∀ {location id id'}, doc.Stands named location id →
    doc.Stands named location id' → id = id'
  identity_eq : ∀ {location id}, doc.Stands named location id →
    (doc.schema id).identity = some location.text
  /-- Two schemas share an identity exactly where their locations blend. -/
  shared_iff : ∀ {location location' id id'}, doc.Stands named location id →
    doc.Stands named location' id' → id ≠ id' →
      ((doc.schema id).identity = (doc.schema id').identity ↔
        location.Blends location' ∨ location'.Blends location)
  /-- Where names are plain, no two schemas do. -/
  distinct : doc.PlainNames → ∀ id < doc.schemas.size, ∀ id' < doc.schemas.size,
    (doc.schema id).identity = (doc.schema id').identity → id = id'

theorem Assembled.addressed (h : doc.Assembled named) (hdistinct : doc.DistinctProperties) :
    doc.Addressed named := by
  constructor
  case exists_location => exact fun id hlt => h.exists_location hlt
  case location_unique => exact h.location_unique
  case schema_unique => exact Stands.unique hdistinct
  case identity_eq => exact h.identity_eq
  case shared_iff =>
    intro location location' id id' hstands hstands' hne
    rw [h.identity_eq hstands, h.identity_eq hstands', Option.some.injEq]
    refine Location.text_eq_iff fun heq => hne ?_
    exact hstands.unique hdistinct (heq ▸ hstands')
  case distinct =>
    intro hplain id hlt id' hlt' heq
    obtain ⟨location, hstands⟩ := h.exists_location hlt
    obtain ⟨location', hstands'⟩ := h.exists_location hlt'
    rw [h.identity_eq hstands, h.identity_eq hstands', Option.some.injEq] at heq
    cases (hplain.plain h hstands).eq_of_text (hplain.plain h hstands') heq
    exact hstands.unique hdistinct hstands'

/-! ## Names of models -/

/-- A name finds a model that has it exactly if no model before it has it. -/
theorem find_eq_some_iff {set : ModelSet} {m : ModelId} {name : String} (hlt : m < set.models.size)
    (hname : (set.model m).name = name) :
    set.find name = some m ↔ ∀ m' < m, (set.model m').name ≠ name := by
  have hmodel : ∀ m' (hlt' : m' < set.models.size), set.models[m'] = set.model m' := by
    intro m' hlt'
    simp [ModelSet.model, hlt']
  rw [ModelSet.find, List.findIdx?_eq_some_iff_getElem]
  simp only [Array.length_toList, Array.getElem_toList]
  constructor
  · rintro ⟨_, -, hbefore⟩ m' hm'
    have hother := hbefore m' hm'
    rw [hmodel] at hother
    simpa using hother
  · intro hbefore
    refine ⟨hlt, by simp [hmodel, hname], fun m' hm' => ?_⟩
    have hother := hbefore m' hm'
    rw [hmodel]
    simpa using hother

section Names

variable {set : ModelSet} {value : Json}

/-- The models of a loaded document have the labels of their schemas for names. -/
theorem name_eq_label (hidentified : doc.Identified) (h : doc.compile = .ok set) {m : ModelId}
    (hlt : m < set.models.size) :
    (set.model m).name = (doc.schema (set.model m).schema).label := by
  have hwf := compile_wellFormed h
  have hmodel := hwf.isModel (ModelSet.forSchema_schema hwf hlt)
  obtain ⟨identity, hidentity⟩ := Option.isSome_iff_exists.mp (hidentified _ hmodel.anchor)
  refine ModelSet.name_model hwf hlt ?_
  cases htitle : (doc.schema (set.model m).schema).title <;>
    simp [Schema.label, htitle, hidentity]

/-- In a loaded document schemas and locations belong together one to one, and the identity of a
schema is the text of its location. The text tells two schemas apart unless their locations blend,
and so it does wherever names are plain. If the document compiles, a model whose schema has no title
has that text for its name, and is found by it exactly if no schema with an earlier model is
labelled alike. -/
theorem ofJson_identities (h : ofJson value = .ok doc) :
    ∃ written dialect, Wire.readDocument (.ofJson value) = .ok written ∧
      dialectOf written = .ok dialect ∧ doc.Addressed (namedOf dialect written) ∧
      ∀ set, doc.compile = .ok set → ∀ id m location, set.forSchema id = some m →
        doc.Stands (namedOf dialect written) location id → (doc.schema id).title = none →
          (set.model m).name = location.text ∧
            (set.find location.text = some m ↔
              ∀ m' < m, (doc.schema (set.model m').schema).label ≠ location.text) := by
  have hloaded : doc.Loaded := .inl ⟨value, h⟩
  obtain ⟨written, hread, hwire⟩ := exists_of_bind_eq_ok h
  have hread := eq_ok_of_mapError hread
  obtain ⟨dialect, hdialect, hassembled⟩ :=
    assembled_of_ofWire (Wire.readDocument_distinctKeys hread) hwire
  refine ⟨written, dialect, hread, hdialect,
    hassembled.addressed hloaded.distinctNames.properties, ?_⟩
  intro set hset id m location hm hstands htitle
  have hwf := compile_wellFormed hset
  have hlt := ModelSet.lt_size_of_forSchema hwf hm
  have hname : (set.model m).name = location.text := by
    rw [name_eq_label hloaded.identified hset hlt, ModelSet.schema_of_forSchema hwf hm]
    simp [Schema.label, htitle, hassembled.identity_eq hstands]
  refine ⟨hname, (find_eq_some_iff hlt hname).trans ?_⟩
  refine forall₂_congr fun m' hm' => ?_
  rw [name_eq_label hloaded.identified hset (Nat.lt_trans hm' hlt)]

end Names

/-! ## A name that reads like a location -/

/-- Shelves hold books, and belong to someone or to another shelf. -/
def libraryValue : Json :=
  .obj [
    ("openapi", .str "3.0.3"),
    ("components", .obj [("schemas", .obj [
      ("Shelf", .obj [
        ("type", .str "object"),
        ("properties", .obj [
          ("books", .obj [("type", .str "array"), ("items", .obj [("type", .str "object")])]),
          ("holder", .obj [("oneOf", .arr [
            .obj [("type", .str "object"), ("title", .str "Person")],
            .obj [("$ref", .str "#/components/schemas/Shelf")]])])])])])])]

/-- The document of `libraryValue`. -/
def library : Document where
  dialect := .openApi30
  schemas := #[
    { dialect := .openApi30, identity := some "Shelf", type := some .object
      properties := [("books", { id := 2 }), ("holder", { id := 4 })] },
    { dialect := .openApi30, identity := some "Shelf.books.items", type := some .object },
    { dialect := .openApi30, identity := some "Shelf.books", type := some .array
      items := some { id := 1 } },
    { dialect := .openApi30, identity := some "Shelf.holder.oneOf.0", title := some "Person"
      type := some .object },
    { dialect := .openApi30, identity := some "Shelf.holder"
      oneOf := [{ id := 3 }, { id := 0, reference := some "#/components/schemas/Shelf" }] }]
  named := [("Shelf", 0)]

/-- The models of `library`. -/
def libraryModels : ModelSet where
  models := #[
    { name := "Shelf", schema := 0
      shape := .object [
        { name := "books", type := .array (.model 1) }, { name := "holder", type := .model 2 }] },
    { name := "Shelf.books.items", schema := 1, shape := .object [] },
    { name := "Shelf.holder", schema := 4, shape := .union [.model 3, .model 0] none [] },
    { name := "Person", schema := 3, shape := .object [] }]
  bySchema := [(3, 3), (4, 2), (1, 1), (0, 0)]
  roots := [("Shelf", some (.model 0))]

theorem library_load : ofJson libraryValue = .ok library := by cbv

set_option maxRecDepth 2000 in
theorem library_compile : library.compile = .ok libraryModels := by rfl

theorem library_plainNames : library.PlainNames := by
  constructor
  · intro name id hlookup _
    have hmem : (name, id) ∈ [("Shelf", 0)] := Keyed.mem_of_get? hlookup
    cases List.mem_singleton.mp hmem
    decide
  · intro id name hname
    rcases library.schema_cases id with hmem | hvacant
    · have hall : ∀ schema ∈ library.schemas, ∀ name ∈ schema.properties.keys,
          '.' ∉ name.toList ∧ name ∉ reservedWords := by decide
      exact hall _ hmem name hname
    · rw [hvacant] at hname
      cases hname

/-- The names of shelves are plain, and books are found by their identity. -/
theorem library_identities :
    ofJson libraryValue = .ok library ∧ library.PlainNames ∧
      (∀ id < 5, ∀ id' < 5, (library.schema id).identity = (library.schema id').identity →
        id = id') ∧
      library.compile = .ok libraryModels ∧
      ∃ written dialect location, Wire.readDocument (.ofJson libraryValue) = .ok written ∧
        dialectOf written = .ok dialect ∧ library.Addressed (namedOf dialect written) ∧
        library.Stands (namedOf dialect written) location 1 ∧
        location.text = "Shelf.books.items" ∧ libraryModels.find location.text = some 1 := by
  obtain ⟨written, dialect, hread, hdialect, haddressed, hnames⟩ := ofJson_identities library_load
  obtain ⟨location, hstands⟩ := haddressed.exists_location 1 (by decide)
  have htext : location.text = "Shelf.books.items" :=
    (Option.some.inj (haddressed.identity_eq hstands)).symm
  refine ⟨library_load, library_plainNames, haddressed.distinct library_plainNames,
    library_compile, written, dialect, location, hread, hdialect, haddressed, hstands, htext, ?_⟩
  refine (hnames libraryModels library_compile 1 1 location rfl hstands rfl).2.mpr ?_
  rw [htext]
  intro m' hm'
  obtain rfl : m' = 0 := Nat.lt_one_iff.mp hm'
  decide

/-- Shelves hold a book, and there is a schema with a dot in its name. -/
def shelvesValue : Json :=
  .obj [
    ("openapi", .str "3.0.3"),
    ("components", .obj [("schemas", .obj [
      ("Shelf", .obj [
        ("type", .str "object"),
        ("properties", .obj [("book", .obj [("type", .str "object")])])]),
      ("Shelf.book", .obj [("type", .str "object")])])])]

/-- The document of `shelvesValue`. -/
def shelves : Document where
  dialect := .openApi30
  schemas := #[
    { dialect := .openApi30, identity := some "Shelf", type := some .object
      properties := [("book", { id := 2 })] },
    { dialect := .openApi30, identity := some "Shelf.book", type := some .object },
    { dialect := .openApi30, identity := some "Shelf.book", type := some .object }]
  named := [("Shelf", 0), ("Shelf.book", 1)]

/-- The models of `shelves`. -/
def shelvesModels : ModelSet where
  models := #[
    { name := "Shelf", schema := 0, shape := .object [{ name := "book", type := .model 1 }] },
    { name := "Shelf.book", schema := 2, shape := .object [] },
    { name := "Shelf.book", schema := 1, shape := .object [] }]
  bySchema := [(1, 2), (2, 1), (0, 0)]
  roots := [("Shelf", some (.model 0)), ("Shelf.book", some (.model 2))]

/-- The book on a shelf and the schema with the dot share an identity, and the name of the latter
finds the model of the former. -/
theorem shelves_not_distinct :
    (¬ ∀ value doc, ofJson value = .ok doc → ∀ id < doc.schemas.size, ∀ id' < doc.schemas.size,
        id ≠ id' → (doc.schema id).identity ≠ (doc.schema id').identity) ∧
      ofJson shelvesValue = .ok shelves ∧ shelves.compile = .ok shelvesModels ∧
      shelves.lookup "Shelf.book" = some 1 ∧ shelvesModels.forSchema 1 = some 2 ∧
      shelvesModels.find "Shelf.book" = some 1 := by
  have hload : ofJson shelvesValue = .ok shelves := by cbv
  refine ⟨fun hdistinct => ?_, hload, by rfl, by rfl, by rfl, by decide⟩
  exact hdistinct shelvesValue shelves hload 1 (by decide) 2 (by decide) (by decide) rfl

end Document
end OpenApi
