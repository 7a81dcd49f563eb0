-- SUMMARY: A legacy document loads like a current one; only where it says what is required differs.
import OpenApi.Proofs.Schema.Loading
import OpenApi.Proofs.Schema.Walk

/-!
# Documents of both dialects

The same named schemas can be written in a legacy document and in a current one. Loading
does the same with both, and refuses both for the same reason. A current document has no
marks on its edges. A legacy document marks the properties that their owner requires, so
its marks say again what the owners say, unless a schema requires itself.
-/

namespace OpenApi

/-! ## Current documents -/

/-- The same edge without a mark. -/
def Edge.unmarked (edge : Edge) : Edge := { edge with required := false }

/-- The schema that a current document has in the place of this one. -/
def Schema.current (schema : Schema) : Schema :=
  { schema with
    dialect := .openApi30
    properties := schema.properties.map fun (name, edge) => (name, edge.unmarked) }

namespace Schema

variable (schema : Schema)

@[simp] theorem title_current : schema.current.title = schema.title := rfl
@[simp] theorem identity_current : schema.current.identity = schema.identity := rfl
@[simp] theorem label_current : schema.current.label = schema.label := rfl
@[simp] theorem type_current : schema.current.type = schema.type := rfl
@[simp] theorem format_current : schema.current.format = schema.format := rfl
@[simp] theorem required_current : schema.current.required = schema.required := rfl
@[simp] theorem items_current : schema.current.items = schema.items := rfl
@[simp] theorem allOf_current : schema.current.allOf = schema.allOf := rfl
@[simp] theorem combination_current : schema.current.combination = schema.combination := rfl
@[simp] theorem discriminator_current :
    schema.current.discriminator = schema.discriminator := rfl
@[simp] theorem enum_current : schema.current.enum = schema.enum := rfl
@[simp] theorem default_current : schema.current.default = schema.default := rfl

@[simp] theorem isAnchor_current : schema.current.isAnchor = schema.isAnchor := by
  rw [isAnchor, isAnchor, combination_current, type_current]
  simp [current]

end Schema

namespace Document

/-- The current document that says the same as this one. -/
def current (doc : Document) : Document :=
  { dialect := .openApi30, schemas := doc.schemas.map Schema.current, named := doc.named }

variable (doc : Document)

@[simp] theorem lookup_current (name : String) : doc.current.lookup name = doc.lookup name := rfl

@[simp] theorem resolve_current (reference : String) :
    doc.current.resolve reference = doc.resolve reference := rfl

@[simp] theorem size_current : doc.current.schemas.size = doc.schemas.size := by simp [current]

@[simp] theorem schema_current (id : SchemaId) : doc.current.schema id = (doc.schema id).current := by
  simp only [schema, current, Array.getD_eq_getD_getElem?, Array.getElem?_map]
  cases doc.schemas[id]? <;> rfl

theorem insert_current (added : Schema) :
    doc.current.insert added.current = ((doc.insert added).1.current, (doc.insert added).2) := by
  simp [insert, current]

theorem reserve_current :
    doc.current.reserve = (doc.reserve.1.current, doc.reserve.2) :=
  doc.insert_current { dialect := doc.dialect }

theorem name_current (name : String) (id : SchemaId) :
    doc.current.name name id = (doc.name name id).current := rfl

theorem replace_current (id : SchemaId) (added : Schema) :
    doc.current.replace id added.current = (doc.replace id added).current := by
  simp [replace, current, Array.map_setIfInBounds]

/-! ## Names -/

theorem reserveNamed_current (named : List (String × Wire.Schema)) :
    reserveNamed doc.current named = (reserveNamed doc named).current := by
  unfold reserveNamed
  induction named generalizing doc with
  | nil => rfl
  | cons entry rest ih =>
      obtain ⟨name, schema⟩ := entry
      simp only [List.foldl_cons, reserve_current, name_current]
      split <;> exact ih _

theorem aliasPass_current (aliases : List (String × String)) :
    aliasPass doc.current aliases =
      ((aliasPass doc aliases).1.current, (aliasPass doc aliases).2) := by
  induction aliases generalizing doc with
  | nil => rfl
  | cons entry rest ih =>
      obtain ⟨name, target⟩ := entry
      simp only [aliasPass, resolve_current]
      split
      · rw [name_current, ih]
      · rw [ih]

theorem resolveAliases_current (fuel : Nat) (aliases : List (String × String)) :
    resolveAliases fuel doc.current aliases = current <$> resolveAliases fuel doc aliases := by
  induction fuel generalizing doc aliases with
  | zero => cases aliases <;> rfl
  | succ fuel ih =>
      cases aliases with
      | nil => rfl
      | cons entry rest =>
          simp only [resolveAliases, aliasPass_current]
          split
          · rfl
          · exact ih _ _

/-! ## Bodies -/

/-- What a conversion adds to a document, and what it adds to the current one. -/
abbrev atCurrent {α : Type} (f : α → α) (found : α × Document) : α × Document :=
  (f found.1, found.2.current)

/-- The edges of properties without marks. -/
abbrev unmarkedEdges (properties : List (String × Edge)) : List (String × Edge) :=
  properties.map fun (name, edge) => (name, edge.unmarked)

theorem bind_current {α β : Type} {f : α → α} {g : β → β}
    {step step' : Except SchemaError (α × Document)}
    {next next' : α × Document → Except SchemaError (β × Document)}
    (h : step' = atCurrent f <$> step)
    (hnext : ∀ found doc, next' (f found, doc.current) = atCurrent g <$> next (found, doc)) :
    step' >>= next' = atCurrent g <$> (step >>= next) := by
  rw [h]
  cases step with
  | error error => rfl
  | ok found => exact hnext found.1 found.2

theorem link_current (reference : Option String)
    {converted converted' : Except SchemaError (Schema × Document)}
    (h : converted' = atCurrent Schema.current <$> converted) :
    link doc.current reference (fun _ => converted') =
      atCurrent id <$> link doc reference fun _ => converted := by
  cases reference with
  | some reference =>
      simp only [link, resolve_current]
      cases doc.resolve reference <;> rfl
  | none =>
      refine bind_current h fun schema doc => ?_
      simp only [insert_current]
      rfl

mutual

theorem convert_current (identity : String) (written : Wire.Schema) (doc : Document) :
    convert identity written doc.current =
      atCurrent Schema.current <$> convert identity written doc := by
  obtain ⟨reference, type, format, title, properties, required, items, allOf, anyOf, oneOf,
    discriminator, enum, default⟩ := written
  simp only [convert]
  cases typeOf identity type with
  | error error => rfl
  | ok type =>
      simp only [ok_bind]
      refine bind_current (convertProperties_current _ _ properties doc) fun _ doc => ?_
      refine bind_current (convertItems_current _ items doc) fun _ doc => ?_
      refine bind_current (convertMembers_current _ 0 allOf doc) fun _ doc => ?_
      refine bind_current (convertMembers_current _ 0 anyOf doc) fun _ doc => ?_
      refine bind_current (convertMembers_current _ 0 oneOf doc) fun _ doc => ?_
      rfl

theorem convertProperties_current (identity : String) (names : List String)
    (written : List (String × Wire.Schema)) (doc : Document) :
    convertProperties identity names written doc.current =
      atCurrent unmarkedEdges <$> convertProperties identity names written doc := by
  match written with
  | [] => rfl
  | (name, child) :: rest =>
      simp only [convertProperties]
      refine bind_current (link_current doc child.reference (convert_current _ child doc))
        fun edge doc => ?_
      exact bind_current (convertProperties_current identity names rest doc) fun _ _ => rfl

theorem convertItems_current (identity : String) (written : Option Wire.Schema)
    (doc : Document) :
    convertItems identity written doc.current =
      atCurrent id <$> convertItems identity written doc := by
  match written with
  | none => rfl
  | some child =>
      simp only [convertItems]
      exact bind_current (link_current doc child.reference (convert_current identity child doc))
        fun _ _ => rfl

theorem convertMembers_current (identity : String) (place : Nat) (written : List Wire.Schema)
    (doc : Document) :
    convertMembers identity place written doc.current =
      atCurrent id <$> convertMembers identity place written doc := by
  match written with
  | [] => rfl
  | child :: rest =>
      simp only [convertMembers]
      refine bind_current (link_current doc child.reference (convert_current _ child doc))
        fun edge doc => ?_
      exact bind_current (convertMembers_current identity (place + 1) rest doc) fun _ _ => rfl

end

theorem fillNamed_current (named : List (String × Wire.Schema)) :
    fillNamed named doc.current = current <$> fillNamed named doc := by
  induction named generalizing doc with
  | nil => rfl
  | cons entry rest ih =>
      obtain ⟨name, schema⟩ := entry
      simp only [fillNamed, lookup_current]
      split
      · rw [convert_current]
        cases convert name schema doc with
        | error error => rfl
        | ok found =>
            change fillNamed rest (found.2.current.replace _ found.1.current) = _
            rw [replace_current, ih]
            rfl
      · exact ih doc

/-- Named schemas load as a current document just like as a legacy one. -/
theorem ofWire_current (named : List (String × Wire.Schema)) {version : String}
    (hversion : version.startsWith "3.0" = true) :
    ofWire { openapi := some version, components := named } =
      current <$> ofWire { swagger := some "2.0", definitions := named } := by
  have hstart : ({ dialect := .openApi30 } : Document) = current { dialect := .swagger2 } := by
    simp [current]
  simp only [ofWire, dialectOf, hversion, if_true, ok_bind, namedOf, Dialect.isLegacy,
    Bool.false_eq_true, if_false, hstart, reserveNamed_current, resolveAliases_current]
  cases resolveAliases (aliasesOf named).length
    (reserveNamed { dialect := .swagger2 } named) (aliasesOf named) with
  | error error => rfl
  | ok doc => exact fillNamed_current doc named

/-! ## Marks -/

end Document

/-- A schema that does not say of itself whether it is required, nor does one inside it. -/
inductive Wire.Schema.Unflagged : Wire.Schema → Prop where
  | intro {schema : Wire.Schema} :
      (∀ value, schema.required ≠ some (.flag value)) →
      (∀ property ∈ schema.properties, Unflagged property.2) →
      (∀ item, schema.items = some item → Unflagged item) →
      (∀ member ∈ schema.allOf, Unflagged member) →
      (∀ member ∈ schema.anyOf, Unflagged member) →
      (∀ member ∈ schema.oneOf, Unflagged member) → Unflagged schema

theorem Wire.Schema.Unflagged.not_flag {schema : Wire.Schema} (h : schema.Unflagged)
    (value : Bool) : schema.required ≠ some (.flag value) := by
  obtain ⟨hrequired, -⟩ := h
  exact hrequired value

/-- The properties that are required are those whose names are listed. -/
def Schema.ListsRequired (schema : Schema) : Prop :=
  ∀ property ∈ schema.properties,
    schema.isRequired property.1 property.2 = schema.required.contains property.1

/-- In a document all properties that are required are listed by their owners, and no others. -/
def Document.ListsRequired (doc : Document) : Prop := ∀ schema ∈ doc.schemas, schema.ListsRequired

namespace Document

/-- Where no property says of itself that it is required, marks are what the owner lists. -/
theorem mark_of_unflagged {dialect : Dialect} {names : List String}
    {written : List (String × Wire.Schema)} {properties : Keyed Edge}
    (h : List.Forall₂ (IsMarked dialect names) written properties)
    (hwritten : ∀ property ∈ written, property.2.Unflagged) :
    ∀ property ∈ properties,
      property.2.required = (dialect.isLegacy && names.contains property.1) := by
  induction h with
  | nil => simp
  | cons hfirst _ ih =>
      rw [List.forall_mem_cons] at hwritten ⊢
      refine ⟨?_, ih hwritten.2⟩
      have hflag : (_ == some (Wire.Required.flag true)) = false :=
        beq_eq_false_iff_ne.mpr (hwritten.1.not_flag true)
      rw [hfirst.mark, hfirst.name, flagged, hflag, Bool.false_or]

/-- Loading adds schemas that list what they require, unless one says it of itself. -/
theorem listsRequired_preserved (dialect : Dialect) :
    Preserved dialect Wire.Schema.Unflagged ListsRequired Schema.ListsRequired := by
  refine preserved_of_schemas ⟨?_, ?_, ?_, ?_, ?_⟩ (by simp [Schema.ListsRequired]) ?_
  · rintro written ⟨-, hproperties, -⟩
    exact hproperties
  · rintro written ⟨-, -, hitems, -⟩
    exact hitems
  · rintro written ⟨-, -, -, hallOf, -⟩
    exact hallOf
  · rintro written ⟨-, -, -, -, hanyOf, -⟩
    exact hanyOf
  · rintro written ⟨-, -, -, -, -, honeOf⟩
    exact honeOf
  · rintro identity written schema ⟨-, hproperties, -⟩ hmade property hmem
    have hmark := mark_of_unflagged hmade.properties hproperties property hmem
    have hlist : schema.required.contains property.1 =
        (requiredNames written.required).contains property.1 := by
      rw [hmade.required, Bool.eq_iff_iff]
      simp
    rw [Schema.isRequired, hmade.dialect, hmark, ← hlist]
    cases dialect.isLegacy <;> rfl

/-- Loading adds schemas of the dialect of the document. -/
theorem dialect_preserved (dialect : Dialect) :
    Preserved dialect (fun _ => True) (fun doc => ∀ schema ∈ doc.schemas, schema.dialect = dialect)
      fun schema => schema.dialect = dialect := by
  refine preserved_of_schemas ?_ rfl fun _ hmade => hmade.dialect
  constructor <;> intros <;> trivial

/-- All schemas of a loaded document are of its dialect. -/
theorem schema_dialect_of_ofWire {written : Wire.Document} {doc : Document}
    (h : ofWire written = .ok doc) (id : SchemaId) : (doc.schema id).dialect = doc.dialect := by
  obtain ⟨dialect, hdialect, -⟩ := exists_of_bind_eq_ok h
  obtain ⟨hschemas, hdoc⟩ := (dialect_preserved dialect).ofWire hdialect (fun _ _ => trivial) h
  rcases doc.schema_cases id with hmem | hsilent
  · rw [hschemas _ hmem, hdoc]
  · rw [hsilent]

theorem ListsRequired.schema {doc : Document} (h : doc.ListsRequired) (id : SchemaId) :
    (doc.schema id).ListsRequired := by
  rcases doc.schema_cases id with hmem | hsilent
  · exact h _ hmem
  · rw [hsilent]
    simp [Schema.ListsRequired]

/-- A current document lists what is required. -/
theorem listsRequired_current (doc : Document) : doc.current.ListsRequired := by
  intro schema hmem property _
  obtain ⟨old, -, rfl⟩ := Array.mem_map.mp hmem
  rfl

end Document
end OpenApi
