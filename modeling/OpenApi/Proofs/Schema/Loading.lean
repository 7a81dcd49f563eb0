-- SUMMARY: What adding, replacing and naming schemas keeps holds of every document that is loaded.
import OpenApi.Document.Load
import OpenApi.Proofs.Except
import Mathlib.Data.List.Forall2

/-!
# What loading keeps

Loading reserves slots, names them, adds the schemas that it converts, and fills the
slots. What these steps keep, as long as the schemas that are added have some property,
holds of the document at the end. `Preserved` gathers what is to be shown of the single
steps, and `Preserved.ofWire` is the induction over the passes and over the schemas as
written, which is the same for all that is said of loaded documents.
-/

namespace OpenApi.Document

/-! ## Converted schemas -/

/-- The edge that conversion makes of a property: a legacy document marks what is required. -/
structure IsMarked (dialect : Dialect) (names : List String) (written : String × Wire.Schema)
    (property : String × Edge) : Prop where
  name : property.1 = written.1
  mark : property.2.required = (dialect.isLegacy && flagged names written.1 written.2)

/-- What conversion makes of a schema as written, its members and items apart. -/
structure IsConverted (dialect : Dialect) (identity : String) (written : Wire.Schema)
    (schema : Schema) : Prop where
  identity : schema.identity = some identity
  required : schema.required = (requiredNames written.required).eraseDups
  properties : List.Forall₂ (IsMarked dialect (requiredNames written.required)) written.properties
    schema.properties
  dialect : schema.dialect = dialect

theorem keys_of_isMarked {dialect : Dialect} {names : List String}
    {written : List (String × Wire.Schema)} {properties : Keyed Edge}
    (h : List.Forall₂ (IsMarked dialect names) written properties) :
    properties.keys = Keyed.keys written := by
  induction h with
  | nil => rfl
  | cons hfirst _ ih => exact congrArg₂ List.cons hfirst.name ih

/-- What is known of a schema as written is known of all schemas inside it. -/
structure Hereditary (known : Wire.Schema → Prop) : Prop where
  properties : ∀ {written}, known written → ∀ property ∈ written.properties, known property.2
  items : ∀ {written}, known written → ∀ item, written.items = some item → known item
  allOf : ∀ {written}, known written → ∀ member ∈ written.allOf, known member
  anyOf : ∀ {written}, known written → ∀ member ∈ written.anyOf, known member
  oneOf : ∀ {written}, known written → ∀ member ∈ written.oneOf, known member

/-- The steps of loading keep what holds of a document, if something is known of the schemas as
written. The last property is that of the schemas that are added. -/
structure Preserved (dialect : Dialect) (known : Wire.Schema → Prop) (holds : Document → Prop)
    (adds : Schema → Prop) : Prop where
  hereditary : Hereditary known
  start : holds { dialect }
  name : ∀ {doc}, holds doc → ∀ name id, holds (doc.name name id)
  insert : ∀ {doc added}, holds doc → adds added → holds (doc.insert added).1
  replace : ∀ {doc added}, holds doc → adds added → ∀ id, holds (doc.replace id added)
  reserved : adds { dialect }
  converted : ∀ {identity written schema}, known written →
    IsConverted dialect identity written schema → adds schema

/-- What holds of the schemas that are added holds of all schemas of the document. -/
theorem preserved_of_schemas {dialect : Dialect} {known : Wire.Schema → Prop}
    {adds : Schema → Prop} (hereditary : Hereditary known) (reserved : adds { dialect })
    (converted : ∀ {identity written schema}, known written →
      IsConverted dialect identity written schema → adds schema) :
    Preserved dialect known (fun doc => ∀ schema ∈ doc.schemas, adds schema) adds where
  hereditary := hereditary
  start := by simp
  name := fun h _ _ => h
  insert := by
    intro doc added h hadded schema hmem
    rcases Array.mem_push.mp hmem with hmem | rfl
    · exact h schema hmem
    · exact hadded
  replace := by
    intro doc added h hadded place schema hmem
    rcases Array.mem_or_eq_of_mem_setIfInBounds hmem with hmem | rfl
    · exact h schema hmem
    · exact hadded
  reserved := reserved
  converted := converted

namespace Preserved

variable {dialect : Dialect} {known : Wire.Schema → Prop} {holds : Document → Prop}
variable {adds : Schema → Prop} {doc after : Document}
variable (hkeeps : Preserved dialect known holds adds)
include hkeeps

/-! ## Names -/

theorem reserveNamed (h : holds doc ∧ doc.dialect = dialect)
    (named : List (String × Wire.Schema)) :
    holds (reserveNamed doc named) ∧ (reserveNamed doc named).dialect = dialect := by
  unfold Document.reserveNamed
  induction named generalizing doc with
  | nil => exact h
  | cons entry rest ih =>
      obtain ⟨name, schema⟩ := entry
      rw [List.foldl_cons]
      apply ih
      simp only
      split
      · exact h
      · obtain ⟨hdoc, rfl⟩ := h
        exact ⟨hkeeps.name (hkeeps.insert hdoc hkeeps.reserved) name _, rfl⟩

theorem aliasPass (h : holds doc ∧ doc.dialect = dialect) (aliases : List (String × String)) :
    holds (aliasPass doc aliases).1 ∧ (aliasPass doc aliases).1.dialect = dialect := by
  induction aliases generalizing doc with
  | nil => exact h
  | cons entry rest ih =>
      unfold Document.aliasPass
      split
      · exact ih ⟨hkeeps.name h.1 _ _, h.2⟩
      · exact ih h

theorem resolveAliases (h : holds doc ∧ doc.dialect = dialect) {fuel : Nat}
    {aliases : List (String × String)}
    (hresolve : resolveAliases fuel doc aliases = .ok after) :
    holds after ∧ after.dialect = dialect := by
  induction fuel generalizing doc aliases with
  | zero =>
      cases aliases <;> cases hresolve
      exact h
  | succ fuel ih =>
      cases aliases with
      | nil =>
          cases hresolve
          exact h
      | cons entry rest =>
          simp only [Document.resolveAliases] at hresolve
          split at hresolve
          · cases hresolve
          · exact ih (hkeeps.aliasPass h _) hresolve

/-! ## Bodies -/

/-- Linking a child keeps what converting the child keeps, and leaves the edge without a mark. -/
theorem link (h : holds doc ∧ doc.dialect = dialect) {reference : Option String}
    {converted : Unit → Except SchemaError (Schema × Document)} {edge : Edge}
    (hlink : link doc reference converted = .ok (edge, after))
    (hconverted : ∀ schema middle, converted () = .ok (schema, middle) →
      (holds middle ∧ middle.dialect = dialect) ∧ adds schema) :
    holds after ∧ after.dialect = dialect := by
  unfold Document.link at hlink
  split at hlink
  · split at hlink
    · cases hlink
      exact h
    · cases hlink
  · obtain ⟨⟨schema, middle⟩, hschema, hlink⟩ := exists_of_bind_eq_ok hlink
    cases hlink
    obtain ⟨⟨hmiddle, hdialect⟩, hadds⟩ := hconverted schema middle hschema
    exact ⟨hkeeps.insert hmiddle hadds, hdialect⟩

mutual

theorem convert {identity : String} {written : Wire.Schema} {doc after : Document}
    {schema : Schema} (h : holds doc ∧ doc.dialect = dialect) (hwritten : known written)
    (hconvert : convert identity written doc = .ok (schema, after)) :
    (holds after ∧ after.dialect = dialect) ∧ adds schema := by
  have hadds (hmade : IsConverted dialect identity written schema) : adds schema :=
    hkeeps.converted hwritten hmade
  have hproperties := hkeeps.hereditary.properties hwritten
  have hitems := hkeeps.hereditary.items hwritten
  have hallOf := hkeeps.hereditary.allOf hwritten
  have hanyOf := hkeeps.hereditary.anyOf hwritten
  have honeOf := hkeeps.hereditary.oneOf hwritten
  obtain ⟨_, type, _, _, properties, required, items, allOf, anyOf, oneOf, _, _, _⟩ := written
  rw [Document.convert] at hconvert
  obtain ⟨_, -, hconvert⟩ := exists_of_bind_eq_ok hconvert
  obtain ⟨⟨_, docP⟩, hconvertP, hconvert⟩ := exists_of_bind_eq_ok hconvert
  obtain ⟨⟨_, docI⟩, hconvertI, hconvert⟩ := exists_of_bind_eq_ok hconvert
  obtain ⟨⟨_, docAll⟩, hconvertAll, hconvert⟩ := exists_of_bind_eq_ok hconvert
  obtain ⟨⟨_, docAny⟩, hconvertAny, hconvert⟩ := exists_of_bind_eq_ok hconvert
  obtain ⟨⟨_, docOne⟩, hconvertOne, hconvert⟩ := exists_of_bind_eq_ok hconvert
  obtain ⟨hP, hmarked⟩ := convertProperties h hproperties hconvertP
  have hI := convertItems hP hitems hconvertI
  have hAll := convertMembers hI hallOf hconvertAll
  have hAny := convertMembers hAll hanyOf hconvertAny
  have hOne := convertMembers hAny honeOf hconvertOne
  cases hconvert
  exact ⟨hOne, hadds ⟨rfl, rfl, hmarked, hOne.2⟩⟩

theorem convertProperties {identity : String} {names : List String}
    {written : List (String × Wire.Schema)} {doc after : Document} {edges : List (String × Edge)}
    (h : holds doc ∧ doc.dialect = dialect) (hwritten : ∀ property ∈ written, known property.2)
    (hconvert : convertProperties identity names written doc = .ok (edges, after)) :
    (holds after ∧ after.dialect = dialect) ∧
      List.Forall₂ (IsMarked dialect names) written edges := by
  match written with
  | [] =>
      cases hconvert
      exact ⟨h, .nil⟩
  | (name, child) :: rest =>
      rw [List.forall_mem_cons] at hwritten
      rw [Document.convertProperties] at hconvert
      obtain ⟨⟨_, middle⟩, hlink, hconvert⟩ := exists_of_bind_eq_ok hconvert
      obtain ⟨⟨_, _⟩, hrest, hconvert⟩ := exists_of_bind_eq_ok hconvert
      cases hconvert
      have hmiddle := hkeeps.link h hlink fun _ _ hchild => convert h hwritten.1 hchild
      obtain ⟨hafter, hmarked⟩ := convertProperties hmiddle hwritten.2 hrest
      exact ⟨hafter, .cons ⟨rfl, by rw [hmiddle.2]⟩ hmarked⟩

theorem convertItems {identity : String} {written : Option Wire.Schema} {doc after : Document}
    {edge : Option Edge} (h : holds doc ∧ doc.dialect = dialect)
    (hwritten : ∀ item, written = some item → known item)
    (hconvert : convertItems identity written doc = .ok (edge, after)) :
    holds after ∧ after.dialect = dialect := by
  match written with
  | none =>
      cases hconvert
      exact h
  | some child =>
      rw [Document.convertItems] at hconvert
      obtain ⟨⟨_, middle⟩, hlink, hconvert⟩ := exists_of_bind_eq_ok hconvert
      cases hconvert
      exact hkeeps.link h hlink fun _ _ hchild => convert h (hwritten _ rfl) hchild

theorem convertMembers {identity : String} {place : Nat} {written : List Wire.Schema}
    {doc after : Document} {edges : List Edge} (h : holds doc ∧ doc.dialect = dialect)
    (hwritten : ∀ member ∈ written, known member)
    (hconvert : convertMembers identity place written doc = .ok (edges, after)) :
    holds after ∧ after.dialect = dialect := by
  match written with
  | [] =>
      cases hconvert
      exact h
  | child :: rest =>
      rw [List.forall_mem_cons] at hwritten
      rw [Document.convertMembers] at hconvert
      obtain ⟨⟨_, middle⟩, hlink, hconvert⟩ := exists_of_bind_eq_ok hconvert
      obtain ⟨⟨_, _⟩, hrest, hconvert⟩ := exists_of_bind_eq_ok hconvert
      cases hconvert
      have hmiddle := hkeeps.link h hlink fun _ _ hchild => convert h hwritten.1 hchild
      exact convertMembers hmiddle hwritten.2 hrest

end

theorem fillNamed {named : List (String × Wire.Schema)} {doc after : Document}
    (h : holds doc ∧ doc.dialect = dialect) (hnamed : ∀ entry ∈ named, known entry.2)
    (hfill : fillNamed named doc = .ok after) : holds after ∧ after.dialect = dialect := by
  induction named generalizing doc with
  | nil =>
      cases hfill
      exact h
  | cons entry rest ih =>
      obtain ⟨name, schema⟩ := entry
      rw [List.forall_mem_cons] at hnamed
      rw [Document.fillNamed] at hfill
      split at hfill
      · obtain ⟨⟨body, middle⟩, hbody, hfill⟩ := exists_of_bind_eq_ok hfill
        obtain ⟨⟨hmiddle, hdialect⟩, hadds⟩ := hkeeps.convert h hnamed.1 hbody
        exact ih ⟨hkeeps.replace hmiddle hadds _, hdialect⟩ hnamed.2 hfill
      · exact ih h hnamed.2 hfill

/-! ## Documents -/

/-- What the steps of loading keep holds of the document that is loaded. -/
theorem ofWire {written : Wire.Document} (hdialect : dialectOf written = .ok dialect)
    (hnamed : ∀ entry ∈ namedOf dialect written, known entry.2)
    (h : ofWire written = .ok doc) : holds doc ∧ doc.dialect = dialect := by
  unfold Document.ofWire at h
  rw [hdialect, ok_bind] at h
  obtain ⟨middle, hresolve, hfill⟩ := exists_of_bind_eq_ok h
  have hstart := hkeeps.reserveNamed ⟨hkeeps.start, rfl⟩ (namedOf dialect written)
  exact hkeeps.fillNamed (hkeeps.resolveAliases hstart hresolve) hnamed hfill

end Preserved
end OpenApi.Document
