-- SUMMARY: Loaded documents have distinct names, and their schemas distinct properties.
import OpenApi.Proofs.Except
import OpenApi.Proofs.Model.Members
import OpenApi.Proofs.Schema.Loaded

/-!
# Distinct names

Names and properties are read into keyed lists by `Keyed.ofList`, which keeps one entry
for each key. Conversion keeps the properties of each schema in their order, and naming
goes through `Keyed.insert` again. So in a loaded document no name is given twice, and no
schema has two properties of one name.
-/

namespace OpenApi

/-! ## Keys of keyed lists -/

/-- Where keys are distinct, each entry is the one under its key. -/
theorem lookup_of_mem {κ : Type u} {α : Type v} [BEq κ] [LawfulBEq κ] {entries : List (κ × α)}
    (hnodup : (entries.map (·.1)).Nodup) {key : κ} {value : α} (h : (key, value) ∈ entries) :
    List.lookup key entries = some value := by
  obtain ⟨before, after, rfl⟩ := List.append_of_mem h
  rw [List.map_append, List.nodup_append] at hnodup
  refine List.lookup_eq_some_iff.mpr ⟨before, after, rfl, fun entry hmem => ?_⟩
  have hne : entry.1 ≠ key := hnodup.2.2 entry.1 (List.mem_map_of_mem hmem) key (by simp)
  simpa using Ne.symm hne

namespace Keyed

variable {α : Type u}

@[simp] theorem keys_cons (key : String) (value : α) (rest : Keyed α) :
    keys ((key, value) :: rest) = key :: keys rest := rfl

theorem keys_insert (entries : Keyed α) (key : String) (value : α) :
    (entries.insert key value).keys =
      if key ∈ entries.keys then entries.keys else entries.keys ++ [key] := by
  induction entries with
  | nil => rfl
  | cons entry rest ih =>
      obtain ⟨first, old⟩ := entry
      by_cases h : first = key
      · subst h
        simp [insert]
      · have hinsert : insert ((first, old) :: rest) key value =
            (first, old) :: insert rest key value := by simp [insert, h]
        rw [hinsert, keys_cons, keys_cons, ih]
        by_cases hmem : key ∈ keys rest <;> simp [hmem, Ne.symm h]

theorem insert_of_notMem {entries : Keyed α} {key : String} (h : key ∉ entries.keys) (value : α) :
    entries.insert key value = entries ++ [(key, value)] := by
  induction entries with
  | nil => rfl
  | cons entry rest ih =>
      obtain ⟨first, old⟩ := entry
      rw [keys_cons, List.mem_cons, not_or] at h
      simp [insert, Ne.symm h.1, ih h.2]

theorem nodup_keys_insert {entries : Keyed α} (h : entries.keys.Nodup) (key : String) (value : α) :
    (entries.insert key value).keys.Nodup := by
  rw [keys_insert]
  split
  · exact h
  · rename_i hnew
    refine List.nodup_append.mpr ⟨h, by simp, ?_⟩
    intro other hother last hlast heq
    cases List.mem_singleton.mp hlast
    exact hnew (heq ▸ hother)

theorem mem_of_mem_insert {entries : Keyed α} {key : String} {value : α} {entry : String × α}
    (h : entry ∈ entries.insert key value) : entry ∈ entries ∨ entry.2 = value := by
  induction entries with
  | nil => exact .inr (congrArg Prod.snd (List.mem_singleton.mp h))
  | cons first rest ih =>
      obtain ⟨k, old⟩ := first
      simp only [insert] at h
      split at h
      · rcases List.mem_cons.mp h with rfl | h
        · exact .inr rfl
        · exact .inl (List.mem_cons_of_mem _ h)
      · rcases List.mem_cons.mp h with rfl | h
        · exact .inl List.mem_cons_self
        · exact (ih h).imp_left (List.mem_cons_of_mem _)

/-- A list of pairs becomes one with each key once, whose entries were among the pairs. -/
theorem ofList_spec (pairs : List (String × α)) :
    (ofList pairs).keys.Nodup ∧
      ∀ entry ∈ ofList pairs, ∃ pair ∈ pairs, pair.2 = entry.2 := by
  -- The induction is on the pairs that are left; those inserted already come first.
  suffices h : ∀ (rest : List (String × α)) (entries : Keyed α), entries.keys.Nodup →
      (∀ entry ∈ entries, ∃ pair ∈ pairs, pair.2 = entry.2) → (∀ pair ∈ rest, pair ∈ pairs) →
      (rest.foldl (fun entries pair => entries.insert pair.1 pair.2) entries).keys.Nodup ∧
        ∀ entry ∈ rest.foldl (fun entries pair => entries.insert pair.1 pair.2) entries,
          ∃ pair ∈ pairs, pair.2 = entry.2 from
    h pairs [] List.nodup_nil (by simp) fun _ => id
  intro rest
  induction rest with
  | nil => exact fun entries hnodup hentries _ => ⟨hnodup, hentries⟩
  | cons pair rest ih =>
      intro entries hnodup hentries hrest
      rw [List.forall_mem_cons] at hrest
      refine ih _ (nodup_keys_insert hnodup _ _) (fun entry hmem => ?_) hrest.2
      rcases mem_of_mem_insert hmem with hmem | heq
      · exact hentries entry hmem
      · exact ⟨pair, hrest.1, heq.symm⟩

end Keyed

/-! ## Schemas as written -/

namespace Wire

/-- No schema inside a schema has two properties of one name, and neither has it itself. -/
inductive Schema.Distinct : Schema → Prop where
  | intro {schema : Schema} :
      (Keyed.keys schema.properties).Nodup →
      (∀ entry ∈ schema.properties, Schema.Distinct entry.2) →
      (∀ item, schema.items = some item → Schema.Distinct item) →
      (∀ member ∈ schema.allOf, Schema.Distinct member) →
      (∀ member ∈ schema.anyOf, Schema.Distinct member) →
      (∀ member ∈ schema.oneOf, Schema.Distinct member) → Schema.Distinct schema

/-- What a tree is read as has distinct names all through. -/
structure Nested.Distinct (nested : Nested) : Prop where
  schema : ∀ {schema}, nested.schema () = .ok schema → schema.Distinct
  schemas : ∀ {schemas}, nested.schemas () = .ok schemas → ∀ schema ∈ schemas, schema.Distinct
  named : ∀ {named}, nested.named () = .ok named →
    (Keyed.keys named).Nodup ∧ ∀ entry ∈ named, entry.2.Distinct

/-- A schema without anything inside. -/
theorem Schema.distinct_start : Schema.Distinct {} :=
  .intro List.nodup_nil (by simp) (by simp) (by simp) (by simp) (by simp)

theorem not_mismatch {α : Type} {expected : Expected} {tree : Json.Tree} {answer : α} :
    mismatch expected tree ≠ .ok answer := by
  unfold mismatch
  split <;> nofun

theorem exists_of_readOptional {α : Type} {read : Json.Tree → Except (Json.Located Fault) α}
    {tree : Json.Tree} {found : α} (h : readOptional read tree = .ok (some found)) :
    read tree = .ok found := by
  unfold readOptional at h
  split at h
  · cases h
  · cases hread : read tree <;> rw [hread] at h <;> cases h
    rfl

/-- Setting a field keeps a schema distinct if what it is set to is. -/
theorem setField_distinct {schema after : Schema} {name : String} {tree : Json.Tree}
    {nested : Nested} (hnested : nested.Distinct) (h : schema.Distinct)
    (hset : setField schema name tree nested = .ok after) : after.Distinct := by
  obtain ⟨hkeys, hproperties, hitems, hallOf, hanyOf, honeOf⟩ := h
  unfold setField at hset
  split at hset <;> obtain ⟨read, hread, hset⟩ := exists_of_bind_eq_ok hset <;> cases hset
  case h_5 =>
    exact .intro (hnested.named hread).1 (hnested.named hread).2 hitems hallOf hanyOf honeOf
  case h_7 =>
    refine .intro hkeys hproperties (fun item hitem => ?_) hallOf hanyOf honeOf
    cases hitem
    exact hnested.schema (exists_of_readOptional hread)
  case h_8 => exact .intro hkeys hproperties hitems (hnested.schemas hread) hanyOf honeOf
  case h_9 => exact .intro hkeys hproperties hitems hallOf (hnested.schemas hread) honeOf
  case h_10 => exact .intro hkeys hproperties hitems hallOf hanyOf (hnested.schemas hread)
  all_goals exact .intro hkeys hproperties hitems hallOf hanyOf honeOf

mutual

/-- Whatever a tree is read as has distinct names. -/
theorem nested_distinct : ∀ tree, (nested tree).Distinct
  | .record place deep members ending =>
    { schema := by
        intro schema h
        rw [nested] at h
        obtain ⟨_, -, h⟩ := exists_of_bind_eq_ok h
        obtain ⟨⟨read, _⟩, hread, h⟩ := exists_of_bind_eq_ok h
        obtain ⟨_, -, h⟩ := exists_of_bind_eq_ok h
        cases h
        exact readSchemaMembers_distinct members Schema.distinct_start hread
      schemas := by
        intro schemas h
        simp only [nested] at h
        exact (not_mismatch h).elim
      named := by
        intro named h
        rw [nested] at h
        obtain ⟨_, -, h⟩ := exists_of_bind_eq_ok h
        obtain ⟨pairs, hread, h⟩ := exists_of_bind_eq_ok h
        obtain ⟨_, -, h⟩ := exists_of_bind_eq_ok h
        cases h
        obtain ⟨hkeys, hmem⟩ := Keyed.ofList_spec pairs
        refine ⟨hkeys, fun entry hentry => ?_⟩
        obtain ⟨pair, hpair, heq⟩ := hmem entry hentry
        exact heq ▸ readNamed_distinct members hread pair hpair }
  | .list place deep items ending =>
    { schema := by
        intro schema h
        rw [nested] at h
        obtain ⟨_, -, h⟩ := exists_of_bind_eq_ok h
        obtain ⟨⟨read, _⟩, hread, h⟩ := exists_of_bind_eq_ok h
        obtain ⟨_, -, h⟩ := exists_of_bind_eq_ok h
        cases h
        exact readSchemaPlaces_distinct items Schema.distinct_start hread
      schemas := by
        intro schemas h
        rw [nested] at h
        obtain ⟨_, -, h⟩ := exists_of_bind_eq_ok h
        obtain ⟨read, hread, h⟩ := exists_of_bind_eq_ok h
        obtain ⟨_, -, h⟩ := exists_of_bind_eq_ok h
        cases h
        exact readSchemas_distinct items hread
      named := by
        intro named h
        simp only [nested] at h
        exact (not_mismatch h).elim }
  | .leaf .. | .broken _ => by
      constructor <;> intro _ h <;> simp only [nested] at h <;> exact (not_mismatch h).elim

theorem readSchemaMembers_distinct :
    ∀ (members : List (Json.Key × Json.Tree × Nat)) {seen seen' : List String}
      {schema after : Schema}, schema.Distinct →
      readSchemaMembers seen schema members = .ok (after, seen') → after.Distinct
  | [], _, _, _, _, hstart, h => by
      cases h
      exact hstart
  | (key, tree, rest) :: members, _, _, _, _, hstart, h => by
      rw [readSchemaMembers] at h
      obtain ⟨name, -, h⟩ := exists_of_bind_eq_ok h
      split at h
      · obtain ⟨_, -, h⟩ := exists_of_bind_eq_ok h
        obtain ⟨middle, hset, h⟩ := exists_of_bind_eq_ok h
        have hmiddle :=
          setField_distinct (nested_distinct tree) hstart (eq_ok_of_mapError hset)
        exact readSchemaMembers_distinct members hmiddle h
      · obtain ⟨_, -, h⟩ := exists_of_bind_eq_ok h
        exact readSchemaMembers_distinct members hstart h

theorem readSchemaPlaces_distinct :
    ∀ (items : List (Json.Tree × Json.Pause)) {fields : List FieldSpec} {count : Nat}
      {pause : Option Json.Pause} {schema after : Schema} {surplus : Surplus}, schema.Distinct →
      readSchemaPlaces fields count pause schema items = .ok (after, surplus) → after.Distinct
  | [], _, _, _, _, _, _, hstart, h => by
      cases h
      exact hstart
  | (tree, next) :: items, fields, _, _, _, _, _, hstart, h => by
      cases fields with
      | nil =>
          rw [readSchemaPlaces] at h
          cases h
          exact hstart
      | cons field fields =>
          rw [readSchemaPlaces] at h
          obtain ⟨middle, hset, h⟩ := exists_of_bind_eq_ok h
          have hmiddle :=
            setField_distinct (nested_distinct tree) hstart (eq_ok_of_mapError hset)
          exact readSchemaPlaces_distinct items hmiddle h

theorem readSchemas_distinct :
    ∀ (items : List (Json.Tree × Json.Pause)) {place : Nat} {schemas : List Schema},
      readSchemas place items = .ok schemas → ∀ schema ∈ schemas, schema.Distinct
  | [], _, _, h => by
      cases h
      simp
  | (tree, _) :: items, _, _, h => by
      rw [readSchemas] at h
      obtain ⟨first, hfirst, h⟩ := exists_of_bind_eq_ok h
      obtain ⟨more, hmore, h⟩ := exists_of_bind_eq_ok h
      cases h
      exact List.forall_mem_cons.mpr
        ⟨(nested_distinct tree).schema (eq_ok_of_mapError hfirst), readSchemas_distinct items hmore⟩

theorem readNamed_distinct :
    ∀ (members : List (Json.Key × Json.Tree × Nat)) {named : List (String × Schema)},
      readNamed members = .ok named → ∀ entry ∈ named, entry.2.Distinct
  | [], _, h => by
      cases h
      simp
  | (key, tree, _) :: members, _, h => by
      rw [readNamed] at h
      obtain ⟨name, -, h⟩ := exists_of_bind_eq_ok h
      obtain ⟨first, hfirst, h⟩ := exists_of_bind_eq_ok h
      obtain ⟨more, hmore, h⟩ := exists_of_bind_eq_ok h
      cases h
      exact List.forall_mem_cons.mpr
        ⟨(nested_distinct tree).schema (eq_ok_of_mapError hfirst), readNamed_distinct members hmore⟩

end

/-! ## Documents as written -/

/-- The named schemas of a document have distinct names, all through. -/
structure Document.Distinct (doc : Document) : Prop where
  definitions : ∀ entry ∈ doc.definitions, entry.2.Distinct
  components : ∀ entry ∈ doc.components, entry.2.Distinct

section Records

variable {α : Type} {P : α → Prop} {set : α → String → Json.Tree → Except (Json.Located Fault) α}
variable (hset : ∀ {before name tree after}, P before → set before name tree = .ok after → P after)
include hset

theorem readMembers_keeps {specs : List FieldSpec} :
    ∀ (members : List (Json.Key × Json.Tree × Nat)) {seen seen' : List String} {before after : α},
      P before → readMembers specs set seen before members = .ok (after, seen') → P after
  | [], _, _, _, _, hstart, h => by
      cases h
      exact hstart
  | (key, tree, rest) :: members, _, _, _, _, hstart, h => by
      rw [readMembers] at h
      obtain ⟨name, -, h⟩ := exists_of_bind_eq_ok h
      split at h
      · obtain ⟨_, -, h⟩ := exists_of_bind_eq_ok h
        obtain ⟨middle, hmiddle, h⟩ := exists_of_bind_eq_ok h
        exact readMembers_keeps members (hset hstart (eq_ok_of_mapError hmiddle)) h
      · obtain ⟨_, -, h⟩ := exists_of_bind_eq_ok h
        exact readMembers_keeps members hstart h

theorem readPlaces_keeps :
    ∀ (items : List (Json.Tree × Json.Pause)) {fields : List FieldSpec} {count : Nat}
      {pause : Option Json.Pause} {before after : α} {surplus : Surplus}, P before →
      readPlaces set fields count pause before items = .ok (after, surplus) → P after
  | [], _, _, _, _, _, _, hstart, h => by
      rw [readPlaces] at h
      cases h
      exact hstart
  | (tree, next) :: items, fields, _, _, _, _, _, hstart, h => by
      cases fields with
      | nil =>
          rw [readPlaces] at h
          · cases h
            exact hstart
          · nofun
      | cons field fields =>
          rw [readPlaces] at h
          obtain ⟨middle, hmiddle, h⟩ := exists_of_bind_eq_ok h
          exact readPlaces_keeps items (hset hstart (eq_ok_of_mapError hmiddle)) h

/-- What setting a field keeps holds of a record that is read. -/
theorem readRecord_keeps {record : Record} {specs : List FieldSpec} {start after : α}
    {tree : Json.Tree} (hstart : P start)
    (h : readRecord record specs set start tree = .ok after) : P after := by
  unfold readRecord at h
  split at h
  · obtain ⟨_, -, h⟩ := exists_of_bind_eq_ok h
    obtain ⟨⟨read, _⟩, hread, h⟩ := exists_of_bind_eq_ok h
    obtain ⟨_, -, h⟩ := exists_of_bind_eq_ok h
    cases h
    exact readMembers_keeps hset _ hstart hread
  · obtain ⟨_, -, h⟩ := exists_of_bind_eq_ok h
    obtain ⟨⟨read, _⟩, hread, h⟩ := exists_of_bind_eq_ok h
    obtain ⟨_, -, h⟩ := exists_of_bind_eq_ok h
    cases h
    exact readPlaces_keeps hset _ hstart hread
  · exact (not_mismatch h).elim

end Records

theorem readDocument_distinct {tree : Json.Tree} {doc : Document}
    (h : readDocument tree = .ok doc) : doc.Distinct := by
  refine readRecord_keeps (P := Document.Distinct) ?_ ⟨by simp, by simp⟩ h
  intro before name tree after hbefore hset
  split at hset <;> obtain ⟨read, hread, hset⟩ := exists_of_bind_eq_ok hset <;> cases hset
  case h_3 => exact ⟨((nested_distinct tree).named hread).2, hbefore.components⟩
  case h_4 =>
    refine ⟨hbefore.definitions, ?_⟩
    refine readRecord_keeps (P := fun named => ∀ entry ∈ named, Schema.Distinct entry.2) ?_
      (by simp) hread
    exact fun _ hnamed => ((nested_distinct _).named hnamed).2
  all_goals exact ⟨hbefore.definitions, hbefore.components⟩

end Wire

/-! ## Conversion -/

namespace Document

/-- No name is given twice, and no schema has two properties of one name. -/
structure DistinctNames (doc : Document) : Prop where
  named : doc.named.keys.Nodup
  properties : doc.DistinctProperties

/-- What loading adds has distinct properties if it has them as written. -/
theorem distinctProperties_preserved (dialect : Dialect) :
    Preserved dialect Wire.Schema.Distinct DistinctProperties
      fun schema => schema.properties.keys.Nodup := by
  refine preserved_of_schemas ⟨?_, ?_, ?_, ?_, ?_⟩ List.nodup_nil ?_
  · rintro written ⟨-, hproperties, -⟩
    exact hproperties
  · rintro written ⟨-, -, hitems, -⟩
    exact hitems
  · rintro written ⟨-, -, -, hallOf, -⟩
    exact hallOf
  · rintro written ⟨-, -, -, -, hanyOf, -⟩
    exact hanyOf
  · rintro written ⟨-, -, -, -, -, honeOf⟩
    exact honeOf
  · rintro identity written schema ⟨hkeys, -⟩ hmade
    rwa [keys_of_isMarked hmade.properties]

theorem distinctNames_preserved (dialect : Dialect) :
    Preserved dialect Wire.Schema.Distinct DistinctNames
      fun schema => schema.properties.keys.Nodup where
  hereditary := (distinctProperties_preserved dialect).hereditary
  start := ⟨List.nodup_nil, (distinctProperties_preserved dialect).start⟩
  name := fun h name id => ⟨Keyed.nodup_keys_insert h.named name id, h.properties⟩
  insert := fun h hadded =>
    ⟨h.named, (distinctProperties_preserved dialect).insert h.properties hadded⟩
  replace := fun h hadded id =>
    ⟨h.named, (distinctProperties_preserved dialect).replace h.properties hadded id⟩
  reserved := (distinctProperties_preserved dialect).reserved
  converted := (distinctProperties_preserved dialect).converted

/-! ## Loading -/

theorem distinctNames_of_ofWire {written : Wire.Document} {doc : Document}
    (hwritten : written.Distinct) (h : ofWire written = .ok doc) : doc.DistinctNames := by
  obtain ⟨dialect, hdialect, -⟩ := exists_of_bind_eq_ok h
  refine ((distinctNames_preserved dialect).ofWire hdialect ?_ h).1
  unfold namedOf
  split
  · exact hwritten.definitions
  · exact hwritten.components

/-- A loaded document has distinct names. -/
theorem Loaded.distinctNames {doc : Document} (h : doc.Loaded) : doc.DistinctNames := by
  rcases h with ⟨value, h⟩ | ⟨text, h⟩
  · obtain ⟨written, hread, h⟩ := exists_of_bind_eq_ok h
    exact distinctNames_of_ofWire (Wire.readDocument_distinct (eq_ok_of_mapError hread)) h
  · obtain ⟨written, hread, h⟩ := exists_of_bind_eq_ok h
    exact distinctNames_of_ofWire (Wire.readDocument_distinct (eq_ok_of_mapError hread)) h

end Document
end OpenApi
