-- SUMMARY: Which slot a name means before and after each pass over the aliases.
import OpenApi.Proofs.Schema.DistinctNames
import OpenApi.Proofs.Schema.Edges

/-!
# Names of documents

Before any schema is converted, the named schemas that are no aliases get the first slots
of the arena, in their order. Then the aliases are named in passes. A pass gives names to
aliases only, so it leaves over exactly the aliases whose names mean nothing behind it.
-/

namespace OpenApi

/-- Where keys are distinct, the entry under a key is the only one with that key. -/
theorem Keyed.get?_eq_some_iff {α : Type u} {entries : Keyed α} (hnodup : entries.keys.Nodup)
    {key : String} {value : α} : entries.get? key = some value ↔ (key, value) ∈ entries :=
  ⟨Keyed.mem_of_get?, lookup_of_mem hnodup⟩

/-! ## Documents as written -/

namespace Wire

/-- The two places where a document keeps named schemas give each name once. -/
structure Document.DistinctKeys (doc : Document) : Prop where
  definitions : (Keyed.keys doc.definitions).Nodup
  components : (Keyed.keys doc.components).Nodup

theorem readDocument_distinctKeys {tree : Json.Tree} {doc : Document}
    (h : readDocument tree = .ok doc) : doc.DistinctKeys := by
  have hstart : Document.DistinctKeys {} := ⟨List.nodup_nil, List.nodup_nil⟩
  refine readRecord_keeps (P := Document.DistinctKeys) ?_ hstart h
  intro before name tree after hbefore hset
  split at hset <;> obtain ⟨read, hread, hset⟩ := exists_of_bind_eq_ok hset <;> cases hset
  case h_3 => exact ⟨((nested_distinct tree).named hread).1, hbefore.components⟩
  case h_4 =>
    refine ⟨hbefore.definitions, ?_⟩
    have hnone : (Keyed.keys ([] : List (String × Schema))).Nodup := List.nodup_nil
    refine readRecord_keeps (P := fun named => (Keyed.keys named).Nodup) ?_ hnone hread
    exact fun _ hnamed => ((nested_distinct _).named hnamed).1
  all_goals exact ⟨hbefore.definitions, hbefore.components⟩

end Wire

namespace Document

theorem nodup_namedOf {written : Wire.Document} (h : written.DistinctKeys) (dialect : Dialect) :
    (Keyed.keys (namedOf dialect written)).Nodup := by
  unfold namedOf
  split
  · exact h.definitions
  · exact h.components

/-! ## Slots of named schemas -/

/-- The named schemas that are no aliases. -/
def bodiesOf (named : List (String × Wire.Schema)) : List (String × Wire.Schema) :=
  named.filter (·.2.reference.isNone)

variable {doc : Document} {named : List (String × Wire.Schema)} {dialect : Dialect}

theorem reserveNamed_cons (name : String) (schema : Wire.Schema) :
    reserveNamed doc ((name, schema) :: named) =
      reserveNamed (if schema.reference.isSome then doc
        else doc.reserve.1.name name doc.schemas.size) named := rfl

/-- Each schema that is no alias gets a slot. -/
theorem size_reserveNamed (doc : Document) (named : List (String × Wire.Schema)) :
    (reserveNamed doc named).schemas.size = doc.schemas.size + (bodiesOf named).length := by
  induction named generalizing doc with
  | nil => rfl
  | cons entry rest ih =>
      obtain ⟨name, schema⟩ := entry
      rw [reserveNamed_cons, ih]
      cases hreference : schema.reference with
      | some reference => simp [bodiesOf, hreference]
      | none =>
          simp only [bodiesOf, hreference, Document.name, reserve, insert, Array.size_push,
            Option.isSome_none, Option.isNone_none, Bool.false_eq_true, if_false,
            List.filter_cons_of_pos, List.length_cons]
          omega

/-- The slots are named in the order of the schemas. -/
theorem named_reserveNamed (hnodup : (doc.named.keys ++ Keyed.keys named).Nodup) :
    (reserveNamed doc named).named =
      doc.named ++
        ((bodiesOf named).zipIdx doc.schemas.size).map fun entry => (entry.1.1, entry.2) := by
  induction named generalizing doc with
  | nil => simp [reserveNamed, bodiesOf]
  | cons entry rest ih =>
      obtain ⟨name, schema⟩ := entry
      rw [Keyed.keys_cons] at hnodup
      rw [reserveNamed_cons]
      cases hreference : schema.reference with
      | some reference =>
          have hrest : (doc.named.keys ++ Keyed.keys rest).Nodup :=
            hnodup.sublist ((List.sublist_cons_self _ _).append_left _)
          simpa [bodiesOf, hreference] using ih hrest
      | none =>
          have hnew : name ∉ doc.named.keys := fun hmem =>
            (List.nodup_append.mp hnodup).2.2 name hmem name List.mem_cons_self rfl
          have hnamed : (doc.reserve.1.name name doc.schemas.size).named =
              doc.named ++ [(name, doc.schemas.size)] := Keyed.insert_of_notMem hnew _
          have hsize : (doc.reserve.1.name name doc.schemas.size).schemas.size =
              doc.schemas.size + 1 := Array.size_push _
          have hrest : ((doc.reserve.1.name name doc.schemas.size).named.keys ++
              Keyed.keys rest).Nodup := by
            rw [hnamed]
            simpa [Keyed.keys] using hnodup
          have hbodies : bodiesOf ((name, schema) :: rest) = (name, schema) :: bodiesOf rest := by
            simp [bodiesOf, hreference]
          rw [if_neg (by simp), ih hrest, hnamed, hsize, hbodies]
          simp

/-- At first a name means the slot of its own schema, and an alias means nothing. -/
theorem lookup_reserveNamed_iff (hnodup : (Keyed.keys named).Nodup) {name : String}
    {id : SchemaId} :
    (reserveNamed { dialect } named).lookup name = some id ↔
      ∃ schema, (bodiesOf named)[id]? = some (name, schema) := by
  have hnamed : (reserveNamed { dialect } named).named =
      (bodiesOf named).zipIdx.map fun entry => (entry.1.1, entry.2) := by
    rw [named_reserveNamed (by simpa [Keyed.keys] using hnodup)]
    simp
  have hkeys : (reserveNamed { dialect } named).named.keys = Keyed.keys (bodiesOf named) := by
    rw [hnamed, Keyed.keys, List.map_map, Keyed.keys, ← List.zipIdx_map_fst 0 (bodiesOf named),
      List.map_map]
    simp
  have hdistinct : (reserveNamed { dialect } named).named.keys.Nodup := by
    rw [hkeys]
    exact hnodup.sublist (List.filter_sublist.map _)
  rw [lookup, Keyed.get?_eq_some_iff hdistinct, hnamed]
  simp [List.mem_zipIdx_iff_getElem?]

/-! ## Passes over the aliases -/

variable {aliases : List (String × String)}

theorem lookup_name_self (doc : Document) (name : String) (id : SchemaId) :
    (doc.name name id).lookup name = some id :=
  Keyed.get?_insert_self _ _ _

theorem lookup_name_of_ne (doc : Document) {name other : String} (id : SchemaId)
    (hne : other ≠ name) : (doc.name name id).lookup other = doc.lookup other :=
  Keyed.get?_insert_of_ne _ _ hne

/-- A pass over aliases names no other schema. -/
theorem lookup_aliasPass {name : String} (h : name ∉ Keyed.keys aliases) :
    (aliasPass doc aliases).1.lookup name = doc.lookup name := by
  induction aliases generalizing doc with
  | nil => rfl
  | cons entry rest ih =>
      obtain ⟨first, target⟩ := entry
      rw [Keyed.keys_cons, List.mem_cons, not_or] at h
      unfold aliasPass
      split
      · rw [ih h.2, lookup_name_of_ne _ _ h.1]
      · exact ih h.2

/-- A pass adds no slot. -/
theorem schemas_aliasPass (doc : Document) (aliases : List (String × String)) :
    (aliasPass doc aliases).1.schemas = doc.schemas := by
  induction aliases generalizing doc with
  | nil => rfl
  | cons entry rest ih =>
      unfold aliasPass
      split
      · exact ih _
      · exact ih _

/-- What remains behind a pass are the aliases whose names still mean nothing. -/
theorem remaining_aliasPass (hnodup : (Keyed.keys aliases).Nodup)
    (hnew : ∀ entry ∈ aliases, doc.lookup entry.1 = none) :
    (aliasPass doc aliases).2 =
      aliases.filter fun entry => ((aliasPass doc aliases).1.lookup entry.1).isNone := by
  induction aliases generalizing doc with
  | nil => rfl
  | cons entry rest ih =>
      obtain ⟨name, target⟩ := entry
      obtain ⟨hname, hrest⟩ := List.nodup_cons.mp hnodup
      rw [List.forall_mem_cons] at hnew
      unfold aliasPass
      split
      · rename_i id _
        have hnew' : ∀ entry ∈ rest, (doc.name name id).lookup entry.1 = none := by
          intro entry hmem
          have hne : entry.1 ≠ name := fun heq =>
            hname (heq ▸ List.mem_map_of_mem (f := (·.1)) hmem)
          rw [lookup_name_of_ne _ _ hne, hnew.2 entry hmem]
        simp [ih hrest hnew', lookup_aliasPass hname, lookup_name_self]
      · simp [ih hrest hnew.2, lookup_aliasPass hname, hnew.1]

theorem length_aliasPass_le (doc : Document) (aliases : List (String × String)) :
    (aliasPass doc aliases).2.length ≤ aliases.length := by
  induction aliases generalizing doc with
  | nil => exact Nat.le_refl _
  | cons entry rest ih =>
      unfold aliasPass
      split
      · exact Nat.le_succ_of_le (ih _)
      · exact Nat.succ_le_succ (ih doc)

/-- A pass without progress finds no target. -/
theorem resolve_of_length_aliasPass (h : (aliasPass doc aliases).2.length = aliases.length) :
    ∀ entry ∈ aliases, doc.resolve entry.2 = none := by
  induction aliases generalizing doc with
  | nil => simp
  | cons entry rest ih =>
      obtain ⟨name, target⟩ := entry
      unfold aliasPass at h
      split at h
      · rename_i id _
        have hle := length_aliasPass_le (doc.name name id) rest
        rw [h, List.length_cons] at hle
        exact absurd hle (Nat.not_succ_le_self _)
      · rename_i hresolve
        exact List.forall_mem_cons.mpr ⟨hresolve, ih (Nat.succ.inj h)⟩

/-- As every pass with progress takes an alias, more passes than there are aliases do nothing. -/
theorem resolveAliases_of_le {passes more : Nat} (hpasses : aliases.length ≤ passes)
    (hmore : aliases.length ≤ more) :
    resolveAliases passes doc aliases = resolveAliases more doc aliases := by
  induction passes generalizing doc aliases more with
  | zero =>
      cases List.eq_nil_of_length_eq_zero (Nat.le_zero.mp hpasses)
      cases more <;> rfl
  | succ passes ih =>
      match aliases with
      | [] => cases more <;> rfl
      | (name, target) :: rest =>
          cases more with
          | zero => cases hmore
          | succ more =>
              simp only [resolveAliases]
              split
              · rfl
              · rename_i hprogress
                have hlt :=
                  Nat.lt_of_le_of_ne (length_aliasPass_le doc ((name, target) :: rest)) hprogress
                exact ih (by omega) (by omega)

/-! ## Behind the passes -/

/-- Converting the named schemas changes no name and loses no slot. -/
theorem widens_of_fillNamed {after : Document} {first : SchemaId} (h : doc.Wired first)
    (hfill : fillNamed named doc = .ok after) : doc.Widens after := by
  induction named generalizing doc with
  | nil =>
      cases hfill
      exact .refl _
  | cons entry rest ih =>
      obtain ⟨name, schema⟩ := entry
      rw [Document.fillNamed] at hfill
      split at hfill
      · rename_i id _ _
        obtain ⟨⟨body, middle⟩, hbody, hfill⟩ := exists_of_bind_eq_ok hfill
        have hmade := h.convert hbody
        have hwidens := hmade.widens.trans (widens_replace middle id body)
        exact hwidens.trans (ih (hmade.wired.replace hmade.points id) hfill)
      · exact ih h hfill

end Document
end OpenApi
