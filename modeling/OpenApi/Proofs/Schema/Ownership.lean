-- SUMMARY: Each schema that is added in converting a document is owned by one edge.
import Mathlib.Data.List.Range
import OpenApi.Proofs.Schema.Names

/-!
# Owners of schemas

A schema that is written inside another one is added behind everything inside it, and the
edge that leads to it is held by its owner, which is added later. In between the edge is
*pending*. So at any time the edges without a reference, those that are held and those that
are pending, lead to the slots behind the named ones, to each slot once; an edge that is
held by such a slot leads to an earlier one; and the identity of the slot that an edge
leads to is known.
-/

namespace OpenApi

/-! ## Edges and their places -/

namespace Schema

/-- Members with their places behind a keyword. -/
def placedMembers (keyword : String) (place : Nat) (members : List Edge) : List (String × Edge) :=
  (members.zipIdx place).map fun entry => (keyword ++ toString entry.2, entry.1)

/-- The edges of a schema with their places in it. -/
def placed (schema : Schema) : List (String × Edge) :=
  schema.properties.map (fun entry => ("." ++ entry.1, entry.2)) ++
    schema.items.toList.map (fun edge => (".items", edge)) ++
    placedMembers ".allOf." 0 schema.allOf ++ placedMembers ".anyOf." 0 schema.anyOf ++
    placedMembers ".oneOf." 0 schema.oneOf

theorem placedMembers_cons (keyword : String) (place : Nat) (edge : Edge) (rest : List Edge) :
    placedMembers keyword place (edge :: rest) =
      (keyword ++ toString place, edge) :: placedMembers keyword (place + 1) rest := rfl

theorem map_placedMembers (keyword : String) (place : Nat) (members : List Edge) :
    (placedMembers keyword place members).map (·.2) = members := by
  simp [placedMembers, Function.comp_def]

theorem map_placed (schema : Schema) : schema.placed.map (·.2) = schema.edges := by
  simp [placed, edges, map_placedMembers, Function.comp_def]

/-- The edges of a schema with the identities that are due to their places. -/
def located (identity : String) (schema : Schema) : List (String × Edge) :=
  schema.placed.map fun entry => (identity ++ entry.1, entry.2)

theorem map_located (identity : String) (schema : Schema) :
    (schema.located identity).map (·.2) = schema.edges := by
  rw [← map_placed]
  simp [located, Function.comp_def]

end Schema

/-- The schemas that edges lead to without a reference. -/
def inlineIds (edges : List Edge) : List SchemaId :=
  (edges.filter (·.reference.isNone)).map (·.id)

@[simp] theorem inlineIds_nil : inlineIds [] = [] := rfl

@[simp] theorem inlineIds_append (edges more : List Edge) :
    inlineIds (edges ++ more) = inlineIds edges ++ inlineIds more := by
  simp [inlineIds]

theorem mem_inlineIds {edges : List Edge} {edge : Edge} (h : edge ∈ edges)
    (hinline : edge.reference = none) : edge.id ∈ inlineIds edges :=
  List.mem_map_of_mem (List.mem_filter.mpr ⟨h, by simp [hinline]⟩)

namespace Document

/-- All edges of all schemas of a document. -/
def edges (doc : Document) : List Edge := doc.schemas.toList.flatMap Schema.edges

theorem mem_edges {doc : Document} {id : SchemaId} {edge : Edge}
    (h : edge ∈ (doc.schema id).edges) : edge ∈ doc.edges := by
  rcases doc.schema_cases id with hmem | hnone
  · exact List.mem_flatMap.mpr ⟨_, Array.mem_toList_iff.mpr hmem, h⟩
  · rw [hnone] at h
    simp [Schema.edges] at h

theorem mem_edges_of_located {doc : Document} {id : SchemaId} {identity : String}
    {entry : String × Edge} (h : entry ∈ (doc.schema id).located identity) :
    entry.2 ∈ doc.edges := by
  have hmem : entry.2 ∈ (doc.schema id).edges := by
    rw [← Schema.map_located identity]
    exact List.mem_map_of_mem h
  exact mem_edges hmem

/-- The schema that is put into a slot without edges adds its edges. -/
theorem perm_edges_replace {doc : Document} {id : SchemaId} (hlt : id < doc.schemas.size)
    (hvacant : (doc.schema id).edges = []) (schema : Schema) :
    (doc.replace id schema).edges.Perm (schema.edges ++ doc.edges) := by
  have hslot : doc.schemas.toList[id] = doc.schema id := by simp [Document.schema, hlt]
  have hsplit : doc.schemas.toList =
      doc.schemas.toList.take id ++ doc.schema id :: doc.schemas.toList.drop (id + 1) := by
    rw [← hslot, List.getElem_cons_drop, List.take_append_drop]
  have hset : (doc.replace id schema).schemas.toList =
      doc.schemas.toList.take id ++ schema :: doc.schemas.toList.drop (id + 1) := by
    simp only [Document.replace, Array.toList_setIfInBounds]
    exact List.set_eq_take_append_cons_drop.trans (if_pos hlt)
  rw [edges, edges, hset]
  conv_rhs => rw [hsplit]
  simp only [List.flatMap_append, List.flatMap_cons, hvacant, List.nil_append]
  rw [← List.append_assoc, ← List.append_assoc]
  exact List.perm_append_comm.append_right _

/-! ## Ownership -/

/-- The slots before `first` hold what `front` says. Each slot from `first` on is led to by one edge
without a reference, which is held by a later slot, by a slot before `first`, or by none so far.
Its identity is due to the place of the edge. -/
structure Owned (first : Nat) (front : SchemaId → Schema) (pending : List (String × Edge))
    (doc : Document) : Prop where
  size : first ≤ doc.schemas.size
  front : ∀ id < first, doc.schema id = front id
  once : (inlineIds (pending.map (·.2)) ++ inlineIds doc.edges).Perm
    (List.range' first (doc.schemas.size - first))
  earlier : ∀ id, first ≤ id → ∀ edge ∈ (doc.schema id).edges, edge.reference = none →
    edge.id < id
  pending : ∀ entry ∈ pending, entry.2.reference = none →
    (doc.schema entry.2.id).identity = some entry.1
  inside : ∀ id identity, (doc.schema id).identity = some identity →
    ∀ entry ∈ (doc.schema id).located identity, entry.2.reference = none →
      (doc.schema entry.2.id).identity = some entry.1
  identified : ∀ id, first ≤ id → id < doc.schemas.size →
    (doc.schema id).identity.isSome = true

variable {first : Nat} {front : SchemaId → Schema} {pending : List (String × Edge)}
variable {doc after : Document}

namespace Owned

/-- An edge without a reference leads to a slot behind the named ones. -/
theorem bounds (h : doc.Owned first front pending) {edge : Edge}
    (hedge : edge ∈ pending.map (·.2) ++ doc.edges) (hinline : edge.reference = none) :
    first ≤ edge.id ∧ edge.id < doc.schemas.size := by
  have hmem := h.once.mem_iff.mp (inlineIds_append _ _ ▸ mem_inlineIds hedge hinline)
  rwa [List.mem_range'_1, Nat.add_sub_of_le h.size] at hmem

theorem lt_of_pending (h : doc.Owned first front pending) {entry : String × Edge}
    (hmem : entry ∈ pending) (hinline : entry.2.reference = none) :
    entry.2.id < doc.schemas.size :=
  (h.bounds (List.mem_append_left _ (List.mem_map_of_mem (f := (·.2)) hmem)) hinline).2

theorem lt_of_located (h : doc.Owned first front pending) {id : SchemaId} {identity : String}
    {entry : String × Edge} (hmem : entry ∈ (doc.schema id).located identity)
    (hinline : entry.2.reference = none) : entry.2.id < doc.schemas.size :=
  (h.bounds (List.mem_append_right _ (mem_edges_of_located hmem)) hinline).2

/-- An edge that refers to a schema owns nothing. -/
theorem refer (h : doc.Owned first front pending) {edge : Edge} {reference : String}
    (hreference : edge.reference = some reference) (identity : String) :
    doc.Owned first front (pending ++ [(identity, edge)]) where
  size := h.size
  front := h.front
  once := by
    have hnone : inlineIds [edge] = [] := by simp [inlineIds, hreference]
    simpa [hnone] using h.once
  earlier := h.earlier
  pending := by
    intro entry hmem hinline
    rcases List.mem_append.mp hmem with hmem | hmem
    · exact h.pending entry hmem hinline
    · cases List.mem_singleton.mp hmem
      cases hreference.symm.trans hinline
  inside := h.inside
  identified := h.identified

/-- Whether a property is required has nothing to do with who owns it. -/
theorem mark {identity : String} {edge : Edge}
    (h : doc.Owned first front (pending ++ [(identity, edge)])) (required : Bool) :
    doc.Owned first front (pending ++ [(identity, { edge with required })]) where
  size := h.size
  front := h.front
  once := by
    have hsame : inlineIds [{ edge with required }] = inlineIds [edge] := by
      cases hreference : edge.reference <;> simp [inlineIds, hreference]
    simpa [hsame] using h.once
  earlier := h.earlier
  pending := by
    intro entry hmem hinline
    rcases List.mem_append.mp hmem with hmem | hmem
    · exact h.pending entry (List.mem_append_left _ hmem) hinline
    · cases List.mem_singleton.mp hmem
      exact h.pending (identity, edge) (by simp) hinline
  inside := h.inside
  identified := h.identified

/-- A schema that is added holds the edges that were pending, and the edge to it is pending. -/
theorem insert {identity : String} {schema : Schema}
    (h : doc.Owned first front (pending ++ schema.located identity))
    (hidentity : schema.identity = some identity) :
    (doc.insert schema).1.Owned first front
      (pending ++ [(identity, { id := doc.schemas.size })]) := by
  have hbounds : ∀ edge ∈ schema.edges, edge.reference = none →
      first ≤ edge.id ∧ edge.id < doc.schemas.size := by
    intro edge hedge hinline
    refine h.bounds (List.mem_append_left _ ?_) hinline
    rw [List.map_append, Schema.map_located]
    exact List.mem_append_right _ hedge
  have hold : ∀ id < doc.schemas.size, (doc.insert schema).1.schema id = doc.schema id := by
    intro id hlt
    rw [schema_insert, if_neg (Nat.ne_of_lt hlt)]
  have hnew : (doc.insert schema).1.schema doc.schemas.size = schema := by
    rw [schema_insert, if_pos rfl]
  have hsize : (doc.insert schema).1.schemas.size = doc.schemas.size + 1 := Array.size_push _
  have hedges : (doc.insert schema).1.edges = doc.edges ++ schema.edges := by
    simp [edges, Document.insert]
  constructor
  case size => exact hsize ▸ Nat.le_succ_of_le h.size
  case front => exact fun id hlt => (hold id (Nat.lt_of_lt_of_le hlt h.size)).trans (h.front id hlt)
  case once =>
    have honce := h.once
    rw [List.map_append, Schema.map_located, inlineIds_append] at honce
    have hrange : List.range' first (doc.schemas.size + 1 - first) =
        List.range' first (doc.schemas.size - first) ++ [doc.schemas.size] := by
      have hle := h.size
      rw [Nat.succ_sub hle, List.range'_concat]
      congr 2
      omega
    rw [hsize, hrange, hedges, List.map_append, inlineIds_append, inlineIds_append]
    refine List.Perm.trans ?_ (honce.append_right [doc.schemas.size])
    have hadded : inlineIds [{ id := doc.schemas.size }] = [doc.schemas.size] := rfl
    refine List.perm_iff_count.mpr fun id => ?_
    simp only [List.map_cons, List.map_nil, hadded, List.count_append]
    omega
  case earlier =>
    intro id hle edge hedge hinline
    rw [schema_insert] at hedge
    split at hedge
    · rename_i heq
      exact heq ▸ (hbounds edge hedge hinline).2
    · exact h.earlier id hle edge hedge hinline
  case pending =>
    intro entry hmem hinline
    rcases List.mem_append.mp hmem with hmem | hmem
    · have hpending := List.mem_append_left (schema.located identity) hmem
      rw [hold _ (h.lt_of_pending hpending hinline)]
      exact h.pending entry hpending hinline
    · cases List.mem_singleton.mp hmem
      rw [hnew, hidentity]
  case inside =>
    intro id owner howner entry hmem hinline
    rw [schema_insert] at howner hmem
    split at howner
    · cases hidentity.symm.trans howner
      rw [if_pos ‹_›] at hmem
      have hpending := List.mem_append_right pending hmem
      rw [hold _ (h.lt_of_pending hpending hinline)]
      exact h.pending entry hpending hinline
    · rename_i hne
      rw [if_neg hne] at hmem
      rw [hold _ (h.lt_of_located hmem hinline)]
      exact h.inside id owner howner entry hmem hinline
  case identified =>
    intro id hle hlt
    rw [schema_insert]
    split
    · rw [hidentity]
      rfl
    · rename_i hne
      rw [hsize] at hlt
      exact h.identified id hle (Nat.lt_of_le_of_ne (Nat.le_of_lt_succ hlt) hne)

/-- The schema of a name holds the edges that were pending, once it is put into its slot. -/
theorem replace {identity : String} {schema : Schema} {id : SchemaId}
    (h : doc.Owned first front (schema.located identity))
    (hidentity : schema.identity = some identity)
    (hlt : id < first) (hvacant : (front id).edges = []) :
    (doc.replace id schema).Owned first (Function.update front id schema) [] := by
  have hslot : id < doc.schemas.size := Nat.lt_of_lt_of_le hlt h.size
  have hself : (doc.replace id schema).schema id = schema :=
    schema_replace_self doc hslot schema
  have hold : ∀ {other}, other ≠ id → (doc.replace id schema).schema other = doc.schema other :=
    fun hne => schema_replace_of_ne doc hne schema
  have hbehind : ∀ {other}, first ≤ other →
      (doc.replace id schema).schema other = doc.schema other :=
    fun hle => hold (Nat.ne_of_gt (Nat.lt_of_lt_of_le hlt hle))
  have hsize : (doc.replace id schema).schemas.size = doc.schemas.size := by
    simp [Document.replace]
  constructor
  case size => exact hsize ▸ h.size
  case front =>
    intro other hother
    by_cases heq : other = id
    · subst heq
      rw [hself, Function.update_self]
    · rw [hold heq, Function.update_of_ne heq, h.front other hother]
  case once =>
    have hempty : (doc.schema id).edges = [] := by rw [h.front id hlt, hvacant]
    have honce := h.once
    rw [Schema.map_located, ← inlineIds_append] at honce
    rw [hsize]
    exact ((perm_edges_replace hslot hempty schema).filter _ |>.map _).trans honce
  case earlier =>
    intro other hle
    rw [hbehind hle]
    exact h.earlier other hle
  case pending => simp
  case inside =>
    intro other owner howner entry hmem hinline
    by_cases heq : other = id
    · subst heq
      rw [hself] at howner hmem
      cases hidentity.symm.trans howner
      have hbounds := h.bounds (List.mem_append_left _ (List.mem_map_of_mem (f := (·.2)) hmem))
      rw [hbehind (hbounds hinline).1]
      exact h.pending entry hmem hinline
    · rw [hold heq] at howner hmem
      have hbounds := h.bounds (List.mem_append_right _ (mem_edges_of_located hmem))
      rw [hbehind (hbounds hinline).1]
      exact h.inside other owner howner entry hmem hinline
  case identified =>
    intro other hle hother
    rw [hbehind hle]
    exact h.identified other hle (hsize ▸ hother)

/-! ## Conversion -/

/-- Linking a child makes an edge to it, if converting the child makes the edges of the child. -/
theorem link (h : doc.Owned first front pending) {reference : Option String}
    {converted : Unit → Except SchemaError (Schema × Document)} {identity : String} {edge : Edge}
    (hlink : link doc reference converted = .ok (edge, after))
    (hconverted : ∀ schema middle, converted () = .ok (schema, middle) →
      middle.Owned first front (pending ++ schema.located identity) ∧
        schema.identity = some identity) :
    after.Owned first front (pending ++ [(identity, edge)]) := by
  unfold Document.link at hlink
  split at hlink
  · split at hlink
    · cases hlink
      exact h.refer rfl identity
    · cases hlink
  · obtain ⟨⟨schema, middle⟩, hschema, hlink⟩ := exists_of_bind_eq_ok hlink
    cases hlink
    obtain ⟨hmiddle, hidentity⟩ := hconverted schema middle hschema
    exact hmiddle.insert hidentity

mutual

theorem convert {identity : String} {written : Wire.Schema} {doc after : Document}
    {schema : Schema} {pending : List (String × Edge)} (h : doc.Owned first front pending)
    (hconvert : convert identity written doc = .ok (schema, after)) :
    after.Owned first front (pending ++ schema.located identity) ∧
      schema.identity = some identity := by
  obtain ⟨_, type, _, _, properties, required, items, allOf, anyOf, oneOf, _, _, _⟩ := written
  rw [Document.convert] at hconvert
  obtain ⟨_, -, hconvert⟩ := exists_of_bind_eq_ok hconvert
  obtain ⟨⟨_, docP⟩, hconvertP, hconvert⟩ := exists_of_bind_eq_ok hconvert
  obtain ⟨⟨_, docI⟩, hconvertI, hconvert⟩ := exists_of_bind_eq_ok hconvert
  obtain ⟨⟨_, docAll⟩, hconvertAll, hconvert⟩ := exists_of_bind_eq_ok hconvert
  obtain ⟨⟨_, docAny⟩, hconvertAny, hconvert⟩ := exists_of_bind_eq_ok hconvert
  obtain ⟨⟨_, docOne⟩, hconvertOne, hconvert⟩ := exists_of_bind_eq_ok hconvert
  cases hconvert
  have hP := h.convertProperties hconvertP
  have hI := hP.convertItems hconvertI
  have hAll := hI.convertMembers hconvertAll
  have hAny := hAll.convertMembers hconvertAny
  have hOne := hAny.convertMembers hconvertOne
  refine ⟨?_, rfl⟩
  simpa [Schema.located, Schema.placed, Schema.placedMembers, String.append_assoc,
    Function.comp_def] using hOne

theorem convertProperties {identity : String} {names : List String}
    {written : List (String × Wire.Schema)} {doc after : Document} {edges : List (String × Edge)}
    {pending : List (String × Edge)} (h : doc.Owned first front pending)
    (hconvert : convertProperties identity names written doc = .ok (edges, after)) :
    after.Owned first front
      (pending ++ edges.map fun entry => (identity ++ "." ++ entry.1, entry.2)) := by
  match written with
  | [] =>
      cases hconvert
      simpa using h
  | (name, child) :: rest =>
      rw [Document.convertProperties] at hconvert
      obtain ⟨⟨edge, middle⟩, hlink, hconvert⟩ := exists_of_bind_eq_ok hconvert
      obtain ⟨⟨_, _⟩, hrest, hconvert⟩ := exists_of_bind_eq_ok hconvert
      cases hconvert
      have hedge := h.link hlink fun _ _ hchild => h.convert hchild
      simpa using (hedge.mark _).convertProperties hrest

theorem convertItems {identity : String} {written : Option Wire.Schema}
    {doc after : Document} {edge : Option Edge} {pending : List (String × Edge)}
    (h : doc.Owned first front pending)
    (hconvert : convertItems identity written doc = .ok (edge, after)) :
    after.Owned first front (pending ++ edge.toList.map fun edge => (identity, edge)) := by
  match written with
  | none =>
      cases hconvert
      simpa using h
  | some child =>
      rw [Document.convertItems] at hconvert
      obtain ⟨⟨_, middle⟩, hlink, hconvert⟩ := exists_of_bind_eq_ok hconvert
      cases hconvert
      exact h.link hlink fun _ _ hchild => h.convert hchild

theorem convertMembers {identity : String} {place : Nat} {written : List Wire.Schema}
    {doc after : Document} {edges : List Edge} {pending : List (String × Edge)}
    (h : doc.Owned first front pending)
    (hconvert : convertMembers identity place written doc = .ok (edges, after)) :
    after.Owned first front (pending ++ Schema.placedMembers identity place edges) := by
  match written with
  | [] =>
      cases hconvert
      simpa [Schema.placedMembers] using h
  | child :: rest =>
      rw [Document.convertMembers] at hconvert
      obtain ⟨⟨_, middle⟩, hlink, hconvert⟩ := exists_of_bind_eq_ok hconvert
      obtain ⟨⟨_, _⟩, hrest, hconvert⟩ := exists_of_bind_eq_ok hconvert
      cases hconvert
      have hedge := h.link hlink fun _ _ hchild => h.convert hchild
      simpa [Schema.placedMembers_cons] using hedge.convertMembers hrest

end

/-- Filling the slots of the named schemas from slot `filled` on leaves them with their names. -/
theorem fillNamed {named : List (String × Wire.Schema)} {filled : Nat}
    (h : doc.Owned first front []) (hwired : doc.Wired first)
    (hroom : filled + (bodiesOf named).length = first)
    (hslots : ∀ place entry, (bodiesOf named)[place]? = some entry →
      doc.lookup entry.1 = some (filled + place))
    (hvacant : ∀ id, filled ≤ id → (front id).edges = [])
    (hfill : fillNamed named doc = .ok after) :
    ∃ front', after.Owned first front' [] ∧ (∀ id < filled, front' id = front id) ∧
      ∀ place entry, (bodiesOf named)[place]? = some entry →
        (front' (filled + place)).identity = some entry.1 := by
  induction named generalizing doc front filled with
  | nil =>
      cases hfill
      exact ⟨front, h, fun _ _ => rfl, by simp [bodiesOf]⟩
  | cons entry rest ih =>
      obtain ⟨name, schema⟩ := entry
      rw [Document.fillNamed] at hfill
      cases hreference : schema.reference with
      | some reference =>
          have hbodies : bodiesOf ((name, schema) :: rest) = bodiesOf rest := by
            simp [bodiesOf, hreference]
          rw [hbodies] at hroom hslots ⊢
          rw [hreference] at hfill
          exact ih h hwired hroom hslots hvacant hfill
      | none =>
          have hbodies : bodiesOf ((name, schema) :: rest) = (name, schema) :: bodiesOf rest := by
            simp [bodiesOf, hreference]
          rw [hbodies] at hroom hslots ⊢
          have hlookup : doc.lookup name = some filled := hslots 0 (name, schema) rfl
          rw [hreference, hlookup] at hfill
          obtain ⟨⟨body, middle⟩, hbody, hfill⟩ := exists_of_bind_eq_ok hfill
          obtain ⟨hmiddle, hidentity⟩ := h.convert hbody
          have hlt : filled < first := by rw [← hroom, List.length_cons]; omega
          have hreplaced := (hmiddle : middle.Owned first front (body.located name)).replace
            hidentity hlt (hvacant filled (Nat.le_refl _))
          have hmade := hwired.convert hbody
          -- What is left are the slots behind this one.
          have hslots' : ∀ place entry, (bodiesOf rest)[place]? = some entry →
              (middle.replace filled body).lookup entry.1 = some (filled + 1 + place) := by
            intro place entry hentry
            have hlater := hslots (place + 1) entry hentry
            rw [lookup, ← hmade.widens.named] at hlater
            rw [Nat.add_assoc, Nat.add_comm 1]
            exact hlater
          have hvacant' : ∀ id, filled + 1 ≤ id →
              (Function.update front filled body id).edges = [] := by
            intro id hle
            rw [Function.update_of_ne (Nat.ne_of_gt hle)]
            exact hvacant id (Nat.le_of_succ_le hle)
          obtain ⟨front', hafter, hkept, hrest⟩ := ih hreplaced
            (hmade.wired.replace hmade.points filled)
            (by rw [← hroom, List.length_cons]; omega) hslots' hvacant' hfill
          refine ⟨front', hafter, fun id hid => ?_, fun place entry hentry => ?_⟩
          · rw [hkept id (Nat.lt_succ_of_lt hid), Function.update_of_ne (Nat.ne_of_lt hid)]
          · cases place with
            | zero =>
                cases hentry
                rw [Nat.add_zero, hkept filled (Nat.lt_succ_self _), Function.update_self]
                exact hidentity
            | succ place =>
                have hfound := hrest place entry hentry
                rwa [Nat.add_assoc, Nat.add_comm 1] at hfound

end Owned
end Document
end OpenApi
