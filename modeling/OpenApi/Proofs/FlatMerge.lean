-- SUMMARY: Merging the members of a schema is uniting one flat list of fields, in which the first come first.
import OpenApi.Proofs.Compilation.Apart
import OpenApi.Proofs.Compilation.Errors
import OpenApi.Proofs.Except
import OpenApi.Proofs.Model.Members

/-!
# Merging as a flat list

Members are merged while they are computed: what one member contributes is absorbed before
the next is looked at, and a member that has members itself is merged first. The outcome is
that of computing all contributions, putting them into one list in front of the fields of
the schema itself, and uniting the fields of each name. Uniting fails for the first field
whose type is not that of the first field of its name. Otherwise each name keeps its first
place, its one type, and the first default and restriction that there are.
-/

namespace OpenApi

/-! ## Clashes -/

/-- Fields of one name have one type. -/
def OneType (parts : List Field) : Prop :=
  ∀ first ∈ parts, ∀ second ∈ parts, first.name = second.name → first.type = second.type

/-- The first field of this name among the parts has another type. -/
def clashes (parts : List Field) (field : Field) : Bool :=
  (parts.find? fun part => part.name = field.name).any fun first => first.type ≠ field.type

/-- The first field that clashes with the first one of its name. -/
def firstClash (parts : List Field) : Option Field := parts.find? (clashes parts)

section Clashes

variable {parts fields rest : List Field} {field : Field} {model : String}

/-- Among the first parts, a name keeps its first field. -/
theorem find?_name_append (rest : List Field) {part : Field} (hpart : part ∈ parts)
    (hname : part.name = field.name) :
    ∃ first ∈ parts, first.name = field.name ∧
      ((parts ++ rest).find? fun part => part.name = field.name) = some first := by
  obtain ⟨first, hfirst⟩ : ∃ first, (parts.find? fun part => part.name = field.name) = some first :=
    Option.isSome_iff_exists.mp (List.find?_isSome.mpr ⟨part, hpart, by simpa using hname⟩)
  refine ⟨first, List.mem_of_find?_eq_some hfirst, by simpa using List.find?_some hfirst, ?_⟩
  rw [List.find?_append, hfirst, Option.some_or]

theorem clashes_of_mem (rest : List Field) {part : Field} (hpart : part ∈ parts)
    (hname : part.name = field.name) (hone : OneType parts) :
    clashes (parts ++ rest) field = decide (part.type ≠ field.type) := by
  obtain ⟨first, hfirst, hfirstName, hfind⟩ := find?_name_append rest hpart hname
  rw [clashes, hfind, hone part hpart first hfirst (hname.trans hfirstName.symm)]
  simp

theorem firstClash_eq_none_iff : firstClash parts = none ↔ OneType parts := by
  rw [firstClash, List.find?_eq_none]
  constructor
  · intro hnone first hfirst second hsecond hname
    obtain ⟨lead, -, -, hlead⟩ := find?_name_append [] hsecond hname.symm
    rw [List.append_nil] at hlead
    have hsame (field : Field) (hmem : field ∈ parts) (hfield : field.name = first.name) :
        lead.type = field.type := by
      have hnot := hnone field hmem
      rw [clashes, hfield, hlead] at hnot
      simpa using hnot
    exact (hsame first hfirst rfl).symm.trans (hsame second hsecond hname.symm)
  · intro hone field hmem
    have hsame := clashes_of_mem [] hmem rfl hone
    rw [List.append_nil] at hsame
    simp [hsame]

theorem Merges.oneType (h : Merges parts fields) : OneType parts := by
  intro first hfirst second hsecond hname
  obtain ⟨field, hfield, hfieldName⟩ := h.exists_field hfirst
  have htype := (h.joins field hfield).type
  exact (htype first hfirst hfieldName.symm).trans
    (htype second hsecond (hname.symm.trans hfieldName.symm)).symm

/-- What cannot be absorbed is the first clash of all parts. -/
theorem Merges.firstClash_of_error {error : SchemaError} (h : Merges parts fields)
    (herror : OpenApi.absorb model fields rest = .error error) :
    ∃ field, firstClash (parts ++ rest) = some field ∧
      error = .conflictingField model field.name := by
  induction rest generalizing parts fields with
  | nil => cases herror
  | cons field rest ih =>
      rw [absorb_cons] at herror
      rcases cases_of_bind_eq_error herror with hfirst | ⟨middle, hfirst, hrest⟩
      · refine ⟨field, ?_, absorbField_error hfirst⟩
        -- Some part of the name has another type, since the field would be absorbed otherwise.
        obtain ⟨part, hpart, hname, htype⟩ :
            ∃ part ∈ parts, part.name = field.name ∧ part.type ≠ field.type := by
          by_contra hnone
          push Not at hnone
          obtain ⟨next, hnext⟩ := h.exists_absorbField field hnone model
          rw [hfirst] at hnext
          cases hnext
        refine List.find?_eq_some_iff_append.mpr ⟨?_, parts, rest, rfl, fun other hother => ?_⟩
        · simp [clashes_of_mem _ hpart hname h.oneType, htype]
        · simp [clashes_of_mem _ hother rfl h.oneType]
      · simpa using ih (h.absorbField hfirst) hrest

/-- Fields are absorbed exactly if none clashes, and the first that does is refused. -/
theorem absorb_cases (model : String) (parts : List Field) :
    (∃ merged, OneType parts ∧ absorb model [] parts = .ok merged ∧ Merges parts merged) ∨
      ∃ field, firstClash parts = some field ∧
        absorb model [] parts = .error (.conflictingField model field.name) := by
  cases habsorb : absorb model [] parts with
  | ok merged =>
      have hmerges : Merges parts merged := Merges.nil.absorb habsorb
      exact .inl ⟨merged, hmerges.oneType, rfl, hmerges⟩
  | error error =>
      obtain ⟨field, hclash, rfl⟩ := Merges.nil.firstClash_of_error habsorb
      exact .inr ⟨field, hclash, rfl⟩

end Clashes

/-! ## One field for each name -/

/-- The fields that a schema makes of all parts: one for each name, in the order in which the names
first come. It is required if one of its parts is or the schema says so, where it has a say, and has
the first default and the first restriction of its parts. -/
structure Schema.Unites (schema : Schema) (parts fields : List Field) : Prop where
  names : fields.map (·.name) = (parts.map (·.name)).eraseDups
  type : ∀ field ∈ fields, ∀ part ∈ parts, part.name = field.name → part.type = field.type
  required : ∀ field ∈ fields, field.required = true ↔
    (∃ part ∈ parts, part.name = field.name ∧ part.required = true) ∨
      schema.dialect.isLegacy = false ∧ field.name ∈ schema.required
  default : ∀ field ∈ fields, field.default =
    parts.findSome? fun part => if part.name = field.name then part.default else none
  enum : ∀ field ∈ fields, field.enum =
    parts.findSome? fun part => if part.name = field.name then part.enum else none

theorem Merges.unites {parts merged : List Field} (h : Merges parts merged) (schema : Schema) :
    schema.Unites parts (requireOwn schema merged) where
  names := (map_name_requireOwn schema merged).trans h.names
  type := by
    intro field hmem
    obtain ⟨part, hpart, rfl⟩ := mem_requireOwn.mp hmem
    exact (h.joins part hpart).type
  required := by
    intro field hmem
    obtain ⟨part, hpart, rfl⟩ := mem_requireOwn.mp hmem
    simp [(h.joins part hpart).required]
  default := by
    intro field hmem
    obtain ⟨part, hpart, rfl⟩ := mem_requireOwn.mp hmem
    exact (h.joins part hpart).default
  enum := by
    intro field hmem
    obtain ⟨part, hpart, rfl⟩ := mem_requireOwn.mp hmem
    exact (h.joins part hpart).enum

/-! ## Contributions -/

/-- The fields that are merged into a schema: what its members contribute, one after another, and
then its own. -/
def memberParts (doc : Document) (ask : Requests) (context : Context) (model : String)
    (schema : Schema) : Compile (List Field) := do
  let contributed ← schema.allOf.mapM (contribution doc ask context model schema)
  let own ← fieldsOf doc ask context schema
  return contributed.flatten ++ own

/-- Absorb what each member contributes, before the next member is looked at. -/
def absorbEach (contribute : Edge → Compile (List Field)) (model : String) (members : List Edge)
    (start : List Field) : Compile (List Field) :=
  members.foldlM (fun merged member => do
    let fields ← contribute member
    Compile.ofExcept (absorb model merged fields)) start

theorem absorb_append (model : String) (start fields more : List Field) :
    absorb model start (fields ++ more) = (do
      let merged ← absorb model start fields
      absorb model merged more) := by
  simp only [absorb, List.foldlM_append]

section Contributions

variable {doc : Document} {ask : Requests} {context : Context} {model : String} {schema : Schema}
variable {contribute : Edge → Compile (List Field)} {members : List Edge}
variable {state after : Compilation} {start merged : List Field}

theorem absorbEach_cons (member : Edge) (rest : List Edge) :
    absorbEach contribute model (member :: rest) start = (do
      let fields ← contribute member
      let next ← Compile.ofExcept (absorb model start fields)
      absorbEach contribute model rest next) := by
  simp only [absorbEach, List.foldlM_cons, bind_assoc]

/-- Absorbing contributions as they come gives what absorbing all of them at the end gives. -/
theorem absorbEach_eq_ok_iff :
    absorbEach contribute model members start state = (.ok merged, after) ↔
      ∃ contributed, members.mapM contribute state = (.ok contributed, after) ∧
        absorb model start contributed.flatten = .ok merged := by
  induction members generalizing start state with
  | nil =>
      constructor
      · intro h
        cases h
        exact ⟨[], rfl, rfl⟩
      · rintro ⟨contributed, hmap, habsorb⟩
        cases hmap
        cases habsorb
        rfl
  | cons member rest ih =>
      rw [absorbEach_cons, List.mapM_cons]
      simp only [Compile.bind_eq_ok_iff, ih]
      constructor
      · rintro ⟨fields, now, hfields, next, _, hcheck, contributed, hmap, habsorb⟩
        obtain ⟨hnext, rfl⟩ := Compile.ofExcept_eq_ok_iff.mp hcheck
        refine ⟨fields :: contributed, ⟨fields, now, hfields, contributed, after, hmap, rfl⟩, ?_⟩
        rw [List.flatten_cons, absorb_append, hnext]
        exact habsorb
      · rintro ⟨_, ⟨fields, now, hfields, contributed, _, hmap, hpure⟩, habsorb⟩
        cases hpure
        rw [List.flatten_cons, absorb_append] at habsorb
        obtain ⟨next, hnext, habsorb⟩ := exists_of_bind_eq_ok habsorb
        exact ⟨fields, now, hfields, next, now, Compile.ofExcept_eq_ok_iff.mpr ⟨hnext, rfl⟩,
          contributed, hmap, habsorb⟩

/-- Contributions that cannot be absorbed together are refused as they come. -/
theorem absorbEach_eq_error {contributed : List (List Field)} {error : SchemaError}
    (hmap : members.mapM contribute state = (.ok contributed, after))
    (herror : absorb model start contributed.flatten = .error error) :
    (absorbEach contribute model members start state).1 = .error (.failed error) := by
  induction members generalizing start state contributed with
  | nil =>
      cases hmap
      cases herror
  | cons member rest ih =>
      rw [List.mapM_cons] at hmap
      simp only [Compile.bind_eq_ok_iff] at hmap
      obtain ⟨fields, now, hfields, contributed, _, hmap, hpure⟩ := hmap
      cases hpure
      rw [List.flatten_cons, absorb_append] at herror
      rw [absorbEach_cons, Compile.bind_apply, hfields]
      simp only [Compile.bind_apply, Compile.ofExcept]
      cases hnext : absorb model start fields with
      | error error' =>
          rw [hnext] at herror
          cases herror
          rfl
      | ok next =>
          rw [hnext] at herror
          exact ih hmap herror

/-! ## One schema -/

theorem memberParts_eq_ok_iff {parts : List Field} :
    memberParts doc ask context model schema state = (.ok parts, after) ↔
      ∃ contributed middle own,
        schema.allOf.mapM (contribution doc ask context model schema) state =
          (.ok contributed, middle) ∧
        fieldsOf doc ask context schema middle = (.ok own, after) ∧
        parts = contributed.flatten ++ own := by
  simp only [memberParts, Compile.bind_eq_ok_iff]
  constructor
  · rintro ⟨contributed, middle, hmap, own, _, hown, hpure⟩
    cases hpure
    exact ⟨contributed, middle, own, hmap, hown, rfl⟩
  · rintro ⟨contributed, middle, own, hmap, hown, rfl⟩
    exact ⟨contributed, middle, hmap, own, after, hown, rfl⟩

theorem mergeMembers_eq : mergeMembers doc ask context model schema = (do
    let inherited ← absorbEach (contribution doc ask context model schema) model schema.allOf []
    let own ← fieldsOf doc ask context schema
    let merged ← Compile.ofExcept (absorb model inherited own)
    return requireOwn schema merged) := rfl

/-- Members are merged if all parts are computed and can be absorbed. -/
theorem mergeMembers_eq_ok_iff {fields : List Field} :
    mergeMembers doc ask context model schema state = (.ok fields, after) ↔
      ∃ parts merged, memberParts doc ask context model schema state = (.ok parts, after) ∧
        absorb model [] parts = .ok merged ∧ fields = requireOwn schema merged := by
  simp only [mergeMembers_eq, Compile.bind_eq_ok_iff, absorbEach_eq_ok_iff, memberParts_eq_ok_iff]
  constructor
  · rintro ⟨inherited, middle, ⟨contributed, hmap, hinherited⟩, own, _, hown, merged, _, hcheck,
      hpure⟩
    obtain ⟨hmerged, rfl⟩ := Compile.ofExcept_eq_ok_iff.mp hcheck
    cases hpure
    refine ⟨_, merged, ⟨contributed, middle, own, hmap, hown, rfl⟩, ?_, rfl⟩
    rw [absorb_append, hinherited]
    exact hmerged
  · rintro ⟨parts, merged, ⟨contributed, middle, own, hmap, hown, rfl⟩, habsorb, rfl⟩
    rw [absorb_append] at habsorb
    obtain ⟨inherited, hinherited, hmerged⟩ := exists_of_bind_eq_ok habsorb
    exact ⟨inherited, middle, ⟨contributed, hmap, hinherited⟩, own, after, hown, merged, after,
      Compile.ofExcept_eq_ok_iff.mpr ⟨hmerged, rfl⟩, rfl⟩

theorem mergeMembers_eq_error {parts : List Field} {error : SchemaError}
    (hparts : memberParts doc ask context model schema state = (.ok parts, after))
    (herror : absorb model [] parts = .error error) :
    (mergeMembers doc ask context model schema state).1 = .error (.failed error) := by
  obtain ⟨contributed, middle, own, hmap, hown, rfl⟩ := memberParts_eq_ok_iff.mp hparts
  rw [absorb_append] at herror
  rw [mergeMembers_eq]
  cases hinherited : absorb model [] contributed.flatten with
  | error error' =>
      rw [hinherited] at herror
      cases herror
      exact Compile.bind_eq_error (absorbEach_eq_error hmap hinherited)
  | ok inherited =>
      rw [hinherited] at herror
      have herror : absorb model inherited own = .error error := herror
      rw [Compile.bind_apply, absorbEach_eq_ok_iff.mpr ⟨contributed, hmap, hinherited⟩]
      simp only [Compile.bind_apply, hown, Compile.ofExcept, herror]
      rfl

end Contributions

/-! ## Merged schemas -/

/-- The state in which the members of a schema are merged. -/
def Compilation.beginMerge (state : Compilation) (id : SchemaId) : Compilation :=
  { state with merging := id :: state.merging }

/-- The state behind the merging of a schema. -/
def Compilation.endMerge (state : Compilation) (id : SchemaId) : Compilation :=
  { state with merging := state.merging.erase id }

section Merged

variable {doc : Document} {ask : Requests} {context : Context} {model : String} {id : SchemaId}
variable {state after last : Compilation} {parts fields : List Field}

theorem mergedFields_of_notMem (h : id ∉ state.merging) :
    mergedFields doc ask context model id state =
      let (answer, last) := mergeMembers doc ask context model (doc.schema id) (state.beginMerge id)
      (answer, last.endMerge id) := by
  have hget : mergedFields doc ask context model id state =
      (if state.merging.contains id then throw (.failed (.cyclicAllOf (doc.schema id).label))
        else Compile.between (·.beginMerge id) (·.endMerge id)
          (mergeMembers doc ask context model (doc.schema id))) state := rfl
  rw [hget, if_neg (by simpa using h)]
  rfl

/-- The fields of a schema are merged if it is not being merged already, and all parts are computed
and can be absorbed. -/
theorem mergedFields_eq_ok_iff :
    mergedFields doc ask context model id state = (.ok fields, after) ↔
      id ∉ state.merging ∧ ∃ parts merged last,
        memberParts doc ask context model (doc.schema id) (state.beginMerge id) =
          (.ok parts, last) ∧
        absorb model [] parts = .ok merged ∧ fields = requireOwn (doc.schema id) merged ∧
        after = last.endMerge id := by
  by_cases hmem : id ∈ state.merging
  · rw [Compile.mergedFields_of_mem hmem]
    exact ⟨nofun, fun h => absurd hmem h.1⟩
  · rw [mergedFields_of_notMem hmem]
    constructor
    · intro h
      rcases hmerge : mergeMembers doc ask context model (doc.schema id) (state.beginMerge id) with
        ⟨answer, last⟩
      rw [hmerge] at h
      cases h
      obtain ⟨parts, merged, hparts, habsorb, hfields⟩ := mergeMembers_eq_ok_iff.mp hmerge
      exact ⟨hmem, parts, merged, last, hparts, habsorb, hfields, rfl⟩
    · rintro ⟨-, parts, merged, last, hparts, habsorb, rfl, rfl⟩
      rw [mergeMembers_eq_ok_iff.mpr ⟨parts, merged, hparts, habsorb, rfl⟩]

/-- Once all parts are computed, they are united, or the first of them that clashes is refused. -/
theorem mergedFields_of_parts (hmerging : id ∉ state.merging)
    (hparts : memberParts doc ask context model (doc.schema id) (state.beginMerge id) =
      (.ok parts, last)) :
    (∃ fields, OneType parts ∧ (doc.schema id).Unites parts fields ∧
        mergedFields doc ask context model id state = (.ok fields, last.endMerge id)) ∨
      ∃ field, firstClash parts = some field ∧
        (mergedFields doc ask context model id state).1 =
          .error (.failed (.conflictingField model field.name)) := by
  rcases absorb_cases model parts with ⟨merged, hone, habsorb, hmerges⟩ | ⟨field, hclash, herror⟩
  · exact .inl ⟨_, hone, hmerges.unites _, mergedFields_eq_ok_iff.mpr
      ⟨hmerging, parts, merged, last, hparts, habsorb, rfl, rfl⟩⟩
  · refine .inr ⟨field, hclash, ?_⟩
    rw [mergedFields_of_notMem hmerging]
    exact mergeMembers_eq_error hparts herror

end Merged

/-! ## Members of members -/

mutual

/-- What a schema contributes as a member, computed from one state to another: the fields of a plain
object, or else what its own members and it itself contribute, united. -/
inductive MemberGives (doc : Document) (registry : Registry) (context : Context) :
    Nat → SchemaId → Compilation → List Field → Compilation → Prop where
  | object {depth : Nat} {id : SchemaId} {state after : Compilation} {fields : List Field} :
      (doc.schema id).combination = .none →
        ((doc.schema id).type = none ∨ (doc.schema id).type = some .object) →
        fieldsOf doc (requests doc registry depth) context (doc.schema id) state =
          (.ok fields, after) →
        MemberGives doc registry context depth id state fields after
  | merged {depth : Nat} {id : SchemaId} {state middle last : Compilation}
      {inherited own fields : List Field} :
      (doc.schema id).allOf ≠ [] → id ∉ state.merging →
        MembersGive doc registry context depth (doc.schema id).allOf (state.beginMerge id)
          inherited middle →
        fieldsOf doc (requests doc registry depth) context (doc.schema id) middle =
          (.ok own, last) →
        (doc.schema id).Unites (inherited ++ own) fields →
        MemberGives doc registry context (depth + 1) id state fields (last.endMerge id)

/-- What members contribute one after another. -/
inductive MembersGive (doc : Document) (registry : Registry) (context : Context) :
    Nat → List Edge → Compilation → List Field → Compilation → Prop where
  | nil {depth : Nat} {state : Compilation} :
      MembersGive doc registry context depth [] state [] state
  | cons {depth : Nat} {member : Edge} {rest : List Edge} {state middle after : Compilation}
      {first more : List Field} :
      MemberGives doc registry context depth member.id state first middle →
        MembersGive doc registry context depth rest middle more after →
        MembersGive doc registry context depth (member :: rest) state (first ++ more) after

end

section Members

variable {doc : Document} {registry : Registry} {context : Context} {model : String}
variable {owner : Schema} {state after : Compilation}

theorem membersGive_of_mapM {depth : Nat} {members : List Edge}
    (hmember : ∀ {member : Edge} {state after : Compilation} {fields : List Field},
      contribution doc (requests doc registry depth) context model owner member state =
        (.ok fields, after) → MemberGives doc registry context depth member.id state fields after)
    {contributed : List (List Field)}
    (h : members.mapM (contribution doc (requests doc registry depth) context model owner) state =
      (.ok contributed, after)) :
    MembersGive doc registry context depth members state contributed.flatten after := by
  induction members generalizing state contributed with
  | nil =>
      cases h
      exact .nil
  | cons member rest ih =>
      rw [List.mapM_cons] at h
      simp only [Compile.bind_eq_ok_iff] at h
      obtain ⟨first, middle, hfirst, more, _, hmore, hpure⟩ := h
      cases hpure
      exact .cons (hmember hfirst) (ih hmore)

/-- Every contribution that is computed is that of a plain object or of united members. -/
theorem memberGives_of_contribution {depth : Nat} {member : Edge} {fields : List Field}
    (h : contribution doc (requests doc registry depth) context model owner member state =
      (.ok fields, after)) :
    MemberGives doc registry context depth member.id state fields after := by
  induction depth generalizing owner member fields state after with
  | zero =>
      rcases contribution_cases doc context model owner member with
        ⟨-, heq⟩ | ⟨⟨hnone, htype⟩, heq⟩ | ⟨-, _, _, heq⟩ <;> rw [heq] at h
      · cases h
      · exact .object hnone htype h
      · cases h
  | succ depth ih =>
      rcases contribution_cases doc context model owner member with
        ⟨hall, heq⟩ | ⟨⟨hnone, htype⟩, heq⟩ | ⟨-, _, _, heq⟩ <;> rw [heq] at h
      · obtain ⟨hmerging, parts, merged, last, hparts, habsorb, rfl, rfl⟩ :=
          mergedFields_eq_ok_iff.mp h
        obtain ⟨contributed, middle, own, hmap, hown, rfl⟩ := memberParts_eq_ok_iff.mp hparts
        exact .merged hall hmerging (membersGive_of_mapM ih hmap) hown
          ((Merges.nil.absorb habsorb).unites _)
      · exact .object hnone htype h
      · cases h

end Members

namespace Document

variable {doc : Document} {registry : Registry} {context : Context} {model : String}
variable {id : SchemaId} {state last : Compilation} {parts : List Field} {depth : Nat}

/-- All parts of a schema that is not being merged yet are what its members contribute, with members
of members united in the same way, and then its own fields. If all of them are computed, merging
succeeds exactly if fields of one name have one type. It then unites the parts, and otherwise
refuses the first of them that clashes with the first of its name. -/
theorem mergedFields_flat (hmerging : id ∉ state.merging)
    (hparts : memberParts doc (requests doc registry depth) context model (doc.schema id)
      (state.beginMerge id) = (.ok parts, last)) :
    let schema := doc.schema id
    let merge := mergedFields doc (requests doc registry depth) context model id state
    (∃ inherited own middle, parts = inherited ++ own ∧
      MembersGive doc registry context depth schema.allOf (state.beginMerge id) inherited middle ∧
      fieldsOf doc (requests doc registry depth) context schema middle = (.ok own, last)) ∧
    ((∃ fields, merge.1 = .ok fields) ↔
      ∀ first ∈ parts, ∀ second ∈ parts, first.name = second.name → first.type = second.type) ∧
    (∀ fields, merge.1 = .ok fields →
      merge.2 = last.endMerge id ∧ schema.Unites parts fields) ∧
    ∀ stop, merge.1 = .error stop →
      ∃ field, firstClash parts = some field ∧
        stop = .failed (.conflictingField model field.name) := by
  intro schema merge
  obtain ⟨contributed, middle, own, hmap, hown, rfl⟩ := memberParts_eq_ok_iff.mp hparts
  refine ⟨⟨_, own, middle, rfl, membersGive_of_mapM memberGives_of_contribution hmap, hown⟩, ?_⟩
  rcases mergedFields_of_parts hmerging hparts with
    ⟨fields, hone, hunites, hmerge⟩ | ⟨field, hclash, hmerge⟩
  · have hfields : merge = (.ok fields, last.endMerge id) := hmerge
    rw [hfields]
    refine ⟨⟨fun _ => hone, fun _ => ⟨fields, rfl⟩⟩, ?_, nofun⟩
    rintro _ ⟨⟩
    exact ⟨rfl, hunites⟩
  · have herror : merge.1 = .error (.failed (.conflictingField model field.name)) := hmerge
    have hnot : ¬ OneType (contributed.flatten ++ own) := by
      rw [← firstClash_eq_none_iff, hclash]
      nofun
    rw [herror]
    refine ⟨⟨nofun, fun hone => absurd hone hnot⟩, nofun, ?_⟩
    rintro _ ⟨⟩
    exact ⟨field, hclash, rfl⟩

/-! ## Entries of a ledger -/

/-- Entries of a ledger are noted, and refunds are entries. A fee has a text for its amount. -/
def ledger : Document where
  dialect := .openApi30
  schemas := #[
    { dialect := .openApi30, identity := some "Noted"
      properties := [("id", { id := 4 }), ("note", { id := 5 })] },
    { dialect := .openApi30, identity := some "Entry"
      allOf := [{ id := 0, reference := some "#/components/schemas/Noted" }]
      properties := [("amount", { id := 6 }), ("note", { id := 7 })], required := ["id"] },
    { dialect := .openApi30, identity := some "Refund"
      allOf := [
        { id := 1, reference := some "#/components/schemas/Entry" },
        { id := 0, reference := some "#/components/schemas/Noted" }]
      properties := [("reason", { id := 4 })], required := ["amount", "reason"] },
    { dialect := .openApi30, identity := some "Fee"
      allOf := [{ id := 2, reference := some "#/components/schemas/Refund" }]
      properties := [("reason", { id := 5 }), ("amount", { id := 4 })] },
    { dialect := .openApi30, identity := some "Text", type := some .string },
    { dialect := .openApi30, identity := some "Noted.note", type := some .string },
    { dialect := .openApi30, identity := some "Entry.amount", type := some .number },
    { dialect := .openApi30, identity := some "Entry.note", type := some .string
      default := some (.str "none") }]
  named := [("Noted", 0), ("Entry", 1), ("Refund", 2), ("Fee", 3), ("Text", 4)]

/-- What is merged into refunds. An entry requires its id, and has the default of its own note. -/
def refundParts : List Field := [
  { name := "id", type := .scalar .text, required := true },
  { name := "note", type := .scalar .text, default := some (.str "none") },
  { name := "amount", type := .scalar .float },
  { name := "id", type := .scalar .text },
  { name := "note", type := .scalar .text },
  { name := "reason", type := .scalar .text, required := true }]

/-- What is merged into fees: the fields of refunds, of which all but the note are required, and two
of their own. -/
def feeParts : List Field := [
  { name := "id", type := .scalar .text, required := true },
  { name := "note", type := .scalar .text, default := some (.str "none") },
  { name := "amount", type := .scalar .float, required := true },
  { name := "reason", type := .scalar .text, required := true },
  { name := "reason", type := .scalar .text },
  { name := "amount", type := .scalar .text }]

/-- Refunds have four fields. Fees are refused, since their amount is not that of refunds. -/
theorem ledger_mergedFields_flat :
    let merge := fun model id =>
      mergedFields ledger (requests ledger .standard ledger.depth) {} model id {}
    (∃ fields, (merge "Refund" 2).1 = .ok fields ∧ (ledger.schema 2).Unites refundParts fields ∧
      fields.map (·.name) = ["id", "note", "amount", "reason"]) ∧
    (merge "Fee" 3).1 = .error (.failed (.conflictingField "Fee" "amount")) := by
  intro merge
  have hrefund : memberParts ledger (requests ledger .standard ledger.depth) {} "Refund"
      (ledger.schema 2) (({} : Compilation).beginMerge 2) = (.ok refundParts, _) := rfl
  have hfee : memberParts ledger (requests ledger .standard ledger.depth) {} "Fee"
      (ledger.schema 3) (({} : Compilation).beginMerge 3) = (.ok feeParts, _) := rfl
  obtain ⟨-, hsucceeds, hunites, -⟩ := mergedFields_flat (by decide) hrefund
  obtain ⟨-, hfails, -, hclash⟩ := mergedFields_flat (by decide) hfee
  constructor
  · obtain ⟨fields, hfields⟩ := hsucceeds.mpr (by decide)
    have h := (hunites fields hfields).2
    exact ⟨fields, hfields, h, h.names⟩
  · cases hmerge : (merge "Fee" 3).1 with
    | ok fields => exact absurd (hfails.mp ⟨fields, hmerge⟩) (by decide)
    | error stop =>
        obtain ⟨field, hfield, rfl⟩ := hclash stop hmerge
        cases hfield
        rfl

end Document
end OpenApi
