-- SUMMARY: Merged fields: one for each name, made of all fields of that name.
import OpenApi.Compilation.Fields
import OpenApi.Proofs.Except
import Mathlib.Data.List.Nodup

/-!
# Merging

Absorbing fields one after another keeps one field for each name. `Merges` says which,
without the order in which things were absorbed: the names in the order in which they
first come, the one type that all fields of a name have, and of their restrictions and
defaults the first there is.
-/

namespace OpenApi

/-- Without repetitions each name stands once. -/
theorem nodup_eraseDups (names : List String) : names.eraseDups.Nodup := by
  match names with
  | [] => exact List.nodup_nil
  | name :: rest =>
      rw [List.eraseDups_cons, List.nodup_cons]
      refine ⟨by simp, nodup_eraseDups _⟩
termination_by names.length
decreasing_by exact Nat.lt_succ_of_le (List.length_filter_le _ rest)

/-! ## One field for each name -/

/-- A field stands for all parts of its name. -/
structure Field.Joins (field : Field) (parts : List Field) : Prop where
  type : ∀ part ∈ parts, part.name = field.name → part.type = field.type
  required : field.required = parts.any fun part => part.name == field.name && part.required
  default : field.default =
    parts.findSome? fun part => if part.name = field.name then part.default else none
  enum : field.enum =
    parts.findSome? fun part => if part.name = field.name then part.enum else none

/-- Fields of different names that stand for all parts. -/
structure Merges (parts fields : List Field) : Prop where
  names : fields.map (·.name) = (parts.map (·.name)).eraseDups
  joins : ∀ field ∈ fields, field.Joins parts

/-! ## Absorbing -/

section Absorb

variable {model : String} {parts fields next : List Field} {field : Field}

theorem absorb_cons (model : String) (merged : List Field) (field : Field) (rest : List Field) :
    absorb model merged (field :: rest) =
      absorbField model merged field >>= fun next => absorb model next rest := rfl

/-- A field is added at the end, or combined with the first one of its name. -/
theorem absorbField_cases (h : absorbField model fields field = .ok next) :
    ((∀ other ∈ fields, other.name ≠ field.name) ∧ next = fields ++ [field]) ∨
      ∃ before first after, fields = before ++ first :: after ∧ first.name = field.name ∧
        first.type = field.type ∧ next = before ++ first.combine field :: after := by
  induction fields generalizing next with
  | nil =>
      cases h
      exact .inl ⟨by simp, rfl⟩
  | cons first rest ih =>
      simp only [absorbField] at h
      split at h
      · rename_i hname
        split at h
        · rename_i htype
          cases h
          exact .inr ⟨[], first, rest, rfl, hname, htype, rfl⟩
        · cases h
      · rename_i hname
        cases hrest : absorbField model rest field with
        | error error =>
            rw [hrest] at h
            cases h
        | ok next' =>
            rw [hrest] at h
            cases h
            rcases ih hrest with ⟨hnew, rfl⟩ | ⟨before, found, after, rfl, hfound⟩
            · refine .inl ⟨?_, rfl⟩
              rw [List.forall_mem_cons]
              exact ⟨hname, hnew⟩
            · obtain ⟨hname', htype, rfl⟩ := hfound
              exact .inr ⟨first :: before, found, after, rfl, hname', htype, rfl⟩

namespace Field.Joins

/-- A part of another name is nothing to a field. -/
theorem append_of_ne {other : Field} (h : other.Joins parts) (hne : other.name ≠ field.name) :
    other.Joins (parts ++ [field]) where
  type := by
    intro part hmem hname
    rcases List.mem_append.mp hmem with hmem | hmem
    · exact h.type part hmem hname
    · cases List.mem_singleton.mp hmem
      exact absurd hname.symm hne
  required := by simp [h.required, hne.symm]
  default := by simp [h.default, List.findSome?_append, hne.symm]
  enum := by simp [h.enum, List.findSome?_append, hne.symm]

/-- A first part of a name is its own field. -/
theorem self (hnew : ∀ part ∈ parts, part.name ≠ field.name) : field.Joins (parts ++ [field]) where
  type := by
    intro part hmem hname
    rcases List.mem_append.mp hmem with hmem | hmem
    · exact absurd hname (hnew part hmem)
    · rw [List.mem_singleton.mp hmem]
  required := by
    have hnone : (parts.any fun part => part.name == field.name && part.required) = false := by
      simp only [List.any_eq_false, Bool.and_eq_true, beq_iff_eq, not_and]
      exact fun part hmem hname => absurd hname (hnew part hmem)
    simp [List.any_append, hnone]
  default := by
    have hnone : (parts.findSome? fun part =>
        if part.name = field.name then part.default else none) = none :=
      List.findSome?_eq_none_iff.mpr fun part hmem => if_neg (hnew part hmem)
    simp [List.findSome?_append, hnone]
  enum := by
    have hnone : (parts.findSome? fun part =>
        if part.name = field.name then part.enum else none) = none :=
      List.findSome?_eq_none_iff.mpr fun part hmem => if_neg (hnew part hmem)
    simp [List.findSome?_append, hnone]

/-- A further part of a name is combined with its field. -/
theorem combine {first : Field} (h : first.Joins parts) (hname : first.name = field.name)
    (htype : first.type = field.type) : (first.combine field).Joins (parts ++ [field]) where
  type := by
    intro part hmem hpart
    rcases List.mem_append.mp hmem with hmem | hmem
    · exact h.type part hmem hpart
    · rw [List.mem_singleton.mp hmem]
      exact htype.symm
  required := by simp [Field.combine, h.required, List.any_append, hname]
  default := by simp [Field.combine, h.default, List.findSome?_append, hname]
  enum := by simp [Field.combine, h.enum, List.findSome?_append, hname]

end Field.Joins

namespace Merges

theorem nil : Merges [] [] := ⟨rfl, by simp⟩

theorem mem_names (h : Merges parts fields) {name : String} :
    name ∈ fields.map (·.name) ↔ name ∈ parts.map (·.name) := by
  rw [h.names, List.mem_eraseDups]

/-- Each name of a part is that of some field. -/
theorem exists_field (h : Merges parts fields) {part : Field} (hmem : part ∈ parts) :
    ∃ field ∈ fields, field.name = part.name :=
  List.mem_map.mp (h.mem_names.mpr (List.mem_map_of_mem hmem))

/-- Each field has the name of some part, and then its type. -/
theorem exists_part (h : Merges parts fields) (hmem : field ∈ fields) :
    ∃ part ∈ parts, part.name = field.name ∧ part.type = field.type := by
  obtain ⟨part, hpart, hname⟩ := List.mem_map.mp (h.mem_names.mp (List.mem_map_of_mem hmem))
  exact ⟨part, hpart, hname, (h.joins field hmem).type part hpart hname⟩

theorem nodup (h : Merges parts fields) : (fields.map (·.name)).Nodup :=
  h.names ▸ nodup_eraseDups _

/-- Absorbing a field adds it to the parts. -/
theorem absorbField (h : Merges parts fields)
    (habsorb : absorbField model fields field = .ok next) : Merges (parts ++ [field]) next := by
  rcases absorbField_cases habsorb with ⟨hnew, rfl⟩ | ⟨before, first, after, rfl, hname, htype, rfl⟩
  · -- No part has the name yet, because no field has it.
    have hparts : ∀ part ∈ parts, part.name ≠ field.name := by
      intro part hmem
      obtain ⟨other, hother, heq⟩ := h.exists_field hmem
      exact heq ▸ hnew other hother
    refine ⟨?_, ?_⟩
    · have hnot : field.name ∉ parts.map (·.name) := by
        simpa using fun part hmem => hparts part hmem
      simp only [List.map_append, h.names, List.eraseDups_append, List.map_cons, List.map_nil,
        List.cons_removeAll, List.nil_removeAll, List.contains_eq_mem, hnot, decide_false, if_true,
        List.eraseDups_cons, List.filter_nil, List.eraseDups_nil]
    · intro other hmem
      rcases List.mem_append.mp hmem with hmem | hmem
      · exact (h.joins other hmem).append_of_ne (hnew other hmem)
      · cases List.mem_singleton.mp hmem
        exact .self hparts
  · -- The other fields keep their names, which are different from this one.
    have hnodup := h.nodup
    simp only [List.map_append, List.map_cons, List.nodup_append, List.nodup_cons,
      List.mem_map, List.mem_cons] at hnodup
    obtain ⟨-, ⟨hafter, -⟩, hbefore⟩ := hnodup
    have hmem : first.name ∈ parts.map (·.name) := h.mem_names.mp (by simp)
    refine ⟨?_, ?_⟩
    · have hnames := h.names
      simp only [List.map_append, List.map_cons] at hnames
      simp only [List.map_append, List.map_cons, List.map_nil, Field.combine, hnames,
        List.eraseDups_append, List.cons_removeAll, List.nil_removeAll, List.contains_eq_mem,
        ← hname, hmem, decide_true, Bool.true_eq_false, if_false, List.eraseDups_nil,
        List.append_nil]
    · intro other hother
      rcases List.mem_append.mp hother with hother | hother
      · refine (h.joins other (by simp [hother])).append_of_ne fun heq => ?_
        exact hbefore _ ⟨other, hother, rfl⟩ _ (.inl rfl) (heq.trans hname.symm)
      · rcases List.mem_cons.mp hother with rfl | hother
        · exact (h.joins first (by simp)).combine hname htype
        · refine (h.joins other (by simp [hother])).append_of_ne fun heq => ?_
          exact hafter ⟨other, hother, heq.trans hname.symm⟩

/-- Absorbing fields one after another adds all of them to the parts. -/
theorem absorb {more : List Field} (h : Merges parts fields)
    (habsorb : absorb model fields more = .ok next) : Merges (parts ++ more) next := by
  induction more generalizing parts fields with
  | nil =>
      cases habsorb
      simpa using h
  | cons field rest ih =>
      rw [absorb_cons] at habsorb
      obtain ⟨middle, hfirst, hrest⟩ := exists_of_bind_eq_ok habsorb
      simpa using ih (h.absorbField hfirst) hrest

/-- A field can be absorbed if all parts of its name have its type. -/
theorem exists_absorbField (field : Field) (h : Merges parts fields)
    (htype : ∀ part ∈ parts, part.name = field.name → part.type = field.type) (model : String) :
    ∃ next, OpenApi.absorbField model fields field = .ok next := by
  have hfields : ∀ other ∈ fields, other.name = field.name → other.type = field.type := by
    intro other hmem hname
    obtain ⟨part, hpart, hpartName, hpartType⟩ := h.exists_part hmem
    exact hpartType.symm.trans (htype part hpart (hpartName.trans hname))
  clear h
  induction fields with
  | nil => exact ⟨_, rfl⟩
  | cons first rest ih =>
      rw [List.forall_mem_cons] at hfields
      unfold OpenApi.absorbField
      split
      · rename_i hname
        rw [if_pos (hfields.1 hname)]
        exact ⟨_, rfl⟩
      · obtain ⟨next, hnext⟩ := ih hfields.2
        rw [hnext]
        exact ⟨_, rfl⟩

/-- Fields can be absorbed if all parts of one name have one type. -/
theorem exists_absorb {more : List Field} (h : Merges parts fields)
    (htypes : ∀ first ∈ parts ++ more, ∀ second ∈ parts ++ more, first.name = second.name →
      first.type = second.type) (model : String) :
    ∃ next, OpenApi.absorb model fields more = .ok next := by
  induction more generalizing parts fields with
  | nil => exact ⟨fields, rfl⟩
  | cons field rest ih =>
      obtain ⟨middle, hmiddle⟩ := h.exists_absorbField field
        (fun part hpart => htypes part (List.mem_append_left _ hpart) field (by simp)) model
      have hrest := h.absorbField hmiddle
      obtain ⟨next, hnext⟩ := ih hrest (by simpa using htypes)
      exact ⟨next, by rw [absorb_cons, hmiddle, ok_bind, hnext]⟩

/-- The parts determine the fields. -/
theorem unique {fields' : List Field} (h : Merges parts fields) (h' : Merges parts fields') :
    fields = fields' := by
  have hlength : fields.length = fields'.length := by
    simpa using congrArg List.length (h.names.trans h'.names.symm)
  refine List.ext_getElem hlength fun place hlt hlt' => ?_
  have hjoins := h.joins _ (List.getElem_mem hlt)
  have hjoins' := h'.joins _ (List.getElem_mem hlt')
  have hname : fields[place].name = fields'[place].name := by
    have hget := congrArg (fun names : List String => names[place]?) (h.names.trans h'.names.symm)
    simpa [hlt, hlt'] using hget
  have htype : fields[place].type = fields'[place].type := by
    obtain ⟨part, hpart, hpartName, hpartType⟩ := h.exists_part (List.getElem_mem hlt)
    exact hpartType.symm.trans (hjoins'.type part hpart (hpartName.trans hname))
  have hrequired := hjoins.required
  have hdefault := hjoins.default
  have henum := hjoins.enum
  rw [hname, ← hjoins'.required] at hrequired
  rw [hname, ← hjoins'.default] at hdefault
  rw [hname, ← hjoins'.enum] at henum
  calc fields[place]
      = ⟨fields[place].name, fields[place].type, fields[place].required, fields[place].default,
          fields[place].enum⟩ := rfl
    _ = fields'[place] := by rw [hname, htype, hrequired, hdefault, henum]

end Merges
end Absorb

/-! ## Requiring more -/

/-- What a schema makes of a merged field. Only whether it is required is up to the schema. -/
def Schema.requireField (schema : Schema) (field : Field) : Field :=
  { field with
    required := field.required ||
      (!schema.dialect.isLegacy && schema.required.contains field.name) }

namespace Schema

variable (schema : Schema) (field : Field)

@[simp] theorem requireField_name : (schema.requireField field).name = field.name := rfl

@[simp] theorem requireField_type : (schema.requireField field).type = field.type := rfl

@[simp] theorem requireField_enum : (schema.requireField field).enum = field.enum := rfl

@[simp] theorem requireField_required :
    (schema.requireField field).required = true ↔ field.required = true ∨
      schema.dialect.isLegacy = false ∧ field.name ∈ schema.required := by
  simp [requireField]

end Schema

/-- A schema looks at merged fields one by one. -/
theorem requireOwn_eq_map (schema : Schema) (fields : List Field) :
    requireOwn schema fields = fields.map schema.requireField := by
  cases hlegacy : schema.dialect.isLegacy with
  | true =>
      have hsame : schema.requireField = id := by
        funext field
        simp [Schema.requireField, hlegacy]
      simp [requireOwn, hlegacy, hsame]
  | false => simp [requireOwn, Schema.requireField, hlegacy]

theorem mem_requireOwn {schema : Schema} {fields : List Field} {field : Field} :
    field ∈ requireOwn schema fields ↔ ∃ merged ∈ fields, schema.requireField merged = field := by
  rw [requireOwn_eq_map, List.mem_map]

theorem requireField_mem {schema : Schema} {fields : List Field} {field : Field}
    (h : field ∈ fields) : schema.requireField field ∈ requireOwn schema fields :=
  mem_requireOwn.mpr ⟨field, h, rfl⟩

end OpenApi
