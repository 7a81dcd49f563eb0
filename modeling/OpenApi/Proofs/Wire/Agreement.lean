-- SUMMARY: Reading an intact tree as a document gives the same as reading its value.
import OpenApi.Proofs.Json.Intact
import OpenApi.Wire.Reader

/-!
# Agreement of readers

A document is read from the tree of a text or from a value. Where the tree is intact, both
ways fail or both give the same. They may fail with different faults: only a text has offsets,
and a list with an item too many is refused by what stands behind the last item that is read,
or by its length.

There is one law for each reader, in the order of the readers.
-/

namespace OpenApi

/-! ## Trees -/

namespace Json.Tree

theorem length_ofItems (values : List Json) : (ofItems values).length = values.length := by
  induction values with
  | nil => rfl
  | cons value values ih => rw [ofItems, List.length_cons, List.length_cons, ih]

/-- A property of trees and their values that containers inherit from what is inside. -/
structure Inherited (P : Tree → Json → Prop) : Prop where
  leaf : ∀ {start stop value}, ofJson value = .leaf 0 0 (.ok value) →
    P (.leaf start stop (.ok value)) value
  list : ∀ {start stop items values}, IntactItems items values →
    List.Forall₂ (fun item value => Intact item.1 value ∧ P item.1 value) items values →
      P (.list start false items (.ok stop)) (.arr values)
  record : ∀ {start stop members entries}, IntactMembers members entries →
    List.Forall₂ (fun member entry => Intact member.2.1 entry.2 ∧ P member.2.1 entry.2)
        members entries →
      P (.record start false members (.closed stop)) (.obj entries)

mutual

/-- Such a property holds of all intact trees. -/
theorem Inherited.intact {P : Tree → Json → Prop} (h : Inherited P) {tree : Tree} {value : Json} :
    Intact tree value → P tree value
  | .leaf _ _ hplain => h.leaf hplain
  | .list _ _ hitems => h.list hitems (h.items hitems)
  | .record _ _ hmembers => h.record hmembers (h.members hmembers)

theorem Inherited.items {P : Tree → Json → Prop} (h : Inherited P) {items : List (Tree × Pause)}
    {values : List Json} :
    IntactItems items values →
      List.Forall₂ (fun item value => Intact item.1 value ∧ P item.1 value) items values
  | .nil => .nil
  | .cons htree _ hitems => .cons ⟨htree, h.intact htree⟩ (h.items hitems)

theorem Inherited.members {P : Tree → Json → Prop} (h : Inherited P)
    {members : List (Key × Tree × Nat)} {entries : List (String × Json)} :
    IntactMembers members entries →
      List.Forall₂ (fun member entry => Intact member.2.1 entry.2 ∧ P member.2.1 entry.2)
        members entries
  | .nil => .nil
  | .cons _ _ htree hmembers => .cons ⟨htree, h.intact htree⟩ (h.members hmembers)

end

theorem inherited_intact : Inherited Intact :=
  ⟨.leaf _ _, fun hitems _ => .list _ _ hitems, fun hmembers _ => .record _ _ hmembers⟩

end Json.Tree

namespace Wire

open Json (Tree Key Pause)
open Json.Tree (Intact IntactItems IntactMembers inherited_intact)

/-! ## Results -/

section Results

variable {ε α α' β β' : Type}

/-- Both results are faults, or both are answers that `R` relates. -/
inductive Agree (R : α → α' → Prop) : Except ε α → Except ε α' → Prop where
  | ok {answer : α} {answer' : α'} : R answer answer' → Agree R (.ok answer) (.ok answer')
  | error (fault fault' : ε) : Agree R (.error fault) (.error fault')

namespace Agree

variable {R : α → α' → Prop} {S : β → β' → Prop}

theorem bind {result : Except ε α} {result' : Except ε α'} (h : Agree R result result')
    {next : α → Except ε β} {next' : α' → Except ε β'}
    (hnext : ∀ answer answer', R answer answer' → Agree S (next answer) (next' answer')) :
    Agree S (result >>= next) (result' >>= next') := by
  cases h with
  | ok hanswer => exact hnext _ _ hanswer
  | error fault fault' => exact .error fault fault'

/-- Two chains whose first checks give the same agree if they do behind these. -/
theorem bind_eq {result result' : Except ε α} (h : Agree Eq result result')
    {next : α → Except ε β} {next' : α → Except ε β'}
    (hnext : ∀ answer, Agree S (next answer) (next' answer)) :
    Agree S (result >>= next) (result' >>= next') :=
  h.bind fun answer _ heq => heq ▸ hnext answer

theorem mapError {result : Except ε α} {result' : Except ε α'} (h : Agree R result result')
    {δ : Type} (f f' : ε → δ) : Agree R (result.mapError f) (result'.mapError f') := by
  cases h with
  | ok hanswer => exact .ok hanswer
  | error fault fault' => exact .error (f fault) (f' fault')

theorem map {result result' : Except ε α} (h : Agree Eq result result') (f : α → β) :
    Agree Eq (result.map f) (result'.map f) := by
  cases h with
  | ok hanswer => exact .ok (congrArg f hanswer)
  | error fault fault' => exact .error fault fault'

theorem refl (result : Except ε α) : Agree Eq result result := by
  cases result with
  | error fault => exact .error fault fault
  | ok answer => exact .ok rfl

end Agree

end Results

/-! ## Leaves -/

section Leaves

variable {tree : Tree} {value : Json} (h : Intact tree value)
include h

theorem readString_agree : Agree Eq (readString tree) (readString (.ofJson value)) := by
  cases h with
  | leaf start stop hplain =>
      rw [hplain]
      cases value <;> first | exact .ok rfl | exact .error _ _
  | list | record => exact .error _ _

theorem isNull_agree : isNull tree = isNull (.ofJson value) := by
  cases h with
  | leaf start stop hplain =>
      rw [hplain]
      cases value <;> rfl
  | list | record => rfl

theorem readOptional_agree {α : Type} {read read' : Tree → Except (Json.Located Fault) α}
    (hread : Agree Eq (read tree) (read' (.ofJson value))) :
    Agree Eq (readOptional read tree) (readOptional read' (.ofJson value)) := by
  unfold readOptional
  rw [isNull_agree h]
  split
  · exact .ok rfl
  · exact hread.map some

theorem readValue_agree : Agree Eq (readValue tree) (readValue (.ofJson value)) := by
  rw [readValue, readValue, Tree.value, Tree.value, h.contents_eq, Tree.contents_ofJson]
  exact .refl _

theorem readValues_agree : Agree Eq (readValues tree) (readValues (.ofJson value)) := by
  have hvalue := readValue_agree h
  cases h with
  | leaf start stop hplain =>
      rw [hplain]
      exact .error _ _
  | list => exact hvalue.map _
  | record => exact .error _ _

theorem skip_agree : Agree Eq (skip tree) (skip (.ofJson value)) := by
  rw [skip, skip, h.lenientFault_eq_none, Tree.lenientFault_ofJson]
  exact .ok rfl

theorem readChoice_agree {α : Type} (choice : Choice) (ofJson? : Json → Option α) :
    Agree Eq (readChoice choice ofJson? tree) (readChoice choice ofJson? (.ofJson value)) := by
  rw [readChoice, readChoice, h.contents_eq, Tree.contents_ofJson]
  exact .refl _

end Leaves

/-! ## Records -/

theorem onceOnly_agree (seen : List String) (name : String) (rest rest' : Nat) :
    Agree Eq (onceOnly seen name rest) (onceOnly seen name rest') := by
  unfold onceOnly
  split
  · exact .error _ _
  · exact .ok rfl

/-- What is left over agrees, and the text says after the last item whether there is another. -/
structure Surplus.Agree (surplus surplus' : Surplus) : Prop where
  count : surplus.count = surplus'.count
  fields : surplus.fields = surplus'.fields
  extra : surplus.extra = surplus'.extra
  closed : surplus.fields = [] → (surplus.pause.bind (·.refusal) = none ↔ surplus.extra = 0)
  bare : surplus'.pause.bind (·.refusal) = none

theorem endPlaces_agree {record : Record} {surplus surplus' : Surplus} (stop stop' : Nat)
    (h : surplus.Agree surplus') :
    Agree Eq (endPlaces record (.ok stop) surplus) (endPlaces record (.ok stop') surplus') := by
  obtain ⟨count, fields, pause, extra⟩ := surplus
  obtain ⟨count', fields', pause', extra'⟩ := surplus'
  obtain ⟨rfl, rfl, rfl, hclosed, hopen⟩ := h
  cases fields with
  | nil =>
      simp only [endPlaces, List.isEmpty_nil, if_true, hopen]
      cases hrefusal : pause.bind (·.refusal) with
      | none =>
          rw [if_pos ((hclosed rfl).mp hrefusal)]
          exact .ok rfl
      | some fault =>
          rw [if_neg (mt (hclosed rfl).mpr (by simp [hrefusal]))]
          exact .error _ _
  | cons field fields =>
      simp only [endPlaces, List.isEmpty_cons, Bool.false_eq_true, if_false]
      split
      · exact .error _ _
      · exact .ok rfl

section Records

variable {α : Type} {set : α → String → Tree → Except (Json.Located Fault) α}

theorem readMembers_agree {specs : List FieldSpec} {members : List (Key × Tree × Nat)}
    {entries : List (String × Json)} (h : IntactMembers members entries)
    (hset : List.Forall₂ (fun member entry => ∀ acc name,
      Agree Eq (set acc name member.2.1) (set acc name (.ofJson entry.2))) members entries) :
    ∀ seen acc, Agree Eq (readMembers specs set seen acc members)
      (readMembers specs set seen acc (Tree.ofMembers entries)) := by
  intro seen acc
  induction members generalizing entries seen acc with
  | nil =>
      cases h
      exact .ok rfl
  | cons member members ih =>
      cases h with
      | @cons name tree value _ entries keyRest rest htree hmembers =>
          obtain ⟨hfirst, hrest⟩ := List.forall₂_cons.mp hset
          rw [Tree.ofMembers, readMembers, readMembers]
          refine (Agree.refl (.ok name)).bind_eq fun name => ?_
          split
          · refine (onceOnly_agree seen name _ _).bind_eq fun _ => ?_
            exact ((hfirst acc name).mapError _ _).bind_eq fun acc => ih hmembers hrest _ acc
          · exact ((skip_agree htree).mapError _ _).bind_eq fun _ => ih hmembers hrest seen acc

theorem readPlaces_agree {items : List (Tree × Pause)} {values : List Json}
    (h : IntactItems items values)
    (hset : List.Forall₂ (fun item value => ∀ acc name,
      Agree Eq (set acc name item.1) (set acc name (.ofJson value))) items values) :
    ∀ fields count pause pause' acc,
      (fields = [] → (pause.bind (·.refusal) = none ↔ items = [])) →
      pause'.bind (·.refusal) = none →
      Agree (fun found found' => found.1 = found'.1 ∧ found.2.Agree found'.2)
        (readPlaces set fields count pause acc items)
        (readPlaces set fields count pause' acc (Tree.ofItems values)) := by
  intro fields count pause pause' acc hpause hopen
  induction items generalizing values fields count pause pause' acc with
  | nil =>
      cases h
      rw [Tree.ofItems, readPlaces, readPlaces]
      exact .ok ⟨rfl, ⟨rfl, rfl, rfl, by simpa using hpause, hopen⟩⟩
  | cons item items ih =>
      cases h with
      | @cons tree value next _ values htree hnext hitems =>
          obtain ⟨hfirst, hrest⟩ := List.forall₂_cons.mp hset
          cases fields with
          | nil =>
              refine Agree.ok ⟨rfl, ⟨rfl, rfl, ?_, by simpa using hpause, hopen⟩⟩
              exact congrArg (· + 1) (hitems.length_eq.trans (Tree.length_ofItems values).symm)
          | cons field fields =>
              rw [Tree.ofItems, readPlaces, readPlaces]
              refine ((hfirst acc field.name).mapError _ _).bind_eq fun acc => ?_
              exact ih hitems hrest fields _ _ _ acc (fun _ => hnext) rfl

section Containers

variable {record : Record} {specs : List FieldSpec} (start : α) (place stop : Nat)

theorem readRecord_record_agree {members : List (Key × Tree × Nat)}
    {entries : List (String × Json)} (h : IntactMembers members entries)
    (hset : List.Forall₂ (fun member entry => ∀ acc name,
      Agree Eq (set acc name member.2.1) (set acc name (.ofJson entry.2))) members entries) :
    Agree Eq (readRecord record specs set start (.record place false members (.closed stop)))
      (readRecord record specs set start (.ofJson (.obj entries))) := by
  rw [Tree.ofJson, readRecord, readRecord]
  refine (Agree.refl (.ok ())).bind_eq fun _ => ?_
  exact (readMembers_agree h hset [] start).bind_eq fun ⟨acc, seen⟩ => .ok rfl

theorem readRecord_list_agree (hspecs : specs ≠ []) {items : List (Tree × Pause)}
    {values : List Json} (h : IntactItems items values)
    (hset : List.Forall₂ (fun item value => ∀ acc name,
      Agree Eq (set acc name item.1) (set acc name (.ofJson value))) items values) :
    Agree Eq (readRecord record specs set start (.list place false items (.ok stop)))
      (readRecord record specs set start (.ofJson (.arr values))) := by
  rw [Tree.ofJson, readRecord, readRecord]
  refine (Agree.refl (.ok ())).bind_eq fun _ => ?_
  have hplaces := readPlaces_agree h hset specs 0 none none start
    (fun hnil => absurd hnil hspecs) rfl
  refine hplaces.bind fun ⟨acc, surplus⟩ ⟨acc', surplus'⟩ ⟨hacc, hsurplus⟩ => ?_
  exact (endPlaces_agree stop 0 hsurplus).bind_eq fun _ => .ok hacc

end Containers

/-- A record is read alike if its fields are set alike. -/
theorem readRecord_agree {record : Record} {specs : List FieldSpec} (hspecs : specs ≠ [])
    (hset : ∀ {tree value}, Intact tree value → ∀ acc name,
      Agree Eq (set acc name tree) (set acc name (.ofJson value)))
    (start : α) {tree : Tree} {value : Json} (h : Intact tree value) :
    Agree Eq (readRecord record specs set start tree)
      (readRecord record specs set start (.ofJson value)) := by
  cases h with
  | leaf _ _ hplain =>
      rw [hplain]
      exact .error _ _
  | list place stop hitems =>
      exact readRecord_list_agree start place stop hspecs hitems
        ((inherited_intact.items hitems).imp fun _ _ htree => hset htree.1)
  | record place stop hmembers =>
      exact readRecord_record_agree start place stop hmembers
        ((inherited_intact.members hmembers).imp fun _ _ htree => hset htree.1)

end Records

/-! ## Schemas -/

/-- Two trees are read alike as each of the things that hold schemas. -/
structure Nested.Agree (nested nested' : Nested) : Prop where
  schema : Wire.Agree Eq (nested.schema ()) (nested'.schema ())
  schemas : Wire.Agree Eq (nested.schemas ()) (nested'.schemas ())
  named : Wire.Agree Eq (nested.named ()) (nested'.named ())

theorem setField_agree {tree : Tree} {value : Json} (h : Intact tree value)
    {nested nested' : Nested} (hnested : nested.Agree nested') (schema : Schema) (name : String) :
    Agree Eq (setField schema name tree nested)
      (setField schema name (.ofJson value) nested') := by
  have htext := readOptional_agree h (readString_agree h)
  unfold setField
  split
  · exact htext.bind_eq fun _ => .ok rfl
  · exact (readOptional_agree h (readChoice_agree h _ _)).bind_eq fun _ => .ok rfl
  · exact htext.bind_eq fun _ => .ok rfl
  · exact htext.bind_eq fun _ => .ok rfl
  · exact hnested.named.bind_eq fun _ => .ok rfl
  · exact (readOptional_agree h (readChoice_agree h _ _)).bind_eq fun _ => .ok rfl
  · exact (readOptional_agree h hnested.schema).bind_eq fun _ => .ok rfl
  · exact hnested.schemas.bind_eq fun _ => .ok rfl
  · exact hnested.schemas.bind_eq fun _ => .ok rfl
  · exact hnested.schemas.bind_eq fun _ => .ok rfl
  · exact (readOptional_agree h (readChoice_agree h _ _)).bind_eq fun _ => .ok rfl
  · exact (readOptional_agree h (readValues_agree h)).bind_eq fun _ => .ok rfl
  · exact (readOptional_agree h (readValue_agree h)).bind_eq fun _ => .ok rfl

/-- Set a field of a schema to what a tree says. -/
def setNested (schema : Schema) (name : String) (tree : Tree) :
    Except (Json.Located Fault) Schema := setField schema name tree (nested tree)

/-- The members of a schema are those of a record. -/
theorem readSchemaMembers_eq (members : List (Key × Tree × Nat)) :
    ∀ seen schema, readSchemaMembers seen schema members =
      readMembers schemaFields setNested seen schema members := by
  induction members with
  | nil => exact fun _ _ => by rw [readSchemaMembers, readMembers]
  | cons member members ih =>
      obtain ⟨key, tree, rest⟩ := member
      intro seen schema
      simp only [readSchemaMembers, readMembers, ih, setNested]

/-- The items of a schema are those of a record. -/
theorem readSchemaPlaces_eq (items : List (Tree × Pause)) :
    ∀ fields count pause schema, readSchemaPlaces fields count pause schema items =
      readPlaces setNested fields count pause schema items := by
  induction items with
  | nil => exact fun _ _ _ _ => by rw [readSchemaPlaces, readPlaces]
  | cons item items ih =>
      obtain ⟨tree, next⟩ := item
      intro fields count pause schema
      cases fields with
      | nil => rfl
      | cons field fields => simp only [readSchemaPlaces, readPlaces, ih, setNested]

/-- A list or an object is read as a schema by the fields of one. -/
theorem schema_list (place : Nat) (deep : Bool) (items : List (Tree × Pause))
    (ending : Except Json.Breach Nat) :
    (nested (.list place deep items ending)).schema () =
      readRecord .schema schemaFields setNested {} (.list place deep items ending) := by
  rw [nested, readRecord]
  simp only [readSchemaPlaces_eq]

theorem schema_record (place : Nat) (deep : Bool) (members : List (Key × Tree × Nat))
    (ending : Json.Ending) :
    (nested (.record place deep members ending)).schema () =
      readRecord .schema schemaFields setNested {} (.record place deep members ending) := by
  rw [nested, readRecord]
  simp only [readSchemaMembers_eq]

theorem readSchemas_agree {items : List (Tree × Pause)} {values : List Json}
    (h : List.Forall₂ (fun item value => (nested item.1).Agree (nested (.ofJson value)))
      items values) :
    ∀ place place', Agree Eq (readSchemas place items)
      (readSchemas place' (Tree.ofItems values)) := by
  induction h with
  | nil => exact fun _ _ => .ok rfl
  | cons hfirst _ ih =>
      intro place place'
      rw [Tree.ofItems, readSchemas, readSchemas]
      exact (hfirst.schema.mapError _ _).bind_eq fun _ => (ih _ _).bind_eq fun _ => .ok rfl

theorem readNamed_agree {members : List (Key × Tree × Nat)} {entries : List (String × Json)}
    (hmembers : IntactMembers members entries)
    (h : List.Forall₂ (fun member entry => (nested member.2.1).Agree (nested (.ofJson entry.2)))
      members entries) :
    Agree Eq (readNamed members) (readNamed (Tree.ofMembers entries)) := by
  induction members generalizing entries with
  | nil =>
      cases hmembers
      exact .ok rfl
  | cons member members ih =>
      cases hmembers with
      | cons _ _ _ hmembers =>
          obtain ⟨hfirst, hrest⟩ := List.forall₂_cons.mp h
          rw [Tree.ofMembers, readNamed, readNamed]
          refine (Agree.refl (.ok _)).bind_eq fun name => ?_
          exact (hfirst.schema.mapError _ _).bind_eq fun _ =>
            (ih hmembers hrest).bind_eq fun _ => .ok rfl

/-- Whatever an intact tree is read as, its value is read as the same. -/
theorem inherited_nested :
    Tree.Inherited fun tree value => (nested tree).Agree (nested (.ofJson value)) where
  leaf := by
    intro start stop value hplain
    rw [hplain]
    exact ⟨.error _ _, .error _ _, .error _ _⟩
  list := by
    intro start stop items values hitems hnested
    refine ⟨?_, ?_, .error _ _⟩
    · rw [schema_list, Tree.ofJson, schema_list, ← Tree.ofJson]
      exact readRecord_list_agree _ start stop (by simp [schemaFields]) hitems
        (hnested.imp fun _ _ h => setField_agree h.1 h.2)
    · refine (Agree.refl (.ok ())).bind_eq fun _ => ?_
      exact (readSchemas_agree (hnested.imp fun _ _ h => h.2) _ _).bind_eq fun _ => .ok rfl
  record := by
    intro start stop members entries hmembers hnested
    refine ⟨?_, .error _ _, ?_⟩
    · rw [schema_record, Tree.ofJson, schema_record, ← Tree.ofJson]
      exact readRecord_record_agree _ start stop hmembers
        (hnested.imp fun _ _ h => setField_agree h.1 h.2)
    · refine (Agree.refl (.ok ())).bind_eq fun _ => ?_
      exact (readNamed_agree hmembers (hnested.imp fun _ _ h => h.2)).bind_eq fun _ => .ok rfl

/-! ## Documents -/

section Documents

variable {tree : Tree} {value : Json}

theorem readComponents_agree (h : Intact tree value) :
    Agree Eq (readComponents tree) (readComponents (.ofJson value)) :=
  readRecord_agree (List.cons_ne_nil _ _) (fun htree _ _ => (inherited_nested.intact htree).named)
    [] h

/-- An intact tree and its value are read as the same document, or neither is read as any. -/
theorem readDocument_agree (h : Intact tree value) :
    Agree Eq (readDocument tree) (readDocument (.ofJson value)) := by
  unfold readDocument
  refine readRecord_agree (List.cons_ne_nil _ _) (fun htree doc name => ?_) _ h
  have htext := readOptional_agree htree (readString_agree htree)
  split
  · exact htext.bind_eq fun _ => .ok rfl
  · exact htext.bind_eq fun _ => .ok rfl
  · exact (inherited_nested.intact htree).named.bind_eq fun _ => .ok rfl
  · exact (readComponents_agree htree).bind_eq fun _ => .ok rfl

end Documents

end Wire
end OpenApi
