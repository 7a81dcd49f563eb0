-- SUMMARY: What is asked for in two documents that differ in one discriminator without a mapping.
import OpenApi.Proofs.Compilation.Cases
import OpenApi.Proofs.Schema.Ways

/-!
# Untagged discriminators

A discriminator without a mapping tags nothing, but it stands in the contexts of all that is
reached through its schema, where it hides discriminators of the same property further inside.
It also makes its schema one of those that are compiled first. `Retagged` says that two documents
are the same but for such a discriminator of one schema. If it hides no mapping then the two
narrow properties alike along every walk, and if besides it does not matter in which of its
contexts a model is built, it does not matter in which pass either: `AsksAlike`.
-/

namespace OpenApi

open Relation (ReflTransGen TransGen)

/-! ## Contexts -/

namespace Context

/-- The outermost discriminator of a property, which decides how the property is narrowed. -/
def selector (context : Context) (name : String) : Option Discriminator :=
  context.discriminators.find? (·.property == name)

variable {context context' : Context} {name : String}

theorem selector_follow (context : Context) (discriminator : Option Discriminator)
    (step name : String) : (context.follow discriminator step).selector name =
      (context.selector name).or (discriminator.filter (·.property == name)) := by
  cases discriminator <;> simp [selector, follow, List.find?_append, List.find?_singleton,
    Option.filter]

theorem narrow_congr (hpath : context'.path = context.path)
    (h : context'.selector name = context.selector name) :
    context'.narrow name = context.narrow name := by
  unfold selector at h
  simp only [narrow, h, hpath]

/-- The context leaves a property as it is. -/
def Leaves (context : Context) (name : String) : Prop :=
  ∀ found, context.selector name = some found → found.mapping = none

theorem Leaves.narrow (h : context.Leaves name) : context.narrow name = .ok none := by
  unfold Context.narrow
  split
  · rfl
  · rename_i found hfound
    rw [if_neg (by simp [Discriminator.isTagged, h found hfound])]

/-- A discriminator that adds no mapping for a property. -/
def Plain (name : String) (discriminator : Option Discriminator) : Prop :=
  ∀ found, discriminator = some found → found.property = name → found.mapping = none

/-- A property that is left as it is stays so behind a discriminator that maps nothing for it. -/
theorem Leaves.follow (h : context.Leaves name) {discriminator : Option Discriminator}
    (hplain : Plain name discriminator) (step : String) :
    (context.follow discriminator step).Leaves name := by
  intro found hfound
  rw [selector_follow, Option.or_eq_some_iff] at hfound
  rcases hfound with hfound | ⟨-, hfound⟩
  · exact h found hfound
  · obtain ⟨hsome, hname⟩ := Option.filter_eq_some_iff.mp hfound
    exact hplain found hsome (by simpa using hname)

/-- Discriminators that map nothing for a property are hidden by what decides it already, or leave
it as it is. -/
theorem selector_follow_or (h : context'.selector name = context.selector name)
    {discriminator discriminator' : Option Discriminator} (hplain : Plain name discriminator)
    (hplain' : Plain name discriminator') (step : String) :
    (context'.follow discriminator' step).selector name =
        (context.follow discriminator step).selector name ∨
      (context.follow discriminator step).Leaves name ∧
        (context'.follow discriminator' step).Leaves name := by
  cases hselector : context.selector name with
  | some selector =>
      rw [hselector] at h
      exact .inl (by simp [selector_follow, hselector, h])
  | none =>
      rw [hselector] at h
      have hleaves : context.Leaves name := by simp [Leaves, hselector]
      have hleaves' : context'.Leaves name := by simp [Leaves, h]
      exact .inr ⟨hleaves.follow hplain step, hleaves'.follow hplain' step⟩

end Context

namespace Document

/-! ## Documents -/

/-- A schema encloses another with a mapping for the property: members and variants lead there. -/
def Encloses (doc : Document) (outer : SchemaId) (property : String) : Prop :=
  ∃ inner selector, TransGen doc.Passes outer inner ∧
    (doc.schema inner).discriminator = some selector ∧ selector.property = property ∧
    selector.mapping ≠ none

theorem plain_of_not_encloses {doc : Document} {outer inner : SchemaId} {property : String}
    (h : ¬ doc.Encloses outer property) (hwalk : TransGen doc.Passes outer inner) :
    Context.Plain property (doc.schema inner).discriminator :=
  fun selector hsome hproperty => Classical.byContradiction fun hmapping =>
    h ⟨inner, selector, hwalk, hsome, hproperty, hmapping⟩

/-- If a schema has a discriminator then it is one of this property, and it maps nothing. -/
def Untagged (doc : Document) (property : String) (id : SchemaId) : Prop :=
  ∀ selector, (doc.schema id).discriminator = some selector →
    selector.property = property ∧ selector.mapping = none

section Untagged

variable {doc : Document} {property : String} {id : SchemaId}

theorem Untagged.plain (h : doc.Untagged property id) (name : String) :
    Context.Plain name (doc.schema id).discriminator :=
  fun selector hsome _ => (h selector hsome).2

/-- Other properties are of no concern. -/
theorem Untagged.filter_eq_none (h : doc.Untagged property id) {name : String}
    (hne : name ≠ property) : (doc.schema id).discriminator.filter (·.property == name) = none := by
  rw [Option.filter_eq_none_iff]
  intro selector hsome
  simpa [(h selector hsome).1] using hne.symm

theorem Untagged.mapping (h : doc.Untagged property id) : (doc.schema id).mapping = [] := by
  cases hsome : (doc.schema id).discriminator with
  | none => simp [Schema.mapping, hsome]
  | some selector => simp [Schema.mapping, hsome, (h selector hsome).2]

end Untagged

/-- Two documents are the same but for the discriminator of one schema, which maps nothing. -/
structure Retagged (property : String) (changed : SchemaId) (doc doc' : Document) : Prop where
  named : doc'.named = doc.named
  schema : ∀ id, doc'.schema id =
    { doc.schema id with discriminator := (doc'.schema id).discriminator }
  discriminator : ∀ id, id ≠ changed →
    (doc'.schema id).discriminator = (doc.schema id).discriminator
  before : doc.Untagged property changed
  after : doc'.Untagged property changed

namespace Retagged

variable {property : String} {changed : SchemaId} {doc doc' : Document}
variable (h : doc.Retagged property changed doc')
include h

theorem symm : doc'.Retagged property changed doc where
  named := h.named.symm
  schema := fun id => by rw [h.schema id]
  discriminator := fun id hne => (h.discriminator id hne).symm
  before := h.after
  after := h.before

/-- What is read off a schema without its discriminator is the same in both documents. -/
theorem same {α : Type} (read : Schema → α)
    (hread : ∀ schema discriminator, read { schema with discriminator } = read schema)
    (id : SchemaId) : read (doc'.schema id) = read (doc.schema id) := by
  rw [h.schema id, hread]

theorem type (id : SchemaId) : (doc'.schema id).type = (doc.schema id).type :=
  h.same (·.type) (fun _ _ => rfl) id

theorem items (id : SchemaId) : (doc'.schema id).items = (doc.schema id).items :=
  h.same (·.items) (fun _ _ => rfl) id

theorem properties (id : SchemaId) : (doc'.schema id).properties = (doc.schema id).properties :=
  h.same (·.properties) (fun _ _ => rfl) id

theorem combination (id : SchemaId) :
    (doc'.schema id).combination = (doc.schema id).combination :=
  h.same (·.combination) (fun _ _ => rfl) id

theorem allOf (id : SchemaId) : (doc'.schema id).allOf = (doc.schema id).allOf :=
  h.same (·.allOf) (fun _ _ => rfl) id

theorem alternatives (id : SchemaId) :
    (doc'.schema id).alternatives = (doc.schema id).alternatives :=
  h.same (·.alternatives) (fun _ _ => rfl) id

theorem isAnchor (id : SchemaId) : (doc'.schema id).isAnchor = (doc.schema id).isAnchor :=
  h.same (·.isAnchor) (fun _ _ => rfl) id

theorem label (id : SchemaId) : (doc'.schema id).label = (doc.schema id).label :=
  h.same (·.label) (fun _ _ => rfl) id

theorem resolve (target : String) : doc'.resolve target = doc.resolve target := by
  rw [Document.resolve, Document.resolve, lookup, lookup, h.named]

theorem mapping (id : SchemaId) : (doc'.schema id).mapping = (doc.schema id).mapping := by
  by_cases hid : id = changed
  · rw [hid, h.before.mapping, h.after.mapping]
  · rw [Schema.mapping, Schema.mapping, h.discriminator id hid]

/-! ## Walks -/

theorem isModel {id : SchemaId} (hmodel : doc.IsModel id) : doc'.IsModel id where
  type := h.type id ▸ hmodel.type
  anchor := (h.isAnchor id).trans hmodel.anchor

theorem isModel_iff (id : SchemaId) : doc'.IsModel id ↔ doc.IsModel id :=
  ⟨h.symm.isModel, h.isModel⟩

theorem isObject {id : SchemaId} (hobject : doc.IsObject id) : doc'.IsObject id :=
  ⟨h.isModel hobject.model, (h.alternatives id).trans hobject.alternatives⟩

theorem includes {owner member : SchemaId} (hincludes : doc.Includes owner member) :
    doc'.Includes owner member := by
  obtain ⟨edge, hmem, rfl⟩ := hincludes
  exact ⟨edge, h.allOf owner ▸ hmem, rfl⟩

theorem includes_walk {owner part : SchemaId} (hwalk : ReflTransGen doc.Includes owner part) :
    ReflTransGen doc'.Includes owner part :=
  ReflTransGen.mono (fun _ _ => h.includes) _ _ hwalk

theorem holds {owner : SchemaId} {name : String} {edge : Edge}
    (hholds : doc.Holds owner name edge) : doc'.Holds owner name edge := by
  obtain ⟨part, hwalk, hmem⟩ := hholds
  exact ⟨part, h.includes_walk hwalk, h.properties part ▸ hmem⟩

theorem passes {first second : SchemaId} (hpasses : doc.Passes first second) :
    doc'.Passes first second := by
  cases hpasses with
  | alternative hmodel hmem => exact .alternative (h.isModel hmodel) (h.alternatives first ▸ hmem)
  | variant hanchor hentry hresolve =>
      exact .variant ((h.isAnchor first).trans hanchor) (h.mapping first ▸ hentry)
        ((h.resolve _).trans hresolve)

theorem passes_walk {first last : SchemaId} (hwalk : TransGen doc.Passes first last) :
    TransGen doc'.Passes first last :=
  TransGen.mono (fun _ _ => h.passes) _ _ hwalk

theorem below {first second : SchemaId} (hbelow : doc.Below first second) :
    doc'.Below first second := by
  cases hbelow with
  | field hmem => exact .field (h.properties first ▸ hmem)
  | item hitems => exact .item ((h.items first).trans hitems)

theorem leads {first second : SchemaId} (hleads : doc.Leads first second) :
    doc'.Leads first second := by
  rcases hleads with hbelow | hbeside
  · exact .inl (h.below hbelow)
  · cases hbeside with
    | member hmem => exact .inr (.member (h.allOf first ▸ hmem))
    | alternative hmem => exact .inr (.alternative (h.alternatives first ▸ hmem))
    | variant hentry hresolve =>
        exact .inr (.variant (h.mapping first ▸ hentry) ((h.resolve _).trans hresolve))

theorem descends {first last : SchemaId} (hdown : doc.Descends first last) :
    doc'.Descends first last := by
  obtain ⟨owner, child, hfirst, hbelow, hlast⟩ := hdown
  have hwalk {first last : SchemaId} (hreaches : doc.Reaches first last) :
      doc'.Reaches first last := ReflTransGen.mono (fun _ _ => h.leads) _ _ hreaches
  exact ⟨owner, child, hwalk hfirst, h.below hbelow, hwalk hlast⟩

theorem mergeable {id : SchemaId} (hmergeable : doc.Mergeable id) : doc'.Mergeable id := by
  unfold Mergeable at *
  rwa [h.allOf, h.combination, h.type]

theorem noUnionLoop (hloops : doc.NoUnionLoop) : doc'.NoUnionLoop :=
  fun id hloop => hloops id (h.symm.passes_walk hloop)

theorem mergesApart (hapart : doc.MergesApart) : doc'.MergesApart :=
  fun owner member hincludes hne hdown => hapart owner member (h.symm.includes hincludes)
    (h.allOf member ▸ hne) (h.symm.descends hdown)

/-- What is enclosed with a mapping is not the schema that changes. -/
theorem encloses (hencloses : doc.Encloses changed property) : doc'.Encloses changed property := by
  obtain ⟨inner, selector, hwalk, hsome, hproperty, hmapping⟩ := hencloses
  refine ⟨inner, selector, h.passes_walk hwalk, ?_, hproperty, hmapping⟩
  rw [h.discriminator inner, hsome]
  rintro rfl
  exact hmapping (h.before selector hsome).2

theorem not_encloses (hclear : ¬ doc.Encloses changed property) :
    ¬ doc'.Encloses changed property := fun hencloses => hclear (h.symm.encloses hencloses)

end Retagged

/-! ## Contexts along walks -/

/-- The contexts of one walk in two documents: they have the same discriminators, except that
behind the schema that changes both may leave the property as it is. -/
structure Parallel (doc : Document) (property : String) (changed id : SchemaId)
    (context context' : Context) : Prop where
  path : context'.path = context.path
  selector : ∀ name, context'.selector name = context.selector name ∨
    (name = property ∧ TransGen doc.Passes changed id ∧ context.Leaves name ∧ context'.Leaves name)

namespace Parallel

variable {property : String} {changed id child : SchemaId} {doc doc' : Document}
variable {context context' : Context}

theorem refl (context : Context) : doc.Parallel property changed id context context :=
  ⟨rfl, fun _ => .inl rfl⟩

theorem narrow (h : doc.Parallel property changed id context context') (name : String) :
    context'.narrow name = context.narrow name := by
  rcases h.selector name with hsame | ⟨-, -, hleaves, hleaves'⟩
  · exact Context.narrow_congr h.path hsame
  · rw [hleaves.narrow, hleaves'.narrow]

theorem alike (h : doc.Parallel property changed id context context') (name : String) :
    context.Alike context' name := fun answer => by rw [h.narrow name]

theorem symm (hdocs : doc.Retagged property changed doc')
    (h : doc.Parallel property changed id context context') :
    doc'.Parallel property changed id context' context where
  path := h.path.symm
  selector := fun name => (h.selector name).imp Eq.symm
    fun ⟨hname, hwalk, hleaves, hleaves'⟩ =>
      ⟨hname, hdocs.passes_walk hwalk, hleaves', hleaves⟩

/-- The discriminators that two walks add at a schema are the same or hide nothing. -/
theorem follow (hdocs : doc.Retagged property changed doc')
    (hclear : ¬ doc.Encloses changed property)
    (h : doc.Parallel property changed id context context') (hstep : doc.Passes id child)
    (step : String) : doc.Parallel property changed child
      (context.follow (doc.schema id).discriminator step)
      (context'.follow (doc'.schema id).discriminator step) where
  path := by simp [Context.follow, h.path]
  selector := by
    intro name
    rcases h.selector name with hsame | ⟨rfl, hwalk, hleaves, hleaves'⟩
    · by_cases hid : id = changed
      · subst hid
        by_cases hname : name = property
        · subst hname
          have hplain := hdocs.before.plain name
          have hplain' := hdocs.after.plain name
          exact (Context.selector_follow_or hsame hplain hplain' step).imp_right
            fun hleaves => ⟨rfl, .single hstep, hleaves⟩
        · refine .inl ?_
          rw [Context.selector_follow, Context.selector_follow, hsame,
            hdocs.before.filter_eq_none hname, hdocs.after.filter_eq_none hname]
      · refine .inl ?_
        rw [Context.selector_follow, Context.selector_follow, hsame, hdocs.discriminator id hid]
    · -- Behind the schema that changes no mapping is added.
      have hplain := plain_of_not_encloses hclear hwalk
      have hplain' := plain_of_not_encloses (hdocs.not_encloses hclear) (hdocs.passes_walk hwalk)
      exact .inr ⟨rfl, hwalk.tail hstep, hleaves.follow hplain step, hleaves'.follow hplain' step⟩

end Parallel

/-! ## Requests -/

namespace Retagged

variable {property : String} {changed : SchemaId} {doc doc' : Document}
variable (h : doc.Retagged property changed doc') (hclear : ¬ doc.Encloses changed property)
include h hclear

/-- What is needed in one document is needed in the other, in a parallel context. -/
theorem needs {context context' inner : Context} {owner child : SchemaId}
    (hparallel : doc.Parallel property changed owner context context')
    (hneeds : doc.Needs context owner inner child) :
    ∃ inner', doc'.Needs context' owner inner' child ∧
      doc.Parallel property changed child inner inner' := by
  cases hneeds with
  | item htype hitems =>
      exact ⟨_, .item ((h.type owner).trans htype) ((h.items owner).trans hitems), .refl {}⟩
  | field hobject hholds hnarrow =>
      exact ⟨_, .field (h.isObject hobject) (h.holds hholds) ((hparallel.narrow _).trans hnarrow),
        .refl {}⟩
  | @alternative edge hmodel hmem =>
      have hstep : memberStep doc' edge = memberStep doc edge := by
        rw [memberStep, memberStep, h.label]
      refine ⟨_, .alternative (h.isModel hmodel) (h.alternatives owner ▸ hmem), ?_⟩
      rw [hstep]
      exact hparallel.follow h hclear (.alternative hmodel hmem) _
  | variant hanchor hentry hresolve =>
      refine ⟨_, .variant ((h.isAnchor owner).trans hanchor) (h.mapping owner ▸ hentry)
        ((h.resolve _).trans hresolve), ?_⟩
      exact hparallel.follow h hclear (.variant hanchor hentry hresolve) _

/-- The same is asked for where the same is asked for first, and no more is known before. -/
theorem asks {start known start' known' : SchemaId → Prop} (hstart : ∀ id, start id → start' id)
    (hknown : ∀ id, known' id → known id) {context : Context} {id : SchemaId}
    (hasks : doc.Asks start known context id) :
    ∃ context', doc'.Asks start' known' context' id ∧
      doc.Parallel property changed id context context' := by
  induction hasks with
  | start hid => exact ⟨{}, .start (hstart _ hid), .refl {}⟩
  | step _ hnew hneeds ih =>
      obtain ⟨context', hasks', hparallel⟩ := ih
      obtain ⟨inner', hneeds', hinner⟩ := h.needs hclear hparallel hneeds
      exact ⟨inner', .step hasks' (fun hmodel hid => hnew (h.symm.isModel hmodel) (hknown _ hid))
        hneeds', hinner⟩

end Retagged

/-! ## Both passes -/

/-- Both documents ask for the same, and what may be built in one may be built in the other in a
context that narrows its properties alike. -/
structure AsksAlike (doc doc' : Document) : Prop where
  asked : ∀ id, doc'.Asked id ↔ doc.Asked id
  builds : ∀ {context id}, doc.Builds context id → ∃ context', doc'.Builds context' id ∧
    ∀ name edge, doc.IsObject id → doc.Holds id name edge → context.Alike context' name
  builds_back : ∀ {context' id}, doc'.Builds context' id → ∃ context, doc.Builds context id ∧
    ∀ name edge, doc.IsObject id → doc.Holds id name edge → context.Alike context' name

namespace Retagged

variable {property : String} {changed : SchemaId} {doc doc' : Document}
variable (h : doc.Retagged property changed doc') (hclear : ¬ doc.Encloses changed property)
variable (hnone : (doc'.schema changed).discriminator = none)
variable {context context' : Context} {id child : SchemaId}
include h hclear

theorem needs_back {inner' : Context}
    (hparallel : doc.Parallel property changed id context context')
    (hneeds : doc'.Needs context' id inner' child) :
    ∃ inner, doc.Needs context id inner child ∧
      doc.Parallel property changed child inner inner' := by
  obtain ⟨inner, hneeds', hinner⟩ :=
    h.symm.needs (h.not_encloses hclear) (hparallel.symm h) hneeds
  exact ⟨inner, hneeds', hinner.symm h.symm⟩

theorem asks_back {start known start' known' : SchemaId → Prop}
    (hstart : ∀ id, start' id → start id) (hknown : ∀ id, known id → known' id)
    (hasks : doc'.Asks start' known' context' id) :
    ∃ context, doc.Asks start known context id ∧
      doc.Parallel property changed id context context' := by
  obtain ⟨context, hasks', hparallel⟩ :=
    h.symm.asks (h.not_encloses hclear) hstart hknown hasks
  exact ⟨context, hasks', hparallel.symm h.symm⟩

section First

include hnone

/-- Without the discriminator no more is asked for first. -/
theorem asksFirst_back (hasks : doc'.AsksFirst context' id) :
    ∃ context, doc.AsksFirst context id ∧ doc.Parallel property changed id context context' := by
  refine h.asks_back hclear ?_ (fun _ hid => hid) hasks
  rintro id ⟨name, hmem, hsome⟩
  refine ⟨name, h.named ▸ hmem, ?_⟩
  rwa [← h.discriminator id]
  rintro rfl
  simp [hnone] at hsome

theorem isFirst_back (hfirst : doc'.IsFirst id) : doc.IsFirst id := by
  obtain ⟨context', hasks⟩ := hfirst
  obtain ⟨context, hasks', -⟩ := h.asksFirst_back hclear hnone hasks
  exact ⟨context, hasks'⟩

theorem asksLater (hasks : doc.AsksLater context id) :
    ∃ context', doc'.AsksLater context' id ∧
      doc.Parallel property changed id context context' :=
  h.asks hclear (fun _ hid => h.named ▸ hid) (fun _ => h.isFirst_back hclear hnone) hasks

variable (hsteady : doc.Steady)
include hsteady

/-- What is still asked for first is asked for in contexts like all those before. -/
theorem alike_of_asksFirst (hbuilds : doc.Builds context id) (hasks : doc'.AsksFirst context' id)
    {name : String} {edge : Edge} (hobject : doc.IsObject id) (hholds : doc.Holds id name edge) :
    context.Alike context' name := by
  obtain ⟨other, hother, hparallel⟩ := h.asksFirst_back hclear hnone hasks
  exact fun answer =>
    (hsteady context other id name edge hobject hbuilds (.inl hother) hholds answer).trans
      (hparallel.alike name answer)

/-- What a schema needs is asked for first if the schema still is. -/
theorem isFirst_of_needs (hfirst : doc'.IsFirst id) (hasks : doc.AsksFirst context id)
    {inner : Context} (hneeds : doc.Needs context id inner child) : doc'.IsFirst child := by
  obtain ⟨other', hother'⟩ := hfirst
  obtain ⟨_, hneeds⟩ := hneeds.of_alike fun _ _ =>
    h.alike_of_asksFirst hclear hnone hsteady (.inl hasks) hother'
  obtain ⟨inner', hneeds', -⟩ := h.needs hclear (.refl other') hneeds
  exact ⟨inner', .step hother' (fun _ hid => hid) hneeds'⟩

/-- What was asked for first is asked for later unless it still is asked for first. -/
theorem isFirst_or_asksLater (hasks : doc.AsksFirst context id) :
    doc'.IsFirst id ∨ ∃ context', doc'.AsksLater context' id ∧
      doc.Parallel property changed id context context' := by
  induction hasks with
  | start hid =>
      obtain ⟨name, hmem, -⟩ := hid
      exact .inr ⟨{}, .start ⟨name, h.named ▸ hmem⟩, .refl {}⟩
  | @step context inner owner child hasks hnew hneeds ih =>
      by_cases hfirst : doc'.IsFirst owner
      · exact .inl (h.isFirst_of_needs hclear hnone hsteady hfirst hasks hneeds)
      · obtain ⟨context', hasks', hparallel⟩ := ih.resolve_left hfirst
        obtain ⟨inner', hneeds', hinner⟩ := h.needs hclear hparallel hneeds
        exact .inr ⟨inner', .step hasks' (fun _ => hfirst) hneeds', hinner⟩

variable (hsteady' : doc'.Steady)
include hsteady'

/-- What was asked for first and is built later now is built in contexts like those before. -/
theorem alike_of_asksLater (hfirst : doc.AsksFirst context id) (hasks : doc'.AsksLater context' id)
    (hnew : ¬ doc'.IsFirst id) {name : String} {edge : Edge} (hobject : doc.IsObject id)
    (hholds : doc.Holds id name edge) : context.Alike context' name := by
  obtain ⟨other', hother', hparallel⟩ :=
    (h.isFirst_or_asksLater hclear hnone hsteady hfirst).resolve_left hnew
  exact fun answer => (hparallel.alike name answer).trans
    (hsteady' other' context' id name edge (h.isObject hobject) (.inr ⟨hother', hnew⟩)
      (.inr ⟨hasks, hnew⟩) (h.holds hholds) answer)

/-- What is asked for later was asked for first, or is asked for later with the discriminator. -/
theorem isFirst_or_asksLater_back (hasks : doc'.AsksLater context' id) :
    doc.IsFirst id ∨ ∃ context, doc.AsksLater context id ∧
      doc.Parallel property changed id context context' := by
  induction hasks with
  | start hid => exact .inr ⟨{}, .start (h.named ▸ hid), .refl {}⟩
  | @step context' inner' owner child hasks hnew hneeds ih =>
      by_cases hfirst : doc.IsFirst owner
      · obtain ⟨context, hfirst⟩ := hfirst
        have halike (name : String) (edge : Edge) (hobject : doc'.IsObject owner)
            (hholds : doc'.Holds owner name edge) (answer : Option String) :=
          (h.alike_of_asksLater hclear hnone hsteady hsteady' hfirst hasks (hnew hobject.model)
            (h.symm.isObject hobject) (h.symm.holds hholds) answer).symm
        obtain ⟨_, hneeds⟩ := hneeds.of_alike halike
        obtain ⟨inner, hneeds, -⟩ := h.needs_back hclear (.refl context) hneeds
        exact .inl ⟨inner, .step hfirst (fun _ hid => hid) hneeds⟩
      · obtain ⟨context, hasks', hparallel⟩ := ih.resolve_left hfirst
        obtain ⟨inner, hneeds', hinner⟩ := h.needs_back hclear hparallel hneeds
        exact .inr ⟨inner, .step hasks' (fun _ => hfirst) hneeds', hinner⟩

/-- Whichever pass builds a model, its properties are narrowed alike. -/
theorem asksAlike : doc.AsksAlike doc' where
  asked := by
    intro id
    constructor
    · rintro ⟨context', hfirst | hlater⟩
      · obtain ⟨context, hasks, -⟩ := h.asksFirst_back hclear hnone hfirst
        exact ⟨context, .inl hasks⟩
      · obtain ⟨context, hasks⟩ | ⟨context, hasks, -⟩ :=
          h.isFirst_or_asksLater_back hclear hnone hsteady hsteady' hlater
        · exact ⟨context, .inl hasks⟩
        · exact ⟨context, .inr hasks⟩
    · rintro ⟨context, hfirst | hlater⟩
      · obtain ⟨context', hasks⟩ | ⟨context', hasks, -⟩ :=
          h.isFirst_or_asksLater hclear hnone hsteady hfirst
        · exact ⟨context', .inl hasks⟩
        · exact ⟨context', .inr hasks⟩
      · obtain ⟨context', hasks, -⟩ := h.asksLater hclear hnone hlater
        exact ⟨context', .inr hasks⟩
  builds := by
    intro context id hbuilds
    by_cases hfirst' : doc'.IsFirst id
    · obtain ⟨context', hasks'⟩ := hfirst'
      exact ⟨context', .inl hasks', fun _ _ =>
        h.alike_of_asksFirst hclear hnone hsteady hbuilds hasks'⟩
    · obtain ⟨context', hasks', hparallel⟩ : ∃ context', doc'.AsksLater context' id ∧
          doc.Parallel property changed id context context' := by
        rcases hbuilds with hasks | ⟨hasks, -⟩
        · exact (h.isFirst_or_asksLater hclear hnone hsteady hasks).resolve_left hfirst'
        · exact h.asksLater hclear hnone hasks
      exact ⟨context', .inr ⟨hasks', hfirst'⟩, fun name _ _ _ => hparallel.alike name⟩
  builds_back := by
    rintro context' id (hasks' | ⟨hasks', hnew⟩)
    · obtain ⟨context, hasks, hparallel⟩ := h.asksFirst_back hclear hnone hasks'
      exact ⟨context, .inl hasks, fun name _ _ _ => hparallel.alike name⟩
    · by_cases hfirst : doc.IsFirst id
      · obtain ⟨context, hfirst⟩ := hfirst
        exact ⟨context, .inl hfirst, fun _ _ =>
          h.alike_of_asksLater hclear hnone hsteady hsteady' hfirst hasks' hnew⟩
      · obtain ⟨context, hasks, hparallel⟩ :=
          (h.isFirst_or_asksLater_back hclear hnone hsteady hsteady' hasks').resolve_left hfirst
        exact ⟨context, .inr ⟨hasks, hfirst⟩, fun name _ _ _ => hparallel.alike name⟩

end First
end Retagged

end Document
end OpenApi
