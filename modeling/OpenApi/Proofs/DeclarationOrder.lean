-- SUMMARY: Compiling a steady document gives the same models in whichever order schemas are named.
import Mathlib
import OpenApi.Proofs.AllOfCycle
import OpenApi.Proofs.Compilation.Complete
import OpenApi.Proofs.Model.Reordering
import OpenApi.Proofs.Schema.Loaded

/-!
# Declaration order

The models that a document asks for and what they look like are said without the order in
which they are built, so two complete model sets of one document in two orders are the same
but for their indices. Whether a steady document compiles is said without the order too, as
long as no merged schema leads back to itself below and no union comes back to itself
through members: a compilation sees such loops from some starting points and not from others.
-/

namespace OpenApi

/-! ## Sets with other indices -/

/-- A model set is another with its schemas and models renumbered. -/
structure ModelSet.Renumbered (σ : Equiv.Perm SchemaId) (ρ : Equiv.Perm ModelId)
    (set set' : ModelSet) : Prop where
  size : set'.models.size = set.models.size
  models : ∀ m < set.models.size, set'.model (ρ m) = (set.model m).rename σ ρ
  forSchema : ∀ id, set'.forSchema (σ id) = (set.forSchema id).map ρ
  anchors : ∀ id, set'.anchor (σ id) = (set.anchor id).map (·.rename ρ)
  roots : ∀ name, set'.roots.get? name =
    (set.roots.get? name).map fun type => type.map (·.rename σ ρ)

namespace ModelSet

variable {σ : Equiv.Perm SchemaId} {doc doc' : Document} {set set' : ModelSet}

/-- The index that the model of a schema has in another set. -/
def renumber (set set' : ModelSet) (σ : Equiv.Perm SchemaId) (m : ModelId) : ModelId :=
  if m < set.models.size then (set'.forSchema (σ (set.model m).schema)).getD 0 else m

section Indices

variable (h : doc.Reorders σ doc') (hnames : doc.named.keys.Nodup)
variable (hset : set.Complete doc) (hset' : set'.Complete doc')
include h hnames hset hset'

/-- A model of one set is one of the other. -/
theorem forSchema_renumber {m : ModelId} (hlt : m < set.models.size) :
    set'.forSchema (σ (set.model m).schema) = some (set.renumber set' σ m) := by
  obtain ⟨hmodel, hasked⟩ := (hset.forSchema_iff _).mp ⟨m, hset.forSchema_schema hlt⟩
  obtain ⟨m', hm'⟩ := (hset'.forSchema_iff _).mpr
    ⟨(h.renames hnames).isModel hmodel, h.asked hnames hasked⟩
  rw [renumber, if_pos hlt, hm']
  rfl

theorem renumber_lt {m : ModelId} (hlt : m < set.models.size) :
    set.renumber set' σ m < set'.models.size :=
  (hset'.schema (forSchema_renumber h hnames hset hset' hlt)).1

theorem renumber_renumber {m : ModelId} (hlt : m < set.models.size) :
    set'.renumber set σ.symm (set.renumber set' σ m) = m := by
  have hm' := forSchema_renumber h hnames hset hset' hlt
  obtain ⟨hlt', hschema⟩ := hset'.schema hm'
  rw [renumber, if_pos hlt', hschema, Equiv.symm_apply_apply, hset.forSchema_schema hlt]
  rfl

theorem size_le : set.models.size ≤ set'.models.size := by
  have hcard := Finset.card_le_card_of_injOn (s := Finset.range set.models.size)
    (t := Finset.range set'.models.size) (set.renumber set' σ)
    (fun m hmem => by
      simpa using renumber_lt h hnames hset hset' (by simpa using hmem))
    fun m hmem other hother heq => by
      have hback := renumber_renumber h hnames hset hset' (m := m) (by simpa using hmem)
      rw [heq, renumber_renumber h hnames hset hset' (by simpa using hother)] at hback
      exact hback.symm
  simpa using hcard

theorem size_eq : set'.models.size = set.models.size :=
  Nat.le_antisymm (size_le h.symm (h.names hnames) hset' hset) (size_le h hnames hset hset')

/-- The other indices are a permutation of the indices. -/
theorem renumber_leftInverse (m : ModelId) :
    set'.renumber set σ.symm (set.renumber set' σ m) = m := by
  by_cases hlt : m < set.models.size
  · exact renumber_renumber h hnames hset hset' hlt
  · have hsame : set.renumber set' σ m = m := if_neg hlt
    rw [hsame]
    exact if_neg (size_eq h hnames hset hset' ▸ hlt)

end Indices

/-! ## What the indices stand for -/

section Parts

variable {ρ : Equiv.Perm ModelId} (h : doc.Reorders σ doc') (hnames : doc.named.keys.Nodup)
variable (hset : set.Complete doc) (hset' : set'.Complete doc')
variable (htables : ModelTable.Renames σ ρ set.forSchema set'.forSchema)
include h hnames hset hset' htables

theorem Complete.shape_eq (hsteady : doc.Steady) {m : ModelId} (hlt : m < set.models.size) :
    (set'.model (ρ m)).shape = (set.model m).shape.rename σ ρ := by
  have hm := hset.forSchema_schema hlt
  obtain ⟨hlt', hschema⟩ := hset'.schema (htables _ m hm)
  obtain ⟨context, hbuilds, hdepicts⟩ := hset.shape hlt
  obtain ⟨context', hbuilds', hdepicts'⟩ := hset'.shape hlt'
  rw [hschema] at hbuilds' hdepicts'
  -- The renamed schema may be built in the context of the first model as well.
  refine (hdepicts'.of_alike ?_ fun name edge hobject hholds => ?_).unique
    (hdepicts.rename (h.renames hnames) htables)
  · exact (h.renames hnames).isModel ((hset.forSchema_iff _).mp ⟨m, hm⟩).1
  · exact h.steady hnames hsteady context' context _ name edge hobject hbuilds'
      (h.builds hnames hbuilds) hholds

theorem Complete.model_eq (hidentified : doc.Identified) (hsteady : doc.Steady) {m : ModelId}
    (hlt : m < set.models.size) : set'.model (ρ m) = (set.model m).rename σ ρ := by
  have hm := hset.forSchema_schema hlt
  obtain ⟨hlt', hschema⟩ := hset'.schema (htables _ m hm)
  obtain ⟨hmodel, -⟩ := (hset.forSchema_iff _).mp ⟨m, hm⟩
  obtain ⟨name, hname⟩ : ∃ name, (doc.schema (set.model m).schema).title.or
      (doc.schema (set.model m).schema).identity = some name := by
    rw [← Option.isSome_iff_exists, Option.isSome_or, hidentified _ hmodel.anchor, Bool.or_true]
  have hname' : (set'.model (ρ m)).name = name := by
    refine hset'.name hlt' name ?_
    rw [hschema, h.schema]
    exact hname
  calc set'.model (ρ m)
      = ⟨(set'.model (ρ m)).name, (set'.model (ρ m)).schema, (set'.model (ρ m)).shape⟩ := rfl
    _ = (set.model m).rename σ ρ := by
      rw [hname', hschema, hset.shape_eq h hnames hset' htables hsteady hlt, Model.rename,
        hset.name hlt name hname]

theorem Complete.forSchema_eq (id : SchemaId) :
    set'.forSchema (σ id) = (set.forSchema id).map ρ := by
  cases hm : set.forSchema id with
  | some m => exact htables id m hm
  | none =>
      cases hm' : set'.forSchema (σ id) with
      | none => rfl
      | some m' =>
          obtain ⟨hmodel, hasked⟩ := (hset'.forSchema_iff _).mp ⟨m', hm'⟩
          have hback := h.symm.asked (h.names hnames) hasked
          rw [Equiv.symm_apply_apply] at hback
          obtain ⟨m, hsome⟩ := (hset.forSchema_iff id).mpr
            ⟨((h.renames hnames).isModel_iff id).mp hmodel, hback⟩
          cases hm.symm.trans hsome

theorem Complete.anchor_eq (id : SchemaId) :
    set'.anchor (σ id) = (set.anchor id).map (·.rename ρ) := by
  have hiff : (∃ anchor, set'.anchor (σ id) = some anchor) ↔
      ∃ anchor, set.anchor id = some anchor := by
    rw [hset.anchor_iff, hset'.anchor_iff, (h.renames hnames).isAnchor]
    refine and_congr_right fun _ => ⟨fun hasked => ?_, h.asked hnames⟩
    have hback := h.symm.asked (h.names hnames) hasked
    rwa [Equiv.symm_apply_apply] at hback
  cases hanchor : set.anchor id with
  | none =>
      cases hanchor' : set'.anchor (σ id) with
      | none => rfl
      | some anchor' =>
          obtain ⟨anchor, hsome⟩ := hiff.mp ⟨anchor', hanchor'⟩
          cases hanchor.symm.trans hsome
  | some anchor =>
      obtain ⟨anchor', hanchor'⟩ := hiff.mpr ⟨anchor, hanchor⟩
      obtain ⟨hname, hvariants⟩ := hset.anchor hanchor
      obtain ⟨hname', hvariants'⟩ := hset'.anchor hanchor'
      have hrenamed := hvariants.rename (h.renames hnames) htables ρ.injective
      rw [h.schema, Schema.label_rename] at hname'
      rw [hanchor', Option.map_some]
      congr 1
      calc anchor' = ⟨anchor'.name, anchor'.variants⟩ := rfl
        _ = anchor.rename ρ := by rw [hname', ← hname, hvariants'.unique hrenamed]; rfl

theorem Complete.root_eq (name : String) : set'.roots.get? name =
    (set.roots.get? name).map fun type => type.map (·.rename σ ρ) := by
  have hlookup : List.lookup name doc'.named = (List.lookup name doc.named).map σ :=
    h.lookup hnames name
  have hroot := Document.roots_rel hset.roots name
  have hroot' := Document.roots_rel hset'.roots name
  rw [hlookup] at hroot'
  generalize List.lookup name doc.named = found at hroot hroot'
  generalize set.roots.get? name = root at hroot ⊢
  generalize set'.roots.get? name = root' at hroot' ⊢
  cases hroot with
  | none =>
      cases hroot'
      rfl
  | some htype =>
      cases hroot' with
      | some htype' => exact congrArg some (htype'.unique (htype.rename (h.renames hnames) htables))

end Parts

/-- Complete sets of a steady document in two orders are the same but for their indices. -/
theorem Complete.renumbered (h : doc.Reorders σ doc') (hnames : doc.named.keys.Nodup)
    (hidentified : doc.Identified) (hsteady : doc.Steady) (hset : set.Complete doc)
    (hset' : set'.Complete doc') : ∃ ρ : Equiv.Perm ModelId, set.Renumbered σ ρ set' := by
  let ρ : Equiv.Perm ModelId :=
    { toFun := set.renumber set' σ
      invFun := set'.renumber set σ.symm
      left_inv := renumber_leftInverse h hnames hset hset'
      right_inv := renumber_leftInverse h.symm (h.names hnames) hset' hset }
  have htables : ModelTable.Renames σ ρ set.forSchema set'.forSchema := by
    intro id m hm
    obtain ⟨hlt, rfl⟩ := hset.schema hm
    exact forSchema_renumber h hnames hset hset' hlt
  exact ⟨ρ, size_eq h hnames hset hset',
    fun _ => hset.model_eq h hnames hset' htables hidentified hsteady,
    hset.forSchema_eq h hnames hset' htables, hset.anchor_eq h hnames hset' htables,
    hset.root_eq h hnames hset' htables⟩

end ModelSet

namespace Document

variable {doc : Document}

/-! ## Steady documents -/

theorem Asks.reached {start known : SchemaId → Prop} {context : Context} {id : SchemaId}
    (h : doc.Asks start known context id) : doc.Reached context id := by
  induction h with
  | start => exact .start _
  | step _ _ hneeds ih =>
      cases hneeds with
      | item | field => exact .start _
      | alternative _ hmem => exact .alternative ih hmem
      | variant _ hentry hresolve => exact .variant ih hentry hresolve

/-- Without discriminators nothing is narrowed, so all contexts are alike. -/
theorem Undiscriminated.steady (h : doc.Undiscriminated) : doc.Steady := by
  have hplain {context : Context} {id : SchemaId} (hbuilds : doc.Builds context id)
      (name : String) : context.narrow name = .ok none := by
    have hreached : doc.Reached context id :=
      hbuilds.elim Asks.reached fun hlater => hlater.1.reached
    simp [Context.narrow, hreached.discriminators_eq_nil h]
  intro context context' id name _ _ hbuilds hbuilds' _ answer
  rw [hplain hbuilds, hplain hbuilds']

/-! ## Compiling in another order -/

/-- Both documents compile, to the same models but for their indices, or neither does. -/
def CompilesAlike (σ : Equiv.Perm SchemaId) (doc doc' : Document) : Prop :=
  match doc.compile, doc'.compile with
  | .ok set, .ok set' => ∃ ρ : Equiv.Perm ModelId, set.Renumbered σ ρ set'
  | .error _, .error _ => True
  | .ok _, .error _ | .error _, .ok _ => False

variable (doc) in
/-- It does not matter in which order the schemas are named. -/
def OrderFree : Prop := ∀ σ doc', doc.Reorders σ doc' → doc.CompilesAlike σ doc'

/-- In whichever order the schemas of a steady document are named, the models that it compiles to
are the same but for their indices. That it compiles in one order and not in another only happens
where a merged schema leads back to itself below, or a union comes back to itself. -/
theorem compile_reorders (hloaded : doc.Loaded) (hsteady : doc.Steady) :
    (∀ σ doc', doc.Reorders σ doc' →
      (∀ set set', doc.compile = .ok set → doc'.compile = .ok set' →
        ∃ ρ : Equiv.Perm ModelId, set.Renumbered σ ρ set') ∧
      (∀ set stop, doc.compile = .ok set → doc'.compile = .error stop → doc'.Loops stop) ∧
      ∀ stop set', doc.compile = .error stop → doc'.compile = .ok set' → doc.Loops stop) ∧
    (doc.MergesApart → doc.NoUnionLoop → doc.OrderFree) := by
  have hnames := hloaded.distinctNames.named
  have hidentified := hloaded.identified
  have hall (σ : Equiv.Perm SchemaId) (doc' : Document) (h : doc.Reorders σ doc') :
      (∀ set set', doc.compile = .ok set → doc'.compile = .ok set' →
        ∃ ρ : Equiv.Perm ModelId, set.Renumbered σ ρ set') ∧
      (∀ set stop, doc.compile = .ok set → doc'.compile = .error stop → doc'.Loops stop) ∧
      ∀ stop set', doc.compile = .error stop → doc'.compile = .ok set' → doc.Loops stop := by
    have hnames' := h.names hnames
    have hsteady' := h.steady hnames hsteady
    refine ⟨fun set set' hset hset' => ?_, fun set stop hset hstop => ?_,
      fun stop set' hstop hset' => ?_⟩
    · exact (compile_complete hnames hsteady hset).2.renumbered h hnames hidentified hsteady
        (compile_complete hnames' hsteady' hset').2
    · have hsound := (compile_complete hnames hsteady hset).1
      exact loops_of_compile hnames' hsteady' (h.sound hnames hsound) hstop
    · have hsound' := (compile_complete hnames' hsteady' hset').1
      exact loops_of_compile hnames hsteady (h.symm.sound hnames' hsound') hstop
  refine ⟨hall, fun hapart hloops σ doc' h => ?_⟩
  obtain ⟨hsame, hrefused', hrefused⟩ := hall σ doc' h
  unfold CompilesAlike
  split
  · rename_i set set' hset hset'
    exact hsame set set' hset hset'
  · trivial
  · rename_i set stop hset hstop
    exact (hrefused' set stop hset hstop).not_apart
      ⟨h.mergesApart hnames hapart, h.noUnionLoop hnames hloops⟩
  · rename_i stop set' hstop hset'
    exact (hrefused stop set' hstop hset').not_apart ⟨hapart, hloops⟩

/-! ## Two orders of one document -/

/-- A document as a value, with these named schemas. -/
def namedValue (entries : List (String × Json)) : Json :=
  .obj [
    ("openapi", .str "3.0.3"),
    ("components", .obj [("schemas", .obj entries)])]

/-- Visits of owners. -/
def visitEntry : String × Json :=
  ("Visit", .obj [
    ("type", .str "object"),
    ("properties", .obj [("owner", .obj [("$ref", .str "#/components/schemas/Owner")])])])

/-- Owners, who have pets. -/
def ownerEntry : String × Json :=
  ("Owner", .obj [
    ("type", .str "object"),
    ("properties", .obj [("pets", .obj [
      ("type", .str "array"),
      ("items", .obj [("$ref", .str "#/components/schemas/Pet")])])])])

/-- Pets, told apart by their kind. -/
def petEntry : String × Json :=
  ("Pet", .obj [
    ("oneOf", .arr [.obj [("$ref", .str "#/components/schemas/Dog")]]),
    ("discriminator", .obj [
      ("propertyName", .str "kind"),
      ("mapping", .obj [("dog", .str "#/components/schemas/Dog")])])])

/-- Dogs, the only kind of pets. -/
def dogEntry : String × Json :=
  ("Dog", .obj [
    ("type", .str "object"),
    ("properties", .obj [("kind", .obj [("type", .str "string")])])])

/-- The discriminator of pets. -/
def petKind : Discriminator where
  property := "kind"
  mapping := some [("dog", "#/components/schemas/Dog")]

/-- The document with visits before owners. -/
def visits : Document where
  dialect := .openApi30
  schemas := #[
    { dialect := .openApi30, identity := some "Visit", type := some .object
      properties := [("owner", { id := 1, reference := some "#/components/schemas/Owner" })] },
    { dialect := .openApi30, identity := some "Owner", type := some .object
      properties := [("pets", { id := 4 })] },
    { dialect := .openApi30, identity := some "Pet", discriminator := some petKind
      oneOf := [{ id := 3, reference := some "#/components/schemas/Dog" }] },
    { dialect := .openApi30, identity := some "Dog", type := some .object
      properties := [("kind", { id := 5 })] },
    { dialect := .openApi30, identity := some "Owner.pets", type := some .array
      items := some { id := 2, reference := some "#/components/schemas/Pet" } },
    { dialect := .openApi30, identity := some "Dog.kind", type := some .string }]
  named := [("Visit", 0), ("Owner", 1), ("Pet", 2), ("Dog", 3)]

/-- The document with owners before visits. -/
def ownersFirst : Document where
  dialect := .openApi30
  schemas := #[
    { dialect := .openApi30, identity := some "Owner", type := some .object
      properties := [("pets", { id := 4 })] },
    { dialect := .openApi30, identity := some "Visit", type := some .object
      properties := [("owner", { id := 0, reference := some "#/components/schemas/Owner" })] },
    { dialect := .openApi30, identity := some "Pet", discriminator := some petKind
      oneOf := [{ id := 3, reference := some "#/components/schemas/Dog" }] },
    { dialect := .openApi30, identity := some "Dog", type := some .object
      properties := [("kind", { id := 5 })] },
    { dialect := .openApi30, identity := some "Owner.pets", type := some .array
      items := some { id := 2, reference := some "#/components/schemas/Pet" } },
    { dialect := .openApi30, identity := some "Dog.kind", type := some .string }]
  named := [("Owner", 0), ("Visit", 1), ("Pet", 2), ("Dog", 3)]

private theorem visits_reorders : visits.Reorders (Equiv.swap 0 1) ownersFirst where
  schema
    | 0 | 1 | 2 | 3 | 4 | 5 => rfl
    | id + 6 => by
        rw [Equiv.swap_apply_of_ne_of_ne (Nat.succ_ne_zero _) (by simp)]
        rfl
  named := .swap _ _ _

/-- Only pets have alternatives, and those are dogs. -/
private theorem visits_alternatives {id : SchemaId} {edge : Edge}
    (h : edge ∈ (visits.schema id).alternatives) :
    id = 2 ∧ edge = { id := 3, reference := some "#/components/schemas/Dog" } := by
  match id with
  | 2 => exact ⟨rfl, List.mem_singleton.mp h⟩
  | 0 | 1 | 3 | 4 | 5 | id + 6 => cases h

private theorem visits_includes {owner member : SchemaId} : ¬ visits.Includes owner member := by
  rintro ⟨edge, hmem, -⟩
  match owner with
  | 0 | 1 | 2 | 3 | 4 | 5 | owner + 6 => cases hmem

private theorem visits_mapping {id : SchemaId} (h : (visits.schema id).isAnchor = true) :
    (visits.schema id).mapping = [] := by
  match id with
  | 0 | 1 | 2 | 3 | 4 | 5 => cases h
  | id + 6 => rfl

/-- The way to dogs through pets. -/
private def dogWay : Context where
  path := ["#/components/schemas/Dog"]
  discriminators := [petKind]

/-- Hierarchies reach pets, and dogs through pets. -/
private theorem visits_asksFirst {context : Context} {id : SchemaId}
    (h : visits.AsksFirst context id) : id = 2 ∧ context = {} ∨ id = 3 ∧ context = dogWay := by
  induction h with
  | start hid =>
      obtain ⟨name, hmem, hsome⟩ := hid
      simp only [visits, List.mem_cons, Prod.mk.injEq, List.not_mem_nil, or_false] at hmem
      obtain ⟨-, rfl⟩ | ⟨-, rfl⟩ | ⟨-, rfl⟩ | ⟨-, rfl⟩ := hmem
      · cases hsome
      · cases hsome
      · exact .inl ⟨rfl, rfl⟩
      · cases hsome
  | step _ _ hneeds ih =>
      obtain ⟨rfl, rfl⟩ | ⟨rfl, rfl⟩ := ih
      · cases hneeds with
        | item htype => cases htype
        | field hobject => cases hobject.alternatives
        | alternative _ hmem =>
            obtain ⟨-, rfl⟩ := visits_alternatives hmem
            exact .inr ⟨rfl, rfl⟩
        | variant hanchor => cases hanchor
      · cases hneeds with
        | item htype => cases htype
        | field _ hholds hnarrow =>
            -- The only property of dogs is narrowed to their tag.
            obtain ⟨part, hwalk, hmem⟩ := hholds
            rcases hwalk.cases_head with rfl | ⟨_, hincludes, -⟩
            · obtain ⟨rfl, -⟩ := Prod.mk.injEq .. ▸ List.mem_singleton.mp hmem
              cases hnarrow
            · exact absurd hincludes visits_includes
        | alternative _ hmem => cases (visits_alternatives hmem).1
        | variant hanchor => cases hanchor

/-- Nothing else is reached through a hierarchy. -/
private theorem visits_asksLater {context : Context} {id : SchemaId}
    (h : visits.AsksLater context id) : context = {} := by
  cases h with
  | start => rfl
  | step _ hnew hneeds =>
      cases hneeds with
      | item | field => rfl
      | alternative hmodel hmem =>
          obtain ⟨rfl, -⟩ := visits_alternatives hmem
          exact absurd ⟨{}, .start ⟨"Pet", by simp [visits], rfl⟩⟩ (hnew hmodel)
      | variant hanchor hentry => simp [visits_mapping hanchor] at hentry

private theorem visits_steady : visits.Steady := by
  have hsame {context context' : Context} {id : SchemaId} (hbuilds : visits.Builds context id)
      (hbuilds' : visits.Builds context' id) : context = context' := by
    rcases hbuilds with hfirst | ⟨hlater, hnew⟩ <;> rcases hbuilds' with hfirst' | ⟨hlater', hnew'⟩
    · obtain ⟨rfl, rfl⟩ | ⟨rfl, rfl⟩ := visits_asksFirst hfirst <;>
        obtain ⟨hid, rfl⟩ | ⟨hid, rfl⟩ := visits_asksFirst hfirst'
      · rfl
      · cases hid
      · cases hid
      · rfl
    · exact absurd ⟨_, hfirst⟩ hnew'
    · exact absurd ⟨_, hfirst'⟩ hnew
    · rw [visits_asksLater hlater, visits_asksLater hlater']
  intro context context' id name edge _ hbuilds hbuilds' _ answer
  rw [hsame hbuilds hbuilds']

private theorem visits_mergesApart : visits.MergesApart :=
  fun _ _ hincludes => absurd hincludes visits_includes

private theorem visits_noUnionLoop : visits.NoUnionLoop := by
  have hpasses {first second : SchemaId} (h : visits.Passes first second) :
      first = 2 ∧ second = 3 := by
    cases h with
    | alternative _ hmem =>
        obtain ⟨rfl, rfl⟩ := visits_alternatives hmem
        exact ⟨rfl, rfl⟩
    | variant hanchor hentry => simp [visits_mapping hanchor] at hentry
  intro id hloop
  obtain ⟨_, hhead, -⟩ := Relation.TransGen.head'_iff.mp hloop
  obtain ⟨_, -, htail⟩ := Relation.TransGen.tail'_iff.mp hloop
  exact absurd ((hpasses hhead).1.symm.trans (hpasses htail).2) (by decide)

/-- Visits and owners change places, and their models do. -/
theorem visits_orderFree :
    ofJson (namedValue [visitEntry, ownerEntry, petEntry, dogEntry]) = .ok visits ∧
      ofJson (namedValue [ownerEntry, visitEntry, petEntry, dogEntry]) = .ok ownersFirst ∧
      visits.Reorders (Equiv.swap 0 1) ownersFirst ∧
      visits.Steady ∧ visits.MergesApart ∧ visits.NoUnionLoop ∧ visits.OrderFree ∧
      ∃ set set', visits.compile = .ok set ∧ ownersFirst.compile = .ok set' ∧
        set.forSchema 0 = some 2 ∧ set'.forSchema 1 = some 3 ∧
        ∃ ρ, set.Renumbered (Equiv.swap 0 1) ρ set' := by
  have hload : ofJson (namedValue [visitEntry, ownerEntry, petEntry, dogEntry]) = .ok visits := by
    cbv
  have hload' :
      ofJson (namedValue [ownerEntry, visitEntry, petEntry, dogEntry]) = .ok ownersFirst := by cbv
  obtain ⟨hall, hfree⟩ := compile_reorders (.inl ⟨_, hload⟩) visits_steady
  obtain ⟨set, hset, hvisit⟩ : ∃ set, visits.compile = .ok set ∧ set.forSchema 0 = some 2 :=
    ⟨_, rfl, rfl⟩
  obtain ⟨set', hset', hvisit'⟩ :
      ∃ set', ownersFirst.compile = .ok set' ∧ set'.forSchema 1 = some 3 := ⟨_, rfl, rfl⟩
  exact ⟨hload, hload', visits_reorders, visits_steady, visits_mergesApart, visits_noUnionLoop,
    hfree visits_mergesApart visits_noUnionLoop, set, set', hset, hset', hvisit, hvisit',
    (hall _ _ visits_reorders).1 set set' hset hset'⟩

/-! ## Documents whose order matters -/

/-- A schema with a member. -/
def ownerOfMember : String × Json :=
  ("T", .obj [("allOf", .arr [.obj [("$ref", .str "#/components/schemas/S")]])])

/-- The member, which has itself as the type of a property of its own member. -/
def memberWithParent : String × Json :=
  ("S", .obj [("allOf", .arr [.obj [
    ("type", .str "object"),
    ("properties", .obj [("parent", .obj [("$ref", .str "#/components/schemas/S")])])]])])

/-- The schemas of `parentField` with the member first. -/
def memberFirst : Document where
  dialect := .openApi30
  schemas := #[
    { dialect := .openApi30, identity := some "S", allOf := [{ id := 2 }] },
    { dialect := .openApi30, identity := some "T"
      allOf := [{ id := 0, reference := some "#/components/schemas/S" }] },
    { dialect := .openApi30, identity := some "S.allOf.0", type := some .object
      properties := [("parent", { id := 0, reference := some "#/components/schemas/S" })] }]
  named := [("S", 0), ("T", 1)]

private theorem parentField_reorders : parentField.Reorders (Equiv.swap 0 1) memberFirst where
  schema
    | 0 | 1 | 2 => rfl
    | id + 3 => by
        rw [Equiv.swap_apply_of_ne_of_ne (Nat.succ_ne_zero _) (by simp)]
        rfl
  named := .swap _ _ _

private theorem parentField_type (id : SchemaId) :
    (parentField.schema id).type ≠ some .array := by
  intro htype
  match id with
  | 0 | 1 | 2 | id + 3 => cases htype

/-- A steady document without arrays that compiles only if the member comes first. -/
theorem parentField_not_orderFree :
    ofJson (namedValue [ownerOfMember, memberWithParent]) = .ok parentField ∧
      ofJson (namedValue [memberWithParent, ownerOfMember]) = .ok memberFirst ∧
      parentField.Reorders (Equiv.swap 0 1) memberFirst ∧
      parentField.Steady ∧ (∀ id, (parentField.schema id).type ≠ some .array) ∧
      parentField.compile = .error (.failed (.cyclicAllOf "S")) ∧
      (∃ set, memberFirst.compile = .ok set) ∧ ¬ parentField.OrderFree := by
  have hload : ofJson (namedValue [ownerOfMember, memberWithParent]) = .ok parentField := by cbv
  have hload' : ofJson (namedValue [memberWithParent, ownerOfMember]) = .ok memberFirst := by cbv
  have hrefused : parentField.compile = .error (.failed (.cyclicAllOf "S")) := by rfl
  have hcompiles : ∃ set, memberFirst.compile = .ok set := ⟨_, rfl⟩
  have hnone : parentField.Undiscriminated := by simp [Undiscriminated, parentField]
  refine ⟨hload, hload', parentField_reorders, hnone.steady, parentField_type, hrefused,
    hcompiles, fun hfree => ?_⟩
  obtain ⟨set, hset⟩ := hcompiles
  have halike := hfree _ _ parentField_reorders
  rwa [CompilesAlike, hrefused, hset] at halike

end Document
end OpenApi
