-- SUMMARY: Aliases are resolved exactly if each chain of them ends in a schema.
import Mathlib
import OpenApi.Proofs.Schema.Names

/-!
# Chains of aliases

An alias refers to another name, which may be an alias again. Its chain ends in a schema,
or it dangles at a name that is not there, or it comes round. The aliases are named in
passes, each of which sees the names that were given before it and those that it gave
itself. However the chains lie in the order of the names, the aliases whose chains end get
the slots that these end in, and no other does. So the passes leave over the aliases whose
chains do not end, in their order, and the first of them is reported.
-/

namespace OpenApi.Document

open Relation (ReflTransGen)

/-! ## Chains -/

section Chains

variable (named : Keyed Wire.Schema)

/-- What is written under a name is a reference to another one. -/
def Refers (name target : String) : Prop :=
  ∃ schema reference, named.get? name = some schema ∧ schema.reference = some reference ∧
    Reference.name reference = target

/-- What is written under a name is a schema and no reference. -/
def HasBody (name : String) : Prop :=
  ∃ schema, named.get? name = some schema ∧ schema.reference = none

/-- The references from a name on lead to a schema. -/
structure EndsIn (name last : String) : Prop where
  chain : ReflTransGen (Refers named) name last
  body : HasBody named last

end Chains

variable {named : Keyed Wire.Schema} {name last : String}

theorem HasBody.not_refers (h : HasBody named name) {target : String} :
    ¬ Refers named name target := by
  intro hrefers
  obtain ⟨schema, hget, hnone⟩ := h
  obtain ⟨schema', reference, hget', hsome, -⟩ := hrefers
  cases hget.symm.trans hget'
  cases hnone.symm.trans hsome

theorem Refers.unique {target target' : String} (h : Refers named name target)
    (h' : Refers named name target') : target = target' := by
  obtain ⟨schema, reference, hget, hreference, rfl⟩ := h
  obtain ⟨schema', reference', hget', hreference', rfl⟩ := h'
  cases hget.symm.trans hget'
  cases hreference.symm.trans hreference'
  rfl

theorem HasBody.endsIn (h : HasBody named name) : EndsIn named name name := ⟨.refl, h⟩

theorem EndsIn.head {target : String} (hrefers : Refers named name target)
    (h : EndsIn named target last) : EndsIn named name last := ⟨.head hrefers h.chain, h.body⟩

/-- A chain ends in one schema only. -/
theorem EndsIn.unique {last' : String} (h : EndsIn named name last)
    (h' : EndsIn named name last') : last = last' := by
  have hunique : Relator.RightUnique (Refers named) := fun _ _ _ first second => first.unique second
  rcases ReflTransGen.total_of_right_unique hunique h.chain h'.chain with hmore | hmore
  · rcases ReflTransGen.cases_head hmore with heq | ⟨_, hstep, -⟩
    · exact heq
    · exact absurd hstep h.body.not_refers
  · rcases ReflTransGen.cases_head hmore with heq | ⟨_, hstep, -⟩
    · exact heq.symm
    · exact absurd hstep h'.body.not_refers

/-! ## Names as written -/

section Written

variable (hnames : named.keys.Nodup)
include hnames

theorem refers_of_mem {target : String} (h : (name, target) ∈ aliasesOf named) :
    Refers named name (Reference.name target) := by
  obtain ⟨⟨_, schema⟩, hmem, hfound⟩ := List.mem_filterMap.mp h
  obtain ⟨reference, hreference, heq⟩ := Option.map_eq_some_iff.mp hfound
  cases heq
  exact ⟨schema, target, lookup_of_mem hnames hmem, hreference, rfl⟩

theorem nodup_aliasesOf : (Keyed.keys (aliasesOf named)).Nodup := by
  refine hnames.sublist ?_
  clear hnames
  induction named with
  | nil => exact .slnil
  | cons entry rest ih =>
      obtain ⟨first, schema⟩ := entry
      cases hreference : schema.reference with
      | none => simpa [aliasesOf, hreference] using ih.cons first
      | some reference => simpa [aliasesOf, hreference] using ih.cons_cons first

theorem hasBody_iff_getElem? :
    HasBody named name ↔
      ∃ (place : Nat) (schema : Wire.Schema), (bodiesOf named)[place]? = some (name, schema) := by
  constructor
  · rintro ⟨schema, hget, hnone⟩
    have hmem : (name, schema) ∈ bodiesOf named :=
      List.mem_filter.mpr ⟨Keyed.mem_of_get? hget, by simp [hnone]⟩
    obtain ⟨place, hplace⟩ := List.mem_iff_getElem?.mp hmem
    exact ⟨place, schema, hplace⟩
  · rintro ⟨place, schema, hplace⟩
    obtain ⟨hmem, hnone⟩ := List.mem_filter.mp (List.mem_of_getElem? hplace)
    exact ⟨schema, lookup_of_mem hnames hmem, by simpa using hnone⟩

/-- A name has a slot from the start exactly if it has a schema of its own. -/
theorem hasBody_iff {dialect : Dialect} :
    HasBody named name ↔ ∃ id, (reserveNamed { dialect } named).lookup name = some id := by
  simp only [lookup_reserveNamed_iff hnames]
  exact hasBody_iff_getElem? hnames

/-- Two names have different slots from the start. -/
theorem reserveNamed_injective {dialect : Dialect} {name' : String} {id : SchemaId}
    (h : (reserveNamed { dialect } named).lookup name = some id)
    (h' : (reserveNamed { dialect } named).lookup name' = some id) : name = name' := by
  obtain ⟨schema, hid⟩ := (lookup_reserveNamed_iff hnames).mp h
  obtain ⟨schema', hid'⟩ := (lookup_reserveNamed_iff hnames).mp h'
  cases hid.symm.trans hid'
  rfl

end Written

theorem mem_aliasesOf_of_refers {target : String} (h : Refers named name target) :
    ∃ reference, (name, reference) ∈ aliasesOf named ∧ Reference.name reference = target := by
  obtain ⟨schema, reference, hget, hreference, rfl⟩ := h
  exact ⟨reference, List.mem_filterMap.mpr
    ⟨(name, schema), Keyed.mem_of_get? hget, by simp [hreference]⟩, rfl⟩

/-! ## Resolution -/

/-- Names mean the slots that their chains end in, if anything. -/
def Follows (named : Keyed Wire.Schema) (start doc : Document) : Prop :=
  ∀ name id, doc.lookup name = some id →
    ∃ last, EndsIn named name last ∧ start.lookup last = some id

/-- How far the aliases of `named` are resolved. -/
structure Resolved (named : Keyed Wire.Schema) (start doc : Document)
    (remaining : List (String × String)) : Prop where
  follows : Follows named start doc
  bodies : ∀ {name}, HasBody named name → (doc.lookup name).isSome = true
  schemas : doc.schemas = start.schemas
  remaining : remaining = (aliasesOf named).filter fun entry => (doc.lookup entry.1).isNone

variable {start doc after : Document} {remaining : List (String × String)}

theorem resolved_start {dialect : Dialect} (hnames : named.keys.Nodup) :
    Resolved named (reserveNamed { dialect } named) (reserveNamed { dialect } named)
      (aliasesOf named) where
  follows := fun name id hlookup =>
    ⟨name, ((hasBody_iff hnames).mpr ⟨id, hlookup⟩).endsIn, hlookup⟩
  bodies := fun hbody => Option.isSome_iff_exists.mpr ((hasBody_iff hnames).mp hbody)
  schemas := rfl
  remaining := by
    refine (List.filter_eq_self.mpr fun entry hmem => ?_).symm
    -- An alias refers to something, so no slot was reserved for it.
    rw [Option.isNone_iff_eq_none, Option.eq_none_iff_forall_not_mem]
    intro id hlookup
    exact ((hasBody_iff hnames).mpr ⟨id, hlookup⟩).not_refers (refers_of_mem hnames hmem)

/-- An alias whose target is known follows its chain. -/
theorem Follows.addAlias (h : Follows named start doc) {target : String} {id : SchemaId}
    (hrefers : Refers named name (Reference.name target))
    (hresolve : doc.resolve target = some id) : Follows named start (doc.name name id) := by
  intro other found hlookup
  by_cases heq : other = name
  · rw [heq, lookup_name_self] at hlookup
    cases hlookup
    obtain ⟨last, hends, hlast⟩ := h _ _ hresolve
    exact ⟨last, heq ▸ hends.head hrefers, hlast⟩
  · rw [lookup_name_of_ne _ _ heq] at hlookup
    exact h other found hlookup

theorem Follows.aliasPass (h : Follows named start doc) (hnames : named.keys.Nodup)
    {aliases : List (String × String)} (hsub : aliases ⊆ aliasesOf named) :
    Follows named start (aliasPass doc aliases).1 := by
  induction aliases generalizing doc with
  | nil => exact h
  | cons entry rest ih =>
      obtain ⟨name, target⟩ := entry
      obtain ⟨hmem, hrest⟩ := List.cons_subset.mp hsub
      unfold Document.aliasPass
      split
      · rename_i id hresolve
        exact ih (h.addAlias (refers_of_mem hnames hmem) hresolve) hrest
      · exact ih h hrest

/-- A pass names some of the aliases that remain, and leaves the others in their order. -/
theorem Resolved.aliasPass (h : Resolved named start doc remaining) (hnames : named.keys.Nodup) :
    Resolved named start (aliasPass doc remaining).1 (aliasPass doc remaining).2 := by
  have hsub : remaining.Sublist (aliasesOf named) := h.remaining ▸ List.filter_sublist
  have hnodup : (Keyed.keys remaining).Nodup := (nodup_aliasesOf hnames).sublist (hsub.map _)
  have hnew : ∀ entry ∈ remaining, doc.lookup entry.1 = none := by
    intro entry hmem
    rw [h.remaining] at hmem
    simpa using (List.mem_filter.mp hmem).2
  -- What has a name keeps it: only aliases without one remain.
  have hkeeps : ∀ {name}, doc.lookup name ≠ none →
      (Document.aliasPass doc remaining).1.lookup name = doc.lookup name := by
    intro name hsome
    refine lookup_aliasPass fun hmem => hsome ?_
    obtain ⟨entry, hentry, rfl⟩ := List.mem_map.mp hmem
    exact hnew entry hentry
  refine ⟨h.follows.aliasPass hnames hsub.subset, fun hbody => ?_, ?_, ?_⟩
  · have hsome := h.bodies hbody
    rwa [hkeeps (Option.isSome_iff_ne_none.mp hsome)]
  · rw [schemas_aliasPass, h.schemas]
  · rw [remaining_aliasPass hnodup hnew]
    refine (congrArg (List.filter _) h.remaining).trans ?_
    rw [List.filter_filter]
    refine List.filter_congr fun entry _ => ?_
    cases hlookup : doc.lookup entry.1 with
    | none => simp
    | some id => simp [hkeeps (hlookup ▸ Option.some_ne_none id), hlookup]

/-- The passes end with all aliases named, or with some of which no target is known. -/
theorem Resolved.resolveAliases (h : Resolved named start doc remaining)
    (hnames : named.keys.Nodup) {passes : Nat} (hpasses : remaining.length ≤ passes) :
    (∃ after, resolveAliases passes doc remaining = .ok after ∧ Resolved named start after []) ∨
      ∃ after first rest, Resolved named start after (first :: rest) ∧
        (∀ entry ∈ first :: rest, after.resolve entry.2 = none) ∧
        resolveAliases passes doc remaining = .error (.unresolvedReference first.2) := by
  induction passes generalizing doc remaining with
  | zero =>
      cases List.eq_nil_of_length_eq_zero (Nat.le_zero.mp hpasses)
      exact .inl ⟨doc, rfl, h⟩
  | succ passes ih =>
      match remaining with
      | [] => exact .inl ⟨doc, rfl, h⟩
      | (name, target) :: rest =>
          simp only [Document.resolveAliases]
          split
          · rename_i hstuck
            exact .inr ⟨doc, (name, target), rest, h, resolve_of_length_aliasPass hstuck, rfl⟩
          · rename_i hprogress
            have hlt :=
              Nat.lt_of_le_of_ne (length_aliasPass_le doc ((name, target) :: rest)) hprogress
            exact ih (h.aliasPass hnames) (by omega)

/-! ## What is resolved -/

/-- Where no target of the aliases that remain is known, each name whose chain ends is. -/
theorem Resolved.isSome_of_endsIn (h : Resolved named start doc remaining)
    (hstuck : ∀ entry ∈ remaining, doc.resolve entry.2 = none) (hends : EndsIn named name last) :
    (doc.lookup name).isSome = true := by
  -- The induction goes up the chain from its end.
  obtain ⟨hchain, hbody⟩ := hends
  induction hchain using ReflTransGen.head_induction_on with
  | refl => exact h.bodies hbody
  | head hrefers _ ih =>
      obtain ⟨reference, hmem, rfl⟩ := mem_aliasesOf_of_refers hrefers
      by_contra hnone
      have hresolve := hstuck _ (h.remaining ▸ List.mem_filter.mpr ⟨hmem, by simpa using hnone⟩)
      rw [resolve] at hresolve
      rw [hresolve] at ih
      cases ih

/-- Then exactly the names whose chains end mean something. -/
theorem Resolved.isSome_iff (h : Resolved named start doc remaining)
    (hstuck : ∀ entry ∈ remaining, doc.resolve entry.2 = none) :
    (doc.lookup name).isSome = true ↔ ∃ last, EndsIn named name last := by
  constructor
  · intro hsome
    obtain ⟨id, hlookup⟩ := Option.isSome_iff_exists.mp hsome
    obtain ⟨last, hends, -⟩ := h.follows _ _ hlookup
    exact ⟨last, hends⟩
  · rintro ⟨last, hends⟩
    exact h.isSome_of_endsIn hstuck hends

/-- The first alias that remains is the first whose chain does not end. -/
theorem Resolved.first_eq {first : String × String} {rest : List (String × String)}
    (h : Resolved named start doc (first :: rest))
    (hstuck : ∀ entry ∈ first :: rest, doc.resolve entry.2 = none)
    {before more : List (String × String)} {found : String × String}
    (hsplit : aliasesOf named = before ++ found :: more)
    (hbefore : ∀ entry ∈ before, ∃ last, EndsIn named entry.1 last)
    (hfound : ¬ ∃ last, EndsIn named found.1 last) : first = found := by
  have hnone : before.filter (fun entry => (doc.lookup entry.1).isNone) = [] := by
    refine List.filter_eq_nil_iff.mpr fun entry hmem => ?_
    simpa using Option.isSome_iff_ne_none.mp ((h.isSome_iff hstuck).mpr (hbefore entry hmem))
  have hunnamed : (doc.lookup found.1).isNone = true := by
    simpa using mt (h.isSome_iff hstuck).mp hfound
  have hremaining := h.remaining
  rw [hsplit, List.filter_append, hnone, List.nil_append,
    List.filter_cons_of_pos (by exact hunnamed)] at hremaining
  exact (List.cons.inj hremaining).1

/-- When no alias remains, a name means what the end of its chain means. -/
theorem Resolved.lookup_eq (h : Resolved named start doc []) (hends : EndsIn named name last) :
    ∃ id, doc.lookup name = some id ∧ start.lookup last = some id := by
  have hsome := (h.isSome_iff (by simp)).mpr ⟨last, hends⟩
  obtain ⟨id, hlookup⟩ := Option.isSome_iff_exists.mp hsome
  obtain ⟨last', hends', hlast⟩ := h.follows _ _ hlookup
  obtain rfl := hends.unique hends'
  exact ⟨id, hlookup, hlast⟩

/-- When no alias remains, the chains of all end. -/
theorem Resolved.exists_endsIn (h : Resolved named start doc []) {entry : String × String}
    (hmem : entry ∈ aliasesOf named) : ∃ last, EndsIn named entry.1 last := by
  refine (h.isSome_iff (by simp)).mp ?_
  simpa [Option.isSome_iff_ne_none] using
    List.filter_eq_nil_iff.mp h.remaining.symm entry hmem

/-- The aliases that remain where no target of them is known are those whose chains do not end. -/
theorem Resolved.not_endsIn (h : Resolved named start doc remaining)
    (hstuck : ∀ entry ∈ remaining, doc.resolve entry.2 = none) {entry : String × String}
    (hmem : entry ∈ remaining) :
    entry ∈ aliasesOf named ∧ ¬ ∃ last, EndsIn named entry.1 last := by
  obtain ⟨halias, hnone⟩ := List.mem_filter.mp (h.remaining ▸ hmem)
  refine ⟨halias, fun hends => ?_⟩
  have hsome := (h.isSome_iff hstuck).mpr hends
  simp_all

/-! ## Loading -/

section Reserved

variable {dialect : Dialect} (h : Resolved named (reserveNamed { dialect } named) doc [])
variable (hnames : named.keys.Nodup)
include h hnames

/-- A name means the slot that was reserved for the schema at the end of its chain. -/
theorem Resolved.exists_slot (hends : EndsIn named name last) :
    ∃ id < doc.schemas.size, doc.lookup name = some id ∧ doc.lookup last = some id := by
  obtain ⟨id, hlookup, hlast⟩ := h.lookup_eq hends
  obtain ⟨id', hlookup', hlast'⟩ := h.lookup_eq hends.body.endsIn
  cases hlast.symm.trans hlast'
  refine ⟨id, ?_, hlookup, hlookup'⟩
  obtain ⟨schema, hid⟩ := (lookup_reserveNamed_iff hnames).mp hlast
  have hlt : id < (bodiesOf named).length := (List.getElem?_eq_some_iff.mp hid).1
  rw [h.schemas, size_reserveNamed]
  exact Nat.lt_of_lt_of_le hlt (Nat.le_add_left _ _)

/-- Each schema has a slot of its own. -/
theorem Resolved.name_unique {name' : String} (hbody : HasBody named name)
    (hbody' : HasBody named name') (heq : doc.lookup name = doc.lookup name') : name = name' := by
  obtain ⟨id, hlookup, hstarted⟩ := h.lookup_eq hbody.endsIn
  obtain ⟨id', hlookup', hstarted'⟩ := h.lookup_eq hbody'.endsIn
  cases hlookup.symm.trans (heq.trans hlookup')
  exact reserveNamed_injective hnames hstarted hstarted'

end Reserved

/-- Filling the slots names nothing more. -/
theorem named_of_fillNamed {dialect : Dialect} {passes : Nat} {aliases : List (String × String)}
    {loaded : Document}
    (hok : Document.resolveAliases passes (reserveNamed { dialect } named) aliases = .ok doc)
    (hloaded : fillNamed named doc = .ok loaded) : loaded.named = doc.named := by
  have hbare : ({ dialect } : Document).Bare := ⟨nofun, by simp⟩
  have hwired := ((hbare.reserveNamed named).resolveAliases hok).wired
  exact (widens_of_fillNamed hwired hloaded).named

variable {written : Wire.Document} {dialect : Dialect}

/-- Aliases are resolved in as many passes as there are aliases at most. They are resolved exactly
if each chain of aliases ends in a schema, and then a name means the slot of the schema that its
chain ends in, of which each has its own. Otherwise the first alias whose chain does not end is
reported, with what it refers to. -/
theorem ofWire_aliases (hdialect : dialectOf written = .ok dialect)
    (hnames : (Keyed.keys (namedOf dialect written)).Nodup) :
    let named := namedOf dialect written
    let aliases := aliasesOf named
    let resolved (passes : Nat) := resolveAliases passes (reserveNamed { dialect } named) aliases
    (∀ passes, aliases.length ≤ passes → resolved passes = resolved aliases.length) ∧
    ((∃ doc, resolved aliases.length = .ok doc) ↔
      ∀ entry ∈ aliases, ∃ last, EndsIn named entry.1 last) ∧
    (∀ doc, resolved aliases.length = .ok doc →
      (∀ name last, EndsIn named name last →
        ∃ id < doc.schemas.size, doc.lookup name = some id ∧ doc.lookup last = some id) ∧
      (∀ name name', HasBody named name → HasBody named name' →
        doc.lookup name = doc.lookup name' → name = name') ∧
      ∀ loaded, ofWire written = .ok loaded → loaded.named = doc.named) ∧
    ∀ before entry after, aliases = before ++ entry :: after →
      (∀ other ∈ before, ∃ last, EndsIn named other.1 last) →
      (¬ ∃ last, EndsIn named entry.1 last) →
      ofWire written = .error (.unresolvedReference entry.2) := by
  intro named aliases resolved
  have hload : ofWire written = resolved aliases.length >>= fillNamed named := by
    rw [ofWire, hdialect]
    rfl
  refine ⟨fun passes hpasses => resolveAliases_of_le hpasses (Nat.le_refl _), ?_⟩
  have hstart : Resolved named (reserveNamed { dialect } named) _ aliases := resolved_start hnames
  rcases hstart.resolveAliases hnames (Nat.le_refl _) with
    ⟨doc, hok, hdone⟩ | ⟨doc, first, rest, hdone, hstuck, herror⟩
  · have hall : ∀ entry ∈ aliases, ∃ last, EndsIn named entry.1 last :=
      fun entry hmem => hdone.exists_endsIn hmem
    refine ⟨iff_of_true ⟨doc, hok⟩ hall, fun doc' hok' => ?_, ?_⟩
    · cases hok.symm.trans hok'
      refine ⟨fun name last hends => hdone.exists_slot hnames hends,
        fun name name' hbody hbody' heq => hdone.name_unique hnames hbody hbody' heq, ?_⟩
      intro loaded hloaded
      rw [hload, show resolved aliases.length = _ from hok, ok_bind] at hloaded
      exact named_of_fillNamed hok hloaded
    · intro before entry after hsplit _ hnot
      exact absurd (hall entry (by simp [hsplit])) hnot
  · obtain ⟨hfirst, hnot⟩ := hdone.not_endsIn hstuck List.mem_cons_self
    refine ⟨iff_of_false ?_ fun hall => hnot (hall first hfirst), ?_, ?_⟩
    · rintro ⟨doc', hok⟩
      cases herror.symm.trans hok
    · intro doc' hok
      cases herror.symm.trans hok
    · intro before entry after hsplit hbefore hentry
      rw [hload, show resolved aliases.length = _ from herror,
        hdone.first_eq hstuck hsplit hbefore hentry]
      rfl

/-! ## Breeds and strays -/

/-- Terriers are hounds, and hounds are dogs. -/
def breeds : Wire.Document where
  swagger := some "2.0"
  definitions := [
    ("Terrier", { reference := some "#/definitions/Hound" }),
    ("Hound", { reference := some "Dog" }),
    ("Dog", { type := some (.one "object") })]

/-- Hounds are dogs, but wolves are foxes and foxes are wolves. -/
def strays : Wire.Document where
  swagger := some "2.0"
  definitions := [
    ("Hound", { reference := some "Dog" }),
    ("Wolf", { reference := some "#/definitions/Fox" }),
    ("Fox", { reference := some "#/definitions/Wolf" }),
    ("Dog", { type := some (.one "object") })]

theorem breeds_endsIn :
    EndsIn breeds.definitions "Terrier" "Dog" ∧ EndsIn breeds.definitions "Hound" "Dog" := by
  have hdog : HasBody breeds.definitions "Dog" := ⟨_, rfl, rfl⟩
  have hhound : Refers breeds.definitions "Hound" "Dog" := ⟨_, _, rfl, rfl, by decide⟩
  have hterrier : Refers breeds.definitions "Terrier" "Hound" := ⟨_, _, rfl, rfl, by decide⟩
  exact ⟨(hdog.endsIn.head hhound).head hterrier, hdog.endsIn.head hhound⟩

theorem strays_not_endsIn : ¬ ∃ last, EndsIn strays.definitions "Wolf" last := by
  rintro ⟨last, hchain, hbody⟩
  have hwolf : Refers strays.definitions "Wolf" "Fox" := ⟨_, _, rfl, rfl, by decide⟩
  have hfox : Refers strays.definitions "Fox" "Wolf" := ⟨_, _, rfl, rfl, by decide⟩
  -- Whatever the chain comes to is a wolf or a fox.
  have hround : last = "Wolf" ∨ last = "Fox" := by
    clear hbody
    induction hchain with
    | refl => exact .inl rfl
    | tail _ hstep ih =>
        rcases ih with rfl | rfl
        · exact .inr (hstep.unique hwolf)
        · exact .inl (hstep.unique hfox)
  rcases hround with rfl | rfl
  · exact hbody.not_refers hwolf
  · exact hbody.not_refers hfox

/-- Terriers get the slot of dogs, over two names. Of the aliases that go round the first is
reported, with what it refers to. -/
theorem breeds_aliases :
    dialectOf breeds = .ok .swagger2 ∧ (Keyed.keys (namedOf .swagger2 breeds)).Nodup ∧
      (∃ doc id, resolveAliases 2 (reserveNamed { dialect := .swagger2 } breeds.definitions)
          (aliasesOf breeds.definitions) = .ok doc ∧
        doc.lookup "Terrier" = some id ∧ doc.lookup "Dog" = some id) ∧
      ofWire strays = .error (.unresolvedReference "#/definitions/Fox") := by
  have hdialect : dialectOf breeds = .ok .swagger2 := rfl
  have hnames : (Keyed.keys (namedOf .swagger2 breeds)).Nodup := by decide
  obtain ⟨hterrier, hhound⟩ := breeds_endsIn
  obtain ⟨-, hresolved, hlookup, -⟩ := ofWire_aliases hdialect hnames
  have hends : ∀ entry ∈ aliasesOf breeds.definitions,
      ∃ last, EndsIn breeds.definitions entry.1 last := by
    intro entry hmem
    simp only [aliasesOf, breeds, List.filterMap_cons, Option.map_some, Option.map_none,
      List.filterMap_nil, List.mem_cons, List.not_mem_nil, or_false] at hmem
    rcases hmem with rfl | rfl
    · exact ⟨_, hterrier⟩
    · exact ⟨_, hhound⟩
  obtain ⟨doc, hdoc⟩ := hresolved.mpr hends
  obtain ⟨id, -, hterriers, hdogs⟩ := (hlookup doc hdoc).1 _ _ hterrier
  have hstrayDialect : dialectOf strays = .ok .swagger2 := rfl
  have hstrayNames : (Keyed.keys (namedOf .swagger2 strays)).Nodup := by decide
  obtain ⟨-, -, -, hstrays⟩ := ofWire_aliases hstrayDialect hstrayNames
  have hhounds : EndsIn strays.definitions "Hound" "Dog" :=
    (HasBody.endsIn ⟨_, rfl, rfl⟩).head ⟨_, _, rfl, rfl, by decide⟩
  refine ⟨hdialect, hnames, ⟨doc, id, hdoc, hterriers, hdogs⟩, ?_⟩
  exact hstrays [("Hound", "Dog")] ("Wolf", "#/definitions/Fox") _ rfl
    (by simpa using ⟨_, hhounds⟩) strays_not_endsIn

end OpenApi.Document
