-- SUMMARY: When the tag that a member is narrowed to is the tag that routes to the member.
import OpenApi.Proofs.Schema.DistinctNames
import OpenApi.Proofs.Schema.Edges

/-!
# Narrowing and routing

A discriminator is read twice. Where a member is built, its property is narrowed to the
first tag whose target has the words by which the union refers to the member. Where a
value is decoded, a tag routes to the member if its target means the schema of the member,
by whatever words. For a member that is referred to the second reading takes more targets
than the first, such as the name of what an alias stands for. For a member that is written
in place the first reading compares targets with the label of its schema, while no target
means it.
-/

namespace OpenApi

/-- The first tag of a discriminator whose target means a member. -/
def Discriminator.tagFor (d : Discriminator) (doc : Document) (member : Edge) : Option String :=
  d.mapping.bind fun mapping =>
    (mapping.find? fun entry => memberMatches doc member entry.2).map (·.1)

/-! ## First entries -/

/-- If one condition goes with another, the first entries that meet them have the same key exactly
if the first to meet the weaker condition meets both. -/
theorem Keyed.map_find?_eq_iff {α : Type u} {entries : Keyed α} (hkeys : entries.keys.Nodup)
    {strong weak : String × α → Bool} (hweak : ∀ entry, strong entry = true → weak entry = true) :
    (entries.find? strong).map (·.1) = (entries.find? weak).map (·.1) ↔
      ∀ entry, entries.find? weak = some entry → strong entry = true := by
  constructor
  · intro heq entry hfound
    rw [hfound] at heq
    obtain ⟨other, hother, hkey⟩ := Option.map_eq_some_iff.mp heq
    have hlookup := lookup_of_mem hkeys (List.mem_of_find?_eq_some hfound)
    have hlookup' := lookup_of_mem hkeys (List.mem_of_find?_eq_some hother)
    rw [show other.1 = entry.1 from hkey, hlookup] at hlookup'
    have hsame : entry = other := Prod.ext hkey.symm (Option.some.inj hlookup')
    rw [hsame]
    exact List.find?_some hother
  · intro hstrong
    cases hfound : entries.find? weak with
    | none =>
        have hnone : entries.find? strong = none := by
          rw [List.find?_eq_none] at hfound ⊢
          exact fun entry hmem h => hfound entry hmem (hweak entry h)
        rw [hnone]
    | some entry =>
        obtain ⟨-, before, after, hsplit, hbefore⟩ := List.find?_eq_some_iff_append.mp hfound
        have hfirst : entries.find? strong = some entry :=
          List.find?_eq_some_iff_append.mpr ⟨hstrong entry hfound, before, after, hsplit,
            fun other hmem => by
              have hother := hbefore other hmem
              cases hs : strong other
              · rfl
              · simp [hweak other hs] at hother⟩
        rw [hfirst]

namespace Document

variable {doc : Document} {union : SchemaId} {member : Edge}

/-! ## Members -/

/-- A target means a member with a reference if both mean one schema, or by their words. -/
theorem Loaded.memberMatches_iff (hloaded : doc.Loaded)
    (hmember : member ∈ (doc.schema union).edges) {reference : String}
    (hreference : member.reference = some reference) (target : String) :
    memberMatches doc member target = true ↔
      doc.resolve target = doc.resolve reference ∨ Reference.isTarget target reference = true := by
  simp [memberMatches, hreference, hloaded.resolve_reference hmember hreference]

/-- No target means a member that is written in place. -/
theorem Loaded.not_memberMatches (hloaded : doc.Loaded)
    (hmember : member ∈ (doc.schema union).edges) (hreference : member.reference = none)
    (target : String) : memberMatches doc member target = false := by
  simp [memberMatches, hreference, hloaded.resolve_ne_of_inline hmember hreference target]

theorem Loaded.tagFor_eq_none (hloaded : doc.Loaded)
    (hmember : member ∈ (doc.schema union).edges) (hreference : member.reference = none)
    (d : Discriminator) : d.tagFor doc member = none := by
  cases hmapping : d.mapping <;>
    simp [Discriminator.tagFor, hmapping, hloaded.not_memberMatches hmember hreference]

end Document

theorem Discriminator.tagForPath_singleton {d : Discriminator} {mapping : Keyed String}
    (hmapping : d.mapping = some mapping) (step : String) :
    d.tagForPath [step] =
      (mapping.find? fun entry => Reference.isTarget entry.2 step).map (·.1) := by
  simp [tagForPath, hmapping]

namespace Document

variable {doc : Document} {union : SchemaId} {member : Edge}

/-! ## Agreement -/

/-- How a discriminator narrows a member of a union, and which of its tags routes to the member.
Targets mean a member that is referred to by its schema or by the words of its reference. Such a
member is only narrowed to tags that route to it, and it is narrowed to the first of them unless the
target of that one has other words. No target means a member that is written in place, yet it is
narrowed if some target has the words of its label. -/
theorem Loaded.tagForPath_eq_tagFor_iff (hloaded : doc.Loaded)
    (hmember : member ∈ (doc.schema union).anyOf ++ (doc.schema union).oneOf)
    {d : Discriminator} {mapping : Keyed String} (hmapping : d.mapping = some mapping)
    (hkeys : mapping.keys.Nodup) :
    let narrowed := d.tagForPath [memberStep doc member]
    (∀ reference, member.reference = some reference →
      (∀ target, memberMatches doc member target = true ↔
        doc.resolve target = doc.resolve reference ∨
          Reference.isTarget target reference = true) ∧
      (∀ tag, narrowed = some tag →
        ∃ target, (tag, target) ∈ mapping ∧ memberMatches doc member target = true) ∧
      (narrowed = d.tagFor doc member ↔ ∀ entry,
        (mapping.find? fun entry => memberMatches doc member entry.2) = some entry →
          Reference.isTarget entry.2 reference = true)) ∧
    (member.reference = none →
      (∀ target, memberMatches doc member target = false) ∧
      (narrowed = d.tagFor doc member ↔ ∀ entry ∈ mapping,
        Reference.isTarget entry.2 (doc.schema member.id).label = false)) := by
  intro narrowed
  have hedge : member ∈ (doc.schema union).edges := by
    rcases List.mem_append.mp hmember with h | h <;> simp [Schema.edges, h]
  have hnarrowed : narrowed = _ := Discriminator.tagForPath_singleton hmapping _
  constructor
  · intro reference hreference
    have hmatches := hloaded.memberMatches_iff hedge hreference
    have hstep : memberStep doc member = reference := by simp [memberStep, hreference]
    rw [hstep] at hnarrowed
    refine ⟨hmatches, fun tag htag => ?_, ?_⟩
    · rw [hnarrowed] at htag
      obtain ⟨⟨found, target⟩, hfound, htag⟩ := Option.map_eq_some_iff.mp htag
      cases htag
      have hwords : Reference.isTarget target reference = true := by
        simpa using List.find?_some hfound
      exact ⟨target, List.mem_of_find?_eq_some hfound, (hmatches target).mpr (.inr hwords)⟩
    · rw [hnarrowed, Discriminator.tagFor, hmapping, Option.bind_some]
      exact Keyed.map_find?_eq_iff hkeys fun entry hwords => (hmatches entry.2).mpr (.inr hwords)
  · intro hreference
    have hstep : memberStep doc member = (doc.schema member.id).label := by
      simp [memberStep, hreference]
    refine ⟨hloaded.not_memberMatches hedge hreference, ?_⟩
    rw [hnarrowed, hloaded.tagFor_eq_none hedge hreference d, hstep, Option.map_eq_none_iff,
      List.find?_eq_none]
    simp

/-! ## An alias -/

/-- Pets are dogs, to which their union refers by another name than its mapping does. -/
def houndsValue : Json :=
  .obj [
    ("openapi", .str "3.0.3"),
    ("components", .obj [
      ("schemas", .obj [
        ("Dog", .obj [
          ("type", .str "object"),
          ("properties", .obj [("kind", .obj [("type", .str "string")])])]),
        ("Hound", .obj [("$ref", .str "#/components/schemas/Dog")]),
        ("Pet", .obj [
          ("oneOf", .arr [.obj [("$ref", .str "#/components/schemas/Hound")]]),
          ("discriminator", .obj [
            ("propertyName", .str "kind"),
            ("mapping", .obj [("dog", .str "#/components/schemas/Dog")])])])])])]

/-- The discriminator of `houndsValue`. -/
def dogTag : Discriminator where
  property := "kind"
  mapping := some [("dog", "#/components/schemas/Dog")]

/-- The member of the union of `houndsValue`. -/
def hound : Edge where
  id := 0
  reference := some "#/components/schemas/Hound"

/-- The document of `houndsValue`. -/
def hounds : Document where
  dialect := .openApi30
  schemas := #[
    { dialect := .openApi30, identity := some "Dog", type := some .object
      properties := [("kind", { id := 2 })] },
    { dialect := .openApi30, identity := some "Pet", oneOf := [hound]
      discriminator := some dogTag },
    { dialect := .openApi30, identity := some "Dog.kind", type := some .string }]
  named := [("Dog", 0), ("Pet", 1), ("Hound", 0)]

theorem hounds_load : ofJson houndsValue = .ok hounds := by
  obtain ⟨written, hread, hswagger, hversion, hbodies⟩ : ∃ written,
      (Wire.readDocument (.ofJson houndsValue)).mapError (parseError fun _ => none) = .ok written ∧
      written.swagger = none ∧ written.openapi = some "3.0.3" ∧
      (do
        let named := namedOf .openApi30 written
        let aliases := aliasesOf named
        let reserved := reserveNamed { dialect := .openApi30 } named
        let doc ← resolveAliases aliases.length reserved aliases
        fillNamed named doc) = .ok hounds := ⟨_, rfl, rfl, rfl, rfl⟩
  have hdialect : dialectOf written = .ok .openApi30 := by simp [dialectOf, hswagger, hversion]
  rw [ofJson, hread, ok_bind, ofWire, hdialect]
  exact hbodies

/-- The tag of dogs routes to hounds, as the mapping means their schema. As it has other words, the
property of hounds is not narrowed to the tag. -/
theorem hounds_tagForPath :
    ofJson houndsValue = .ok hounds ∧ hound ∈ (hounds.schema 1).oneOf ∧
      memberMatches hounds hound "#/components/schemas/Dog" = true ∧
      dogTag.tagFor hounds hound = some "dog" ∧
      dogTag.tagForPath [memberStep hounds hound] ≠ dogTag.tagFor hounds hound := by
  have hmember : hound ∈ (hounds.schema 1).oneOf := List.mem_singleton.mpr rfl
  obtain ⟨hreferred, -⟩ := Loaded.tagForPath_eq_tagFor_iff (.inl ⟨_, hounds_load⟩)
    (List.mem_append_right _ hmember) (rfl : dogTag.mapping = some _) (by decide)
  obtain ⟨hmatches, -, hagree⟩ := hreferred "#/components/schemas/Hound" rfl
  have hdog : memberMatches hounds hound "#/components/schemas/Dog" = true :=
    (hmatches _).mpr (.inl rfl)
  refine ⟨hounds_load, hmember, hdog, rfl, fun heq => ?_⟩
  have hwords : Reference.isTarget "#/components/schemas/Dog" "#/components/schemas/Hound" = true :=
    hagree.mp heq ("dog", "#/components/schemas/Dog") (by simp [hdog])
  exact absurd hwords (by decide)

/-- Narrowing and routing do not read all mappings the same way. Where they differ a member to which
a tag routes may be rejected. -/
theorem not_tagForPath_eq_tagFor :
    (¬ ∀ (doc : Document) (union : SchemaId) (member : Edge) (d : Discriminator), doc.Loaded →
      member ∈ (doc.schema union).anyOf ++ (doc.schema union).oneOf → d.isTagged = true →
        d.tagForPath [memberStep doc member] = d.tagFor doc member) ∧
      hounds.compile =
        .error (.failed (.uncoveredDiscriminator "kind" ["#/components/schemas/Hound"])) := by
  refine ⟨fun h => ?_, rfl⟩
  have hsame := h hounds 1 hound dogTag (.inl ⟨_, hounds_load⟩)
    (List.mem_append_right _ (List.mem_singleton.mpr rfl)) rfl
  exact absurd hsame (by decide)

end Document
end OpenApi
