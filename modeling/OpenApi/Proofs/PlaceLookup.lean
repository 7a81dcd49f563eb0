-- SUMMARY: Looking violations up by the text of a place, and the places whose texts run together.
import OpenApi.Proofs.ViolationPlaces

/-!
# Looking up places

The text of a place joins the names of fields with dots and the places of items with
brackets. A name may hold either of these, so two places of one value may have one text.
That happens in one way only: the places part at an object, and the name by which the one
goes on is that of the other with the text of further steps behind it. Looking up the
violations of a place by its text then finds those of the other place as well.
-/

namespace OpenApi

/-! ## Texts of steps -/

namespace Path

/-- The text of the steps of a place, without the root. -/
def stepsText (path : Path) : String := String.join (path.map Segment.text)

@[simp] theorem stepsText_nil : stepsText [] = "" := rfl

@[simp] theorem stepsText_cons (segment : Segment) (rest : Path) :
    stepsText (segment :: rest) = segment.text ++ stepsText rest := by
  simp [stepsText]

theorem text_inj {first second : Path} :
    first.text = second.text ↔ first.stepsText = second.stepsText :=
  String.append_right_inj "$"

theorem stepsText_eq_empty {path : Path} : path.stepsText = "" ↔ path = [] := by
  cases path with
  | nil => simp
  | cons segment rest => cases segment <;> simp [Segment.text, ← String.toList_inj]

/-- The text of steps begins with a dot or an opening bracket. -/
theorem begins_of_stepsText {path : Path} {more tail : String} (hmore : more ≠ "")
    (h : path.stepsText = more ++ tail) : ∃ rest, more = "." ++ rest ∨ more = "[" ++ rest := by
  cases path with
  | nil => exact absurd (String.append_eq_empty_iff.mp h.symm).1 hmore
  | cons segment path =>
      -- It is enough to look at the first character, which is that of the first step.
      cases hlist : more.toList with
      | nil => exact absurd (String.toList_inj.mp hlist) hmore
      | cons c rest =>
          refine ⟨String.ofList rest, ?_⟩
          have hhead := congrArg (List.head? ∘ String.toList) h
          cases segment <;> simp [Segment.text, hlist] at hhead <;>
            simp [← String.toList_inj, hlist, ← hhead]

end Path

/-! ## Names that run together -/

/-- The second name is the first one with the beginning of a step behind it. -/
def Continues (name other : String) : Prop :=
  ∃ rest, other = name ++ ("." ++ rest) ∨ other = name ++ ("[" ++ rest)

namespace Path

/-- The places part at an object, where the name for the second is the name for the first with the
text of further steps behind it; what follows makes up for the difference. -/
inductive Blends : Path → Path → Prop where
  | here {name more : String} {rest tail : Path} :
      more ≠ "" → stepsText rest = more ++ stepsText tail →
        Blends (.field name :: rest) (.field (name ++ more) :: tail)
  | inside {first second : Path} (segment : Segment) :
      Blends first second → Blends (segment :: first) (segment :: second)

namespace Blends

variable {first second : Path}

/-- Places that blend have one text. -/
theorem stepsText_eq (h : Blends first second) : first.stepsText = second.stepsText := by
  induction h with
  | here _ htext => simp [htext, Segment.text, String.append_assoc]
  | inside segment _ ih => rw [stepsText_cons, stepsText_cons, ih]

theorem ne (h : Blends first second) : first ≠ second := by
  induction h with
  | here hmore =>
      intro heq
      have hname := Segment.field.inj (List.cons.inj heq).1
      exact hmore (by simpa using hname.symm)
  | inside _ _ ih => exact fun heq => ih (List.cons.inj heq).2

/-- Places that blend hold two names of which one continues the other. -/
theorem exists_continues (h : Blends first second) :
    ∃ name other, .field name ∈ first ∧ .field other ∈ second ∧ Continues name other := by
  induction h with
  | @here name more rest tail hmore htext =>
      obtain ⟨further, hbegins⟩ := begins_of_stepsText hmore htext
      exact ⟨name, name ++ more, List.mem_cons_self, List.mem_cons_self, further,
        hbegins.imp (congrArg (name ++ ·)) (congrArg (name ++ ·))⟩
  | inside _ _ ih =>
      obtain ⟨name, other, hname, hother, hcontinues⟩ := ih
      exact ⟨name, other, List.mem_cons_of_mem _ hname, List.mem_cons_of_mem _ hother, hcontinues⟩

end Blends

theorem blends_of_append {name more : String} {rest tail : Path}
    (h : rest.stepsText = more ++ tail.stepsText) :
    name = name ++ more ∧ rest.stepsText = tail.stepsText ∨
      Blends (.field name :: rest) (.field (name ++ more) :: tail) := by
  by_cases hmore : more = ""
  · exact .inl ⟨by simp [hmore], by simpa [hmore] using h⟩
  · exact .inr (.here hmore h)

/-- Steps to two fields with one text: either it is one field, or the names run together. -/
theorem field_cases {name other : String} {rest tail : Path}
    (h : stepsText (.field name :: rest) = stepsText (.field other :: tail)) :
    name = other ∧ rest.stepsText = tail.stepsText ∨
      Blends (.field name :: rest) (.field other :: tail) ∨
      Blends (.field other :: tail) (.field name :: rest) := by
  have hlists : name.toList ++ rest.stepsText.toList = other.toList ++ tail.stepsText.toList := by
    simpa [Segment.text, ← String.toList_inj] using h
  -- One of the names is a front of the other, and what it lacks stands in the steps behind it.
  rcases List.append_eq_append_iff.mp hlists with ⟨more, hother, hrest⟩ | ⟨more, hname, htail⟩
  · obtain rfl : other = name ++ String.ofList more := by simpa [← String.toList_inj] using hother
    refine (blends_of_append ?_).imp_right .inl
    simpa [← String.toList_inj] using hrest
  · obtain rfl : name = other ++ String.ofList more := by simpa [← String.toList_inj] using hname
    refine (blends_of_append ?_).imp (fun ⟨hname, htext⟩ => ⟨hname.symm, htext.symm⟩) .inr
    simpa [← String.toList_inj] using htail

/-- Steps to two items with one text are steps to one item: no digit is a closing bracket. -/
theorem index_cases {place other : Nat} {rest tail : Path}
    (h : stepsText (.index place :: rest) = stepsText (.index other :: tail)) :
    place = other ∧ rest.stepsText = tail.stepsText := by
  have hlists : (toString place).toList ++ ']' :: rest.stepsText.toList =
      (toString other).toList ++ ']' :: tail.stepsText.toList := by
    simpa [Segment.text, ← String.toList_inj] using h
  have hdigits : ∀ n : Nat, (toString n).toList = Nat.toDigits 10 n := fun _ => Nat.toList_repr
  have htaken : ∀ (n : Nat) (tail : List Char),
      (Nat.toDigits 10 n ++ ']' :: tail).takeWhile Char.isDigit = Nat.toDigits 10 n := by
    intro n tail
    rw [List.takeWhile_append_of_pos fun _ =>
      Nat.isDigit_of_mem_toDigits (by decide) (by decide)]
    simp
  rw [hdigits, hdigits] at hlists
  have hplace := congrArg (List.takeWhile Char.isDigit) hlists
  rw [htaken, htaken] at hplace
  rw [hplace, List.append_cancel_left_eq, List.cons.injEq, String.toList_inj] at hlists
  refine ⟨?_, hlists.2⟩
  rw [← Nat.ofDigitChars_ten_toDigits (n := place), hplace, Nat.ofDigitChars_ten_toDigits]

end Path

/-! ## Places of one value -/

namespace Json

/-- A step leads to a field of an object or to an item of an array. -/
def Admits : Json → Segment → Prop
  | .obj _, .field _ | .arr _, .index _ => True
  | _, _ => False

theorem admits_of_child {value inner : Json} {segment : Segment}
    (h : value.child segment = some inner) : value.Admits segment := by
  unfold child at h
  split at h
  · trivial
  · trivial
  · cases h

/-- A place in a value, or that of something which is missing in it. -/
def Holds : Json → Path → Prop
  | _, [] => True
  | value, segment :: rest =>
    value.Admits segment ∧
      (rest = [] ∨ ∃ inner, value.child segment = some inner ∧ inner.Holds rest)

theorem Holds.of_at? {node : Json} {rest : Path} (hnode : node.Holds rest) :
    ∀ {path : Path} {value : Json}, value.at? path = some node → value.Holds (path ++ rest)
  | [], _, h => by
      cases h
      exact hnode
  | segment :: path, value, h => by
      obtain ⟨inner, hchild, hinner⟩ := Option.bind_eq_some_iff.mp h
      exact ⟨admits_of_child hchild, .inr ⟨inner, hchild, .of_at? hnode hinner⟩⟩

theorem Holds.of_located {value : Json} {violation : Violation} (h : violation.Located value) :
    value.Holds violation.path := by
  unfold Violation.Located at h
  split at h
  · obtain ⟨parent, key, members, hpath, hparent, -⟩ := h
    have hholds : (Json.obj members).Holds [.field key] := ⟨trivial, .inl rfl⟩
    exact hpath ▸ hholds.of_at? hparent
  · obtain ⟨node, hnode⟩ := h
    have hholds : node.Holds [] := trivial
    simpa using hholds.of_at? hnode

theorem Admits.cases {value : Json} {segment other : Segment} {rest tail : Path}
    (h : value.Admits segment) (h' : value.Admits other)
    (htext : Path.stepsText (segment :: rest) = Path.stepsText (other :: tail)) :
    segment = other ∧ rest.stepsText = tail.stepsText ∨
      Path.Blends (segment :: rest) (other :: tail) ∨
      Path.Blends (other :: tail) (segment :: rest) := by
  match value, segment, other, h, h' with
  | .obj _, .field name, .field other, _, _ =>
      exact (Path.field_cases htext).imp_left fun ⟨hname, hrest⟩ => ⟨congrArg _ hname, hrest⟩
  | .arr _, .index place, .index other, _, _ =>
      obtain ⟨hplace, hrest⟩ := Path.index_cases htext
      exact .inl ⟨congrArg _ hplace, hrest⟩

/-- Two places of one value that have one text are one place, or they blend. -/
theorem Holds.eq_or_blends {value : Json} {first second : Path} (h : value.Holds first)
    (h' : value.Holds second) (htext : first.stepsText = second.stepsText) :
    first = second ∨ first.Blends second ∨ second.Blends first := by
  induction first generalizing value second with
  | nil => exact .inl (Path.stepsText_eq_empty.mp htext.symm).symm
  | cons segment rest ih =>
      cases second with
      | nil => exact .inl (Path.stepsText_eq_empty.mp htext)
      | cons other tail =>
          obtain ⟨hadmits, hrest⟩ := h
          obtain ⟨hadmits', htail⟩ := h'
          rcases hadmits.cases hadmits' htext with ⟨rfl, hsteps⟩ | hblends
          · have hinner : rest = tail ∨ Path.Blends rest tail ∨ Path.Blends tail rest := by
              rcases hrest with rfl | ⟨inner, hchild, hrest⟩
              · exact .inl (Path.stepsText_eq_empty.mp hsteps.symm).symm
              rcases htail with rfl | ⟨inner', hchild', htail⟩
              · exact .inl (Path.stepsText_eq_empty.mp hsteps)
              cases hchild.symm.trans hchild'
              exact ih hrest htail hsteps
            exact hinner.imp (congrArg _) (Or.imp (.inside _) (.inside _))
          · exact .inr hblends

/-- The text of a place tells it from another place of the value unless the two blend. -/
theorem Holds.eq_of_text_iff {value : Json} {first second : Path} (h : value.Holds first)
    (h' : value.Holds second) :
    (first.text = second.text → first = second) ↔
      ¬ Path.Blends second first ∧ ¬ Path.Blends first second := by
  rw [Path.text_inj]
  constructor
  · exact fun hsame => ⟨fun hblends => hblends.ne (hsame hblends.stepsText_eq.symm).symm,
      fun hblends => hblends.ne (hsame hblends.stepsText_eq)⟩
  · rintro ⟨hnot, hnot'⟩ htext
    exact (h.eq_or_blends h' htext).resolve_right fun hblends => hblends.elim hnot' hnot

/-- A key of an object somewhere in a value. -/
inductive HasKey : Json → String → Prop where
  | here {members : Keyed Json} {key : String} : key ∈ members.keys → HasKey (.obj members) key
  | child {value inner : Json} {segment : Segment} {key : String} :
      value.child segment = some inner → HasKey inner key → HasKey value key

end Json

/-! ## Names in places -/

namespace ModelSet

variable (set : ModelSet)

/-- A field of a model, or a property that tells the alternatives of a union apart. -/
inductive HasName : String → Prop where
  | field {m : ModelId} {field : Field} : field ∈ (set.model m).fields → HasName field.name
  | property {m : ModelId} {selector : Discriminator} :
      (set.model m).taggedBy = some selector → HasName selector.property

variable {set}

variable (set) in
/-- The names in the places are those of fields and of properties, or keys in the value. -/
def Names (value : Json) (found : List Violation) : Prop :=
  ∀ violation ∈ found, ∀ name, .field name ∈ violation.path → set.HasName name ∨ value.HasKey name

theorem Names.here {value : Json} {kind : ViolationKind} : set.Names value [⟨[], kind⟩] := by
  simp [Names]

theorem Names.at {value : Json} {name : String} {kind : ViolationKind} (h : set.HasName name) :
    set.Names value [⟨[.field name], kind⟩] := by
  simp [Names, h]

theorem Names.append {value : Json} {first more : List Violation} (h : set.Names value first)
    (h' : set.Names value more) : set.Names value (first ++ more) :=
  List.forall_mem_append.mpr ⟨h, h'⟩

theorem Names.inside {value inner : Json} {segment : Segment} {found : List Violation}
    (hchild : value.child segment = some inner)
    (hsegment : ∀ name, segment = .field name → set.HasName name) (h : set.Names inner found) :
    set.Names value (found.map (·.inside segment)) := by
  intro violation hmem name hname
  obtain ⟨own, hown, rfl⟩ := List.mem_map.mp hmem
  rw [Violation.path_inside, List.mem_cons] at hname
  rcases hname with heq | hname
  · exact .inl (hsegment name heq.symm)
  · exact (h own hown name hname).imp_right (.child hchild)

theorem undeclaredKeys_names {model : Model} {members : Keyed Json} :
    set.Names (.obj members) (model.undeclaredKeys members) := by
  intro violation hmem name hname
  obtain ⟨key, hkey, rfl⟩ := List.mem_map.mp hmem
  cases List.mem_singleton.mp hname
  exact .inr (.here (List.mem_filter.mp hkey).1)

mutual

theorem Reports.names {type : Ty} {value : Json} {found : List Violation} :
    Reports set type value found → set.Names value found
  | .refused _ => .here
  | .scalar _ | .literal | .untagged _ _ _ | .anchor _ => by simp [Names]
  | .array hitems => hitems.names [] rfl
  | .object hshape hfields =>
      (hfields.names fun _ hfield => .field (by rwa [Model.fields, hshape])).append
        undeclaredKeys_names
  | .unselected _ hby _ => .at (.property hby)
  | .tagged _ _ _ _ _ hreports => hreports.names

theorem ReportsItems.names {item : Ty} {place : Nat} {values : List Json}
    {found : List Violation} :
    ReportsItems set item place values found → ∀ before : List Json, place = before.length →
      set.Names (.arr (before ++ values)) found
  | .nil, _, _ => by simp [Names]
  | @ReportsItems.cons _ _ _ value rest _ _ hfirst hrest, before, hplace => by
      have hmore := hrest.names (before ++ [value]) (by simp [hplace])
      rw [List.append_assoc] at hmore
      refine (hfirst.names.inside ?_ (by simp)).append hmore
      simp [Json.child, hplace]

theorem ReportsField.names {members : Keyed Json} {field : Field} {found : List Violation} :
    ReportsField set members field found → set.HasName field.name →
      set.Names (.obj members) found
  | .missing _ _, hname | .outside _ _ _, hname => .at hname
  | .leftOut _ _, _ | .skipped _ _, _ => by simp [Names]
  | .given hmember _ _ hreports, hname =>
      hreports.names.inside hmember fun _ heq => Segment.field.inj heq ▸ hname

theorem ReportsFields.names {members : Keyed Json} {fields : List Field}
    {found : List Violation} :
    ReportsFields set members fields found → (∀ field ∈ fields, set.HasName field.name) →
      set.Names (.obj members) found
  | .nil, _ => by simp [Names]
  | .cons hfirst hrest, hnames =>
      (hfirst.names (hnames _ List.mem_cons_self)).append
        (hrest.names fun field hfield => hnames field (List.mem_cons_of_mem _ hfield))

end

end ModelSet

/-! ## Looking up -/

namespace Failure

variable (failure : Failure)

/-- What is wrong with a place, compared step by step. -/
def kindsAt (place : Path) : List ViolationKind :=
  (failure.violations.filter (·.path = place)).map (·.kind)

/-- The text of a place finds, in order, what is wrong with this place and nothing else. -/
def LooksUp (place : Path) : Prop := failure.at_ place.text = failure.kindsAt place

variable {failure}

theorem filter_path_sublist (place : Path) (found : List Violation) :
    (found.filter (·.path = place)).Sublist (found.filter (·.path.text == place.text)) := by
  refine List.monotone_filter_right _ fun violation heq => ?_
  rw [decide_eq_true_eq] at heq
  exact beq_iff_eq.mpr (congrArg Path.text heq)

/-- Looking up a place by its text misses nothing. -/
theorem kindsAt_sublist (place : Path) :
    (failure.kindsAt place).Sublist (failure.at_ place.text) :=
  (filter_path_sublist place failure.violations).map _

/-- A place is found by its text exactly where no violation stands at another place with it. -/
theorem looksUp_iff {place : Path} :
    failure.LooksUp place ↔
      ∀ violation ∈ failure.violations, violation.path.text = place.text →
        violation.path = place := by
  constructor
  · intro h violation hmem htext
    have hlength := congrArg List.length h
    simp only [at_, kindsAt, List.length_map] at hlength
    have hfound : violation ∈ failure.violations.filter (·.path.text == place.text) :=
      List.mem_filter.mpr ⟨hmem, beq_iff_eq.mpr htext⟩
    rw [← (filter_path_sublist _ _).eq_of_length hlength.symm] at hfound
    simpa using (List.mem_filter.mp hfound).2
  · intro h
    unfold LooksUp at_ kindsAt
    congr 1
    refine List.filter_congr fun violation hmem => ?_
    rw [Bool.eq_iff_iff, beq_iff_eq, decide_eq_true_eq]
    exact ⟨h violation hmem, congrArg Path.text⟩

end Failure

namespace ModelSet

variable {set : ModelSet} {type : Ty} {value : Json} {failure : Failure}

/-- In a refusal, the text of a violation's place finds everything that is wrong with the place, and
that alone exactly where no other violation stands at a place that blends with it. So it does
wherever no name in the set or in the value is another one with the beginning of a step behind
it. -/
theorem decode_looksUp (h : set.decode type value = .error (.failed failure)) :
    (∀ violation ∈ failure.violations,
      (failure.kindsAt violation.path).Sublist (failure.at_ violation.path.text)) ∧
    (∀ violation ∈ failure.violations, failure.LooksUp violation.path ↔
      ∀ other ∈ failure.violations,
        ¬ Path.Blends violation.path other.path ∧ ¬ Path.Blends other.path violation.path) ∧
    ((∀ name other, set.HasName name ∨ value.HasKey name → set.HasName other ∨ value.HasKey other →
        ¬ Continues name other) →
      ∀ violation ∈ failure.violations, failure.LooksUp violation.path) := by
  obtain ⟨hreports, -, -⟩ := reports_of_decode h
  have hlocated := hreports.located
  have hnames : set.Names value failure.violations := hreports.names
  have hiff : ∀ violation ∈ failure.violations, failure.LooksUp violation.path ↔
      ∀ other ∈ failure.violations,
        ¬ Path.Blends violation.path other.path ∧ ¬ Path.Blends other.path violation.path := by
    intro violation hmem
    rw [Failure.looksUp_iff]
    exact forall₂_congr fun other hother =>
      (Json.Holds.of_located (hlocated other hother)).eq_of_text_iff
        (.of_located (hlocated violation hmem))
  refine ⟨fun _ _ => Failure.kindsAt_sublist _, hiff, fun hcontinues violation hmem => ?_⟩
  have hnot : ∀ first ∈ failure.violations, ∀ second ∈ failure.violations,
      ¬ Path.Blends first.path second.path := by
    intro first hfirst second hsecond hblends
    obtain ⟨name, next, hname, hnext, hnext'⟩ := hblends.exists_continues
    exact hcontinues name next (hnames first hfirst name hname)
      (hnames second hsecond next hnext) hnext'
  exact (hiff violation hmem).mpr fun other hother =>
    ⟨hnot _ hmem _ hother, hnot _ hother _ hmem⟩

end ModelSet

namespace Document

/-! ## A key that reads like a place -/

/-- An owner with a pet, which has a name. -/
def owners : Document where
  dialect := .openApi30
  schemas := #[
    { dialect := .openApi30, identity := some "Owner", type := some .object
      properties := [("pet", { id := 1 })] },
    { dialect := .openApi30, identity := some "Owner.pet", type := some .object
      properties := [("name", { id := 2 })], required := ["name"] },
    { dialect := .openApi30, identity := some "Owner.pet.name", type := some .string }]
  named := [("Owner", 0)]

/-- The models of `owners`. -/
def ownerModels : ModelSet where
  models := #[
    { name := "Owner", schema := 0, shape := .object [{ name := "pet", type := .model 1 }] },
    { name := "Owner.pet", schema := 1
      shape := .object [{ name := "name", type := .scalar .text, required := true }] }]
  bySchema := [(1, 1), (0, 0)]
  roots := [("Owner", some (.model 0))]

set_option maxRecDepth 2000 in
theorem owners_compile : owners.compile = .ok ownerModels := by rfl

/-- The place of the name of an owner's pet. -/
def petName : Path := [.field "pet", .field "name"]

/-- The refusal of an owner whose pet has no name. -/
def namelessPet : Failure := ⟨"Owner", [⟨petName, .missingField⟩]⟩

/-- The missing name of the pet is found where it is. -/
theorem namelessPet_looksUp :
    owners.compile = .ok ownerModels ∧
      ownerModels.decode (.model 0) (.obj [("pet", .obj [])]) = .error (.failed namelessPet) ∧
      namelessPet.LooksUp petName := by
  have hdecode : ownerModels.decode (.model 0) (.obj [("pet", .obj [])]) =
      .error (.failed namelessPet) := by rfl
  refine ⟨owners_compile, hdecode, ?_⟩
  refine ((ModelSet.decode_looksUp hdecode).2.1 _ (List.mem_singleton.mpr rfl)).mpr ?_
  intro other hother
  cases List.mem_singleton.mp hother
  exact ⟨fun hblends => hblends.ne rfl, fun hblends => hblends.ne rfl⟩

/-- The refusal of such an owner who has a key `pet.name` besides. -/
def dottedPet : Failure :=
  ⟨"Owner", [⟨petName, .missingField⟩, ⟨[.field "pet.name"], .unexpectedField "Owner"⟩]⟩

/-- The key of the owner is found at the name of the pet. -/
theorem dottedPet_not_looksUp :
    owners.compile = .ok ownerModels ∧
      ownerModels.decode (.model 0) (.obj [("pet", .obj []), ("pet.name", .str "Rex")]) =
        .error (.failed dottedPet) ∧
      petName ≠ [.field "pet.name"] ∧ Path.text petName = Path.text [.field "pet.name"] ∧
      dottedPet.at_ (Path.text petName) = [.missingField, .unexpectedField "Owner"] ∧
      dottedPet.kindsAt petName = [.missingField] := by
  refine ⟨owners_compile, by rfl, by decide, by decide, by decide, by decide⟩

end Document
end OpenApi
