-- SUMMARY: Loading a text and loading the value of the text give the same document.
import Mathlib
import OpenApi.Document.Load
import OpenApi.Proofs.Wire.Agreement

/-!
# Loading texts and values

A document is loaded from a text as it is read, or from the value that the text stands for.
Where no object of the text has a key twice, both ways give the same document. If one fails
both do, with the same error unless it says that the document could not be read: then only
the text knows where, and what was noticed first may differ.
-/

namespace OpenApi

/-! ## Texts -/

namespace Json

/-- No object in a text has a key twice. -/
def KeysOnce (text : String) : Prop :=
  ∀ contents, (Tree.read text).1.contents = .ok contents → contents.Distinct

/-- A text without repeated keys is read into an intact tree of its value. -/
theorem KeysOnce.intact {text : String} {value : Json} (hkeys : KeysOnce text)
    (hparse : parse text = .ok value) : (Tree.read text).1.Intact value := by
  obtain ⟨contents, hintact, rfl⟩ := intact_of_parse hparse
  rwa [distinct_eq (hkeys contents hintact.contents_eq)]

end Json

/-- The error says that a document could not be read. -/
def SchemaError.IsParse (error : SchemaError) : Prop :=
  ∃ path cause position, error = .parse path cause position

/-! ## Documents -/

namespace Document

/-- A text and its value are loaded as the same document, or neither is loaded. Then the errors
are equal, or both say that the document could not be read. -/
theorem ofText_ofJson {text : String} {value : Json} (hparse : Json.parse text = .ok value)
    (hkeys : Json.KeysOnce text) :
    (∀ doc, ofText text = .ok doc ↔ ofJson value = .ok doc) ∧
      ∀ error error', ofText text = .error error → ofJson value = .error error' →
        error = error' ∨ error.IsParse ∧ error'.IsParse := by
  have hread := Wire.readDocument_agree (hkeys.intact hparse)
  unfold ofText ofJson
  generalize Wire.readDocument (Json.Tree.read text).1 = result at hread
  generalize Wire.readDocument (.ofJson value) = result' at hread
  cases hread with
  | @ok written _ heq =>
      subst heq
      refine ⟨fun _ => Iff.rfl, fun error error' h h' => .inl ?_⟩
      exact Except.error.inj (h.symm.trans h')
  | error fault fault' =>
      refine ⟨fun _ => iff_of_false nofun nofun, fun error error' h h' => .inr ?_⟩
      exact ⟨⟨_, _, _, (Except.error.inj h).symm⟩, ⟨_, _, _, (Except.error.inj h').symm⟩⟩

/-! ## Two texts -/

/-- A document written as a list of its fields, with a member that schemas do not have. -/
def listedText : String :=
  "[\"2.0\", null, \x7b\"Dog\": \x7b\"type\": \"object\", \"note\": [1]\x7d\x7d]"

def listedValue : Json :=
  .arr [.str "2.0", .null,
    .obj [("Dog", .obj [("type", .str "object"), ("note", .arr [.num (.int 1)])])]]

/-- The document of `listedText`. -/
def listed : Document where
  dialect := .swagger2
  schemas := #[{ dialect := .swagger2, identity := some "Dog", type := some .object }]
  named := [("Dog", 0)]

/-- A document written as a list with an item more than it has fields. -/
def overfullText : String := "[\"2.0\", null, \x7b\x7d, \x7b\x7d, 5]"

def overfullValue : Json :=
  .arr [.str "2.0", .null, .obj [], .obj [], .num (.int 5)]

theorem listedText_keysOnce : Json.KeysOnce listedText := by
  have hread : (Json.Tree.read listedText).1.contents = .ok listedValue := by cbv
  intro contents hcontents
  cases hread.symm.trans hcontents
  have hdog : Json.Distinct (.obj [("type", .str "object"), ("note", .arr [.num (.int 1)])]) := by
    refine .obj (by decide) ?_
    simp only [List.forall_mem_cons, List.not_mem_nil, false_implies, implies_true, and_true]
    exact ⟨.str _, .arr (by simpa using .num _)⟩
  refine .arr ?_
  simp only [List.forall_mem_cons, List.not_mem_nil, false_implies, implies_true, and_true]
  exact ⟨.str _, .null, .obj (by decide) (by simpa using hdog)⟩

theorem overfullText_keysOnce : Json.KeysOnce overfullText := by
  have hread : (Json.Tree.read overfullText).1.contents = .ok overfullValue := by cbv
  intro contents hcontents
  cases hread.symm.trans hcontents
  refine .arr ?_
  simp only [List.forall_mem_cons, List.not_mem_nil, false_implies, implies_true, and_true]
  exact ⟨.str _, .null, .obj (by decide) (by simp), .obj (by decide) (by simp), .num _⟩

/-- The one is loaded either way. The other is not: the text is refused where the last item
starts, and the value by its length. -/
theorem listed_load :
    Json.parse listedText = .ok listedValue ∧ Json.KeysOnce listedText ∧
      ofText listedText = .ok listed ∧ ofJson listedValue = .ok listed ∧
      Json.parse overfullText = .ok overfullValue ∧ Json.KeysOnce overfullText ∧
      ∃ error error', ofText overfullText = .error error ∧ ofJson overfullValue = .error error' ∧
        error ≠ error' ∧ error.IsParse ∧ error'.IsParse := by
  have hparse : Json.parse listedText = .ok listedValue := by cbv
  have hload : ofJson listedValue = .ok listed := by cbv
  have htext := ((ofText_ofJson hparse listedText_keysOnce).1 listed).mpr hload
  have hparse' : Json.parse overfullText = .ok overfullValue := by cbv
  have hfail : ofText overfullText =
      .error (.parse [] (.malformed .trailingCharacters) (some ⟨1, 23⟩)) := by cbv
  have hfail' : ofJson overfullValue = .error (.parse [] (.tooLong 5) none) := by cbv
  have hne : SchemaError.parse [] (.malformed .trailingCharacters) (some ⟨1, 23⟩) ≠
      .parse [] (.tooLong 5) none := by simp
  have hparses :=
    ((ofText_ofJson hparse' overfullText_keysOnce).2 _ _ hfail hfail').resolve_left hne
  exact ⟨hparse, listedText_keysOnce, htext, hload, hparse', overfullText_keysOnce,
    _, _, hfail, hfail', hne, hparses⟩

end Document
end OpenApi
