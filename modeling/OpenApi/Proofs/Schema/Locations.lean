-- SUMMARY: Locations of schemas in a document, and the texts of locations that run together.
import OpenApi.Proofs.AliasChains
import OpenApi.Proofs.Schema.Ownership

/-!
# Locations of schemas

A schema that is written in place stands where its owner stands, one step further in: at a
property, at the items, or at a member behind a keyword. A named schema stands at its name.
The text of a location joins the name and the words of the steps with dots. A name may hold
a dot or be a keyword, so two locations may have one text. That happens in one way only: the
locations part somewhere, the word by which the one goes on is that of the other with more
behind it, and the steps that follow make up for the difference.
-/

namespace OpenApi

/-! ## Steps -/

/-- The keywords that have members. -/
inductive Keyword where
  | allOf | anyOf | oneOf
deriving DecidableEq

def Keyword.text : Keyword → String
  | .allOf => "allOf"
  | .anyOf => "anyOf"
  | .oneOf => "oneOf"

/-- A step from a schema to one that is written inside it. -/
inductive SchemaStep where
  | property (name : String)
  | items
  | member (keyword : Keyword) (place : Nat)
deriving DecidableEq

namespace SchemaStep

/-- What stands for a step in an identity. -/
def word : SchemaStep → String
  | .property name => name
  | .items => "items"
  | .member keyword place => keyword.text ++ "." ++ toString place

def text (step : SchemaStep) : String := "." ++ step.word

/-- The text of steps, one after another. -/
def texts (steps : List SchemaStep) : String := String.join (steps.map text)

@[simp] theorem texts_nil : texts [] = "" := rfl

@[simp] theorem texts_cons (step : SchemaStep) (rest : List SchemaStep) :
    texts (step :: rest) = "." ++ (step.word ++ texts rest) := by
  simp [texts, text, String.append_assoc]

theorem texts_eq_empty {steps : List SchemaStep} : texts steps = "" ↔ steps = [] := by
  cases steps <;> simp [← String.toList_inj]

/-- The steps part somewhere. There the word for the second goes on with more than the word for the
first, perhaps with nothing, and the steps that follow the first make up for that. -/
inductive Blends : List SchemaStep → List SchemaStep → Prop where
  | here {step other : SchemaStep} {more : String} {rest tail : List SchemaStep} :
      step ≠ other → other.word = step.word ++ more → texts rest = more ++ texts tail →
        Blends (step :: rest) (other :: tail)
  | inside {first second : List SchemaStep} (step : SchemaStep) :
      Blends first second → Blends (step :: first) (step :: second)

namespace Blends

variable {first second : List SchemaStep}

theorem texts_eq (h : Blends first second) : texts first = texts second := by
  induction h with
  | here _ hword htexts => simp [hword, htexts, String.append_assoc]
  | inside step _ ih => rw [texts_cons, texts_cons, ih]

theorem ne (h : Blends first second) : first ≠ second := by
  induction h with
  | here hne => exact fun heq => hne (List.cons.inj heq).1
  | inside _ _ ih => exact fun heq => ih (List.cons.inj heq).2

end Blends

/-- Steps with one text are the same steps, or they blend. -/
theorem eq_or_blends {first second : List SchemaStep} (h : texts first = texts second) :
    first = second ∨ Blends first second ∨ Blends second first := by
  induction first generalizing second with
  | nil => exact .inl (texts_eq_empty.mp h.symm).symm
  | cons step rest ih =>
      cases second with
      | nil => exact .inl (texts_eq_empty.mp h)
      | cons other tail =>
          rw [texts_cons, texts_cons, String.append_right_inj] at h
          by_cases heq : step = other
          · subst heq
            rw [String.append_right_inj] at h
            exact (ih h).imp (congrArg _) (Or.imp (.inside _) (.inside _))
          · -- One of the words is a front of the other.
            have hlists := congrArg String.toList h
            simp only [String.toList_append] at hlists
            refine .inr ?_
            rcases List.append_eq_append_iff.mp hlists with
              ⟨more, hword, htexts⟩ | ⟨more, hword, htexts⟩
            · have hother : other.word = step.word ++ String.ofList more := by
                simpa [← String.toList_inj] using hword
              exact .inl (.here heq hother (by simpa [← String.toList_inj] using htexts))
            · have hstep : step.word = other.word ++ String.ofList more := by
                simpa [← String.toList_inj] using hword
              exact .inr (.here (Ne.symm heq) hstep (by simpa [← String.toList_inj] using htexts))

end SchemaStep

/-! ## Locations -/

/-- The name of a named schema, and the steps from there inwards. -/
@[ext]
structure Location where
  name : String
  steps : List SchemaStep
deriving DecidableEq

namespace Location

/-- One step further in. -/
def inside (location : Location) (step : SchemaStep) : Location :=
  { location with steps := location.steps ++ [step] }

def text (location : Location) : String := location.name ++ SchemaStep.texts location.steps

theorem text_inside (location : Location) (step : SchemaStep) :
    (location.inside step).text = location.text ++ step.text := by
  simp [text, inside, SchemaStep.texts, String.append_assoc]

/-- Either the steps from one name blend, or the second name goes on with more than the first, and
the steps from the first make up for that. -/
inductive Blends : Location → Location → Prop where
  | names {name more : String} {first second : List SchemaStep} :
      more ≠ "" → SchemaStep.texts first = more ++ SchemaStep.texts second →
        Blends ⟨name, first⟩ ⟨name ++ more, second⟩
  | steps {name : String} {first second : List SchemaStep} :
      SchemaStep.Blends first second → Blends ⟨name, first⟩ ⟨name, second⟩

theorem Blends.text_eq {first second : Location} (h : Blends first second) :
    first.text = second.text := by
  cases h with
  | names _ htexts => simp [text, htexts, String.append_assoc]
  | steps h => rw [text, text, h.texts_eq]

theorem blends_of_append {name more : String} {first second : List SchemaStep}
    (h : SchemaStep.texts first = more ++ SchemaStep.texts second) :
    Location.mk name first = ⟨name ++ more, second⟩ ∨ Blends ⟨name, first⟩ ⟨name ++ more, second⟩ ∨
      Blends ⟨name ++ more, second⟩ ⟨name, first⟩ := by
  by_cases hmore : more = ""
  · subst hmore
    rw [String.empty_append] at h
    rw [String.append_empty]
    exact (SchemaStep.eq_or_blends h).imp (congrArg _) (Or.imp .steps .steps)
  · exact .inr (.inl (.names hmore h))

/-- Locations with one text are one location, or they blend. -/
theorem eq_or_blends {first second : Location} (h : first.text = second.text) :
    first = second ∨ Blends first second ∨ Blends second first := by
  obtain ⟨name, steps⟩ := first
  obtain ⟨other, steps'⟩ := second
  have hlists := congrArg String.toList h
  simp only [text, String.toList_append] at hlists
  rcases List.append_eq_append_iff.mp hlists with ⟨more, hname, htexts⟩ | ⟨more, hname, htexts⟩
  · obtain rfl : other = name ++ String.ofList more := by simpa [← String.toList_inj] using hname
    refine blends_of_append ?_
    simpa [← String.toList_inj] using htexts
  · obtain rfl : name = other ++ String.ofList more := by simpa [← String.toList_inj] using hname
    have htexts' : SchemaStep.texts steps' = String.ofList more ++ SchemaStep.texts steps := by
      simpa [← String.toList_inj] using htexts
    exact (blends_of_append htexts').imp Eq.symm Or.symm

/-- The texts of two locations tell them apart unless they blend. -/
theorem text_eq_iff {first second : Location} (hne : first ≠ second) :
    first.text = second.text ↔ Blends first second ∨ Blends second first :=
  ⟨fun h => (eq_or_blends h).resolve_left hne,
    fun h => h.elim Blends.text_eq fun h => h.text_eq.symm⟩

end Location

/-! ## Plain names -/

/-- The words with a meaning of their own in the texts of locations. -/
def reservedWords : List String := ["items", "allOf", "anyOf", "oneOf"]

namespace Keyword

theorem text_mem_reservedWords (keyword : Keyword) : keyword.text ∈ reservedWords := by
  cases keyword <;> decide

theorem text_inj {keyword other : Keyword} (h : keyword.text = other.text) : keyword = other := by
  revert h
  cases keyword <;> cases other <;> decide

end Keyword

private theorem toString_inj {first second : Nat} (h : toString first = toString second) :
    first = second := by
  have hdigits : Nat.toDigits 10 first = Nat.toDigits 10 second := by
    rw [← Nat.toList_repr, ← Nat.toList_repr]
    exact congrArg String.toList h
  rw [← Nat.ofDigitChars_ten_toDigits (n := first), hdigits, Nat.ofDigitChars_ten_toDigits]

private theorem dot_notMem_toDigits (place : Nat) : '.' ∉ Nat.toDigits 10 place := by
  intro hmem
  exact absurd (Nat.isDigit_of_mem_toDigits (by decide) (by decide) hmem) (by decide)

namespace SchemaStep

/-- The words between dots in the text of a step whose name holds no dot. -/
def segments : SchemaStep → List String
  | .property name => [name]
  | .items => ["items"]
  | .member keyword place => [keyword.text, toString place]

/-- The name of a property holds no dot and is no reserved word. -/
def Plain : SchemaStep → Prop
  | .property name => '.' ∉ name.toList ∧ name ∉ reservedWords
  | .items | .member _ _ => True

theorem Plain.dot_notMem {step : SchemaStep} (h : step.Plain) :
    ∀ segment ∈ step.segments, '.' ∉ segment.toList := by
  cases step with
  | property name => simpa [segments] using h.1
  | items => simp [segments]
  | member keyword place =>
      have htext : '.' ∉ keyword.text.toList := by cases keyword <;> decide
      simpa [segments] using ⟨htext, dot_notMem_toDigits place⟩

/-- Plain steps are known by their words: a reserved word is no property. -/
theorem eq_of_segments {first second : List SchemaStep} (h : ∀ step ∈ first, step.Plain)
    (h' : ∀ step ∈ second, step.Plain)
    (heq : first.flatMap segments = second.flatMap segments) : first = second := by
  induction first generalizing second with
  | nil =>
      cases second with
      | nil => rfl
      | cons other _ => cases other <;> simp [segments] at heq
  | cons step rest ih =>
      cases second with
      | nil => cases step <;> simp [segments] at heq
      | cons other tail =>
          rw [List.forall_mem_cons] at h h'
          have hitems : ∀ keyword : Keyword, "items" ≠ keyword.text := by
            intro keyword
            cases keyword <;> decide
          have hsame : step = other ∧ rest.flatMap segments = tail.flatMap segments := by
            cases step <;> cases other <;>
              simp only [List.flatMap_cons, segments, List.cons_append, List.nil_append,
                List.cons.injEq] at heq
            case property.property => exact ⟨congrArg _ heq.1, heq.2⟩
            case property.items => exact absurd (by simp [heq.1, reservedWords]) h.1.2
            case property.member keyword _ =>
              exact absurd (heq.1 ▸ keyword.text_mem_reservedWords) h.1.2
            case items.property => exact absurd (by simp [← heq.1, reservedWords]) h'.1.2
            case items.items => exact ⟨rfl, heq.2⟩
            case items.member keyword _ => exact absurd heq.1 (hitems keyword)
            case member.property keyword _ _ =>
              exact absurd (heq.1 ▸ keyword.text_mem_reservedWords) h'.1.2
            case member.items keyword _ => exact absurd heq.1.symm (hitems keyword)
            case member.member =>
              obtain ⟨hkeyword, hplace, hrest⟩ := heq
              rw [Keyword.text_inj hkeyword, toString_inj hplace]
              exact ⟨rfl, hrest⟩
          rw [hsame.1, ih h.2 h'.2 hsame.2]

end SchemaStep

namespace Location

variable {location first second : Location}

/-- The name of the location holds no dot, and its steps are plain. -/
structure Plain (location : Location) : Prop where
  name : '.' ∉ location.name.toList
  steps : ∀ step ∈ location.steps, step.Plain

/-- The words between dots in the text of a plain location. -/
def segments (location : Location) : List String :=
  location.name :: location.steps.flatMap SchemaStep.segments

theorem toList_text (location : Location) :
    location.text.toList = ['.'].intercalate (location.segments.map String.toList) := by
  have hjoin : ∀ (name : String) (words : List String),
      ['.'].intercalate ((name :: words).map String.toList) =
        name.toList ++ words.flatMap fun word => '.' :: word.toList := by
    intro name words
    induction words generalizing name with
    | nil => simp [List.intercalate]
    | cons word rest ih =>
        have hrest := ih word
        rw [List.map_cons] at hrest
        simp [List.intercalate] at hrest ⊢
        simp [hrest]
  have hsteps : ∀ steps : List SchemaStep, (SchemaStep.texts steps).toList =
      (steps.flatMap SchemaStep.segments).flatMap fun word => '.' :: word.toList := by
    intro steps
    induction steps with
    | nil => rfl
    | cons step rest ih =>
        cases step <;> simp [SchemaStep.segments, SchemaStep.word, ih]
  rw [segments, hjoin, text, String.toList_append, hsteps]

theorem Plain.splitOn_text (h : location.Plain) :
    location.text.toList.splitOn '.' = location.segments.map String.toList := by
  rw [toList_text]
  refine List.splitOn_intercalate _ ?_ (by simp [segments])
  intro word hword
  obtain ⟨segment, hsegment, rfl⟩ := List.mem_map.mp hword
  rcases List.mem_cons.mp hsegment with rfl | hsegment
  · exact h.name
  · obtain ⟨step, hstep, hmem⟩ := List.mem_flatMap.mp hsegment
    exact (h.steps step hstep).dot_notMem segment hmem

/-- Plain locations with one text are one location. -/
theorem Plain.eq_of_text (h : first.Plain) (h' : second.Plain) (htext : first.text = second.text) :
    first = second := by
  have hwords : first.segments = second.segments := by
    have hsplit := h.splitOn_text.symm.trans (htext ▸ h'.splitOn_text)
    exact List.map_injective_iff.mpr (fun _ _ => String.toList_inj.mp) hsplit
  obtain ⟨hname, hsteps⟩ := List.cons.inj hwords
  exact Location.ext hname (SchemaStep.eq_of_segments h.steps h'.steps hsteps)

end Location
end OpenApi
