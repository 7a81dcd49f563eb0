-- SUMMARY: The samples in a file, in terms of the texts that have to be values.
import OpenApi.Proofs.Command.Files

/-!
# The samples in a file

A file holds candidates: itself, or its lines that are not blank, each with a label. Every
candidate has to be a value in which something is selected. Then the samples in the file are
what is selected, candidate by candidate; otherwise the file has no samples at all.
-/

namespace OpenApi

/-! ## Candidates -/

namespace Inputs

variable (inputs : Inputs)

/-- The lines that are not blank, labelled with their numbers among all lines, the first of which
has the number `place`. -/
def numbered (path : String) (place : Nat) (lines : List String) : List (String × String) :=
  ((lines.zipIdx place).filter fun line => !Text.isBlankText line.1).map fun line =>
    (path ++ ":" ++ toString line.2, line.1)

/-- The texts in a file that have to be values, with their labels. -/
def candidates (path text : String) : List (String × String) :=
  if inputs.byLine then numbered path 1 (Text.lines text) else [(path, text)]

/-- The part of a value that is selected. -/
def selected? (value : Json) : Option Json :=
  match inputs.pointer with
  | none => some value
  | some pointer => value.pointer? pointer

/-- A candidate gives a sample: it is a value, and the sample is what is selected in it. -/
inductive Yields : String × String → Command.Sample → Prop
  | intro {label text value part} : Json.parse text = .ok value →
      inputs.selected? value = some part → Yields (label, text) { label, value := part }

/-- A candidate gives no sample: it is no value, or nothing is selected in it. -/
inductive Lacks : String × String → Prop
  | parse {label text fault} : Json.parse text = .error fault → Lacks (label, text)
  | select {label text value} : Json.parse text = .ok value → inputs.selected? value = none →
      Lacks (label, text)

variable {inputs} in
theorem Lacks.not_yields {candidate : String × String} {sample : Command.Sample}
    (hlacks : inputs.Lacks candidate) : ¬ inputs.Yields candidate sample := by
  intro hyields
  obtain ⟨hparse, hselect⟩ := hyields
  cases hlacks with
  | parse herror => cases hparse.symm.trans herror
  | select hparse' hnone =>
    cases hparse.symm.trans hparse'
    cases hselect.symm.trans hnone

variable {inputs} in
theorem Yields.unique {candidate : String × String} {sample sample' : Command.Sample}
    (h : inputs.Yields candidate sample) (h' : inputs.Yields candidate sample') :
    sample = sample' := by
  obtain ⟨hparse, hselect⟩ := h
  obtain ⟨hparse', hselect'⟩ := h'
  cases hparse.symm.trans hparse'
  cases hselect.symm.trans hselect'
  rfl

end Inputs

/-! ## Samples -/

namespace Command

open Inputs (numbered)

variable {inputs : Inputs} {path text : String}

/-- A candidate is a value. -/
inductive Parses : String × String → Sample → Prop
  | intro {label text value} : Json.parse text = .ok value → Parses (label, text) { label, value }

theorem parse_gives {label : String} {failure : Json.Fault → Failure} {bad : Prop}
    (hbad : inputs.Lacks (label, text) → bad) :
    Gives (fun value => Parses (label, text) { label, value }) (fun _ => bad)
      ((Json.parse text).mapError failure) := by
  cases hparse : Json.parse text with
  | ok value => exact .intro hparse
  | error fault => exact hbad (.parse hparse)

/-- Reading lines skips the blank ones and counts them. -/
theorem readLines_gives {place : Nat} {lines : List String} :
    Gives (List.Forall₂ Parses (numbered path place lines))
      (fun _ => ∃ candidate ∈ numbered path place lines, inputs.Lacks candidate)
      (readLines path place lines) := by
  induction lines generalizing place with
  | nil => exact .nil
  | cons line rest ih =>
    unfold readLines
    split
    · rename_i hblank
      have hskip : numbered path place (line :: rest) = numbered path (place + 1) rest := by
        simp [numbered, hblank]
      rw [hskip]
      exact ih
    · rename_i hblank
      have hcons : numbered path place (line :: rest) =
          (path ++ ":" ++ toString place, line) :: numbered path (place + 1) rest := by
        simp [numbered, hblank]
      rw [hcons]
      refine (parse_gives fun hlacks => ⟨_, List.mem_cons_self, hlacks⟩).bind ?_
      intro value hparses
      refine (ih.imp (fun _ => id) ?_).bind fun samples hsamples => ?_
      · rintro - ⟨candidate, hmem, hlacks⟩
        exact ⟨candidate, List.mem_cons_of_mem _ hmem, hlacks⟩
      · exact .cons hparses hsamples

theorem readSamples_gives :
    Gives (List.Forall₂ Parses (inputs.candidates path text))
      (fun _ => ∃ candidate ∈ inputs.candidates path text, inputs.Lacks candidate)
      (readSamples inputs path text) := by
  unfold readSamples Inputs.candidates
  split
  · exact readLines_gives
  · refine (parse_gives fun hlacks => ⟨_, List.mem_singleton_self _, hlacks⟩).bind ?_
    exact fun value hparses => .cons hparses .nil

/-- Selecting in a sample keeps its label. -/
theorem select_gives {candidate : String × String} {sample : Sample}
    (hparses : Parses candidate sample) :
    Gives (inputs.Yields candidate) (fun _ => inputs.Lacks candidate) (select inputs sample) := by
  obtain ⟨hparse⟩ := hparses
  unfold select
  split
  · rename_i hpointer
    exact .intro hparse (by simp [Inputs.selected?, hpointer])
  · rename_i pointer hpointer
    split
    · rename_i hselect
      exact .intro hparse (by simp [Inputs.selected?, hpointer, hselect])
    · rename_i hselect
      exact .select hparse (by simp [Inputs.selected?, hpointer, hselect])

/-- A file gives a sample for each candidate, unless some candidate gives none. -/
theorem samplesOf_gives :
    Gives (List.Forall₂ inputs.Yields (inputs.candidates path text))
      (fun _ => ∃ candidate ∈ inputs.candidates path text, inputs.Lacks candidate)
      (samplesOf inputs path text) := by
  refine readSamples_gives.bind fun samples hsamples => ?_
  refine gives_mapM hsamples fun candidate hmem sample hparses => ?_
  exact (select_gives hparses).imp (fun _ => id) fun _ hlacks => ⟨candidate, hmem, hlacks⟩

end Command
end OpenApi
