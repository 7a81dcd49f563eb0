-- SUMMARY: A whole run to validate: what it prints, and when it fails.
import Mathlib
import OpenApi.Proofs.Command.Arguments
import OpenApi.Proofs.Command.Gathering
import OpenApi.Proofs.Compilation.Result

/-!
# A whole run to validate

Where a run is hindered it fails and prints nothing, because nothing is printed before all
samples are there. Otherwise it tells about all samples in their order, and fails if it
rejects one. A run without an end says nothing at all, because it decodes all samples before
it tells about the first.
-/

namespace OpenApi.Command

variable {files : FileSet} {schema root : String} {inputs : Inputs}

/-! ## What a run says -/

/-- The lines about a sample. -/
inductive Tells (set : ModelSet) (type : Ty) : Sample → List String → Prop
  | tick {sample answer} : set.decode type sample.value = .ok answer →
      Tells set type sample ["✓ " ++ sample.label]
  | cross {sample refusal} : set.decode type sample.value = .error (.failed refusal) →
      Tells set type sample (("✗ " ++ sample.label) :: refusal.violations.map fun violation =>
        "    " ++ violation.path.text ++ " " ++ violation.kind.message)

/-- How many samples are rejected. -/
def rejections (set : ModelSet) (type : Ty) (samples : List Sample) : Nat :=
  samples.countP fun sample =>
    match set.decode type sample.value with
    | .error (.failed _) => true
    | _ => false

/-- What comes of samples: lines about each in their order, and a failure if some are rejected,
which says how many of them. -/
structure Judges (set : ModelSet) (type : Ty) (root : String) (samples : List Sample)
    (outcome : Outcome) : Prop where
  output : ∃ lines, InOrder (Tells set type) samples lines ∧
    outcome.output = String.join (lines.map (· ++ "\n"))
  failure : outcome.failure.isSome = true ↔
    ∃ sample ∈ samples, ∃ refusal, set.decode type sample.value = .error (.failed refusal)
  message : ∀ failure, outcome.failure = some failure → failure.message =
    toString (rejections set type samples) ++ " of " ++ toString samples.length ++
      " instances failed validation against `" ++ root ++ "`"

theorem Tells.unique {set : ModelSet} {type : Ty} {sample : Sample} {lines lines' : List String}
    (h : Tells set type sample lines) (h' : Tells set type sample lines') : lines = lines' := by
  cases h with
  | tick h =>
    cases h' with
    | tick => rfl
    | cross h' => cases h.symm.trans h'
  | cross h =>
    cases h' with
    | tick h' => cases h.symm.trans h'
    | cross h' =>
      cases h.symm.trans h'
      rfl

theorem rejections_ne_zero_iff {set : ModelSet} {type : Ty} {samples : List Sample} :
    rejections set type samples ≠ 0 ↔
      ∃ sample ∈ samples, ∃ refusal, set.decode type sample.value = .error (.failed refusal) := by
  rw [← Nat.pos_iff_ne_zero, rejections, List.countP_pos_iff]
  refine exists_congr fun sample => and_congr_right fun _ => ?_
  split
  · rename_i refusal hrefused
    simp [hrefused]
  · rename_i hnot
    simpa using hnot

/-! ## Judging -/

/-- What decoding a sample ends with, beside the label of the sample. -/
def Decodes (set : ModelSet) (type : Ty) (sample : Sample)
    (outcome : String × Except OpenApi.Failure Instance) : Prop :=
  outcome.1 = sample.label ∧ set.decode type sample.value = outcome.2.mapError .failed

section

variable {set : ModelSet} {type : Ty} {samples : List Sample}
variable {outcomes : List (String × Except OpenApi.Failure Instance)}

/-- Decoding all samples ends where decoding each of them does. -/
theorem decodes_of_mapM
    (h : (samples.mapM fun sample => (ended (set.decode type sample.value)).map (sample.label, ·)) =
      some outcomes) : List.Forall₂ (Decodes set type) samples outcomes := by
  induction samples generalizing outcomes with
  | nil =>
    obtain rfl := Option.some.inj h
    exact .nil
  | cons sample rest ih =>
    rw [List.mapM_cons] at h
    obtain ⟨own, hown, h⟩ := Option.bind_eq_some_iff.mp h
    obtain ⟨others, hothers, h⟩ := Option.bind_eq_some_iff.mp h
    obtain rfl := Option.some.inj h
    obtain ⟨result, hresult, rfl⟩ := Option.map_eq_some_iff.mp hown
    exact .cons ⟨rfl, ended_eq_some_iff.mp hresult⟩ (ih hothers)

theorem mapM_eq_none_iff {α β : Type} {step : α → Option β} {items : List α} :
    items.mapM step = none ↔ ∃ item ∈ items, step item = none := by
  induction items with
  | nil => simp
  | cons item rest ih =>
    rw [List.mapM_cons, List.exists_mem_cons_iff, ← ih]
    cases step item with
    | none => simp
    | some answer => cases rest.mapM step <;> simp

theorem mapM_decode_eq_none_iff (htags : set.TagsInRange) :
    (samples.mapM fun sample => (ended (set.decode type sample.value)).map (sample.label, ·) :
      Option _) = none ↔ ∃ sample ∈ samples, ¬ set.Terminates type sample.value := by
  simp only [mapM_eq_none_iff, Option.map_eq_none_iff, ended_eq_none_iff,
    ModelSet.decode_eq_endless_iff htags]

theorem inOrder_verdicts (h : List.Forall₂ (Decodes set type) samples outcomes) :
    InOrder (Tells set type) samples
      (outcomes.flatMap fun (label, outcome) => verdict label outcome) := by
  induction h with
  | nil => exact .nil
  | @cons sample outcome _ _ hdecodes _ ih =>
    rw [List.flatMap_cons]
    refine .cons ?_ ih
    obtain ⟨label, result⟩ := outcome
    obtain ⟨rfl, hdecode⟩ := hdecodes
    cases result with
    | ok answer => exact .tick hdecode
    | error refusal => exact .cross hdecode

theorem countP_outcomes (h : List.Forall₂ (Decodes set type) samples outcomes) :
    outcomes.countP (fun (_, outcome) => !outcome.isOk) = rejections set type samples := by
  induction h with
  | nil => rfl
  | @cons sample outcome _ _ hdecodes _ ih =>
    rw [rejections, List.countP_cons, List.countP_cons, ih, hdecodes.2]
    obtain ⟨label, result⟩ := outcome
    cases result <;> rfl

theorem report_failure (h : List.Forall₂ (Decodes set type) samples outcomes) :
    (report root outcomes).failure =
      if rejections set type samples = 0 then none
      else some (.rejected (rejections set type samples) samples.length root) := by
  rw [← countP_outcomes h, h.length_eq]
  rfl

/-- A report on samples says about them what it should. -/
theorem report_judges (h : List.Forall₂ (Decodes set type) samples outcomes) :
    Judges set type root samples (report root outcomes) := by
  refine ⟨⟨_, inOrder_verdicts h, rfl⟩, ?_, fun failure hfailure => ?_⟩
  · rw [report_failure h, ← rejections_ne_zero_iff]
    split <;> simp_all
  · rw [report_failure h] at hfailure
    split at hfailure
    · exact absurd hfailure (by simp)
    · obtain rfl := Option.some.inj hfailure
      exact String.append_empty

/-- Judging samples reports on them, unless decoding one of them has no end. -/
theorem judge_cases (htags : set.TagsInRange) (root : String) (samples : List Sample) :
    (∃ outcome, judge set root type samples = some outcome ∧
      Judges set type root samples outcome ∧ ∀ sample ∈ samples, set.Terminates type sample.value) ∨
    (judge set root type samples = none ∧
      ∃ sample ∈ samples, ¬ set.Terminates type sample.value) := by
  unfold judge
  cases hdecode : samples.mapM fun sample =>
      (ended (set.decode type sample.value)).map (sample.label, ·) with
  | none => exact .inr ⟨rfl, (mapM_decode_eq_none_iff htags).mp hdecode⟩
  | some outcomes =>
    refine .inl ⟨_, rfl, report_judges (decodes_of_mapM hdecode), ?_⟩
    by_contra hnot
    push Not at hnot
    cases ((mapM_decode_eq_none_iff htags).mpr hnot).symm.trans hdecode

end

/-! ## Running -/

/-- What a run is for: everything it needs is there, and every sample is judged. -/
inductive Completes (files : FileSet) (schema : String) (inputs : Inputs) (root : String)
    (outcome : Outcome) : Prop
  | intro {set type samples} : Compiles files schema set → set.root root = some type →
      Gathers files inputs samples → (∀ sample ∈ samples, set.Terminates type sample.value) →
      Judges set type root samples outcome → Completes files schema inputs root outcome

variable {outcome : Outcome}

theorem Completes.not_hindered (h : Completes files schema inputs root outcome) :
    ¬ Hindered files schema inputs root := by
  obtain ⟨hcompiles, hroot, hgathers, -, -⟩ := h
  exact fun hhindered => hhindered.not_gathers hcompiles hroot hgathers

theorem Completes.not_endless (h : Completes files schema inputs root outcome) :
    ¬ Endless files schema inputs root := by
  obtain ⟨hcompiles, hroot, hgathers, hends, -⟩ := h
  intro hendless
  obtain ⟨type', samples', hroot', hgathers', sample, hmem, hnot⟩ := hendless.of_compiles hcompiles
  cases hroot.symm.trans hroot'
  obtain rfl := hgathers.unique hgathers'
  exact hnot (hends sample hmem)

theorem Compiles.tagsInRange {set : ModelSet} (h : Compiles files schema set) :
    set.TagsInRange := by
  obtain ⟨-, -, hcompile⟩ := h
  exact ModelSet.tagsInRange (Document.compile_wellFormed hcompile)

theorem carryOut_leads :
    Leads files (Completes files schema inputs root) (Stops files schema inputs root)
      (carryOut FileSet.disk (.validate schema inputs root)) := by
  refine compileAt_leads.bind fun set hcompiles => ?_
  split
  · rename_i hroot
    exact leads_throw (Hindered.noRoot hcompiles hroot |>.stops hcompiles)
  · rename_i type hroot
    refine (loadSamples_leads hcompiles).bind fun samples hgathers => ?_
    obtain ⟨outcome, hjudge, hjudges, hends⟩ | ⟨hjudge, sample, hmem, hendless⟩ :=
      judge_cases hcompiles.tagsInRange root samples
    · rw [hjudge]
      exact leads_pure (.intro hcompiles hroot hgathers hends hjudges)
    · rw [hjudge]
      exact leads_throw (.endless (.decode hcompiles hroot hgathers hmem hendless))

/-- The outcome of a command that was carried out, failed, or had no end. -/
def outcomeOf : Except (Stop Failure) Outcome → Option Outcome
  | .ok outcome => some outcome
  | .error (.failed failure) => some { failure := some failure }
  | .error .endless => none

theorem run_eq {command : Command} {result : Except (Stop Failure) Outcome}
    (h : (carryOut FileSet.disk command).run.run files = (result, files)) :
    (run FileSet.disk command).run files = (outcomeOf result, files) := by
  change ((ended ((carryOut FileSet.disk command).run.run files).1).map _,
    ((carryOut FileSet.disk command).run.run files).2) = _
  rw [h]
  rcases result with (failure | _) | outcome <;> rfl

/-- A run to validate leaves the files as they are. It says nothing if it has no end. Any other run
prints nothing and fails where something is missing, whatever else is there. Otherwise it prints
what is to be said about each sample, in the order of the patterns, of the files and of the
candidates, and it fails exactly if a sample is rejected, with the numbers of those and of all. -/
theorem run_validate {arguments : List String}
    (hread : read arguments = .ok (.validate schema inputs root)) (files : FileSet) :
    inputs.patterns ≠ [] ∧
    (Endless files schema inputs root →
      (run FileSet.disk (.validate schema inputs root)).run files = (none, files)) ∧
    (¬ Endless files schema inputs root → ∃ outcome,
      (run FileSet.disk (.validate schema inputs root)).run files = (some outcome, files) ∧
      (Hindered files schema inputs root → outcome.output = "" ∧ outcome.failure.isSome = true) ∧
      (¬ Hindered files schema inputs root → ∃ set type samples,
        Compiles files schema set ∧ set.root root = some type ∧ Gathers files inputs samples ∧
          Judges set type root samples outcome)) := by
  refine ⟨patterns_ne_nil_of_read hread, ?_⟩
  have hleads : Leads files _ (Stops files schema inputs root)
      (carryOut FileSet.disk (.validate schema inputs root)) := carryOut_leads
  obtain ⟨result, hrun, hresult⟩ := hleads
  cases result with
  | ok outcome =>
    have hcompletes : Completes files schema inputs root outcome := hresult
    refine ⟨fun hendless => absurd hendless hcompletes.not_endless, fun _ => ?_⟩
    refine ⟨outcome, run_eq hrun, fun h => absurd h hcompletes.not_hindered, fun _ => ?_⟩
    obtain ⟨hcompiles, hroot, hgathers, -, hjudges⟩ := hcompletes
    exact ⟨_, _, _, hcompiles, hroot, hgathers, hjudges⟩
  | error stop =>
    have hstops : Stops files schema inputs root stop := hresult
    cases hstops with
    | failed hhindered hends =>
      refine ⟨fun hendless => absurd hendless hends, fun _ => ?_⟩
      exact ⟨_, run_eq hrun, fun _ => ⟨rfl, rfl⟩, fun hnot => absurd hhindered hnot⟩
    | endless hendless => exact ⟨fun _ => run_eq hrun, fun hnot => absurd hendless hnot⟩

/-! ## A run -/

/-- A document with books, which have numbers of pages. -/
def booksText : String :=
  "\x7b\"swagger\": \"2.0\", \"definitions\": \x7b\"Book\": \x7b\"type\": \"object\", " ++
    "\"properties\": \x7b\"pages\": \x7b\"type\": \"integer\"\x7d\x7d\x7d\x7d\x7d"

/-- The models of `booksText`. -/
def booksModels : ModelSet where
  models := #[
    { name := "Book", schema := 0
      shape := .object [{ name := "pages", type := .scalar .integer }] }]
  bySchema := [(0, 0)]
  roots := [("Book", some (.model 0))]

/-- The document, and two files with books on their lines. -/
def shelf : FileSet where
  files := [
    (["api.json"], booksText),
    (["old.ndjson"], "\x7b\"pages\": 3\x7d\n\n\x7b\"pages\": \"x\"\x7d\n"),
    (["new.ndjson"], " \r\n\x7b\x7d")]

def shelfArguments : List String :=
  ["validate", "--schema", "api.json", "--root=Book", "-i", "old.ndjson", "new.ndjson", "--ndjson"]

def shelfInputs : Inputs := { patterns := ["old.ndjson", "new.ndjson"], byLine := true }

def shelfSamples : List Sample :=
  [⟨"old.ndjson:1", .obj [("pages", .num (.int 3))]⟩,
    ⟨"old.ndjson:3", .obj [("pages", .str "x")]⟩, ⟨"new.ndjson:2", .obj []⟩]

theorem shelf_compiles : Compiles shelf "api.json" booksModels := by
  have hload : Document.ofText booksText = .ok
      { dialect := .swagger2
        schemas := #[
          { dialect := .swagger2, identity := some "Book", type := some .object
            properties := [("pages", { id := 1 })] },
          { dialect := .swagger2, identity := some "Book.pages", type := some .integer }]
        named := [("Book", 0)] } := by cbv
  exact .intro (by cbv) hload rfl

theorem shelf_gathers : Gathers shelf shelfInputs shelfSamples := by
  have hold : Holds shelf shelfInputs "old.ndjson" (shelfSamples.take 2) := by
    have hread : shelf.read "old.ndjson" =
        .ok "\x7b\"pages\": 3\x7d\n\n\x7b\"pages\": \"x\"\x7d\n" := by cbv
    have hcandidates : shelfInputs.candidates "old.ndjson"
        "\x7b\"pages\": 3\x7d\n\n\x7b\"pages\": \"x\"\x7d\n" =
          [("old.ndjson:1", "\x7b\"pages\": 3\x7d"),
            ("old.ndjson:3", "\x7b\"pages\": \"x\"\x7d")] := by decide
    refine .intro hread ?_
    rw [hcandidates]
    exact .cons (.intro (by cbv) rfl) (.cons (.intro (by cbv) rfl) .nil)
  have hnew : Holds shelf shelfInputs "new.ndjson" (shelfSamples.drop 2) := by
    have hread : shelf.read "new.ndjson" = .ok " \r\n\x7b\x7d" := by cbv
    have hcandidates : shelfInputs.candidates "new.ndjson" " \r\n\x7b\x7d" =
        [("new.ndjson:2", "\x7b\x7d")] := by decide
    refine .intro hread ?_
    rw [hcandidates]
    exact .cons (.intro (by cbv) rfl) .nil
  exact .intro (.cons (.path (by decide)) (.cons (.path (by decide)) .nil))
    (.cons hold (.cons hnew .nil))

theorem shelf_tells : InOrder (Tells booksModels (.model 0)) shelfSamples
    ["✓ old.ndjson:1", "✗ old.ndjson:3", "    $.pages expected int, found string",
      "✓ new.ndjson:2"] := by
  have hthree : booksModels.decode (.model 0) (.obj [("pages", .num (.int 3))]) =
      .ok (.object 0 [("pages", .scalar (.int 3))]) := by cbv
  have hx : booksModels.decode (.model 0) (.obj [("pages", .str "x")]) =
      .error (.failed
        { target := "Book", violations := [⟨[.field "pages"], .wrongType "int" .string⟩] }) := by
    cbv
  have hnone : booksModels.decode (.model 0) (.obj []) = .ok (.object 0 []) := by cbv
  have hfirst : Tells booksModels (.model 0) ⟨"old.ndjson:1", _⟩ _ := .tick hthree
  have hsecond : Tells booksModels (.model 0) ⟨"old.ndjson:3", _⟩ _ := .cross hx
  have hthird : Tells booksModels (.model 0) ⟨"new.ndjson:2", _⟩ _ := .tick hnone
  exact InOrder.cons hfirst (.cons hsecond (.cons hthird .nil))

theorem shelf_terminates {sample : Sample} (hmem : sample ∈ shelfSamples) :
    booksModels.Terminates (.model 0) sample.value := by
  revert sample
  simp only [shelfSamples, List.forall_mem_cons]
  exact ⟨⟨3, by rfl⟩, ⟨3, by rfl⟩, ⟨3, by rfl⟩, by simp⟩

theorem shelf_not_endless : ¬ Endless shelf "api.json" shelfInputs "Book" := by
  intro hendless
  have hroot : booksModels.root "Book" = some (.model 0) := rfl
  obtain ⟨type, samples, hroot', hgathers, sample, hmem, hnot⟩ :=
    hendless.of_compiles shelf_compiles
  obtain rfl := Option.some.inj (hroot.symm.trans hroot')
  obtain rfl := hgathers.unique shelf_gathers
  exact hnot (shelf_terminates hmem)

/-- A document with nodes, which have a next node; where it is left out it is `{}`, and so without
an end. -/
def nodesText : String :=
  "\x7b\"swagger\": \"2.0\", \"definitions\": \x7b\"Node\": \x7b\"type\": \"object\", " ++
    "\"default\": \x7b\x7d, \"properties\": \x7b\"next\": \x7b\"$ref\": " ++
      "\"#/definitions/Node\"\x7d\x7d\x7d\x7d\x7d"

/-- The models of `nodesText`. -/
def nodesModels : ModelSet where
  models := #[
    { name := "Node", schema := 0
      shape := .object [{ name := "next", type := .model 0, default := some (.obj []) }] }]
  bySchema := [(0, 0)]
  roots := [("Node", some (.model 0))]

/-- The document, and a file with a node. -/
def chain : FileSet where
  files := [(["api.json"], nodesText), (["node.json"], "\x7b\x7d")]

def chainArguments : List String :=
  ["validate", "--schema", "api.json", "--root=Node", "-i", "node.json"]

theorem chain_compiles : Compiles chain "api.json" nodesModels := by
  have hread : chain.read "api.json" = .ok nodesText := by cbv
  have hload : Document.ofText nodesText = .ok
      { dialect := .swagger2
        schemas := #[
          { dialect := .swagger2, identity := some "Node", type := some .object
            properties := [("next", { id := 0, reference := some "#/definitions/Node" })]
            default := some (.obj []) }]
        named := [("Node", 0)] } := by cbv
  exact .intro hread hload rfl

theorem chain_gathers :
    Gathers chain { patterns := ["node.json"] } [⟨"node.json", .obj []⟩] := by
  have hread : chain.read "node.json" = .ok "\x7b\x7d" := by cbv
  have hparse : Json.parse "\x7b\x7d" = .ok (.obj []) := by cbv
  have hholds : Holds chain { patterns := ["node.json"] } "node.json" [⟨"node.json", .obj []⟩] :=
    .intro hread (.cons (.intro hparse rfl) .nil)
  exact .intro (.cons (.path (by decide)) .nil) (.cons hholds .nil)

theorem chain_endless : Endless chain "api.json" { patterns := ["node.json"] } "Node" := by
  have hdecode : nodesModels.decode (.model 0) (.obj []) = .error .endless := by cbv
  have hendless : ¬ nodesModels.Terminates (.model 0) (.obj []) :=
    (ModelSet.decode_eq_endless_iff chain_compiles.tagsInRange).mp hdecode
  exact .decode chain_compiles rfl chain_gathers (List.mem_singleton_self _) hendless

/-- Three books are on the shelf, and one of them is rejected; blank lines count. With a further
file, which is not there, nothing is printed. A node whose next node is left out is never told
about. -/
theorem shelf_run :
    (read shelfArguments = .ok (.validate "api.json" shelfInputs "Book") ∧
      ∃ outcome, (run FileSet.disk (.validate "api.json" shelfInputs "Book")).run shelf =
          (some outcome, shelf) ∧
        outcome.output = "✓ old.ndjson:1\n✗ old.ndjson:3\n" ++
          "    $.pages expected int, found string\n✓ new.ndjson:2\n" ∧
        ∃ failure, outcome.failure = some failure ∧
          failure.message = "1 of 3 instances failed validation against `Book`") ∧
    (∃ inputs, read (shelfArguments ++ ["--input=gone.ndjson"]) =
        .ok (.validate "api.json" inputs "Book") ∧
      ∃ outcome, (run FileSet.disk (.validate "api.json" inputs "Book")).run shelf =
          (some outcome, shelf) ∧ outcome.output = "" ∧ outcome.failure.isSome = true) ∧
    read chainArguments = .ok (.validate "api.json" { patterns := ["node.json"] } "Node") ∧
      (run FileSet.disk (.validate "api.json" { patterns := ["node.json"] } "Node")).run chain =
        (none, chain) := by
  refine ⟨?_, ?_, ?_⟩
  · have hread : read shelfArguments = .ok (.validate "api.json" shelfInputs "Book") := by decide
    have hroot : booksModels.root "Book" = some (.model 0) := rfl
    obtain ⟨-, -, hends⟩ := run_validate hread shelf
    obtain ⟨outcome, hrun, -, hclear⟩ := hends shelf_not_endless
    obtain ⟨set, type, samples, hcompiles, hroot', hgathers, hjudges⟩ :=
      hclear fun hhindered => hhindered.not_gathers shelf_compiles hroot shelf_gathers
    obtain rfl := hcompiles.unique shelf_compiles
    obtain rfl := Option.some.inj (hroot'.symm.trans hroot)
    obtain rfl := hgathers.unique shelf_gathers
    obtain ⟨lines, hlines, houtput⟩ := hjudges.output
    obtain rfl := hlines.unique (fun _ _ _ h h' => h.unique h') shelf_tells
    have hrejections : rejections booksModels (.model 0) shelfSamples = 1 := by cbv
    obtain ⟨failure, hfailure⟩ := Option.isSome_iff_exists.mp
      (hjudges.failure.mpr (rejections_ne_zero_iff.mp (by simp [hrejections])))
    refine ⟨hread, outcome, hrun, houtput, failure, hfailure, ?_⟩
    rw [hjudges.message failure hfailure, hrejections]
    rfl
  · have hread : read (shelfArguments ++ ["--input=gone.ndjson"]) =
        .ok (.validate "api.json" { shelfInputs with
          patterns := shelfInputs.patterns ++ ["gone.ndjson"] } "Book") := by decide
    have hgone : shelf.read "gone.ndjson" = .error .notFound := by cbv
    have hsource : Source shelf { shelfInputs with
        patterns := shelfInputs.patterns ++ ["gone.ndjson"] } "gone.ndjson" :=
      ⟨"gone.ndjson", by decide, _, .path (by decide), List.mem_singleton_self _⟩
    have hhindered : Hindered shelf "api.json" _ "Book" := .readSource hsource hgone
    obtain ⟨-, -, hends⟩ := run_validate hread shelf
    obtain ⟨outcome, hrun, hfails, -⟩ := hends (hhindered.not_endless shelf_compiles)
    exact ⟨_, hread, outcome, hrun, hfails hhindered⟩
  · have hread : read chainArguments =
        .ok (.validate "api.json" { patterns := ["node.json"] } "Node") := by decide
    obtain ⟨-, hnone, -⟩ := run_validate hread chain
    exact ⟨hread, hnone chain_endless⟩

end OpenApi.Command
