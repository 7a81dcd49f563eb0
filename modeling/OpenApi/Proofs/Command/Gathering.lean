-- SUMMARY: What a run to validate needs, and how it comes by that or stops.
import OpenApi.Proofs.Command.Samples
import OpenApi.Proofs.Decoding.Depth

/-!
# What a run to validate needs

A run needs a document that compiles, a root in it, and a sample from every candidate in every
file that is meant. There is one way at most to come by all that. `Hindered` lists what can
be wrong with it, wherever it is wrong: the run comes by what it needs, or it is hindered, and
never both. `Endless` is where neither is told: compiling the document has no end, or all is
there and decoding a sample has none.
-/

namespace OpenApi.Command

variable {files : FileSet} {schema root : String} {inputs : Inputs}

/-! ## What is needed -/

/-- A file is a document that is loaded and compiled to a set of models. -/
inductive Compiles (files : FileSet) (path : String) (set : ModelSet) : Prop
  | intro {text doc} : files.read path = .ok text → Document.ofText text = .ok doc →
      doc.compile = .ok set → Compiles files path set

/-- The paths that a text means: it is one, or it is a pattern and matches them. -/
inductive Means (files : FileSet) : String → List String → Prop
  | path {text} : Glob.isPattern text = false → Means files text [text]
  | pattern {text pattern} : Glob.isPattern text = true → Glob.Pattern.read text = .ok pattern →
      ((Glob.paths FileSet.disk pattern).run files).1 ≠ [] →
      Means files text ((Glob.paths FileSet.disk pattern).run files).1

/-- The samples in a file. -/
inductive Holds (files : FileSet) (inputs : Inputs) : String → List Sample → Prop
  | intro {path text samples} : files.read path = .ok text →
      List.Forall₂ inputs.Yields (inputs.candidates path text) samples →
      Holds files inputs path samples

/-- All samples, in the order of the patterns, of the files that each means, and of the candidates
in each file. -/
inductive Gathers (files : FileSet) (inputs : Inputs) (samples : List Sample) : Prop
  | intro {paths} : InOrder (Means files) inputs.patterns paths →
      InOrder (Holds files inputs) paths samples → Gathers files inputs samples

theorem Compiles.unique {path : String} {set set' : ModelSet} (h : Compiles files path set)
    (h' : Compiles files path set') : set = set' := by
  obtain ⟨hread, hload, hcompile⟩ := h
  obtain ⟨hread', hload', hcompile'⟩ := h'
  cases hread.symm.trans hread'
  cases hload.symm.trans hload'
  exact Except.ok.inj (hcompile.symm.trans hcompile')

theorem Means.unique {text : String} {paths paths' : List String} (h : Means files text paths)
    (h' : Means files text paths') : paths = paths' := by
  cases h with
  | path hpath =>
    cases h' with
    | path => rfl
    | pattern hpattern => cases hpath.symm.trans hpattern
  | pattern hpattern hread =>
    cases h' with
    | path hpath => cases hpath.symm.trans hpattern
    | pattern _ hread' =>
      cases hread.symm.trans hread'
      rfl

theorem Holds.unique {path : String} {samples samples' : List Sample}
    (h : Holds files inputs path samples) (h' : Holds files inputs path samples') :
    samples = samples' := by
  obtain ⟨hread, hyields⟩ := h
  obtain ⟨hread', hyields'⟩ := h'
  cases hread.symm.trans hread'
  exact List.right_unique_forall₂' (fun _ _ _ h h' => h.unique h') hyields hyields'

/-- There is one way at most to gather samples. -/
theorem Gathers.unique {samples samples' : List Sample} (h : Gathers files inputs samples)
    (h' : Gathers files inputs samples') : samples = samples' := by
  obtain ⟨hpaths, hsamples⟩ := h
  obtain ⟨hpaths', hsamples'⟩ := h'
  obtain rfl := hpaths.unique (fun _ _ _ h h' => h.unique h') hpaths'
  exact hsamples.unique (fun _ _ _ h h' => h.unique h') hsamples'

/-! ## What may be missing -/

/-- A path that is meant. -/
def Source (files : FileSet) (inputs : Inputs) (path : String) : Prop :=
  ∃ text ∈ inputs.patterns, ∃ paths, Means files text paths ∧ path ∈ paths

/-- Something that a run needs is not there. -/
inductive Hindered (files : FileSet) (schema : String) (inputs : Inputs) (root : String) : Prop
  | readDocument {fault} : files.read schema = .error fault → Hindered files schema inputs root
  | loadDocument {text error} : files.read schema = .ok text →
      Document.ofText text = .error error → Hindered files schema inputs root
  | compileDocument {text doc error} : files.read schema = .ok text →
      Document.ofText text = .ok doc → doc.compile = .error (.failed error) →
      Hindered files schema inputs root
  | noRoot {set} : Compiles files schema set → set.root root = none →
      Hindered files schema inputs root
  | badPattern {text fault} : text ∈ inputs.patterns → Glob.isPattern text = true →
      Glob.Pattern.read text = .error fault → Hindered files schema inputs root
  | nothingMatches {text pattern} : text ∈ inputs.patterns → Glob.isPattern text = true →
      Glob.Pattern.read text = .ok pattern →
      ((Glob.paths FileSet.disk pattern).run files).1 = [] → Hindered files schema inputs root
  | readSource {path fault} : Source files inputs path → files.read path = .error fault →
      Hindered files schema inputs root
  | sample {path text candidate} : Source files inputs path → files.read path = .ok text →
      candidate ∈ inputs.candidates path text → inputs.Lacks candidate →
      Hindered files schema inputs root

/-- What is meant by some pattern is among the paths that all of them mean. -/
theorem source_iff_mem {path : String} {paths : List String}
    (h : InOrder (Means files) inputs.patterns paths) :
    Source files inputs path ↔ path ∈ paths := by
  refine ⟨?_, h.exists_of_mem_all⟩
  rintro ⟨text, htext, own, hmeans, hpath⟩
  obtain ⟨own', hmeans', hsub⟩ := h.exists_of_mem htext
  exact hsub (hmeans.unique hmeans' ▸ hpath)

/-- Where all is there that a run needs, nothing of it is missing. -/
theorem Hindered.not_gathers {set : ModelSet} {type : Ty} {samples : List Sample}
    (hhindered : Hindered files schema inputs root) (hcompiles : Compiles files schema set)
    (hroot : set.root root = some type) : ¬ Gathers files inputs samples := by
  rintro ⟨hpaths, hholds⟩
  have hmeans : ∀ text ∈ inputs.patterns, ∃ paths, Means files text paths := fun text hmem =>
    (hpaths.exists_of_mem hmem).imp fun _ h => h.1
  have hsamples : ∀ path, Source files inputs path → ∃ own, Holds files inputs path own := by
    intro path hsource
    obtain ⟨own, hown, -⟩ := hholds.exists_of_mem ((source_iff_mem hpaths).mp hsource)
    exact ⟨own, hown⟩
  -- Each hindrance contradicts what took its place.
  cases hhindered with
  | readDocument h =>
    obtain ⟨hread, -, -⟩ := hcompiles
    cases hread.symm.trans h
  | loadDocument hread' h =>
    obtain ⟨hread, hload, -⟩ := hcompiles
    cases hread.symm.trans hread'
    cases hload.symm.trans h
  | compileDocument hread' hload' h =>
    obtain ⟨hread, hload, hcompile⟩ := hcompiles
    cases hread.symm.trans hread'
    cases hload.symm.trans hload'
    cases hcompile.symm.trans h
  | noRoot hcompiles' h =>
    obtain rfl := hcompiles.unique hcompiles'
    cases hroot.symm.trans h
  | badPattern hmem hpattern h =>
    obtain ⟨_, hpath | ⟨-, hread, -⟩⟩ := hmeans _ hmem
    · cases hpath.symm.trans hpattern
    · cases hread.symm.trans h
  | nothingMatches hmem hpattern hread h =>
    obtain ⟨_, hpath | ⟨-, hread', hsome⟩⟩ := hmeans _ hmem
    · cases hpath.symm.trans hpattern
    · cases hread.symm.trans hread'
      exact hsome h
  | readSource hsource h =>
    obtain ⟨_, hread, -⟩ := hsamples _ hsource
    cases hread.symm.trans h
  | sample hsource hread hmem hlacks =>
    obtain ⟨_, hread', hyields⟩ := hsamples _ hsource
    cases hread.symm.trans hread'
    obtain ⟨n, hn, rfl⟩ := List.getElem_of_mem hmem
    exact hlacks.not_yields ((List.forall₂_iff_get.mp hyields).2 n hn (hyields.length_eq ▸ hn))

/-! ## Runs without an end -/

/-- A run has no end: compiling its document has none, or all is there that the run needs and
decoding some sample has none. -/
inductive Endless (files : FileSet) (schema : String) (inputs : Inputs) (root : String) : Prop
  | compile {text doc} : files.read schema = .ok text → Document.ofText text = .ok doc →
      doc.compile = .error .endless → Endless files schema inputs root
  | decode {set type samples sample} : Compiles files schema set → set.root root = some type →
      Gathers files inputs samples → sample ∈ samples → ¬ set.Terminates type sample.value →
      Endless files schema inputs root

/-- A run without an end comes as far as compiling its document, and that does not fail. -/
theorem Endless.loads (h : Endless files schema inputs root) :
    ∃ text doc, files.read schema = .ok text ∧ Document.ofText text = .ok doc ∧
      ∀ error, doc.compile ≠ .error (.failed error) := by
  cases h with
  | compile hread hload hcompile => exact ⟨_, _, hread, hload, by simp [hcompile]⟩
  | decode hcompiles =>
    obtain ⟨hread, hload, hcompile⟩ := hcompiles
    exact ⟨_, _, hread, hload, by simp [hcompile]⟩

/-- Behind a document that compiles, only decoding a sample has no end. -/
theorem Endless.of_compiles {set : ModelSet} (h : Endless files schema inputs root)
    (hcompiles : Compiles files schema set) :
    ∃ type samples, set.root root = some type ∧ Gathers files inputs samples ∧
      ∃ sample ∈ samples, ¬ set.Terminates type sample.value := by
  cases h with
  | compile hread hload hcompile =>
    obtain ⟨hread', hload', hcompile'⟩ := hcompiles
    cases hread.symm.trans hread'
    cases hload.symm.trans hload'
    cases hcompile.symm.trans hcompile'
  | decode hcompiles' hroot hgathers hmem hendless =>
    obtain rfl := hcompiles.unique hcompiles'
    exact ⟨_, _, hroot, hgathers, _, hmem, hendless⟩

theorem Hindered.not_endless {set : ModelSet} (h : Hindered files schema inputs root)
    (hcompiles : Compiles files schema set) : ¬ Endless files schema inputs root := by
  intro hendless
  obtain ⟨type, samples, hroot, hgathers, -⟩ := hendless.of_compiles hcompiles
  exact h.not_gathers hcompiles hroot hgathers

/-- Why a run stops: it has an end but is hindered, and then it fails, or it has no end. -/
inductive Stops (files : FileSet) (schema : String) (inputs : Inputs) (root : String) :
    Stop Failure → Prop
  | failed {failure} : Hindered files schema inputs root → ¬ Endless files schema inputs root →
      Stops files schema inputs root (.failed failure)
  | endless : Endless files schema inputs root → Stops files schema inputs root .endless

/-- Behind a document that compiles, what hinders a run makes it fail. -/
theorem Hindered.stops {set : ModelSet} {failure : Failure}
    (h : Hindered files schema inputs root) (hcompiles : Compiles files schema set) :
    Stops files schema inputs root (.failed failure) :=
  .failed h (h.not_endless hcompiles)

/-! ## Coming by it -/

theorem compileAt_leads :
    Leads files (Compiles files schema) (Stops files schema inputs root)
      (compileAt FileSet.disk schema) := by
  refine (leads_read fun fault hfault => ?read).bind fun text htext => ?_
  case read =>
    refine .failed (.readDocument hfault) fun hendless => ?_
    obtain ⟨_, _, hread, -⟩ := hendless.loads
    cases hread.symm.trans hfault
  refine (leads_ofExcept fun error herror => ?load).bind fun doc hload => ?_
  case load =>
    refine .failed (.loadDocument htext herror) fun hendless => ?_
    obtain ⟨_, _, hread, hload, -⟩ := hendless.loads
    cases hread.symm.trans htext
    cases hload.symm.trans herror
  refine (leads_ofExcept fun stop hstop => ?compile).imp (fun set => .intro htext hload) fun _ => id
  case compile =>
    cases stop with
    | failed error =>
      refine .failed (.compileDocument htext hload hstop) fun hendless => ?_
      obtain ⟨_, _, hread, hload', hcompile⟩ := hendless.loads
      cases hread.symm.trans htext
      cases hload'.symm.trans hload
      exact hcompile error hstop
    | endless => exact .endless (.compile htext hload hstop)

variable {set : ModelSet}

theorem pathsOf_leads (hcompiles : Compiles files schema set) :
    Leads files (InOrder (Means files) inputs.patterns) (Stops files schema inputs root)
      (pathsOf FileSet.disk inputs.patterns) := by
  refine leads_foldlM fun found text hmem => ?_
  split
  · rename_i hpattern
    split
    · rename_i fault hread
      exact leads_throw (Hindered.badPattern hmem hpattern hread |>.stops hcompiles)
    · rename_i pattern hread
      refine (leads_lift (Glob.looks_paths pattern)).bind ?_
      rintro _ rfl
      split
      · rename_i hnone
        exact leads_throw (Hindered.nothingMatches hmem hpattern hread
          (List.isEmpty_iff.mp hnone) |>.stops hcompiles)
      · rename_i hsome
        exact leads_pure ⟨_, .pattern hpattern hread (by simpa using hsome), rfl⟩
  · rename_i hpath
    exact leads_pure ⟨[text], .path (by simpa using hpath), rfl⟩

theorem loadSamples_leads (hcompiles : Compiles files schema set) :
    Leads files (Gathers files inputs) (Stops files schema inputs root)
      (loadSamples FileSet.disk inputs) := by
  refine (pathsOf_leads hcompiles).bind fun paths hpaths => ?_
  refine (leads_foldlM fun samples path hmem => ?_).imp (fun samples => .intro hpaths) fun _ => id
  have hsource := (source_iff_mem hpaths).mpr hmem
  refine (leads_read fun fault hfault => ?_).bind fun text htext => ?_
  · exact Hindered.readSource hsource hfault |>.stops hcompiles
  have hgives : Gives _ _ (samplesOf inputs path text) := samplesOf_gives
  split
  · rename_i more hmore
    rw [hmore] at hgives
    exact leads_pure ⟨more, .intro htext hgives, rfl⟩
  · rename_i failure hfailure
    rw [hfailure] at hgives
    obtain ⟨candidate, hcandidate, hlacks⟩ := hgives
    exact leads_throw (Hindered.sample hsource htext hcandidate hlacks |>.stops hcompiles)

end OpenApi.Command
