-- SUMMARY: Commands that are read from arguments have values for their options.
import Mathlib.Data.List.Nodup
import OpenApi.Command.Arguments
import OpenApi.Proofs.Except

/-!
# What accepted arguments hold

Arguments are read option by option. What has been read is kept full: an option that
takes values and has been given has at least one, because an option without any is refused
when it is settled. So a command to validate that is accepted has a pattern to look for.
-/

namespace OpenApi.Command

variable {flags : List Flag} {flag : Flag} {given after : Given} {texts values : List String}

namespace Given

/-- Every option that takes values and has been given has one, and the pending option is one of the
command. -/
structure Full (flags : List Flag) (given : Given) : Prop where
  values : ∀ flag ∈ flags, flag.arity ≠ .none →
    ∀ values, given.values.get? flag.long = some values → values ≠ []
  pending : ∀ flag values, given.pending = some (flag, values) → flag ∈ flags

theorem full_empty (flags : List Flag) : Full flags {} := ⟨nofun, nofun⟩

variable (hnames : (flags.map Flag.long).Nodup)
include hnames

/-- An option is accepted with values if it takes any. -/
theorem Full.accept (hfull : given.Full flags) (hmem : flag ∈ flags)
    (h : given.accept flag values = .ok after) : after.Full flags := by
  unfold Given.accept at h
  split at h
  · cases h
  · split at h
    · cases h
    · rename_i _ hvalues
      split at h
      · cases h
      · split at h
        · cases h
        · cases h
          refine ⟨fun other hother harity all hall => ?_, hfull.pending⟩
          by_cases hlong : other.long = flag.long
          · -- Names tell options apart, so this is the one that was accepted.
            obtain rfl := List.inj_on_of_nodup_map hnames hother hmem hlong
            rw [Keyed.get?_insert_self] at hall
            cases hall
            have hsome : values ≠ [] := by simpa [harity] using hvalues
            simp [hsome]
          · rw [Keyed.get?_insert_of_ne _ _ hlong] at hall
            exact hfull.values other hother harity all hall

theorem Full.settle (hfull : given.Full flags) (h : given.settle = .ok after) :
    after.Full flags := by
  unfold Given.settle at h
  split at h
  · cases h
    exact hfull
  · rename_i flag values hpending
    have hcleared : ({ given with pending := none } : Given).Full flags := ⟨hfull.values, nofun⟩
    exact hcleared.accept hnames (hfull.pending flag values hpending) h

theorem Full.meet {attached : Option String} (hfull : given.Full flags) (hmem : flag ∈ flags)
    (h : given.meet flag attached = .ok after) : after.Full flags := by
  obtain ⟨settled, hsettle, h⟩ := exists_of_bind_eq_ok h
  have hsettled := hfull.settle hnames hsettle
  split at h
  · exact hsettled.accept hnames hmem h
  · exact hsettled.accept hnames hmem h
  · cases h
    refine ⟨hsettled.values, fun other values hpending => ?_⟩
    cases hpending
    exact hmem

omit hnames in
theorem Full.value {text : String} (hfull : given.Full flags) (h : given.value text = .ok after) :
    after.Full flags := by
  unfold Given.value at h
  split at h
  · rename_i flag values hpending
    split at h
    · cases h
      refine ⟨hfull.values, fun other values hother => ?_⟩
      cases hother
      exact hfull.pending flag _ hpending
    · cases h
  · cases h

theorem Full.long {text : List Char} (hfull : given.Full flags)
    (h : given.long flags text = .ok after) : after.Full flags := by
  unfold Given.long at h
  extract_lets name attached at h
  split at h
  · cases h
  · rename_i flag hfind
    split at h
    · cases h
    · exact hfull.meet hnames (List.mem_of_find?_eq_some hfind) h

theorem Full.letters {text : List Char} (hfull : given.Full flags)
    (h : given.letters flags text = .ok after) : after.Full flags := by
  induction text generalizing given with
  | nil =>
      cases h
      exact hfull
  | cons c rest ih =>
      unfold Given.letters at h
      split at h
      · cases h
      · rename_i flag hfind
        have hmem := List.mem_of_find?_eq_some hfind
        split at h
        · obtain ⟨met, hmeet, h⟩ := exists_of_bind_eq_ok h
          exact ih (hfull.meet hnames hmem hmeet) h
        · split at h <;> exact hfull.meet hnames hmem h

/-- Each argument keeps what has been read full. -/
theorem Full.arguments (hfull : given.Full flags)
    (h : given.arguments flags texts = .ok after) : after.Full flags := by
  induction texts generalizing given with
  | nil => exact hfull.settle hnames h
  | cons text rest ih =>
      unfold Given.arguments at h
      split at h
      · split at h
        · exact hfull.settle hnames h
        · cases h
      · obtain ⟨met, hmeet, h⟩ := exists_of_bind_eq_ok h
        exact ih (hfull.long hnames hmeet) h
      · obtain ⟨met, hmeet, h⟩ := exists_of_bind_eq_ok h
        exact ih (hfull.letters hnames hmeet) h
      · obtain ⟨met, hmeet, h⟩ := exists_of_bind_eq_ok h
        exact ih (hfull.value hmeet) h

end Given

/-- A required option that takes values has some. -/
theorem exists_get?_of_readFlags (hnames : (flags.map Flag.long).Nodup)
    (h : readFlags flags texts = .ok given) (hmem : flag ∈ flags)
    (hrequired : flag.required = true) (harity : flag.arity ≠ .none) :
    ∃ values, given.values.get? flag.long = some values ∧ values ≠ [] := by
  obtain ⟨found, hfound, h⟩ := exists_of_bind_eq_ok h
  split at h
  · rename_i hall
    cases h
    have hcontains : given.values.contains flag.long = true := by
      simpa [hrequired] using List.all_eq_true.mp hall flag hmem
    obtain ⟨values, hvalues⟩ : ∃ values, given.values.get? flag.long = some values := by
      refine Keyed.exists_get?_of_mem_keys ?_
      simpa [Keyed.contains, Keyed.keys] using hcontains
    exact ⟨values, hvalues,
      ((Given.full_empty flags).arguments hnames hfound).values flag hmem harity values hvalues⟩
  · cases h

/-- Arguments that are a command to validate name a path or a pattern of paths. -/
theorem patterns_ne_nil_of_read {schema root : String} {inputs : Inputs}
    (h : read texts = .ok (.validate schema inputs root)) : inputs.patterns ≠ [] := by
  unfold read at h
  split at h
  case h_3 rest =>
    obtain ⟨given, hgiven, h⟩ := exists_of_bind_eq_ok h
    cases h
    have hinput : { long := "input", letter := some 'i', arity := .many, required := true } ∈
        validateFlags := by decide
    obtain ⟨values, hvalues, hne⟩ :=
      exists_get?_of_readFlags (by decide) hgiven hinput rfl (by decide)
    simpa [hvalues] using hne
  case h_2 =>
    obtain ⟨given, -, h⟩ := exists_of_bind_eq_ok h
    cases h
  case h_7 => split at h <;> cases h
  all_goals cases h

end OpenApi.Command
