-- SUMMARY: Which instances of a compiled set are decoded again from their own JSON.
import OpenApi.Proofs.Compilation.Result
import OpenApi.Proofs.Decoding.Depth
import OpenApi.Proofs.Decoding.Rereading
import OpenApi.Proofs.Model.Members

/-!
# Round trips

An instance is written with its defaults and with one spelling for each scalar. Decoded
again, it is the same instance if its checks and choices come out as before. Otherwise
it is refused, or another alternative takes it.
-/

namespace OpenApi

/-- Each default is in the enumeration of its field. -/
def ModelSet.PermitsDefaults (set : ModelSet) : Prop :=
  ∀ model ∈ set.models, ∀ field ∈ model.fields, ∀ default, field.default = some default →
    field.Permits default

namespace Document

variable {doc : Document} {set : ModelSet}

/-- Where the properties of each schema have different names, so have the fields of each model. -/
theorem compile_distinctFields (hdistinct : doc.DistinctProperties)
    (h : doc.compile = .ok set) : set.DistinctFields := by
  intro m fields hshape
  rcases Nat.lt_or_ge m set.models.size with hlt | hge
  · obtain ⟨context, -, hmeans⟩ := ModelSet.means_model (compile_wellFormed h) hlt
    rw [hshape] at hmeans
    exact hmeans.hasFields.nodup_names IsField.keepsNames hdistinct
  · cases hshape.symm.trans (ModelSet.shape_of_size_le hge)
    exact List.nodup_nil

/-- A decoded instance is decoded again from its own JSON if its choices come out as before. In a
set whose defaults are in their enumerations, this is the only way. The second half keeps to such
sets to leave open whether a default outside its enumeration may be filled in at all. -/
theorem compile_decode_toJson (hdistinct : doc.DistinctProperties) (h : doc.compile = .ok set)
    {type : Ty} {value : Json} {answer : Instance} (hdecode : set.decode type value = .ok answer)
    (hends : set.Terminates type answer.toJson) :
    (set.Keeps type answer → set.decode type answer.toJson = .ok answer) ∧
      (set.PermitsDefaults → set.decode type answer.toJson = .ok answer →
        set.Keeps type answer) := by
  have hnames := compile_distinctFields hdistinct h
  have hagain := (ModelSet.reads_of_decode hdecode).again_iff hnames
  refine ⟨fun hkeeps => ?_, fun _ hsame => hagain.mp (ModelSet.reads_of_decode hsame)⟩
  exact (hends.decode_eq_ok_iff (ModelSet.tagsInRange (compile_wellFormed h))).mpr
    (hagain.mpr hkeeps)

/-! ## A round trip -/

/-- Meetings, tasks with a default, and a union of them. -/
def agenda : Document where
  dialect := .openApi30
  schemas := #[
    { dialect := .openApi30, identity := some "Meeting", type := some .object
      required := ["at"], properties := [("at", { id := 3 })] },
    { dialect := .openApi30, identity := some "Task", type := some .object
      properties := [("due", { id := 4 }), ("rank", { id := 5 })] },
    { dialect := .openApi30, identity := some "Entry"
      anyOf := [
        { id := 0, reference := some "#/components/schemas/Meeting" },
        { id := 1, reference := some "#/components/schemas/Task" }] },
    { dialect := .openApi30, identity := some "Meeting.at", type := some .string
      format := some "date-time" },
    { dialect := .openApi30, identity := some "Task.due", type := some .string
      format := some "date" },
    { dialect := .openApi30, identity := some "Task.rank", type := some .integer
      enum := some [.num (.int 1), .num (.int 2)], default := some (.num (.int 1)) }]
  named := [("Meeting", 0), ("Task", 1), ("Entry", 2)]

/-- The models of `agenda`. -/
def agendaModels : ModelSet where
  models := #[
    { name := "Meeting", schema := 0
      shape := .object [{ name := "at", type := .scalar .dateTime, required := true }] },
    { name := "Task", schema := 1
      shape := .object [
        { name := "due", type := .scalar .date },
        { name := "rank", type := .scalar .integer, default := some (.num (.int 1))
          enum := some [.num (.int 1), .num (.int 2)] }] },
    { name := "Entry", schema := 2, shape := .union [.model 0, .model 1] none [] }]
  bySchema := [(2, 2), (1, 1), (0, 0)]
  roots := [("Meeting", some (.model 0)), ("Task", some (.model 1)), ("Entry", some (.model 2))]

/-- A task that is due on the fifth of January. -/
def agendaTask : Instance :=
  .variant 2 1 (.object 1 [
    ("due", .scalar (.date { year := 2024, month := 1, day := 5, isDay := by decide })),
    ("rank", .scalar (.int 1))])

/-- A task with a date in short digits gets another spelling and a default, and stays a task. -/
theorem agenda_decode_toJson :
    agenda.DistinctProperties ∧ agenda.compile = .ok agendaModels ∧
      agendaModels.decode (.model 2) (.obj [("due", .str "2024-1-5")]) = .ok agendaTask ∧
      agendaTask.toJson = .obj [("due", .str "2024-01-05"), ("rank", .num (.int 1))] ∧
      agendaModels.Terminates (.model 2) agendaTask.toJson ∧
      agendaModels.PermitsDefaults ∧ agendaModels.Keeps (.model 2) agendaTask ∧
      agendaModels.decode (.model 2) agendaTask.toJson = .ok agendaTask := by
  have hdistinct : agenda.DistinctProperties := by simp [DistinctProperties, agenda, Keyed.keys]
  have hcompile : agenda.compile = .ok agendaModels := by rfl
  have hdecode :
      agendaModels.decode (.model 2) (.obj [("due", .str "2024-1-5")]) = .ok agendaTask := by rfl
  have hends : agendaModels.Terminates (.model 2) agendaTask.toJson := ⟨3, by rfl⟩
  have hdefaults : agendaModels.PermitsDefaults := by
    simp only [ModelSet.PermitsDefaults, agendaModels, List.mem_toArray,
      List.forall_mem_cons, Model.fields]
    refine ⟨by simp, ⟨by simp, ?_, by simp⟩, by simp, by simp⟩
    rintro default ⟨⟩ permitted ⟨⟩
    rfl
  obtain ⟨hagain, honly⟩ := compile_decode_toJson hdistinct hcompile hdecode hends
  have hkeeps := honly hdefaults (by rfl)
  exact ⟨hdistinct, hcompile, hdecode, by rfl, hends, hdefaults, hkeeps, hagain hkeeps⟩

/-! ## A default that changes the choice -/

/-- A union of an object that requires a name and of one that has a default for it. -/
def requiredOrDefault : Document where
  dialect := .openApi30
  schemas := #[
    { dialect := .openApi30, identity := some "A", type := some .object, required := ["y"]
      properties := [("y", { id := 3 })] },
    { dialect := .openApi30, identity := some "B", type := some .object
      properties := [("y", { id := 4 })] },
    { dialect := .openApi30, identity := some "U"
      anyOf := [
        { id := 0, reference := some "#/components/schemas/A" },
        { id := 1, reference := some "#/components/schemas/B" }] },
    { dialect := .openApi30, identity := some "A.y", type := some .integer },
    { dialect := .openApi30, identity := some "B.y", type := some .integer
      default := some (.num (.int 1)) }]
  named := [("A", 0), ("B", 1), ("U", 2)]

/-- The models of `requiredOrDefault`. -/
def requiredOrDefaultModels : ModelSet where
  models := #[
    { name := "A", schema := 0
      shape := .object [{ name := "y", type := .scalar .integer, required := true }] },
    { name := "B", schema := 1
      shape := .object [
        { name := "y", type := .scalar .integer, default := some (.num (.int 1)) }] },
    { name := "U", schema := 2, shape := .union [.model 0, .model 1] none [] }]
  bySchema := [(2, 2), (1, 1), (0, 0)]
  roots := [("A", some (.model 0)), ("B", some (.model 1)), ("U", some (.model 2))]

theorem requiredOrDefault_compile : requiredOrDefault.compile = .ok requiredOrDefaultModels := by
  rfl

private theorem requiredOrDefaultModels_alternative {m inner : ModelId}
    (h : requiredOrDefaultModels.Alternative m inner) : m = 2 ∧ inner < 2 := by
  match m with
  | 0 | 1 => cases h
  | 2 =>
      have hmem : Ty.model inner ∈ [Ty.model 0, .model 1] := h
      simp only [List.mem_cons, Ty.model.injEq, List.not_mem_nil, or_false] at hmem
      rcases hmem with rfl | rfl <;> exact ⟨rfl, by decide⟩
  | m + 3 =>
      rw [ModelSet.Alternative, ModelSet.shape_of_size_le (Nat.le_add_left 3 m)] at h
      cases h

private theorem requiredOrDefaultModels_type {m : ModelId} {fields : List Field} {field : Field}
    (hshape : (requiredOrDefaultModels.model m).shape = .object fields) (hmem : field ∈ fields) :
    field.type = .scalar .integer := by
  match m with
  | 0 | 1 =>
      cases hshape
      cases List.mem_singleton.mp hmem
      rfl
  | 2 => cases hshape
  | m + 3 =>
      cases hshape.symm.trans (ModelSet.shape_of_size_le (Nat.le_add_left 3 m))
      cases hmem

/-- With its default filled in, an object of the second alternative is one of the first, although
decoding always terminates. -/
theorem requiredOrDefault_changes :
    requiredOrDefault.DistinctProperties ∧
      requiredOrDefault.compile = .ok requiredOrDefaultModels ∧
      (∀ type value, requiredOrDefaultModels.Terminates type value) ∧
      ∃ answer answer', requiredOrDefaultModels.decode (.model 2) (.obj []) = .ok answer ∧
        requiredOrDefaultModels.decode (.model 2) answer.toJson = .ok answer' ∧
        answer.variantIndex = some 1 ∧ answer'.variantIndex = some 0 ∧ answer' ≠ answer := by
  have hwf := compile_wellFormed requiredOrDefault_compile
  have hunions : requiredOrDefaultModels.NoUnionCycle := by
    intro m hcycle
    obtain ⟨_, hfirst, -⟩ := Relation.TransGen.head'_iff.mp hcycle
    obtain ⟨_, -, hlast⟩ := Relation.TransGen.tail'_iff.mp hcycle
    have hm := (requiredOrDefaultModels_alternative hfirst).1
    have hlt := (requiredOrDefaultModels_alternative hlast).2
    exact Nat.ne_of_lt hlt hm
  have hdefaults : requiredOrDefaultModels.NoDefaultCycle := by
    -- A default is an integer, and checking one asks for nothing else.
    intro goal hdefault hcycle
    obtain ⟨m, fields, field, hshape, hmem, -, htype, -⟩ := hdefault
    obtain ⟨type, value⟩ := goal
    cases (requiredOrDefaultModels_type hshape hmem).symm.trans htype
    obtain ⟨_, hfirst, -⟩ := Relation.TransGen.head'_iff.mp hcycle
    cases hfirst
  have hdistinct : requiredOrDefault.DistinctProperties := by
    simp [DistinctProperties, requiredOrDefault, Keyed.keys]
  have hends := ModelSet.terminates_of_noCycles hunions hdefaults (ModelSet.tagsInRange hwf)
    (ModelSet.anchor_notMem_alternatives hwf)
  refine ⟨hdistinct, requiredOrDefault_compile, hends,
    .variant 2 1 (.object 1 [("y", .scalar (.int 1))]),
    .variant 2 0 (.object 0 [("y", .scalar (.int 1))]), ?_⟩
  exact ⟨by rfl, by rfl, rfl, rfl, by simp⟩

end Document
end OpenApi
