-- SUMMARY: Steps of a command that only look at files: where they lead.
import Mathlib.Data.List.Forall2
import OpenApi.Command.Run
import OpenApi.Disk.FileSet

/-!
# Looking at files

To validate, a command only looks at files: it reads them, asks what stands at a path, and
lists folders. Each of its steps leaves the files as they are and gives an answer, or it
stops. `Leads` says with which property of the answer, and what is the case where it stops, for
each way to stop; its laws follow the ways in which steps are put together, and the last is
about steps for one item after another whose answers are lists.
-/

namespace OpenApi

/-! ## Results -/

section

variable {ε α β : Type}

/-- A result is an answer with one property, or an error with another. -/
def Gives (ok : α → Prop) (bad : ε → Prop) : Except ε α → Prop
  | .ok answer => ok answer
  | .error error => bad error

variable {ok ok' : α → Prop} {bad bad' : ε → Prop} {result : Except ε α}

theorem Gives.imp (h : Gives ok bad result) (hok : ∀ answer, ok answer → ok' answer)
    (hbad : ∀ error, bad error → bad' error) : Gives ok' bad' result := by
  cases result with
  | ok answer => exact hok answer h
  | error error => exact hbad error h

theorem Gives.bind {good : β → Prop} {next : α → Except ε β} (h : Gives ok bad result)
    (hnext : ∀ answer, ok answer → Gives good bad (next answer)) :
    Gives good bad (result >>= next) := by
  cases result with
  | ok answer => exact hnext answer h
  | error => exact h

/-- A step is taken for each answer of an earlier one, and what comes out belongs to the items that
those were for. -/
theorem gives_mapM {γ : Type} {first : α → β → Prop} {both : α → γ → Prop} {items : List α}
    {answers : List β} {step : β → Except ε γ} (hfirst : List.Forall₂ first items answers)
    (hstep : ∀ item ∈ items, ∀ answer, first item answer → Gives (both item) bad (step answer)) :
    Gives (List.Forall₂ both items) bad (answers.mapM step) := by
  induction hfirst with
  | nil => exact .nil
  | @cons item answer _ _ hanswer _ ih =>
    rw [List.mapM_cons]
    refine (hstep item List.mem_cons_self answer hanswer).bind fun own hown => ?_
    refine (ih fun item hmem => hstep item (List.mem_cons_of_mem _ hmem)).bind fun others h => ?_
    exact .cons hown h

end

/-! ## Looking -/

namespace FileSet

variable {α β : Type}

/-- An action leaves every file set as it is. -/
def Looks (action : StateM FileSet α) : Prop := ∀ files, (action.run files).2 = files

theorem looks_pure (answer : α) : Looks (pure answer) := fun _ => rfl

theorem Looks.bind {action : StateM FileSet α} {next : α → StateM FileSet β} (h : Looks action)
    (hnext : ∀ answer, Looks (next answer)) : Looks (action >>= next) := by
  intro files
  calc ((action >>= next).run files).2
      = ((next (action.run files).1).run (action.run files).2).2 := rfl
    _ = (action.run files).2 := hnext _ _
    _ = files := h files

theorem Looks.ite {yes no : StateM FileSet α} {condition : Prop} [Decidable condition]
    (hyes : Looks yes) (hno : Looks no) : Looks (if condition then yes else no) := by
  split
  · exact hyes
  · exact hno

theorem looks_find (path : String) : Looks (disk.find path) := fun _ => rfl

theorem looks_names (path : String) : Looks (disk.names path) := fun _ => rfl

end FileSet

/-! ## Patterns -/

namespace Glob

open FileSet (Looks looks_pure)

variable {α : Type}

theorem looks_isFolder (path : String) : Looks (isFolder FileSet.disk path) :=
  (FileSet.looks_find path).bind fun _ => looks_pure _

theorem looks_keep (foldersOnly : Bool) (path : String) :
    Looks (keep FileSet.disk foldersOnly path) :=
  .ite ((looks_isFolder path).bind fun _ => looks_pure _) (looks_pure _)

theorem looks_collect {action : α → StateM FileSet (List String)} (h : ∀ item, Looks (action item))
    (items : List α) : Looks (collect action items) := by
  induction items with
  | nil => exact looks_pure _
  | cons item rest ih => exact (h item).bind fun _ => ih.bind fun _ => looks_pure _

/-- Walking along a pattern changes nothing, however deep it goes. -/
theorem looks_walk (foldersOnly : Bool) (depth : Nat) (folder : String)
    (steps : List (List Token)) :
    Looks (walk FileSet.disk foldersOnly depth folder steps) := by
  induction depth generalizing folder steps with
  | zero => exact looks_pure _
  | succ depth ih =>
    cases steps with
    | nil => exact looks_pure _
    | cons step rest =>
      unfold walk
      extract_lets goOn dots rest'
      have hgoOn : ∀ path rest, Looks (goOn path rest) := fun path rest =>
        .ite (looks_keep foldersOnly path) (ih path rest)
      clear_value goOn dots rest'
      split
      case h_1 name _ =>
        -- A step that spells out a name is looked up.
        extract_lets path dots next
        have hnext : ∀ there, Looks (next there) := fun _ => .ite (hgoOn _ _) (looks_pure _)
        exact .ite ((looks_isFolder folder).bind hnext)
          ((FileSet.looks_find path).bind fun _ => (looks_pure _).bind hnext)
      case h_2 =>
        -- Any other is matched against the names in the folder.
        refine (looks_isFolder folder).bind fun _ => .ite (looks_pure _) ?_
        refine (looks_collect (fun _ => hgoOn _ _) _).bind fun _ => ?_
        refine (FileSet.looks_names folder).bind fun _ => ?_
        refine (looks_collect (fun name => ?_) _).bind fun _ => looks_pure _
        refine .ite ((looks_isFolder _).bind fun inner => ?_) (.ite (hgoOn _ _) (looks_pure _))
        extract_lets next
        have hnext : ∀ own, Looks (next own) := fun own => by
          refine .ite ((ih _ _).bind fun _ => looks_pure _) ?_
          exact (looks_pure _).bind fun _ => looks_pure _
        split
        · exact (looks_pure _).bind hnext
        · exact .ite ((hgoOn _ _).bind hnext) ((looks_pure _).bind hnext)

theorem looks_paths (pattern : Pattern) : Looks (paths FileSet.disk pattern) :=
  looks_walk _ _ _ _

end Glob

/-! ## Steps -/

/-- A list consists of parts, one for each item and in the order of the items. -/
inductive InOrder {α β : Type} (part : α → List β → Prop) : List α → List β → Prop
  | nil : InOrder part [] []
  | cons {item rest own others} :
    part item own → InOrder part rest others → InOrder part (item :: rest) (own ++ others)

theorem InOrder.unique {α β : Type} {part : α → List β → Prop} {items : List α}
    {all all' : List β}
    (hpart : ∀ item own own', part item own → part item own' → own = own')
    (h : InOrder part items all) (h' : InOrder part items all') : all = all' := by
  induction h generalizing all' with
  | nil =>
    cases h'
    rfl
  | cons hown _ ih =>
    obtain _ | ⟨hown', hrest'⟩ := h'
    rw [hpart _ _ _ hown hown', ih hrest']

theorem InOrder.exists_of_mem {α β : Type} {part : α → List β → Prop} {items : List α}
    {all : List β} {item : α} (h : InOrder part items all) (hmem : item ∈ items) :
    ∃ own, part item own ∧ own ⊆ all := by
  induction h with
  | nil => cases hmem
  | @cons _ _ own others hpart _ ih =>
    obtain rfl | hmem := List.mem_cons.mp hmem
    · exact ⟨own, hpart, List.subset_append_left own others⟩
    · obtain ⟨own', hpart', hsub⟩ := ih hmem
      exact ⟨own', hpart', fun _ hown => List.mem_append_right own (hsub hown)⟩

theorem InOrder.exists_of_mem_all {α β : Type} {part : α → List β → Prop} {items : List α}
    {all : List β} {answer : β} (h : InOrder part items all) (hmem : answer ∈ all) :
    ∃ item ∈ items, ∃ own, part item own ∧ answer ∈ own := by
  induction h with
  | nil => cases hmem
  | @cons item _ own _ hpart _ ih =>
    obtain hmem | hmem := List.mem_append.mp hmem
    · exact ⟨item, List.mem_cons_self, own, hpart, hmem⟩
    · obtain ⟨item, hitem, own, hown⟩ := ih hmem
      exact ⟨item, List.mem_cons_of_mem _ hitem, own, hown⟩

namespace Command

open FileSet (Looks)

variable {α β : Type} {files : FileSet} {ok : α → Prop} {bad : Stop Failure → Prop}

/-- A step leaves the files as they are and gives an answer with one property, or it stops, and
then `bad` says what is the case. -/
def Leads (files : FileSet) (ok : α → Prop) (bad : Stop Failure → Prop)
    (step : ExceptT (Stop Failure) (StateM FileSet) α) : Prop :=
  ∃ result, step.run.run files = (result, files) ∧ Gives ok bad result

theorem leads_pure {answer : α} (h : ok answer) : Leads files ok bad (pure answer) :=
  ⟨.ok answer, rfl, h⟩

theorem leads_throw {stop : Stop Failure} (h : bad stop) : Leads files ok bad (throw stop) :=
  ⟨.error stop, rfl, h⟩

theorem Leads.imp {ok' : α → Prop} {bad' : Stop Failure → Prop}
    {step : ExceptT (Stop Failure) (StateM FileSet) α} (h : Leads files ok bad step)
    (hok : ∀ answer, ok answer → ok' answer) (hbad : ∀ stop, bad stop → bad' stop) :
    Leads files ok' bad' step := by
  obtain ⟨result, hrun, hresult⟩ := h
  exact ⟨result, hrun, hresult.imp hok hbad⟩

theorem Leads.bind {good : β → Prop} {step : ExceptT (Stop Failure) (StateM FileSet) α}
    {next : α → ExceptT (Stop Failure) (StateM FileSet) β} (h : Leads files ok bad step)
    (hnext : ∀ answer, ok answer → Leads files good bad (next answer)) :
    Leads files good bad (step >>= next) := by
  obtain ⟨result, hrun, hresult⟩ := h
  have hbind : (step >>= next).run.run files =
      (ExceptT.bindCont next (step.run.run files).1).run (step.run.run files).2 := rfl
  rw [hrun] at hbind
  cases result with
  | ok answer =>
    obtain ⟨result, hafter, hgood⟩ := hnext answer hresult
    exact ⟨result, hbind.trans hafter, hgood⟩
  | error stop => exact ⟨.error stop, hbind, hresult⟩

theorem leads_lift {action : StateM FileSet α} (hlooks : Looks action) :
    Leads files (· = (action.run files).1) bad (ExceptT.lift action) :=
  ⟨.ok (action.run files).1, congrArg (Prod.mk _) (hlooks files), rfl⟩

theorem leads_read {path : String} {failure : Disk.Fault → Failure}
    (hbad : ∀ fault, files.read path = .error fault → bad (.failed (failure fault))) :
    Leads files (fun text => files.read path = .ok text) bad
      (attempt (FileSet.disk.read path) failure) := by
  refine ⟨(files.read path).mapError (.failed ∘ failure), rfl, ?_⟩
  cases hread : files.read path with
  | ok text => exact rfl
  | error fault => exact hbad fault hread

theorem leads_ofExcept {ε : Type} {result : Except ε α} {stopOf : ε → Stop Failure}
    (hbad : ∀ error, result = .error error → bad (stopOf error)) :
    Leads files (fun answer => result = .ok answer) bad
      (compileAt.ofExcept (result.mapError stopOf)) := by
  refine ⟨result.mapError stopOf, rfl, ?_⟩
  cases hresult : result with
  | ok answer => exact rfl
  | error error => exact hbad error hresult

variable {part : α → List β → Prop} {items : List α}
variable {step : List β → α → ExceptT (Stop Failure) (StateM FileSet) (List β)}

theorem leads_foldlM_append
    (hstep : ∀ found, ∀ item ∈ items, Leads files
      (fun all => ∃ own, part item own ∧ all = found ++ own) bad (step found item))
    (found : List β) :
    Leads files (fun all => ∃ others, InOrder part items others ∧ all = found ++ others) bad
      (items.foldlM step found) := by
  induction items generalizing found with
  | nil => exact leads_pure ⟨[], .nil, (List.append_nil found).symm⟩
  | cons item rest ih =>
    rw [List.foldlM_cons]
    refine (hstep found item List.mem_cons_self).bind ?_
    rintro _ ⟨own, hown, rfl⟩
    have hrest := ih (fun found item hmem => hstep found item (List.mem_cons_of_mem _ hmem))
    refine (hrest (found ++ own)).imp ?_ fun _ => id
    rintro _ ⟨others, hothers, rfl⟩
    exact ⟨own ++ others, .cons hown hothers, List.append_assoc ..⟩

/-- Steps that put a list for each item behind what has been found lead to the lists in the order
of the items. -/
theorem leads_foldlM
    (hstep : ∀ found, ∀ item ∈ items, Leads files
      (fun all => ∃ own, part item own ∧ all = found ++ own) bad (step found item)) :
    Leads files (InOrder part items) bad (items.foldlM step []) := by
  refine (leads_foldlM_append hstep []).imp ?_ fun _ => id
  rintro _ ⟨all, hall, rfl⟩
  exact hall

end Command
end OpenApi
