-- SUMMARY: A text that is a value is read into a tree with nothing wrong in it.
import OpenApi.Json.Reader
import OpenApi.Proofs.Decoding.Alike
import OpenApi.Proofs.Schema.DistinctNames

/-!
# Intact trees

A tree that has a value has no fault anywhere: every leaf has its value, no container lies
too deep, and every list and object is closed. Of the items of a list exactly the last is one
after which a reader may stop. In a text without repeated keys the value is what the leaves
and containers of the tree say, one for one.
-/

namespace OpenApi

/-! ## Values without repeated keys -/

namespace Keyed

variable {α : Type u}

theorem foldl_insert_of_nodup :
    ∀ {pairs entries : List (String × α)}, (keys (entries ++ pairs)).Nodup →
      pairs.foldl (fun entries pair => insert entries pair.1 pair.2) entries = entries ++ pairs
  | [], entries, _ => (List.append_nil entries).symm
  | (key, value) :: pairs, entries, h => by
      have hnew : key ∉ keys entries := by
        rw [keys, List.map_append, List.nodup_append] at h
        exact fun hmem => h.2.2 key hmem key (by simp) rfl
      rw [List.foldl_cons, insert_of_notMem hnew, foldl_insert_of_nodup (by simpa using h)]
      simp

/-- Pairs of which no two have the same key are a keyed list as they are. -/
theorem ofList_of_nodup {pairs : List (String × α)} (h : (keys pairs).Nodup) :
    ofList pairs = pairs := foldl_insert_of_nodup h

end Keyed

namespace Json

mutual

/-- A value in which no object has a key twice is not changed by keeping each key once. -/
theorem distinct_eq : ∀ {value : Json}, value.Distinct → value.distinct = value
  | .null, _ | .bool _, _ | .num _, _ | .str _, _ => rfl
  | .arr _, .arr hitems => by rw [distinct, distinctItems_eq hitems]
  | .obj _, .obj hkeys hmembers => by
      rw [distinct, distinctMembers_eq hmembers, Keyed.ofList_of_nodup hkeys]

theorem distinctItems_eq :
    ∀ {items : List Json}, (∀ item ∈ items, item.Distinct) → distinctItems items = items
  | [], _ => rfl
  | _ :: _, h => by
      obtain ⟨hfirst, hrest⟩ := List.forall_mem_cons.mp h
      rw [distinctItems, distinct_eq hfirst, distinctItems_eq hrest]

theorem distinctMembers_eq : ∀ {members : List (String × Json)},
    (∀ entry ∈ members, entry.2.Distinct) → distinctMembers members = members
  | [], _ => rfl
  | (_, _) :: _, h => by
      obtain ⟨hfirst, hrest⟩ := List.forall_mem_cons.mp h
      rw [distinctMembers, distinct_eq hfirst, distinctMembers_eq hrest]

end

namespace Tree

/-! ## Trees without faults -/

mutual

/-- A tree with nothing wrong in it, and its value with all members of objects. -/
inductive Intact : Tree → Json → Prop where
  | leaf {value : Json} (start stop : Nat) :
      ofJson value = .leaf 0 0 (.ok value) → Intact (.leaf start stop (.ok value)) value
  | list {items : List (Tree × Pause)} {values : List Json} (start stop : Nat) :
      IntactItems items values → Intact (.list start false items (.ok stop)) (.arr values)
  | record {members : List (Key × Tree × Nat)} {entries : List (String × Json)}
      (start stop : Nat) :
      IntactMembers members entries →
        Intact (.record start false members (.closed stop)) (.obj entries)

/-- Items with nothing wrong in them, the last of which is where a reader may stop. -/
inductive IntactItems : List (Tree × Pause) → List Json → Prop where
  | nil : IntactItems [] []
  | cons {tree : Tree} {value : Json} {pause : Pause} {items : List (Tree × Pause)}
      {values : List Json} :
      Intact tree value → (pause.refusal = none ↔ items = []) → IntactItems items values →
        IntactItems ((tree, pause) :: items) (value :: values)

/-- Members with nothing wrong in them. -/
inductive IntactMembers : List (Key × Tree × Nat) → List (String × Json) → Prop where
  | nil : IntactMembers [] []
  | cons {name : String} {tree : Tree} {value : Json} {members : List (Key × Tree × Nat)}
      {entries : List (String × Json)} (keyRest rest : Nat) :
      Intact tree value → IntactMembers members entries →
        IntactMembers ((⟨.ok name, keyRest⟩, tree, rest) :: members) ((name, value) :: entries)

end

theorem IntactItems.length_eq {items : List (Tree × Pause)} {values : List Json} :
    IntactItems items values → items.length = values.length
  | .nil => rfl
  | .cons _ _ hitems => congrArg (· + 1) hitems.length_eq

mutual

/-- Skipping an intact tree finds no fault. -/
theorem Intact.lenientFault_eq_none {tree : Tree} {value : Json} :
    Intact tree value → tree.lenientFault = none
  | .leaf .. => rfl
  | .list _ _ hitems => by rw [lenientFault, hitems.lenientItems_eq_none]; rfl
  | .record _ _ hmembers => by rw [lenientFault, hmembers.lenientMembers_eq_none]; rfl

theorem IntactItems.lenientItems_eq_none {items : List (Tree × Pause)} {values : List Json} :
    IntactItems items values → lenientItems items = none
  | .nil => rfl
  | .cons htree _ hitems => by
      rw [lenientItems, htree.lenientFault_eq_none, hitems.lenientItems_eq_none]
      rfl

theorem IntactMembers.lenientMembers_eq_none {members : List (Key × Tree × Nat)}
    {entries : List (String × Json)} :
    IntactMembers members entries → lenientMembers members = none
  | .nil => rfl
  | .cons _ _ htree hmembers => by
      rw [lenientMembers, htree.lenientFault_eq_none, hmembers.lenientMembers_eq_none]
      rfl

end

mutual

/-- The value of an intact tree. -/
theorem Intact.contents_eq {tree : Tree} {value : Json} :
    Intact tree value → tree.contents = .ok value
  | .leaf .. => rfl
  | .list _ _ hitems => by
      rw [contents, hitems.contentsItems_eq]
      rfl
  | .record _ _ hmembers => by
      rw [contents, hmembers.contentsMembers_eq]
      rfl

theorem IntactItems.contentsItems_eq {items : List (Tree × Pause)} {values : List Json}
    {place : Nat} : IntactItems items values → contentsItems place items = .ok values
  | .nil => rfl
  | .cons htree _ hitems => by
      rw [contentsItems, htree.contents_eq, hitems.contentsItems_eq]
      rfl

theorem IntactMembers.contentsMembers_eq {members : List (Key × Tree × Nat)}
    {entries : List (String × Json)} :
    IntactMembers members entries → contentsMembers members = .ok entries
  | .nil => rfl
  | .cons _ _ htree hmembers => by
      rw [contentsMembers, htree.contents_eq, hmembers.contentsMembers_eq]
      rfl

end

/-! ## Trees of values -/

mutual

theorem contents_ofJson : ∀ value, (ofJson value).contents = .ok value
  | .null | .bool _ | .num _ | .str _ => rfl
  | .arr items => by
      rw [ofJson, contents, contentsItems_ofItems items]
      rfl
  | .obj members => by
      rw [ofJson, contents, contentsMembers_ofMembers members]
      rfl

theorem contentsItems_ofItems :
    ∀ values {place : Nat}, contentsItems place (ofItems values) = .ok values
  | [], _ => rfl
  | value :: values, _ => by
      rw [ofItems, contentsItems, contents_ofJson value, contentsItems_ofItems values]
      rfl

theorem contentsMembers_ofMembers : ∀ entries, contentsMembers (ofMembers entries) = .ok entries
  | [] => rfl
  | (name, value) :: entries => by
      rw [ofMembers, contentsMembers, contents_ofJson value, contentsMembers_ofMembers entries]
      rfl

end

mutual

theorem lenientFault_ofJson : ∀ value, (ofJson value).lenientFault = none
  | .null | .bool _ | .num _ | .str _ => rfl
  | .arr items => by
      rw [ofJson, lenientFault, lenientItems_ofItems items]
      rfl
  | .obj members => by
      rw [ofJson, lenientFault, lenientMembers_ofMembers members]
      rfl

theorem lenientItems_ofItems : ∀ values, lenientItems (ofItems values) = none
  | [] => rfl
  | value :: values => by
      rw [ofItems, lenientItems, lenientFault_ofJson value, lenientItems_ofItems values]
      rfl

theorem lenientMembers_ofMembers : ∀ entries, lenientMembers (ofMembers entries) = none
  | [] => rfl
  | (_, value) :: entries => by
      rw [ofMembers, lenientMembers, lenientFault_ofJson value, lenientMembers_ofMembers entries]
      rfl

end

/-! ## Trees of texts -/

/-- A reader may stop behind an item exactly where the list is closed. -/
theorem refusal_pauseAt (c : Cursor) :
    (pauseAt c).refusal = none ↔ ∃ after, readBetweenItems false c = .closed after := by
  simp only [pauseAt, readBetweenItems]
  rcases c.trim with ⟨_ | ⟨first, rest⟩, offset⟩
  · simp
  · by_cases hclosed : first = ']'
    · subst hclosed
      simp
    · by_cases hcomma : first = ','
      · subst hcomma
        -- Behind a comma both look for another item, and neither closes the list.
        generalize (Cursor.skip ⟨',' :: rest, offset⟩ 1).trim = behind
        rcases behind with ⟨_ | ⟨second, more⟩, stop⟩
        · simp
        · by_cases hsecond : second = ']' <;> simp [hsecond]
      · simp [hclosed, hcomma]

/-- There is no further item exactly where the list is closed. -/
theorem readItems_eq_nil {fuel level : Nat} {c : Cursor}
    (hending : endItems (readItems fuel level false c).2.1 = .ok ()) :
    (readItems fuel level false c).1 = [] ↔ ∃ after, readBetweenItems false c = .closed after := by
  cases fuel with
  | zero => cases hending
  | succ fuel =>
      rw [readItems] at hending ⊢
      cases hbetween : readBetweenItems false c with
      | cut breach =>
          rw [hbetween] at hending
          cases hending
      | closed after => simp
      | item c =>
          simp only [reduceCtorEq, exists_false, iff_false]
          split <;> exact List.cons_ne_nil _ _

/-- A leaf that has a value is intact, if the value is neither a list nor an object. -/
theorem intact_leafOf {start : Nat} {reading : Reading (Except Fault Json)} {value : Json}
    (hplain : ∀ {value after}, reading = .ok (.ok value, after) →
      ofJson value = .leaf 0 0 (.ok value))
    (h : (leafOf start reading).1.contents = .ok value) :
    Intact (leafOf start reading).1 value := by
  cases reading with
  | error breach => cases h
  | ok found =>
      obtain ⟨_ | value', after⟩ := found
      · cases h
      · cases h
        exact .leaf start after.offset (hplain rfl)

/-- A number is no container. -/
theorem ofJson_of_readNumber {c after : Cursor} {value : Json}
    (h : readNumber c = .ok (.ok value, after)) : ofJson value = .leaf 0 0 (.ok value) := by
  obtain ⟨_, -, h⟩ := exists_of_bind_eq_ok h
  obtain ⟨_, -, h⟩ := exists_of_bind_eq_ok h
  obtain ⟨_, -, h⟩ := exists_of_bind_eq_ok h
  simp only at h
  split at h <;> cases h
  rfl

/-- A word is no container, if what it stands for is none. -/
theorem ofJson_of_readWord {letters : List Char} {c after : Cursor} {word value : Json}
    (hword : ofJson word = .leaf 0 0 (.ok word))
    (h : (readWord letters c).map (fun after => ((.ok word : Except Fault Json), after.2)) =
      .ok (.ok value, after)) : ofJson value = .leaf 0 0 (.ok value) := by
  cases hread : readWord letters c <;> rw [hread] at h <;> cases h
  exact hword

/-- A string is no container. -/
theorem ofJson_of_readString {reading : Reading (Except Fault String)} {value : Json}
    {after : Cursor}
    (h : reading.map (fun (text, after) => (text.map Json.str, after)) = .ok (.ok value, after)) :
    ofJson value = .leaf 0 0 (.ok value) := by
  rcases reading with _ | ⟨_ | text, after⟩ <;> cases h
  rfl

theorem intact_list {start : Nat} {deep : Bool} {items : List (Tree × Pause)}
    {values : List Json} {ending : Except Breach Nat} (henter : enter start deep = .ok ())
    (hending : endItems ending = .ok ()) (hitems : IntactItems items values) :
    Intact (.list start deep items ending) (.arr values) := by
  cases deep <;> cases henter
  cases ending <;> cases hending
  exact .list start _ hitems

theorem intact_record {start : Nat} {deep : Bool} {members : List (Key × Tree × Nat)}
    {entries : List (String × Json)} {ending : Ending} (henter : enter start deep = .ok ())
    (hending : endMembers ending = .ok ()) (hmembers : IntactMembers members entries) :
    Intact (.record start deep members ending) (.obj entries) := by
  cases deep <;> cases henter
  cases ending with
  | closed stop => exact .record start stop hmembers
  | cut breach => cases hending
  | colonless key fault =>
      obtain ⟨_, -, hending⟩ := exists_of_bind_eq_ok hending
      cases hending

mutual

/-- A tree that has a value is intact. -/
theorem intact_readTree : ∀ (fuel level : Nat) (c : Cursor) {value : Json},
    (readTree fuel level c).1.contents = .ok value → Intact (readTree fuel level c).1 value
  | 0, _, _, _, h => by cases h
  | fuel + 1, level, c, value, h => by
      rw [readTree] at h ⊢
      simp only at h ⊢
      split at h
      · cases h
      · exact intact_leafOf (ofJson_of_readWord rfl) h
      · exact intact_leafOf (ofJson_of_readWord rfl) h
      · exact intact_leafOf (ofJson_of_readWord rfl) h
      · exact intact_leafOf ofJson_of_readString h
      · obtain ⟨_, henter, h⟩ := exists_of_bind_eq_ok h
        obtain ⟨values, hitems, h⟩ := exists_of_bind_eq_ok h
        obtain ⟨_, hending, h⟩ := exists_of_bind_eq_ok h
        cases h
        exact intact_list henter hending
          (intact_readItems fuel (level + 1) true (c.trim.skip 1) hitems hending)
      · obtain ⟨_, henter, h⟩ := exists_of_bind_eq_ok h
        obtain ⟨entries, hmembers, h⟩ := exists_of_bind_eq_ok h
        obtain ⟨_, hending, h⟩ := exists_of_bind_eq_ok h
        cases h
        exact intact_record henter hending
          (intact_readMembers fuel (level + 1) true (c.trim.skip 1) hmembers hending)
      · split_ifs at h ⊢ with hnumber
        · exact intact_leafOf ofJson_of_readNumber h
        · cases h

theorem intact_readItems : ∀ (fuel level : Nat) (first : Bool) (c : Cursor) {place : Nat}
    {values : List Json}, contentsItems place (readItems fuel level first c).1 = .ok values →
      endItems (readItems fuel level first c).2.1 = .ok () →
        IntactItems (readItems fuel level first c).1 values
  | 0, _, _, _, _, _, _, hending => by cases hending
  | fuel + 1, level, first, c, place, values, h, hending => by
      rw [readItems] at h hending ⊢
      cases hbetween : readBetweenItems first c with
      | cut breach =>
          rw [hbetween] at hending
          cases hending
      | closed after =>
          rw [hbetween] at h
          cases h
          exact .nil
      | item c =>
          rw [hbetween] at h hending
          have htree := @intact_readTree fuel level c
          simp only at h hending ⊢
          split at h
          · rename_i tree heq
            rw [heq] at htree
            obtain ⟨value, hvalue, h⟩ := exists_of_bind_eq_ok h
            obtain ⟨_, hnil, h⟩ := exists_of_bind_eq_ok h
            cases hnil
            cases h
            exact .cons (htree (eq_ok_of_mapError hvalue)) (iff_of_true rfl rfl) .nil
          · rename_i tree c heq
            rw [heq] at htree hending
            obtain ⟨value, hvalue, h⟩ := exists_of_bind_eq_ok h
            obtain ⟨more, hmore, h⟩ := exists_of_bind_eq_ok h
            cases h
            exact .cons (htree (eq_ok_of_mapError hvalue))
              ((refusal_pauseAt c).trans (readItems_eq_nil hending).symm)
              (intact_readItems fuel level false c hmore hending)

theorem intact_readMembers : ∀ (fuel level : Nat) (first : Bool) (c : Cursor)
    {entries : List (String × Json)},
    contentsMembers (readMembers fuel level first c).1 = .ok entries →
      endMembers (readMembers fuel level first c).2.1 = .ok () →
        IntactMembers (readMembers fuel level first c).1 entries
  | 0, _, _, _, _, _, hending => by cases hending
  | fuel + 1, level, first, c, entries, h, hending => by
      rw [readMembers] at h hending ⊢
      cases hbetween : readBetween first c with
      | cut breach =>
          rw [hbetween] at hending
          cases hending
      | closed after =>
          rw [hbetween] at h
          cases h
          exact .nil
      | key c =>
          rw [hbetween] at h hending
          simp only at h hending ⊢
          cases hname : readString {} c.offset c.rest with
          | error breach =>
              rw [hname] at hending
              cases hending
          | ok found =>
              obtain ⟨name, c⟩ := found
              rw [hname] at h hending
              simp only at h hending ⊢
              cases hcolon : readColon c with
              | error fault =>
                  rw [hcolon] at hending
                  obtain ⟨_, -, hending⟩ := exists_of_bind_eq_ok hending
                  cases hending
              | ok c =>
                  rw [hcolon] at h hending
                  have htree := @intact_readTree fuel level c
                  simp only at h hending ⊢
                  split at h
                  · rename_i tree heq
                    rw [heq] at htree
                    obtain ⟨text, hkey, h⟩ := exists_of_bind_eq_ok h
                    obtain ⟨value, hvalue, h⟩ := exists_of_bind_eq_ok h
                    obtain ⟨_, hnil, h⟩ := exists_of_bind_eq_ok h
                    cases hnil
                    cases h
                    cases eq_ok_of_mapError hkey
                    exact .cons _ _ (htree (eq_ok_of_mapError hvalue)) .nil
                  · rename_i tree c heq
                    rw [heq] at htree hending
                    obtain ⟨text, hkey, h⟩ := exists_of_bind_eq_ok h
                    obtain ⟨value, hvalue, h⟩ := exists_of_bind_eq_ok h
                    obtain ⟨more, hmore, h⟩ := exists_of_bind_eq_ok h
                    cases h
                    cases eq_ok_of_mapError hkey
                    exact .cons _ _ (htree (eq_ok_of_mapError hvalue))
                      (intact_readMembers fuel level false c hmore hending)

end

end Tree

/-- What a text says, all members of objects included, stands in an intact tree, and the value of
the text is this with each key once. -/
theorem intact_of_parse {text : String} {value : Json} (h : parse text = .ok value) :
    ∃ contents, (Tree.read text).1.Intact contents ∧ value = contents.distinct := by
  unfold parse at h
  simp only at h
  split at h
  · cases h
  · rename_i found hvalue
    have hfound : found = value := by
      split at h
      · exact Except.ok.inj h
      · split_ifs at h
        exact Except.ok.inj h
    subst hfound
    obtain ⟨contents, hcontents, rfl⟩ : ∃ contents,
        (Tree.read text).1.contents = .ok contents ∧ contents.distinct = found := by
      unfold Tree.value at hvalue
      cases hcontents : (Tree.read text).1.contents <;> rw [hcontents] at hvalue <;> cases hvalue
      exact ⟨_, rfl, rfl⟩
    exact ⟨contents, Tree.intact_readTree _ _ _ hcontents, rfl⟩

end Json
end OpenApi
