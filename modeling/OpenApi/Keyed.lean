-- SUMMARY: Keyed lists: entries under text keys, kept in the order in which the keys first came.

/-!
# Keyed lists

The members of a JSON object, the properties of a schema and the fields of an
instance are all entries under text keys whose order is part of the answer.
`insert` keeps a key where it stands and replaces its entry, so a list built by
`insert` alone holds each key once.
-/

namespace OpenApi

/-- Entries under text keys, in order. -/
abbrev Keyed (α : Type u) := List (String × α)

namespace Keyed

variable {α : Type u}

/-! ## Operations -/

/-- The entry under `key`, the first if there are several. -/
def get? (entries : Keyed α) (key : String) : Option α :=
  List.lookup key entries

/-- Whether some entry stands under `key`. -/
def contains (entries : Keyed α) (key : String) : Bool :=
  entries.any (·.1 == key)

/-- The keys, in order. -/
def keys (entries : Keyed α) : List String :=
  entries.map (·.1)

/-- Put `value` under `key`: in place of the entry that is there, else at the end. -/
def insert : Keyed α → String → α → Keyed α
  | [], key, value => [(key, value)]
  | (k, v) :: rest, key, value =>
    if k == key then (k, value) :: rest else (k, v) :: insert rest key value

/-- Insert the pairs one after another: a key repeated later keeps its first place and
takes the last entry. -/
def ofList (pairs : List (String × α)) : Keyed α :=
  pairs.foldl (fun entries pair => entries.insert pair.1 pair.2) []

/-! ## Lemmas -/

@[simp] theorem get?_nil (key : String) : get? ([] : Keyed α) key = none := rfl

theorem get?_cons (k key : String) (v : α) (rest : Keyed α) :
    get? ((k, v) :: rest) key = if key == k then some v else get? rest key := by
  simp only [get?, List.lookup_cons]
  split <;> simp_all

theorem get?_insert_self (entries : Keyed α) (key : String) (value : α) :
    (entries.insert key value).get? key = some value := by
  induction entries with
  | nil => simp [insert, get?_cons]
  | cons e rest ih =>
    obtain ⟨k, v⟩ := e
    by_cases h : k = key
    · subst h; simp [insert, get?_cons]
    · simp [insert, h, get?_cons, ih, Ne.symm h]

theorem get?_insert_of_ne (entries : Keyed α) {key other : String} (value : α)
    (h : other ≠ key) : (entries.insert key value).get? other = entries.get? other := by
  induction entries with
  | nil => simp [insert, get?_cons, h]
  | cons e rest ih =>
    obtain ⟨k, v⟩ := e
    by_cases hk : k = key
    · subst hk; simp [insert, get?_cons, h]
    · simp [insert, hk, get?_cons, ih]

theorem mem_of_get? {entries : Keyed α} {key : String} {value : α}
    (h : entries.get? key = some value) : (key, value) ∈ entries := by
  obtain ⟨before, after, hsplit, -⟩ := List.lookup_eq_some_iff.mp h
  exact hsplit ▸ List.mem_append_right _ List.mem_cons_self

theorem mem_keys_of_get? {entries : Keyed α} {key : String} {value : α}
    (h : entries.get? key = some value) : key ∈ entries.keys :=
  List.mem_map_of_mem (mem_of_get? h)

theorem exists_get?_of_mem_keys {entries : Keyed α} {key : String} (h : key ∈ entries.keys) :
    ∃ value, entries.get? key = some value := by
  induction entries with
  | nil => cases h
  | cons entry rest ih =>
    obtain ⟨first, value⟩ := entry
    rw [get?_cons]
    split
    · exact ⟨value, rfl⟩
    · rename_i hne
      refine ih ((List.mem_cons.mp h).resolve_left fun heq => hne ?_)
      simpa using heq

end Keyed
end OpenApi
