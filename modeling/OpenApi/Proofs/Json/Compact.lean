-- SUMMARY: The compact text of a value determines it.
import OpenApi.Json.Printer
import OpenApi.Json.Reader
import OpenApi.Proofs.Decimal.Text

/-!
# The text of values

No text of a value is that of another one. Where a text starts with that of a value, the first
character says of which kind this is. A number ends where no more characters of numbers follow,
a string at the first quotation mark that is not escaped, and a list or an object at its bracket.
-/

namespace OpenApi

/-! ## Numbers -/

namespace Number

open Decimal (IsNumeral)

theorem toList_int (n : ℤ) :
    (toString n).toList = (if n < 0 then ['-'] else []) ++ Nat.toDigits 10 n.natAbs := by
  cases n with
  | ofNat n =>
      have hnonneg : ¬ Int.ofNat n < 0 := Int.not_lt.mpr (Int.natCast_nonneg n)
      rw [if_neg hnonneg]
      exact Nat.toList_repr
  | negSucc n =>
      rw [if_pos (Int.negSucc_lt_zero n)]
      change ("-" ++ Nat.repr (n + 1)).toList = _
      rw [String.toList_append, Nat.toList_repr]
      rfl

/-- The characters of the text of a number are those of numbers. -/
theorem isNumeral_of_mem_text {number : Number} {c : Char} (h : c ∈ number.text.toList) :
    IsNumeral c := by
  cases number with
  | int n =>
      rw [text, toList_int, List.mem_append] at h
      rcases h with h | h
      · split at h
        · rw [List.mem_singleton.mp h]
          exact .inr (.inr (.inr (.inr rfl)))
        · cases h
      · exact .inl (Nat.isDigit_of_mem_toDigits (by decide) (by decide) h)
  | float x =>
      rw [text, Double.toList_text, List.mem_append] at h
      rcases h with h | h
      · split at h
        · rw [List.mem_singleton.mp h]
          exact .inr (.inr (.inr (.inr rfl)))
        · cases h
      · exact x.isText_unsignedText.numerals c h

/-- The text of a number starts with a digit or a sign. -/
theorem exists_first (number : Number) :
    ∃ c rest, number.text.toList = c :: rest ∧ (c.isDigit = true ∨ c = '-') := by
  cases number with
  | int n =>
      rw [text, toList_int]
      split
      · exact ⟨_, _, rfl, .inr rfl⟩
      · obtain ⟨c, rest, hc⟩ :=
          List.exists_cons_of_ne_nil (Nat.toDigits_ne_nil (n := n.natAbs) (b := 10))
        have hmem : c ∈ Nat.toDigits 10 n.natAbs := hc ▸ List.mem_cons_self
        exact ⟨c, rest, hc, .inl (Nat.isDigit_of_mem_toDigits (by decide) (by decide) hmem)⟩
  | float x =>
      obtain ⟨c, rest, hc, hdigit⟩ := x.isText_unsignedText.first
      rw [text, Double.toList_text, hc]
      split
      · exact ⟨_, _, rfl, .inr rfl⟩
      · exact ⟨c, rest, rfl, .inl hdigit⟩

/-- The text of an integer has neither a point nor an exponent, and that of a double has one. -/
theorem text_int_ne_float (n : ℤ) (x : Double) : (Number.int n).text ≠ (Number.float x).text := by
  intro h
  have htext := congrArg String.toList h
  simp only [text, toList_int, Double.toList_text] at htext
  have hmarked : ∀ {mark : Char}, mark.isDigit = false → mark ≠ '-' →
      mark ∉ (if n < 0 then ['-'] else []) ++ Nat.toDigits 10 n.natAbs := by
    intro mark hmark hsign hmem
    rcases List.mem_append.mp hmem with hmem | hmem
    · split at hmem
      · exact hsign (List.mem_singleton.mp hmem)
      · cases hmem
    · cases hmark.symm.trans (Nat.isDigit_of_mem_toDigits (by decide) (by decide) hmem)
  rcases x.isText_unsignedText.marked with hpoint | hexponent
  · exact hmarked (by decide) (by decide) (htext ▸ List.mem_append_right _ hpoint)
  · exact hmarked (by decide) (by decide) (htext ▸ List.mem_append_right _ hexponent)

/-- Different numbers have different texts. -/
theorem text_injective : Function.Injective text := by
  intro a b h
  cases a <;> cases b
  · exact congrArg int (Int.repr_injective h)
  · exact absurd h (text_int_ne_float _ _)
  · exact absurd h.symm (text_int_ne_float _ _)
  · exact congrArg float (Double.text_injective h)

end Number

namespace Json

/-! ## Strings -/

/-- The first character of a string literal, and what is behind it. -/
def readEscape : List Char → Option (Char × List Char)
  | '\\' :: 'u' :: _ :: _ :: a :: b :: rest =>
    (hexValue [a, b]).map fun code => (Char.ofNat code, rest)
  | '\\' :: e :: rest => (shortEscape e).map (·, rest)
  | c :: rest => if c = '"' then none else some (c, rest)
  | [] => none

theorem readEscape_control : ∀ {n : Nat}, n < 0x20 → ∀ rest : List Char,
    readEscape ((literalChar (Char.ofNat n)).toList ++ rest) = some (Char.ofNat n, rest) := by
  intro n hn rest
  interval_cases n <;> rfl

/-- The character of a literal is found again. -/
theorem readEscape_literalChar (c : Char) (rest : List Char) :
    readEscape ((literalChar c).toList ++ rest) = some (c, rest) := by
  rcases Nat.lt_or_ge c.toNat 0x20 with hcontrol | hplain
  · rw [← Char.ofNat_toNat c]
    exact readEscape_control hcontrol rest
  · by_cases hquote : c = '"'
    · subst hquote
      rfl
    · by_cases hslash : c = '\\'
      · subst hslash
        rfl
      · have hliteral : (literalChar c).toList = [c] := by
          unfold literalChar
          split <;> try first | contradiction | exact absurd hplain (by decide)
          rw [if_neg (by omega), if_neg (by omega)]
          simp
        rw [hliteral, List.singleton_append]
        unfold readEscape
        split <;> simp_all

/-- The characters of a string literal behind the quotation mark. -/
def literalTail (text : List Char) : List Char :=
  text.flatMap (fun c => (literalChar c).toList) ++ ['"']

theorem toList_literal (text : String) :
    (literal text).toList = '"' :: literalTail text.toList := by
  rw [literal, String.toList_append, String.toList_append, String.toList_join, List.flatMap_map]
  rfl

/-- A literal ends at its quotation mark. -/
theorem literalTail_inj {text text' rest rest' : List Char}
    (h : literalTail text ++ rest = literalTail text' ++ rest') : text = text' ∧ rest = rest' := by
  have hend : ∀ rest : List Char, readEscape ('"' :: rest) = none := fun rest => rfl
  have hcons : ∀ (c : Char) (text rest : List Char),
      literalTail (c :: text) ++ rest = (literalChar c).toList ++ (literalTail text ++ rest) := by
    intro c text rest
    simp [literalTail]
  induction text generalizing text' with
  | nil =>
      cases text' with
      | nil => exact ⟨rfl, (List.cons.inj h).2⟩
      | cons c text' =>
          have hread := congrArg readEscape h
          rw [hcons, readEscape_literalChar] at hread
          cases (hend rest).symm.trans hread
  | cons c text ih =>
      rw [hcons] at h
      have hread := congrArg readEscape h
      rw [readEscape_literalChar] at hread
      cases text' with
      | nil => cases hread.trans (hend rest')
      | cons c' text' =>
          rw [hcons, readEscape_literalChar] at hread
          obtain ⟨rfl, hrest⟩ := Prod.mk.inj (Option.some.inj hread)
          obtain ⟨rfl, rfl⟩ := ih hrest
          exact ⟨rfl, rfl⟩

theorem literal_inj {text text' : String} {rest rest' : List Char}
    (h : (literal text).toList ++ rest = (literal text').toList ++ rest') :
    text = text' ∧ rest = rest' := by
  rw [toList_literal, toList_literal] at h
  obtain ⟨htext, hrest⟩ := literalTail_inj (List.cons.inj h).2
  exact ⟨String.toList_inj.mp htext, hrest⟩

/-! ## Values -/

/-- The characters of the text of a value. -/
def chars (value : Json) : List Char := value.compact.toList

/-- The characters of a member. -/
def memberChars (member : String × Json) : List Char :=
  (literal member.1).toList ++ ':' :: member.2.chars

/-- The characters of a list or an object behind its first entry. -/
def tailOf {α : Type} (chars : α → List Char) (stop : Char) : List α → List Char
  | [] => [stop]
  | entry :: rest => ',' :: (chars entry ++ tailOf chars stop rest)

theorem intercalate_append {α : Type} (chars : α → List Char) (stop : Char) (first : α)
    (rest : List α) :
    List.intercalate [','] ((first :: rest).map chars) ++ [stop] =
      chars first ++ tailOf chars stop rest := by
  induction rest generalizing first with
  | nil => simp [tailOf]
  | cons next rest ih =>
      rw [List.map_cons, List.map_cons, List.intercalate_cons_cons, List.append_assoc,
        List.append_assoc, ← List.map_cons, ih]
      rfl

theorem compactItems_eq (items : List Json) : compactItems items = items.map compact := by
  induction items with
  | nil => rfl
  | cons item items ih => rw [compactItems, ih, List.map_cons]

theorem compactMembers_eq (members : List (String × Json)) :
    compactMembers members =
      members.map fun member => literal member.1 ++ ":" ++ member.2.compact := by
  induction members with
  | nil => rfl
  | cons member members ih => rw [compactMembers, ih, List.map_cons]

theorem chars_arr_nil : chars (.arr []) = ['[', ']'] := rfl

theorem chars_arr_cons (item : Json) (items : List Json) :
    chars (.arr (item :: items)) = '[' :: (item.chars ++ tailOf chars ']' items) := by
  rw [chars, compact, String.toList_append, String.toList_append, String.toList_intercalate,
    compactItems_eq, List.map_map]
  exact congrArg ('[' :: ·) (intercalate_append chars ']' item items)

theorem chars_obj_nil : chars (.obj []) = ['\x7b', '\x7d'] := rfl

theorem chars_obj_cons (member : String × Json) (members : List (String × Json)) :
    chars (.obj (member :: members)) =
      '\x7b' :: (memberChars member ++ tailOf memberChars '\x7d' members) := by
  rw [chars, compact, String.toList_append, String.toList_append, String.toList_intercalate,
    compactMembers_eq, List.map_map]
  have hmember : (String.toList ∘ fun member : String × Json =>
      literal member.1 ++ ":" ++ member.2.compact) = memberChars := by
    funext member
    simp [memberChars, chars]
  rw [hmember]
  exact congrArg ('\x7b' :: ·) (intercalate_append memberChars '\x7d' member members)

/-! ## First characters -/

/-- What the first character of a text says about its value. -/
inductive Opening where
  | null | affirmed | denied | number | string | list | object
deriving DecidableEq

/-- What the text of a value opens with. -/
def opening : Json → Opening
  | .null => .null
  | .bool true => .affirmed
  | .bool false => .denied
  | .num _ => .number
  | .str _ => .string
  | .arr _ => .list
  | .obj _ => .object

/-- What a character opens, if it is the first of any text. -/
def openingOf (c : Char) : Option Opening :=
  if c = 'n' then some .null
  else if c = 't' then some .affirmed
  else if c = 'f' then some .denied
  else if c.isDigit || c = '-' then some .number
  else if c = '"' then some .string
  else if c = '[' then some .list
  else if c = '\x7b' then some .object
  else none

theorem exists_first (value : Json) :
    ∃ c rest, value.chars = c :: rest ∧ openingOf c = some value.opening := by
  cases value with
  | null => exact ⟨_, _, rfl, rfl⟩
  | bool value => cases value <;> exact ⟨_, _, rfl, rfl⟩
  | num number =>
      obtain ⟨c, rest, hc, hfirst⟩ := number.exists_first
      refine ⟨c, rest, hc, ?_⟩
      have hdigit : (c.isDigit || decide (c = '-')) = true := by simpa using hfirst
      have hne : c ≠ 'n' ∧ c ≠ 't' ∧ c ≠ 'f' := by
        refine ⟨?_, ?_, ?_⟩ <;> rintro rfl <;> cases hdigit
      rw [openingOf, if_neg hne.1, if_neg hne.2.1, if_neg hne.2.2, if_pos hdigit]
      rfl
  | str text => exact ⟨_, _, toList_literal text, rfl⟩
  | arr items =>
      cases items with
      | nil => exact ⟨_, _, rfl, rfl⟩
      | cons item items => exact ⟨_, _, chars_arr_cons item items, rfl⟩
  | obj members =>
      cases members with
      | nil => exact ⟨_, _, rfl, rfl⟩
      | cons member members => exact ⟨_, _, chars_obj_cons member members, rfl⟩

/-- Values whose texts one text starts with open alike. -/
theorem opening_eq {value value' : Json} {rest rest' : List Char}
    (h : value.chars ++ rest = value'.chars ++ rest') : value.opening = value'.opening := by
  obtain ⟨c, more, hc, hopening⟩ := value.exists_first
  obtain ⟨c', more', hc', hopening'⟩ := value'.exists_first
  rw [hc, hc'] at h
  rw [(List.cons.inj h).1] at hopening
  exact Option.some.inj (hopening.symm.trans hopening')

/-- No text of a value starts with a character that opens none. -/
theorem chars_ne {value : Json} {c : Char} (hc : openingOf c = none) {rest rest' : List Char} :
    value.chars ++ rest ≠ c :: rest' := by
  intro h
  obtain ⟨first, more, hfirst, hopening⟩ := value.exists_first
  rw [hfirst] at h
  rw [(List.cons.inj h).1, hc] at hopening
  cases hopening

/-! ## Injectivity -/

/-- A text does not go on with a character of a number. -/
def Stops (rest : List Char) : Prop := ∀ c ∈ rest.head?, ¬ Decimal.IsNumeral c

theorem number_inj {number number' : Number} {rest rest' : List Char} (hrest : Stops rest)
    (hrest' : Stops rest')
    (h : number.text.toList ++ rest = number'.text.toList ++ rest') :
    number = number' ∧ rest = rest' := by
  have hspan : ∀ {text text' : List Char}, (∀ c ∈ text, Decimal.IsNumeral c) →
      (∀ c ∈ text', Decimal.IsNumeral c) → text ++ rest = text' ++ rest' →
        text = text' ∧ rest = rest' := by
    intro text text' htext htext' h
    induction text generalizing text' with
    | nil =>
        cases text' with
        | nil => exact ⟨rfl, h⟩
        | cons c text' =>
            rw [List.nil_append] at h
            exact absurd (htext' c List.mem_cons_self) (hrest c (by simp [h]))
    | cons c text ih =>
        cases text' with
        | nil =>
            rw [List.nil_append] at h
            exact absurd (htext c List.mem_cons_self) (hrest' c (by simp [← h]))
        | cons c' text' =>
            rw [List.cons_append, List.cons_append, List.cons.injEq] at h
            obtain ⟨rfl, h⟩ := h
            obtain ⟨rfl, rfl⟩ := ih (List.forall_mem_cons.mp htext).2
              (List.forall_mem_cons.mp htext').2 h
            exact ⟨rfl, rfl⟩
  obtain ⟨htext, hrests⟩ := hspan (fun c hc => Number.isNumeral_of_mem_text hc)
    (fun c hc => Number.isNumeral_of_mem_text hc) h
  exact ⟨Number.text_injective (String.toList_inj.mp htext), hrests⟩

theorem stops_tailOf {α : Type} {chars : α → List Char} {stop : Char}
    (hstop : ¬ Decimal.IsNumeral stop) (entries : List α) (rest : List Char) :
    Stops (tailOf chars stop entries ++ rest) := by
  cases entries with
  | nil => simpa [Stops, tailOf] using hstop
  | cons entry entries => simp [Stops, tailOf, Decimal.IsNumeral]

theorem not_isNumeral_list : ¬ Decimal.IsNumeral ']' := by simp [Decimal.IsNumeral]

theorem not_isNumeral_object : ¬ Decimal.IsNumeral '\x7d' := by simp [Decimal.IsNumeral]

/-- Lists that one text starts with go on alike behind a first separator. -/
theorem tailOf_arr {items items' : List Json} {rest rest' : List Char}
    (h : chars (.arr items) ++ rest = chars (.arr items') ++ rest') :
    tailOf chars ']' items ++ rest = tailOf chars ']' items' ++ rest' := by
  have hclosed : openingOf ']' = none := rfl
  cases items <;> cases items' <;>
    simp only [chars_arr_nil, chars_arr_cons, tailOf, List.cons_append, List.append_assoc,
      List.cons.injEq, true_and, List.nil_append] at h ⊢
  · exact h
  · exact absurd h.symm (chars_ne hclosed)
  · exact absurd h (chars_ne hclosed)
  · exact h

/-- Objects that one text starts with go on alike behind a first separator. -/
theorem tailOf_obj {members members' : List (String × Json)} {rest rest' : List Char}
    (h : chars (.obj members) ++ rest = chars (.obj members') ++ rest') :
    tailOf memberChars '\x7d' members ++ rest = tailOf memberChars '\x7d' members' ++ rest' := by
  have hkey : ∀ (member : String × Json) (rest rest' : List Char),
      memberChars member ++ rest ≠ '\x7d' :: rest' := by
    intro member rest rest'
    rw [memberChars, toList_literal]
    nofun
  cases members <;> cases members' <;>
    simp only [chars_obj_nil, chars_obj_cons, tailOf, List.cons_append, List.append_assoc,
      List.cons.injEq, true_and, List.nil_append] at h ⊢
  · exact h
  · exact absurd h.symm (hkey _ _ _)
  · exact absurd h (hkey _ _ _)
  · exact h

mutual

/-- A text starts with that of one value only, as long as a number is not cut. -/
theorem chars_inj : ∀ (value : Json) {value' : Json} {rest rest' : List Char}, Stops rest →
    Stops rest' → value.chars ++ rest = value'.chars ++ rest' → value = value' ∧ rest = rest'
  | .null, value', _, _, _, _, h => by
      have hopening := opening_eq h
      cases value' <;> try cases hopening
      · exact ⟨rfl, List.append_cancel_left h⟩
      · rename_i value
        cases value <;> cases hopening
  | .bool value, value', _, _, _, _, h => by
      have hopening := opening_eq h
      cases value' with
      | bool value' =>
          have heq : value = value' := by
            cases value <;> cases value' <;> first | rfl | cases hopening
          subst heq
          exact ⟨rfl, List.append_cancel_left h⟩
      | _ => cases value <;> cases hopening
  | .num number, value', _, _, hrest, hrest', h => by
      have hopening := opening_eq h
      cases value' with
      | num number' =>
          obtain ⟨rfl, rfl⟩ := number_inj hrest hrest' h
          exact ⟨rfl, rfl⟩
      | bool value => cases value <;> cases hopening
      | _ => cases hopening
  | .str text, value', _, _, _, _, h => by
      have hopening := opening_eq h
      cases value' with
      | str text' =>
          obtain ⟨rfl, rfl⟩ := literal_inj h
          exact ⟨rfl, rfl⟩
      | bool value => cases value <;> cases hopening
      | _ => cases hopening
  | .arr items, value', rest, rest', hrest, hrest', h => by
      have hopening := opening_eq h
      cases value' with
      | arr items' =>
          obtain ⟨rfl, rfl⟩ := items_inj items (tailOf_arr h)
          exact ⟨rfl, rfl⟩
      | bool value => cases value <;> cases hopening
      | _ => cases hopening
  | .obj members, value', rest, rest', hrest, hrest', h => by
      have hopening := opening_eq h
      cases value' with
      | obj members' =>
          obtain ⟨rfl, rfl⟩ := members_inj members (tailOf_obj h)
          exact ⟨rfl, rfl⟩
      | bool value => cases value <;> cases hopening
      | _ => cases hopening

theorem items_inj : ∀ (items : List Json) {items' : List Json} {rest rest' : List Char},
    tailOf chars ']' items ++ rest = tailOf chars ']' items' ++ rest' →
      items = items' ∧ rest = rest'
  | [], [], _, _, h => ⟨rfl, (List.cons.inj h).2⟩
  | [], _ :: _, _, _, h => by cases (List.cons.inj h).1
  | _ :: _, [], _, _, h => by cases (List.cons.inj h).1
  | item :: items, item' :: items', rest, rest', h => by
      simp only [tailOf, List.cons_append, List.append_assoc, List.cons.injEq, true_and] at h
      obtain ⟨rfl, hmore⟩ := chars_inj item (stops_tailOf not_isNumeral_list items rest)
        (stops_tailOf not_isNumeral_list items' rest') h
      obtain ⟨rfl, rfl⟩ := items_inj items hmore
      exact ⟨rfl, rfl⟩

theorem members_inj : ∀ (members : List (String × Json)) {members' : List (String × Json)}
    {rest rest' : List Char},
    tailOf memberChars '\x7d' members ++ rest = tailOf memberChars '\x7d' members' ++ rest' →
      members = members' ∧ rest = rest'
  | [], [], _, _, h => ⟨rfl, (List.cons.inj h).2⟩
  | [], _ :: _, _, _, h => by cases (List.cons.inj h).1
  | _ :: _, [], _, _, h => by cases (List.cons.inj h).1
  | (key, value) :: members, (key', value') :: members', rest, rest', h => by
      simp only [tailOf, memberChars, List.cons_append, List.append_assoc, List.cons.injEq,
        true_and] at h
      obtain ⟨rfl, hvalue⟩ := literal_inj h
      obtain ⟨rfl, hmore⟩ := chars_inj value (stops_tailOf not_isNumeral_object members rest)
        (stops_tailOf not_isNumeral_object members' rest') (List.cons.inj hvalue).2
      obtain ⟨rfl, rfl⟩ := members_inj members hmore
      exact ⟨rfl, rfl⟩

end

/-- Different values have different texts. -/
theorem compact_injective : Function.Injective compact := by
  intro value value' h
  have hstops : Stops [] := by simp [Stops]
  have hchars : value.chars ++ [] = value'.chars ++ [] := by rw [chars, chars, h]
  exact (chars_inj value hstops hstops hchars).1

end Json
end OpenApi
