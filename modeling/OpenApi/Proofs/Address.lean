-- SUMMARY: Internet addresses are read back from the texts in which they are written.
import OpenApi.Address.Ip
import Mathlib.Data.List.Basic
import Mathlib.Data.List.TakeWhile
import Mathlib.Tactic.IntervalCases

/-!
# Spellings of addresses

Each address is read back from its text. Numbers in front of what is no digit come first,
then the groups of an address of version six up to their end or a double colon. The zeros
that a double colon stands for are the ones that were left out, since a run of zeros only
has zeros in it.
-/

namespace OpenApi.Ip

/-! ## Digits -/

/-- A text does not go on with a digit of a base. -/
def NoDigit (base : Nat) (rest : List Char) : Prop :=
  ∀ c ∈ rest.head?, digit? base c = none

theorem digit?_digitChar {base d : Nat} (hbase : base ≤ 16) (hd : d < base) :
    digit? base d.digitChar = some d := by
  have hsmall : d < 16 := Nat.lt_of_lt_of_le hd hbase
  interval_cases d <;> exact if_pos hd

/-- A written number is a row of digits of its base with its value. -/
theorem exists_digits (base : Nat) (hbase : 1 < base) (n : Nat) :
    ∃ digits : List Nat, Nat.toDigits base n = digits.map Nat.digitChar ∧
      (∀ d ∈ digits, d < base) ∧ ofDigits base digits = n ∧ (digits.head? = some 0 → n = 0) := by
  induction n using Nat.strongRecOn with
  | ind n ih =>
    by_cases hsmall : n < base
    · exact ⟨[n], Nat.toDigits_of_lt_base hsmall, by simpa using hsmall, by simp [ofDigits],
        fun h => Option.some.inj h⟩
    · obtain ⟨digits, hwritten, hdigits, hvalue, hzero⟩ :=
        ih (n / base) (Nat.div_lt_self (by omega) hbase)
      have hne : digits ≠ [] := by
        rintro rfl
        exact Nat.toDigits_ne_nil hwritten
      refine ⟨digits ++ [n % base], ?_, ?_, ?_, fun hhead => ?_⟩
      · rw [Nat.toDigits_of_base_le hbase (by omega), hwritten, List.map_append, List.map_singleton]
      · rw [List.forall_mem_append, List.forall_mem_singleton]
        exact ⟨hdigits, Nat.mod_lt _ (by omega)⟩
      · simp only [ofDigits, List.foldl_append] at hvalue ⊢
        rw [hvalue]
        exact Nat.div_add_mod n base
      · -- Only the last digit can be left when the rest is zero, and there is a rest.
        rw [List.head?_append, List.head?_eq_some_head hne, Option.some_or,
          ← List.head?_eq_some_head hne] at hhead
        have := (Nat.div_eq_zero_iff_lt (by omega)).mp (hzero hhead)
        omega

/-- All digits in front of what is no digit are taken. -/
theorem spanDigits_append {base : Nat} (hbase : base ≤ 16) {digits : List Nat}
    (hdigits : ∀ d ∈ digits, d < base) {rest : List Char} (hrest : NoDigit base rest) :
    spanDigits base (digits.map Nat.digitChar ++ rest) = (digits, rest) := by
  have hall : ∀ c ∈ digits.map Nat.digitChar, (digit? base c).isSome = true := by
    rw [List.forall_mem_map]
    exact fun d hd => by rw [digit?_digitChar hbase (hdigits d hd)]; rfl
  have hnone : (rest.takeWhile fun c => (digit? base c).isSome) = [] := by
    cases rest with
    | nil => rfl
    | cons c rest =>
        have hc : digit? base c = none := hrest c (by simp)
        simp [hc]
  have hvalues : (digits.map Nat.digitChar).filterMap (digit? base) = digits := by
    have hback : ∀ d ∈ digits, (digit? base ∘ Nat.digitChar) d = some d :=
      fun d hd => digit?_digitChar hbase (hdigits d hd)
    rw [List.filterMap_map, List.filterMap_congr hback, List.filterMap_some]
  simp only [spanDigits, List.takeWhile_append_of_pos hall, hnone, List.append_nil, hvalues,
    List.drop_left]

/-! ## Octets and groups -/

/-- A number below a power of its base has no more digits than the exponent. -/
theorem length_digits_le {base n : Nat} (most : Nat) (hbase : 1 < base) (hmost : 0 < most)
    (hn : n < base ^ most) {digits : List Nat}
    (hwritten : Nat.toDigits base n = digits.map Nat.digitChar) : digits.length ≤ most := by
  have hle := (Nat.length_toDigits_le_iff hbase hmost).mpr hn
  rwa [hwritten, List.length_map] at hle

theorem isEmpty_digits {base n : Nat} {digits : List Nat}
    (hwritten : Nat.toDigits base n = digits.map Nat.digitChar) : digits.isEmpty = false := by
  cases digits with
  | nil => exact absurd hwritten Nat.toDigits_ne_nil
  | cons => rfl

theorem takeOctet_toDigits (octet : Fin 256) {rest : List Char} (hrest : NoDigit 10 rest) :
    takeOctet (Nat.toDigits 10 octet.val ++ rest) = some (octet, rest) := by
  obtain ⟨digits, hwritten, hdigits, hvalue, hzero⟩ := exists_digits 10 (by decide) octet.val
  have hlong := length_digits_le 3 (by decide) (by decide)
    (Nat.lt_trans octet.isLt (by decide)) hwritten
  have hfront : ¬ (digits.head? = some 0 ∧ 1 < digits.length) := by
    rintro ⟨hhead, hmany⟩
    have hshort := length_digits_le 1 (by decide) (by decide) (by rw [hzero hhead]; decide)
      hwritten
    omega
  have hbound : ofDigits 10 digits < 256 := hvalue ▸ octet.isLt
  simp only [takeOctet, hwritten, spanDigits_append (by decide) hdigits hrest, hbound,
    isEmpty_digits hwritten, dite_true]
  rw [if_neg (by simpa [hlong] using hfront)]
  exact congrArg (fun o => some (o, rest)) (Fin.ext hvalue)

theorem takeGroup_toDigits (group : Fin 65536) {rest : List Char} (hrest : NoDigit 16 rest) :
    takeGroup (Nat.toDigits 16 group.val ++ rest) = some (group, rest) := by
  obtain ⟨digits, hwritten, hdigits, hvalue, -⟩ := exists_digits 16 (by decide) group.val
  have hlong := length_digits_le 4 (by decide) (by decide) group.isLt hwritten
  have hbound : ofDigits 16 digits < 65536 := hvalue ▸ group.isLt
  simp only [takeGroup, hwritten, spanDigits_append (by decide) hdigits hrest, hbound,
    isEmpty_digits hwritten, dite_true]
  rw [if_neg (by simpa using hlong)]
  exact congrArg (fun g => some (g, rest)) (Fin.ext hvalue)

/-- What starts with no hexadecimal digit starts with no group. -/
theorem takeGroup_eq_none {text : List Char} (h : NoDigit 16 text) : takeGroup text = none := by
  have hspan : spanDigits 16 ([].map Nat.digitChar ++ text) = _ :=
    spanDigits_append (by decide) (by simp) h
  simp only [List.map_nil, List.nil_append] at hspan
  simp [takeGroup, hspan]

/-! ## Version four -/

/-- The characters of four octets between points. -/
theorem toList_v4Text (a b c d : Nat) :
    (v4Text a b c d).toList = Nat.toDigits 10 a ++ '.' :: (Nat.toDigits 10 b ++
      '.' :: (Nat.toDigits 10 c ++ '.' :: Nat.toDigits 10 d)) := by
  simp [v4Text]

theorem takeV4_v4Text (a b c d : Fin 256) :
    takeV4 (v4Text a b c d).toList = some ((a, b, c, d), []) := by
  have hpoint (rest : List Char) : NoDigit 10 ('.' :: rest) := by
    rintro c ⟨⟩
    rfl
  have hend : takeOctet (Nat.toDigits 10 d.val ++ []) = _ :=
    takeOctet_toDigits d (by simp [NoDigit])
  rw [List.append_nil] at hend
  simp [takeV4, toList_v4Text, takeOctet_toDigits, hpoint, hend, takeChar]

/-- What is left behind an octet stands at the end of the text. -/
theorem suffix_of_takeOctet {octet : Fin 256} {text rest : List Char}
    (h : takeOctet text = some (octet, rest)) : rest <:+ text := by
  simp only [takeOctet] at h
  split at h
  · split at h
    · cases h
    · cases h
      exact List.drop_suffix _ _
  · cases h

/-- A text without a point starts with no address of version four. -/
theorem takeV4_eq_none {text : List Char} (h : '.' ∉ text) : takeV4 text = none := by
  cases hoctet : takeOctet text with
  | none => simp [takeV4, hoctet]
  | some taken =>
      obtain ⟨octet, rest⟩ := taken
      have hrest : '.' ∉ rest := fun hmem => h ((suffix_of_takeOctet hoctet).subset hmem)
      have hchar : takeChar '.' rest = none := by
        cases rest with
        | nil => rfl
        | cons c rest =>
            have hne : c ≠ '.' := fun heq => hrest (heq ▸ List.mem_cons_self)
            simp [takeChar, hne]
      simp [takeV4, hoctet, hchar]

/-! ## Rows of groups -/

/-- Groups that each stand behind a colon. -/
def colonGroups (groups : List (Fin 65536)) : List Char :=
  groups.flatMap fun group => ':' :: Nat.toDigits 16 group.val

theorem toList_groupsText_cons (group : Fin 65536) (groups : List (Fin 65536)) :
    (groupsText (group :: groups)).toList =
      Nat.toDigits 16 group.val ++ colonGroups groups := by
  induction groups generalizing group with
  | nil => simp [groupsText, colonGroups, Text.hex]
  | cons next groups ih =>
      have hnext := ih next
      simp only [groupsText, List.map_cons] at hnext ⊢
      rw [String.intercalate_cons_cons, String.toList_append, String.toList_append, hnext]
      simp [colonGroups, Text.hex]

theorem point_notMem_toDigits (n : Nat) : '.' ∉ Nat.toDigits 16 n := by
  obtain ⟨digits, hwritten, hdigits, -⟩ := exists_digits 16 (by decide) n
  rw [hwritten, List.mem_map]
  rintro ⟨d, hd, heq⟩
  have hsmall := hdigits d hd
  interval_cases d <;> cases heq

theorem point_notMem_colonGroups (groups : List (Fin 65536)) : '.' ∉ colonGroups groups := by
  rw [colonGroups, List.mem_flatMap]
  rintro ⟨group, -, hmem⟩
  rcases List.mem_cons.mp hmem with heq | hmem
  · cases heq
  · exact point_notMem_toDigits _ hmem

theorem point_notMem_groupsText (groups : List (Fin 65536)) :
    '.' ∉ (groupsText groups).toList := by
  cases groups with
  | nil => simp [groupsText]
  | cons group groups =>
      rw [toList_groupsText_cons, List.mem_append, not_or]
      exact ⟨point_notMem_toDigits _, point_notMem_colonGroups groups⟩

/-- Behind a row of groups the text ends, or goes on with a double colon and no point. -/
structure EndsRow (rest : List Char) : Prop where
  stops : rest = [] ∨ ∃ more, rest = ':' :: ':' :: more
  noPoint : '.' ∉ rest

namespace EndsRow

variable {rest : List Char} (hrest : EndsRow rest)
include hrest

theorem noDigit : NoDigit 16 rest := by
  rcases hrest.stops with rfl | ⟨more, rfl⟩
  · simp [NoDigit]
  · rintro c ⟨⟩
    rfl

theorem noDigit_colonGroups (groups : List (Fin 65536)) :
    NoDigit 16 (colonGroups groups ++ rest) := by
  cases groups with
  | nil => exact hrest.noDigit
  | cons =>
      rintro c ⟨⟩
      rfl

/-- A group is taken where one may follow, and the groups behind it are left to the rest. -/
theorem takeGroups_step (first : Bool) (group : Fin 65536) {groups : List (Fin 65536)}
    {limit : Nat}
    (hgroups : takeGroups false limit (colonGroups groups ++ rest) = (groups, false, rest)) :
    takeGroups first (limit + 1) ((if first then [] else [':']) ++
      (Nat.toDigits 16 group.val ++ (colonGroups groups ++ rest))) =
        (group :: groups, false, rest) := by
  have hpoint : '.' ∉ Nat.toDigits 16 group.val ++ (colonGroups groups ++ rest) := by
    simp only [List.mem_append, not_or]
    exact ⟨point_notMem_toDigits _, point_notMem_colonGroups groups, hrest.noPoint⟩
  have hgroup := takeGroup_toDigits group (hrest.noDigit_colonGroups groups)
  cases first <;>
    simp [takeGroups, takeChar, takeV4_eq_none hpoint, hgroup, hgroups]

/-- A row of groups that may be empty is taken up to its end. -/
theorem takeGroups_colonGroups {groups : List (Fin 65536)} {limit : Nat}
    (hlimit : groups.length ≤ limit) :
    takeGroups false limit (colonGroups groups ++ rest) = (groups, false, rest) := by
  induction groups generalizing limit with
  | nil =>
      cases limit with
      | zero => rfl
      | succ limit =>
          rcases hrest.stops with rfl | ⟨more, rfl⟩
          · rfl
          · have hpoint : '.' ∉ ':' :: more := fun h => hrest.noPoint (List.mem_cons_of_mem _ h)
            have hgroup : takeGroup (':' :: more) = none := takeGroup_eq_none (by rintro c ⟨⟩; rfl)
            simp [colonGroups, takeGroups, takeChar, takeV4_eq_none hpoint, hgroup]
  | cons group groups ih =>
      cases limit with
      | zero => cases hlimit
      | succ limit =>
          have hgroups := ih (Nat.le_of_succ_le_succ hlimit)
          simpa [colonGroups] using hrest.takeGroups_step false group hgroups

theorem takeGroups_groupsText {groups : List (Fin 65536)} (limit : Nat)
    (hlimit : groups.length ≤ limit) :
    takeGroups true limit ((groupsText groups).toList ++ rest) = (groups, false, rest) := by
  cases groups with
  | nil =>
      have hgroup := takeGroup_eq_none hrest.noDigit
      cases limit <;> simp [groupsText, takeGroups, takeV4_eq_none hrest.noPoint, hgroup]
  | cons group groups =>
      cases limit with
      | zero => cases hlimit
      | succ limit =>
          have hgroups := hrest.takeGroups_colonGroups (Nat.le_of_succ_le_succ hlimit)
          rw [toList_groupsText_cons, List.append_assoc]
          exact hrest.takeGroups_step true group hgroups

end EndsRow

/-! ## Runs of zeros -/

theorem getElem?_of_lt_zeroRun {groups : List (Fin 65536)} {i : Nat} (h : i < zeroRun groups) :
    groups[i]? = some 0 := by
  have hprefix := List.takeWhile_prefix (· == (0 : Fin 65536)) (l := groups)
  have hzero := List.mem_takeWhile_imp (List.getElem_mem h)
  rw [List.prefix_iff_getElem?.mp hprefix i h, eq_of_beq hzero]

/-- The longest run of zeros is a run of zeros. -/
theorem longestZeroRun_le (groups : List (Fin 65536)) :
    (longestZeroRun groups).2 ≤ zeroRun (groups.drop (longestZeroRun groups).1) := by
  unfold longestZeroRun
  refine List.foldlRecOn (motive := fun best : Nat × Nat => best.2 ≤ zeroRun (groups.drop best.1))
    _ _ (Nat.zero_le _) fun best hbest start _ => ?_
  simp only
  split
  · exact Nat.le_refl _
  · exact hbest

/-- Where the longest run of zeros is, there are zeros. -/
theorem getElem?_longestZeroRun {groups : List (Fin 65536)} {i : Nat}
    (hlow : (longestZeroRun groups).1 ≤ i)
    (hhigh : i < (longestZeroRun groups).1 + (longestZeroRun groups).2) :
    groups[i]? = some 0 := by
  have hrun := longestZeroRun_le groups
  have hlt : i - (longestZeroRun groups).1 < (longestZeroRun groups).2 := by omega
  have hzero := getElem?_of_lt_zeroRun (Nat.lt_of_lt_of_le hlt hrun)
  rwa [List.getElem?_drop, Nat.add_sub_cancel' hlow] at hzero

/-- Two parts of an address and the zeros between them make up the address. -/
theorem assemble_take_drop {groups : Vector (Fin 65536) 8} (start length : Nat)
    (hzeros : ∀ i, start ≤ i → i < start + length → groups.toList[i]? = some 0) :
    assemble (groups.toList.take start) (groups.toList.drop (start + length)) = groups := by
  ext i hi
  have hget : groups.toList[i]? = some groups[i] := by simp [hi]
  simp only [assemble, Vector.getElem_ofFn, List.length_take, List.length_drop,
    Vector.length_toList]
  split
  · simp
  · split
    · have hback : start + length + (i + (8 - (start + length)) - 8) = i := by omega
      rw [List.getD_eq_getElem?_getD, List.getElem?_drop, hback, hget]
      rfl
    · have hzero := hzeros i (by omega) (by omega)
      rw [hget] at hzero
      rw [Option.some.inj hzero]

/-! ## Addresses -/

theorem read_v4Text (a b c d : Fin 256) : read (v4Text a b c d).toList = some (.v4 a b c d) := by
  simp [read, takeV4_v4Text]

/-- An address of version six in groups alone is read back. -/
theorem takeV6_groupsText (groups : Vector (Fin 65536) 8) :
    takeV6 (groupsText groups.toList).toList = some (groups, []) := by
  have hend : EndsRow [] := ⟨.inl rfl, by simp⟩
  have hlength : groups.toList.length ≤ 8 := by simp
  have htake := hend.takeGroups_groupsText 8 hlength
  rw [List.append_nil] at htake
  have hwhole : assemble (groups.toList.take 8) (groups.toList.drop 8) = groups :=
    assemble_take_drop 8 0 (by omega)
  rw [List.take_of_length_le (by simp), List.drop_eq_nil_of_le (by simp)] at hwhole
  simp [takeV6, htake, hwhole]

/-- A double colon is read back as the zeros it stands for. -/
theorem takeV6_zeros {groups : Vector (Fin 65536) 8} {start length : Nat} (hlength : 0 < length)
    (hzeros : ∀ i, start ≤ i → i < start + length → groups.toList[i]? = some 0) :
    takeV6 ((groupsText (groups.toList.take start)).toList ++
      ':' :: ':' :: (groupsText (groups.toList.drop (start + length))).toList) =
        some (groups, []) := by
  have hlast : start + length ≤ 8 := by
    have hzero := hzeros (start + length - 1) (by omega) (by omega)
    have hlt := (List.getElem?_eq_some_iff.mp hzero).1
    rw [Vector.length_toList] at hlt
    omega
  have hdouble : EndsRow (':' :: ':' ::
      (groupsText (groups.toList.drop (start + length))).toList) :=
    ⟨.inr ⟨_, rfl⟩, by simpa using point_notMem_groupsText _⟩
  have hend : EndsRow [] := ⟨.inl rfl, by simp⟩
  have hfew : (groups.toList.take start).length ≤ 8 := by simp
  have hfront := hdouble.takeGroups_groupsText 8 hfew
  have hless : (groups.toList.drop (start + length)).length ≤ 7 - start := by
    rw [List.length_drop, Vector.length_toList]
    omega
  have hback := hend.takeGroups_groupsText (7 - start) hless
  rw [List.append_nil] at hback
  have hshort : min start 8 = start := by omega
  simp [takeV6, hfront, hback, takeChar, hshort, assemble_take_drop start length hzeros]
  omega

/-- An address that maps one of version four is read back. -/
theorem read_mapped (a b c d : Fin 256) :
    read ("::ffff:" ++ v4Text a b c d).toList =
      some (.v6 ⟨#[0, 0, 0, 0, 0, 0xffff, pair a b, pair c d], rfl⟩) := by
  have hchars : ("::ffff:" ++ v4Text a b c d).toList =
      ':' :: ':' :: 'f' :: 'f' :: 'f' :: 'f' :: ':' :: (v4Text a b c d).toList := by
    rw [String.toList_append]
    rfl
  have hcolon (rest : List Char) : takeOctet (':' :: rest) = none := rfl
  have hletter (rest : List Char) : takeOctet ('f' :: rest) = none := rfl
  have hnone (rest : List Char) : takeGroup (':' :: rest) = none := rfl
  have hffff (rest : List Char) :
      takeGroup ('f' :: 'f' :: 'f' :: 'f' :: ':' :: rest) = some (0xffff, ':' :: rest) := rfl
  have hv4 := takeV4_v4Text a b c d
  have hfront (rest : List Char) : takeV4 (':' :: rest) = none := by simp [takeV4, hcolon]
  have hmiddle (rest : List Char) : takeV4 ('f' :: rest) = none := by simp [takeV4, hletter]
  rw [hchars]
  simp [read, takeV6, takeGroups, hfront, hmiddle, hv4, hnone, hffff, takeChar]
  rfl

theorem pair_div_mod (group : Fin 65536) :
    pair ⟨group.val / 256, by omega⟩ ⟨group.val % 256, by omega⟩ = group :=
  Fin.ext (Nat.div_add_mod group.val 256)

/-- A text without a point is only read as an address of version six. -/
theorem read_of_takeV6 {text : List Char} (hpoint : '.' ∉ text) {groups : Vector (Fin 65536) 8}
    (h : takeV6 text = some (groups, [])) : read text = some (.v6 groups) := by
  simp [read, takeV4_eq_none hpoint, h]

/-- Each address is read back from its text. -/
theorem read_text (ip : Ip) : read ip.text.toList = some ip := by
  cases ip with
  | v4 a b c d => exact read_v4Text a b c d
  | v6 groups =>
      unfold text
      simp only
      split
      · rename_i high low hlist
        have hread := read_mapped ⟨high.val / 256, by omega⟩ ⟨high.val % 256, by omega⟩
          ⟨low.val / 256, by omega⟩ ⟨low.val % 256, by omega⟩
        rw [pair_div_mod, pair_div_mod] at hread
        rw [hread]
        exact congrArg (some ∘ Ip.v6) (Vector.toList_inj.mp hlist.symm)
      · split
        · rw [String.toList_append, String.toList_append, List.append_assoc]
          refine read_of_takeV6 ?_ (takeV6_zeros (by omega) fun _ => getElem?_longestZeroRun)
          simp [point_notMem_groupsText]
        · exact read_of_takeV6 (point_notMem_groupsText _) (takeV6_groupsText groups)

end OpenApi.Ip
