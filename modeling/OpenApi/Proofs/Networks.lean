-- SUMMARY: Which texts are networks: an address, and perhaps a slash and a number of leading bits.
import OpenApi.Proofs.Address
import OpenApi.Scalar

/-!
# Networks

No address has a slash in it, since each reader of a part only takes digits, points and
colons. So the first slash of a text ends the address, if there is one at all, and what is
behind it is the number of leading bits: nothing, or decimal digits of which the value is
not above the width of the address, perhaps with a plus sign in front.
-/

namespace OpenApi

namespace Ip

/-! ## Addresses have no slash -/

/-- What is taken from the front of a text has no slash in it. -/
def TakesNoSlash (text rest : List Char) : Prop := ∃ front, text = front ++ rest ∧ '/' ∉ front

theorem TakesNoSlash.refl (text : List Char) : TakesNoSlash text text := ⟨[], rfl, by simp⟩

theorem TakesNoSlash.trans {text middle rest : List Char} (h : TakesNoSlash text middle)
    (h' : TakesNoSlash middle rest) : TakesNoSlash text rest := by
  obtain ⟨front, rfl, hfront⟩ := h
  obtain ⟨back, rfl, hback⟩ := h'
  exact ⟨front ++ back, by rw [List.append_assoc], by simp [hfront, hback]⟩

theorem takesNoSlash_spanDigits (base : Nat) (text : List Char) :
    TakesNoSlash text (spanDigits base text).2 := by
  refine ⟨text.takeWhile fun c => (digit? base c).isSome, ?_, fun hmem => ?_⟩
  · exact (List.prefix_iff_eq_append.mp (List.takeWhile_prefix _)).symm
  · have hdigit := List.mem_takeWhile_imp hmem
    have hnone : digit? base '/' = none := by
      simp [digit?]
    rw [hnone] at hdigit
    cases hdigit

theorem takesNoSlash_takeOctet {octet : Fin 256} {text rest : List Char}
    (h : takeOctet text = some (octet, rest)) : TakesNoSlash text rest := by
  have hspan := takesNoSlash_spanDigits 10 text
  simp only [takeOctet] at h
  split at h
  · split at h <;> cases h
    exact hspan
  · cases h

theorem takesNoSlash_takeGroup {group : Fin 65536} {text rest : List Char}
    (h : takeGroup text = some (group, rest)) : TakesNoSlash text rest := by
  have hspan := takesNoSlash_spanDigits 16 text
  simp only [takeGroup] at h
  split at h
  · split at h <;> cases h
    exact hspan
  · cases h

theorem takesNoSlash_takeChar {c : Char} (hc : c ≠ '/') {text rest : List Char}
    (h : takeChar c text = some rest) : TakesNoSlash text rest := by
  cases text with
  | nil => cases h
  | cons first more =>
      simp only [takeChar] at h
      split at h <;> cases h
      rename_i heq
      exact ⟨[first], rfl, by simpa [heq] using hc.symm⟩

theorem takesNoSlash_takeV4 {octets : Fin 256 × Fin 256 × Fin 256 × Fin 256}
    {text rest : List Char} (h : takeV4 text = some (octets, rest)) : TakesNoSlash text rest := by
  simp only [takeV4, Option.bind_eq_bind, Option.bind_eq_some_iff, Prod.exists] at h
  obtain ⟨a, rest₁, ha, rest₂, hpoint₁, b, rest₃, hb, rest₄, hpoint₂, c, rest₅, hc, rest₆, hpoint₃,
    d, rest₇, hd, heq⟩ := h
  cases heq
  have hpoint {text rest : List Char} := @takesNoSlash_takeChar '.' (by decide) text rest
  exact (takesNoSlash_takeOctet ha).trans <| (hpoint hpoint₁).trans <|
    (takesNoSlash_takeOctet hb).trans <| (hpoint hpoint₂).trans <|
    (takesNoSlash_takeOctet hc).trans <| (hpoint hpoint₃).trans (takesNoSlash_takeOctet hd)

theorem takesNoSlash_takeGroups (first : Bool) (limit : Nat) (text : List Char) :
    TakesNoSlash text (takeGroups first limit text).2.2 := by
  induction limit generalizing first text with
  | zero => exact .refl text
  | succ limit ih =>
      simp only [takeGroups]
      split
      · exact .refl text
      · rename_i start hstart
        have hcolon : TakesNoSlash text start := by
          split at hstart
          · cases hstart
            exact .refl text
          · exact takesNoSlash_takeChar (by decide) hstart
        split
        · rename_i hv4
          split at hv4
          · exact hcolon.trans (takesNoSlash_takeV4 hv4)
          · cases hv4
        · split
          · exact .refl text
          · rename_i hgroup
            exact hcolon.trans ((takesNoSlash_takeGroup hgroup).trans (ih false _))

theorem takesNoSlash_takeV6 {groups : Vector (Fin 65536) 8} {text rest : List Char}
    (h : takeV6 text = some (groups, rest)) : TakesNoSlash text rest := by
  have hfront := takesNoSlash_takeGroups true 8 text
  simp only [takeV6] at h
  split at h
  · cases h
    exact hfront
  · split at h
    · cases h
    · simp only [Option.bind_eq_bind, Option.bind_eq_some_iff] at h
      obtain ⟨rest₁, hcolon₁, rest₂, hcolon₂, heq⟩ := h
      cases heq
      have hcolon {text rest : List Char} := @takesNoSlash_takeChar ':' (by decide) text rest
      exact hfront.trans <| (hcolon hcolon₁).trans <| (hcolon hcolon₂).trans <|
        takesNoSlash_takeGroups true _ _

/-- An address has no slash in it. -/
theorem slash_notMem_of_read {text : List Char} {ip : Ip} (h : read text = some ip) :
    '/' ∉ text := by
  have hwhole {rest : List Char} (htakes : TakesNoSlash text rest) (hend : rest.isEmpty = true) :
      '/' ∉ text := by
    obtain ⟨front, rfl, hfront⟩ := htakes
    rwa [List.isEmpty_iff.mp hend, List.append_nil]
  unfold read at h
  split at h
  · rename_i hv4
    split at h
    · rename_i hend
      exact hwhole (takesNoSlash_takeV4 hv4) hend
    · cases h
  · split at h
    · rename_i hv6
      split at h
      · rename_i hend
        exact hwhole (takesNoSlash_takeV6 hv6) hend
      · cases h
    · cases h

end Ip

/-! ## Networks -/

namespace Network

theorem forall_ne_slash {text : List Char} (h : '/' ∉ text) :
    ∀ c ∈ text, decide (c ≠ '/') = true := by
  intro c hc
  rw [decide_eq_true_eq]
  rintro rfl
  exact h hc

theorem splitSlash_append {front : List Char} (hfront : '/' ∉ front) (back : List Char) :
    splitSlash (front ++ '/' :: back) = (front, back) := by
  have htake : (front ++ '/' :: back).takeWhile (fun c => decide (c ≠ '/')) = front := by
    rw [List.takeWhile_append_of_pos (forall_ne_slash hfront)]
    simp
  simp only [splitSlash, htake]
  simp

theorem splitSlash_self {text : List Char} (h : '/' ∉ text) : splitSlash text = (text, []) := by
  simp only [splitSlash, List.takeWhile_eq_self_iff.mpr (forall_ne_slash h)]
  simp

/-- A text has no slash, or is split at the first one. -/
theorem splitSlash_cases (text : List Char) :
    splitSlash text = (text, []) ∨
      ∃ front back, text = front ++ '/' :: back ∧ splitSlash text = (front, back) := by
  by_cases h : '/' ∈ text
  · obtain ⟨front, back, rfl, hfront⟩ := List.eq_append_cons_of_mem h
    exact .inr ⟨front, back, rfl, splitSlash_append hfront back⟩
  · exact .inl (splitSlash_self h)

/-- A number of leading bits is decimal digits, perhaps behind a plus sign. -/
theorem lengthValue?_eq_some_iff {text : List Char} {n : Nat} :
    lengthValue? text = some n ↔
      ∃ digits, (text = digits ∨ text = '+' :: digits) ∧ digits ≠ [] ∧
        (∀ c ∈ digits, c.isDigit = true) ∧ Digits.value digits = n := by
  have hread (digits : List Char) :
      (if digits.isEmpty || !digits.all Char.isDigit then none else some (Digits.value digits)) =
          some n ↔
        digits ≠ [] ∧ (∀ c ∈ digits, c.isDigit = true) ∧ Digits.value digits = n := by
    cases digits <;> simp
  by_cases hplus : text.head? = some '+'
  · obtain ⟨digits, rfl⟩ := List.head?_eq_some_iff.mp hplus
    rw [lengthValue?, if_pos hplus, List.drop_one, List.tail_cons, hread]
    refine ⟨fun h => ⟨digits, .inr rfl, h⟩, ?_⟩
    rintro ⟨other, rfl | heq, hdigits⟩
    · -- A plus sign is no digit.
      exact absurd (hdigits.2.1 '+' List.mem_cons_self) (by decide)
    · cases heq
      exact hdigits
  · rw [lengthValue?, if_neg hplus, hread]
    refine ⟨fun h => ⟨text, .inl rfl, h⟩, ?_⟩
    rintro ⟨digits, rfl | rfl, hdigits⟩
    · exact hdigits
    · exact absurd rfl hplus

/-- A number of leading bits in decimal digits, not above the width of an address. -/
structure IsLength (ip : Ip) (digits : String) : Prop where
  nonempty : digits ≠ ""
  decimal : ∀ c ∈ digits.toList, c.isDigit = true
  value_le : Digits.value digits.toList ≤ width ip

/-- What may stand behind an address: a slash with nothing or a number of leading bits behind it,
which may have a plus sign. -/
def IsSuffix (ip : Ip) (suffix : String) : Prop :=
  suffix = "" ∨ suffix = "/" ∨
    ∃ sign digits, (sign = "" ∨ sign = "+") ∧ IsLength ip digits ∧ suffix = "/" ++ sign ++ digits

theorem check_of_split {family : NetworkFamily} {text : String} {front back : List Char}
    (h : splitSlash text.toList = (front, back)) :
    check family text = .ok () ↔
      ∃ ip, Ip.read front = some ip ∧ excludes family ip = false ∧
        (back = [] ∨ ∃ n, lengthValue? back = some n ∧ n ≤ width ip) := by
  simp only [check, h]
  cases Ip.read front with
  | none => simp
  | some ip =>
      cases hfamily : excludes family ip with
      | true => simp [hfamily]
      | false =>
          cases back with
          | nil => simp [hfamily]
          | cons c rest =>
              cases hlength : lengthValue? (c :: rest) with
              | none => simp [hfamily]
              | some n => by_cases hle : n ≤ width ip <;> simp [hfamily, hle]

theorem isSuffix_slash_iff {ip : Ip} {back : String} :
    IsSuffix ip ("/" ++ back) ↔
      back.toList = [] ∨ ∃ n, lengthValue? back.toList = some n ∧ n ≤ width ip := by
  constructor
  · rintro (h | h | ⟨sign, digits, hsign, hlength, h⟩)
    · simp at h
    · exact .inl (by simpa using congrArg String.toList h)
    · have hback : back.toList = sign.toList ++ digits.toList := by
        have := congrArg String.toList h
        simpa using this
      refine .inr ⟨_, lengthValue?_eq_some_iff.mpr ⟨digits.toList, ?_, ?_, hlength.decimal, rfl⟩,
        hlength.value_le⟩
      · rcases hsign with rfl | rfl
        · exact .inl hback
        · exact .inr hback
      · simpa using hlength.nonempty
  · rintro (h | ⟨n, hvalue, hle⟩)
    · have hempty : back = "" := by simpa using h
      exact .inr (.inl (by rw [hempty]; rfl))
    · obtain ⟨digits, hback, hne, hdecimal, rfl⟩ := lengthValue?_eq_some_iff.mp hvalue
      have hlength : IsLength ip (String.ofList digits) :=
        ⟨by simpa using hne, by simpa using hdecimal, by simpa using hle⟩
      rcases hback with hback | hback
      · exact .inr (.inr ⟨"", String.ofList digits, .inl rfl, hlength, by simp [← hback]⟩)
      · refine .inr (.inr ⟨"+", String.ofList digits, .inr rfl, hlength, ?_⟩)
        rw [← String.toList_inj]
        simp [hback]

theorem check_eq_ok_iff {family : NetworkFamily} {text : String} :
    check family text = .ok () ↔
      ∃ address ip suffix, Ip.read address.toList = some ip ∧ excludes family ip = false ∧
        IsSuffix ip suffix ∧ text = address ++ suffix := by
  constructor
  · intro h
    rcases splitSlash_cases text.toList with hsplit | ⟨front, back, htext, hsplit⟩
    · obtain ⟨ip, hread, hfamily, -⟩ := (check_of_split hsplit).mp h
      exact ⟨text, ip, "", hread, hfamily, .inl rfl, by simp⟩
    · obtain ⟨ip, hread, hfamily, hlength⟩ := (check_of_split hsplit).mp h
      refine ⟨String.ofList front, ip, "/" ++ String.ofList back, by simpa using hread, hfamily,
        isSuffix_slash_iff.mpr (by simpa using hlength), ?_⟩
      rw [← String.toList_inj, htext]
      simp
  · rintro ⟨address, ip, suffix, hread, hfamily, hsuffix, rfl⟩
    have hslash := Ip.slash_notMem_of_read hread
    have hcases : suffix = "" ∨ ∃ back, suffix = "/" ++ back := by
      rcases hsuffix with rfl | rfl | ⟨sign, digits, -, -, rfl⟩
      · exact .inl rfl
      · exact .inr ⟨"", rfl⟩
      · exact .inr ⟨sign ++ digits, String.append_assoc ..⟩
    rcases hcases with rfl | ⟨back, rfl⟩
    · have hsplit : splitSlash (address ++ "").toList = (address.toList, []) := by
        rw [String.append_empty, splitSlash_self hslash]
      exact (check_of_split hsplit).mpr ⟨ip, hread, hfamily, .inl rfl⟩
    · have hsplit : splitSlash (address ++ ("/" ++ back)).toList = (address.toList, back.toList) := by
        rw [String.toList_append, String.toList_append]
        exact splitSlash_append hslash back.toList
      exact (check_of_split hsplit).mpr ⟨ip, hread, hfamily, isSuffix_slash_iff.mp hsuffix⟩

end Network

namespace ScalarType

/-- The type of the networks of a family. -/
def ofNetwork : NetworkFamily → ScalarType
  | .v4 => .ipv4Network
  | .v6 => .ipv6Network
  | .any => .ipAnyNetwork

/-- The type of the addresses of a family. -/
def ofAddress : NetworkFamily → ScalarType
  | .v4 => .ipv4
  | .v6 => .ipv6
  | .any => .ipAny

variable {family : NetworkFamily} {text : String}

theorem decode_ofAddress {ip : Ip} :
    (ofAddress family).decode (.str text) = .ok (.ip ip) ↔
      Ip.read text.toList = some ip ∧ Network.excludes family ip = false := by
  cases family <;> simp only [ofAddress, decode, decodeText] <;> split <;> grind

theorem decode_ofNetwork {scalar : Scalar} :
    (ofNetwork family).decode (.str text) = .ok scalar ↔
      scalar = .text text ∧ Network.check family text = .ok () := by
  cases family <;> simp only [ofNetwork, decode, decodeText] <;> split <;>
    simp [*, eq_comm]

/-- A text is a network exactly if it is an address of the family, or such an address with a slash
behind it and there nothing, or decimal digits that may have a plus sign, of which the value is not
above the width of the address. It is kept as it is. -/
theorem decode_network (family : NetworkFamily) (text : String) (scalar : Scalar) :
    (ofNetwork family).decode (.str text) = .ok scalar ↔
      scalar = .text text ∧
        ∃ address ip suffix, (ofAddress family).decode (.str address) = .ok (.ip ip) ∧
          Network.IsSuffix ip suffix ∧ text = address ++ suffix := by
  rw [decode_ofNetwork, Network.check_eq_ok_iff]
  simp only [decode_ofAddress, and_assoc]

/-- Digits alone are not all that may stand behind the slash: 10.0.0.0/+8 is a network. -/
theorem not_decode_network_digits :
    ¬ ∀ (family : NetworkFamily) (text : String),
      (∃ scalar, (ofNetwork family).decode (.str text) = .ok scalar) ↔
        ∃ address ip, (ofAddress family).decode (.str address) = .ok (.ip ip) ∧
          (text = address ∨
            ∃ digits, Network.IsLength ip digits ∧ text = address ++ "/" ++ digits) := by
  intro h
  obtain ⟨address, ip, haddress, htext⟩ := (h .v4 "10.0.0.0/+8").mp ⟨_, rfl⟩
  have hslash := Ip.slash_notMem_of_read (decode_ofAddress.mp haddress).1
  rcases htext with rfl | ⟨digits, hlength, htext⟩
  · exact hslash (by decide)
  · have hlist : "10.0.0.0/+8".toList = address.toList ++ '/' :: digits.toList := by simp [htext]
    have hsplit : Network.splitSlash "10.0.0.0/+8".toList = (_, ['+', '8']) := rfl
    rw [hlist, Network.splitSlash_append hslash] at hsplit
    have hdigits := hlength.decimal
    rw [(Prod.mk.inj hsplit).2] at hdigits
    exact absurd (hdigits '+' List.mem_cons_self) (by decide)

end ScalarType
end OpenApi
