-- SUMMARY: Written numbers are read back from the front of a text that goes on with something else.
import OpenApi.Calendar.Moment
import Mathlib.Algebra.Group.Nat.Defs
import Mathlib.Data.List.Induction

/-!
# Numbers in dates and times

Every law here is about a text that is a written number and a rest. Where a reader
takes as many digits as there are, the rest must not start with a digit.
-/

namespace OpenApi

/-! ## Digits -/

namespace Digits

theorem value_eq_ofDigitChars (digits : List Char) :
    value digits = Nat.ofDigitChars 10 digits 0 := Nat.ofDigitChars_eq_foldl.symm

theorem padded_eq (width n : Nat) :
    padded width n =
      List.replicate (width - (Nat.toDigits 10 n).length) '0' ++ Nat.toDigits 10 n := rfl

/-- Zeros in front do not change a value. -/
theorem value_padded (width n : Nat) : value (padded width n) = n := by
  rw [value_eq_ofDigitChars, padded_eq, Nat.ofDigitChars_append, Nat.ofDigitChars_replicate_zero,
    Nat.mul_zero, Nat.ofDigitChars_ten_toDigits]

theorem isDigit_of_mem_padded {width n : Nat} {c : Char} (h : c ∈ padded width n) :
    c.isDigit = true := by
  rcases List.mem_append.mp h with h | h
  · rw [List.eq_of_mem_replicate h]
    rfl
  · exact Nat.isDigit_of_mem_toDigits (by decide) (by decide) h

theorem padded_ne_nil (width n : Nat) : padded width n ≠ [] := by
  simp [padded_eq, Nat.toDigits_ne_nil]

theorem length_padded {width n : Nat} (hwidth : 0 < width) (hn : n < 10 ^ width) :
    (padded width n).length = width := by
  have hle := (Nat.length_toDigits_le_iff (by decide) hwidth).mpr hn
  simp only [padded_eq, List.length_append, List.length_replicate]
  omega

/-- A row of digits is less than the power of its length. -/
theorem value_lt {digits : List Char} (h : ∀ c ∈ digits, c.isDigit = true) :
    value digits < 10 ^ digits.length := by
  induction digits using List.reverseRecOn with
  | nil => decide
  | append_singleton front last ih =>
      rw [List.forall_mem_append, List.forall_mem_singleton] at h
      have hfront := ih h.1
      have hlast : valueOf last ≤ 9 := by
        have hdigit := h.2
        simp only [Char.isDigit, Bool.and_eq_true, decide_eq_true_eq] at hdigit
        have hle : last.toNat ≤ '9'.toNat := hdigit.2
        unfold valueOf
        have hzero : '0'.toNat = 48 := rfl
        have hnine : '9'.toNat = 57 := rfl
        omega
      have hvalue : value (front ++ [last]) = 10 * value front + valueOf last := by
        simp [value, List.foldl_append]
      rw [hvalue, List.length_append, List.length_singleton, Nat.pow_succ]
      omega

end Digits

namespace Calendar

/-- A text does not go on with a digit. -/
def NoDigit (rest : List Char) : Prop :=
  ∀ c ∈ rest.head?, c.isDigit = false

theorem isBlank_of_isDigit {c : Char} (h : c.isDigit = true) : Text.isBlank c = false := by
  simp only [Char.isDigit, Bool.and_eq_true, decide_eq_true_eq] at h
  obtain ⟨hlow, hhigh⟩ := h
  have hlow' : 48 ≤ c.toNat := hlow
  have hhigh' : c.toNat ≤ 57 := hhigh
  simp only [Text.isBlank, Text.inRanges, Text.blankRanges, List.any_cons, List.any_nil,
    Bool.or_false, Bool.or_eq_false_iff, Bool.and_eq_false_iff, decide_eq_false_iff_not]
  omega

/-! ## Readers of digits -/

section Readers

variable {digits rest : List Char} (hall : ∀ c ∈ digits, c.isDigit = true) (hne : digits ≠ [])
include hall hne

theorem trimStart_digits : trimStart (digits ++ rest) = digits ++ rest := by
  obtain ⟨first, more, rfl⟩ := List.exists_cons_of_ne_nil hne
  have hfirst := isBlank_of_isDigit (hall first (by simp))
  simp [trimStart, hfirst]

/-- Digits are taken up to the width, or up to where they end. -/
theorem takeNumber_digits {width : Nat} (hwidth : digits.length ≤ width)
    (hrest : digits.length = width ∨ NoDigit rest) :
    takeNumber width (digits ++ rest) = .ok (Digits.value digits, rest) := by
  have hnone : ((rest.take (width - digits.length)).takeWhile Char.isDigit) = [] := by
    rcases hrest with heq | hrest
    · simp [heq]
    · cases rest with
      | nil => simp
      | cons c rest =>
          have hc : c.isDigit = false := hrest c (by simp)
          cases width - digits.length <;> simp [hc]
  have htaken : ((digits ++ rest).take width).takeWhile Char.isDigit = digits := by
    rw [List.take_append, List.take_of_length_le hwidth, List.takeWhile_append_of_pos hall, hnone,
      List.append_nil]
  simp only [takeNumber, htaken]
  obtain ⟨first, more, rfl⟩ := List.exists_cons_of_ne_nil hne
  simp

end Readers

theorem takeNumber_padded {width n : Nat} {rest : List Char} (hwidth : 0 < width)
    (hn : n < 10 ^ width) :
    takeNumber width (Digits.padded width n ++ rest) = .ok (n, rest) := by
  have hlength := Digits.length_padded hwidth hn
  rw [takeNumber_digits (fun _ => Digits.isDigit_of_mem_padded) (Digits.padded_ne_nil width n)
    (Nat.le_of_eq hlength) (.inl hlength), Digits.value_padded]

theorem takeWithin_padded {width low high n : Nat} {rest : List Char} (hwidth : 0 < width)
    (hn : n < 10 ^ width) (hrange : low ≤ n ∧ n ≤ high) :
    takeWithin width low high (Digits.padded width n ++ rest) = .ok (n, rest) := by
  rw [takeWithin, trimStart_digits (fun _ => Digits.isDigit_of_mem_padded)
    (Digits.padded_ne_nil width n), takeNumber_padded hwidth hn]
  exact if_pos hrange

theorem takeChar_cons (c : Char) (rest : List Char) : takeChar c (c :: rest) = .ok rest :=
  if_pos rfl

/-! ## Years -/

/-- A year behind a sign has as many digits as there are. -/
theorem takeNumber_signed {n : Nat} {rest : List Char} (hrest : NoDigit rest) :
    takeNumber (Digits.padded 4 n ++ rest).length (Digits.padded 4 n ++ rest) = .ok (n, rest) := by
  rw [takeNumber_digits (fun _ => Digits.isDigit_of_mem_padded) (Digits.padded_ne_nil 4 n)
    (by simp) (.inr hrest), Digits.value_padded]

theorem ne_sign_of_isDigit {c : Char} (h : c.isDigit = true) : c ≠ '-' ∧ c ≠ '+' := by
  constructor <;> rintro rfl <;> cases h

/-- A written year is read back where it is followed by something else than a digit. -/
theorem takeYear_yearText {year : Int} {rest : List Char}
    (hyear : -262143 ≤ year ∧ year ≤ 262142) (hrest : NoDigit rest) :
    takeYear (Date.yearText year ++ rest) = .ok (year, rest) := by
  have hrange : -0x80000000 ≤ year ∧ year < 0x80000000 := by omega
  unfold Date.yearText
  split
  · rename_i hshort
    have hdigits : ∀ c ∈ Digits.padded 4 year.toNat, c.isDigit = true :=
      fun _ => Digits.isDigit_of_mem_padded
    have hnumber : takeNumber 4 (Digits.padded 4 year.toNat ++ rest) = .ok (year.toNat, rest) :=
      takeNumber_padded (by decide) (by omega)
    have htrim : trimStart (Digits.padded 4 year.toNat ++ rest) = _ :=
      trimStart_digits hdigits (Digits.padded_ne_nil 4 year.toNat)
    obtain ⟨first, more, hsplit⟩ := List.exists_cons_of_ne_nil (Digits.padded_ne_nil 4 year.toNat)
    have hsign := ne_sign_of_isDigit (hdigits first (by simp [hsplit]))
    rw [hsplit, List.cons_append] at htrim hnumber ⊢
    have hcast : ((year.toNat : Nat) : Int) = year := by omega
    unfold takeYear
    simp [htrim, hsign, bind, Except.bind, hnumber, hcast, hrange]
  · rename_i hlong
    have htrim (sign : Char) (hblank : Text.isBlank sign = false) :
        trimStart (sign :: (Digits.padded 4 year.natAbs ++ rest)) =
          sign :: (Digits.padded 4 year.natAbs ++ rest) := by
      simp [trimStart, hblank]
    have hnumber := takeNumber_signed (n := year.natAbs) hrest
    split
    · have hcast : -((year.natAbs : Nat) : Int) = year := by omega
      unfold takeYear
      simp only [List.cons_append, htrim '-' (by decide), bind, Except.bind, hnumber]
      simp only [hcast, hrange, and_self, if_true]
    · have hcast : ((year.natAbs : Nat) : Int) = year := by omega
      unfold takeYear
      simp only [List.cons_append, htrim '+' (by decide), bind, Except.bind, hnumber]
      simp only [hcast, hrange, and_self, if_true]

/-! ## Fractions -/

/-- Digits behind a point count as a fraction with nine digits. -/
theorem takeFraction_padded {width n : Nat} {rest : List Char} (hwidth : 0 < width)
    (hnine : width ≤ 9) (hn : n < 10 ^ width) (hrest : NoDigit rest) :
    takeFraction ('.' :: (Digits.padded width n ++ rest)) = .ok (n * 10 ^ (9 - width), rest) := by
  have hlength := Digits.length_padded hwidth hn
  have hnumber : takeNumber 9 (Digits.padded width n ++ rest) = .ok (n, rest) := by
    rw [takeNumber_digits (fun _ => Digits.isDigit_of_mem_padded) (Digits.padded_ne_nil width n)
      (by omega) (.inr hrest), Digits.value_padded]
  have hdrop : rest.dropWhile Char.isDigit = rest := by
    cases rest with
    | nil => rfl
    | cons c rest =>
        have hc : c.isDigit = false := hrest c (by simp)
        simp [hc]
  simp [takeFraction, hnumber, bind, Except.bind, hdrop, hlength]

/-- A written fraction is read back where it is followed by neither a point nor a digit. -/
theorem takeFraction_fractionText {nano : Nat} {rest : List Char} (hnano : nano < 1000000000)
    (hrest : NoDigit rest) (hpoint : rest.head? ≠ some '.') :
    takeFraction (Clock.fractionText nano ++ rest) = .ok (nano, rest) := by
  unfold Clock.fractionText
  split
  · rename_i hzero
    rw [List.nil_append, hzero]
    unfold takeFraction
    split
    · exact absurd rfl hpoint
    · rfl
  · split
    · rw [List.cons_append, takeFraction_padded (by decide) (by decide) (by omega) hrest]
      congr 2
      omega
    · split
      · rw [List.cons_append, takeFraction_padded (by decide) (by decide) (by omega) hrest]
        congr 2
        omega
      · rw [List.cons_append, takeFraction_padded (by decide) (by decide) (by omega) hrest]
        simp

end Calendar
end OpenApi
