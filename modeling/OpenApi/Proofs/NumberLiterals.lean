-- SUMMARY: Which numbers are written as they were read, and what becomes of the others.
import OpenApi.Proofs.Decimal.Rounding
import OpenApi.Scalar

/-!
# Number literals

An integer literal has 64 bits, with a sign or without. A scalar holds an integer with a
sign or a double. So an integer that only fits without a sign has no place of its own: the
integer type refuses it, and the types of numbers take the nearest double, which is written
as no integer. All other numbers are written as they were read.
-/

namespace OpenApi

/-- A number that a literal can stand for: an integer has 64 bits, with a sign or without. -/
def Number.InRange : Number → Prop
  | .int n => -0x8000000000000000 ≤ n ∧ n < 0x10000000000000000
  | .float _ => True

/-! ## Scalars -/

namespace ScalarType

theorem fitsSigned_iff {n : Int} (h : (Number.int n).InRange) :
    fitsSigned n = true ↔ n < 0x8000000000000000 := by
  simp only [Number.InRange] at h
  simp only [fitsSigned, Bool.and_eq_true, decide_eq_true_eq]
  omega

/-- An integer that only fits without a sign is taken as the nearest double. -/
theorem decode_unsigned {type : ScalarType} (htype : type = .float ∨ type = .timeDelta) {n : Int}
    (hn : (Number.int n).InRange) (hbeyond : 0x8000000000000000 ≤ n) :
    ∃ x, type.decode (.num (.int n)) = .ok (.number x) ∧ x.isNegative = false ∧ x.Rounds n := by
  have hfits : ¬ fitsSigned n = true := by
    rw [fitsSigned_iff hn]
    omega
  simp only [Number.InRange] at hn
  obtain ⟨x, hx, hsign, hrounds⟩ := Double.exists_ofNat? (n := n.toNat) (by omega)
  have hcast : ((n.toNat : ℕ) : ℚ) = n := by
    exact_mod_cast congrArg (Int.cast (R := ℚ)) (Int.toNat_of_nonneg (a := n) (by omega))
  refine ⟨x, ?_, hsign, hcast ▸ hrounds⟩
  rcases htype with rfl | rfl <;> simp only [decode, if_neg hfits, hx, Option.getD_some]

/-- A number that is decoded is written as it was, exactly if it is no integer beyond those with a
sign. Such an integer is only taken where numbers may have a fraction, and written as the double
that is nearest to it. -/
theorem decode_number {type : ScalarType}
    (htype : type.primitive = .integer ∨ type.primitive = .number) {number : Number}
    (hnumber : number.InRange) {scalar : Scalar} (h : type.decode (.num number) = .ok scalar) :
    (scalar.toJson = .num number ↔ ∀ n, number = .int n → n < 0x8000000000000000) ∧
      ∀ n, number = .int n → 0x8000000000000000 ≤ n →
        type.primitive = .number ∧ scalar.toJson.same (.num number) = false ∧
          ∃ x, scalar.toJson = .num (.float x) ∧ x.isNegative = false ∧ x.Rounds n := by
  have hcases : type = .integer ∨ type = .float ∨ type = .timeDelta := by
    cases type <;> simp_all [primitive]
  cases number with
  | float x =>
      have hjson : scalar.toJson = .num (.float x) := by
        rcases hcases with rfl | rfl | rfl <;> cases h <;> rfl
      refine ⟨iff_of_true hjson ?_, ?_⟩ <;> rintro _ ⟨⟩
  | int n =>
      by_cases hlt : n < 0x8000000000000000
      · have hfits := (fitsSigned_iff hnumber).mpr hlt
        have hjson : scalar.toJson = .num (.int n) := by
          rcases hcases with rfl | rfl | rfl <;> simp only [decode, if_pos hfits] at h <;>
            cases h <;> rfl
        refine ⟨iff_of_true hjson ?_, ?_⟩
        · rintro _ ⟨⟩
          exact hlt
        · rintro _ ⟨⟩ hbeyond
          omega
      · have hbeyond : 0x8000000000000000 ≤ n := by omega
        rcases hcases with rfl | hnumeric
        · -- The integer type refuses the literal.
          have hfits : ¬ fitsSigned n = true := by rwa [fitsSigned_iff hnumber]
          simp only [decode, if_neg hfits] at h
          cases h
        · obtain ⟨x, hdecode, hsign, hrounds⟩ := decode_unsigned hnumeric hnumber hbeyond
          cases hdecode.symm.trans h
          have hother : (Scalar.number x).toJson ≠ .num (.int n) := by rintro ⟨⟩
          refine ⟨iff_of_false hother fun hall => hlt (hall n rfl), ?_⟩
          rintro _ ⟨⟩ -
          exact ⟨by rcases hnumeric with rfl | rfl <;> rfl, rfl, x, rfl, hsign, hrounds⟩

/-- The literal 9223372036854775809 in a number comes out as 9223372036854775808.0. -/
theorem decode_number_identifier :
    float.decode (.num (.int 9223372036854775809)) = .ok (.number ⟨0x43e0000000000000⟩) ∧
      (Scalar.number ⟨0x43e0000000000000⟩).toJson ≠ .num (.int 9223372036854775809) ∧
      Double.Rounds ⟨0x43e0000000000000⟩ (9223372036854775809 : Int) := by
  have hdecode : float.decode (.num (.int 9223372036854775809)) =
      .ok (.number ⟨0x43e0000000000000⟩) := rfl
  obtain ⟨hwritten, hbeyond⟩ := decode_number (.inr rfl)
    (show (Number.int 9223372036854775809).InRange by simp [Number.InRange]) hdecode
  refine ⟨hdecode, fun h => absurd (hwritten.mp h _ rfl) (by decide), ?_⟩
  obtain ⟨-, -, x, hx, -, hrounds⟩ := hbeyond _ rfl (by decide)
  cases hx
  exact hrounds

/-- Not every number that is decoded is written as it was. -/
theorem not_decode_number :
    ¬ ∀ (type : ScalarType) (number : Number) (scalar : Scalar),
      type.primitive = .integer ∨ type.primitive = .number → number.InRange →
      type.decode (.num number) = .ok scalar → scalar.toJson.same (.num number) = true := by
  intro h
  have hdecode : float.decode (.num (.int 9223372036854775809)) =
      .ok (.number ⟨0x43e0000000000000⟩) := rfl
  cases h _ _ _ (.inr rfl) (by simp [Number.InRange]) hdecode

end ScalarType
end OpenApi
