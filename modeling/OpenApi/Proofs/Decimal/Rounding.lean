-- SUMMARY: A quotient of natural numbers is rounded to the nearest double.
import OpenApi.Proofs.Decimal.Shortest

/-!
# Rounding

A quotient lies between two neighbouring powers of two, which gives the unit of the mantissa:
fifty-two places further down, but never below that of the subnormal values. Counted in this
unit the quotient is rounded to the nearest natural number, a tie going to the even one. Rounded
up to the next power of two it has the least mantissa, in units twice as large.
-/

namespace OpenApi.Double

/-! ## Natural numbers -/

/-- A natural number is nearest to a rational one; of two that are, it is the even one. -/
def IsNearest (m : ℕ) (value : ℚ) : Prop :=
  if m % 2 = 0 then m - 1 / 2 ≤ value ∧ value ≤ m + 1 / 2
  else m - 1 / 2 < value ∧ value < m + 1 / 2

theorem IsNearest.bounds {m : ℕ} {value : ℚ} (h : IsNearest m value) :
    m - 1 / 2 ≤ value ∧ value ≤ m + 1 / 2 := by
  unfold IsNearest at h
  split at h
  · exact h
  · exact ⟨h.1.le, h.2.le⟩

theorem IsNearest.le_of_lt {m n : ℕ} {value : ℚ} (h : IsNearest m value) (hlt : value < n) :
    m ≤ n := by
  have hlt : (m : ℚ) < n + 1 := by linarith [h.bounds.1]
  exact Nat.lt_succ_iff.mp (by exact_mod_cast hlt)

theorem IsNearest.le_of_le {m n : ℕ} {value : ℚ} (h : IsNearest m value) (hle : (n : ℚ) ≤ value) :
    n ≤ m := by
  have hlt : (n : ℚ) < m + 1 := by linarith [h.bounds.2]
  exact Nat.lt_succ_iff.mp (by exact_mod_cast hlt)

theorem roundDiv_isNearest (num : ℕ) {den : ℕ} (hden : 0 < den) :
    IsNearest (roundDiv num den) (num / den) := by
  have hsplit := Nat.div_add_mod num den
  have hrest := Nat.mod_lt num hden
  have hpos : (0 : ℚ) < den := by exact_mod_cast hden
  have hvalue : (num : ℚ) / den = (num / den : ℕ) + (num % den : ℕ) / den := by
    have hsplit' : (den : ℚ) * (num / den : ℕ) + (num % den : ℕ) = num := by exact_mod_cast hsplit
    field_simp
    linarith
  have hnonneg : (0 : ℚ) ≤ (num % den : ℕ) / den := by positivity
  have hlt : ((num % den : ℕ) : ℚ) / den < 1 := by
    rw [div_lt_one hpos]
    exact_mod_cast hrest
  -- The rest is compared with half of the divisor.
  have hbelow (h : 2 * (num % den) < den) : ((num % den : ℕ) : ℚ) / den < 1 / 2 := by
    rw [div_lt_div_iff₀ hpos two_pos]
    exact_mod_cast (by omega)
  have habove (h : den < 2 * (num % den)) : 1 / 2 < ((num % den : ℕ) : ℚ) / den := by
    rw [div_lt_div_iff₀ two_pos hpos]
    exact_mod_cast (by omega)
  have htie (h : 2 * (num % den) = den) : ((num % den : ℕ) : ℚ) / den = 1 / 2 := by
    rw [div_eq_div_iff hpos.ne' two_ne_zero]
    exact_mod_cast (by omega)
  simp only [roundDiv, IsNearest, hvalue]
  split
  · rename_i h
    have := hbelow h
    split <;> constructor <;> linarith
  · split
    · rename_i h
      have := habove h
      split <;> push_cast <;> constructor <;> linarith
    · have := htie (by omega)
      rcases Nat.mod_two_eq_zero_or_one (num / den) with heven | hodd
      · rw [heven, Nat.add_zero, if_pos heven]
        constructor <;> linarith
      · rw [hodd, if_pos (by omega)]
        push_cast
        constructor <;> linarith

/-! ## Powers of two -/

theorem two_zpow_le_div_iff (e : ℤ) {num den : ℕ} (hden : 0 < den) :
    (2 : ℚ) ^ e ≤ num / den ↔ den <<< e.toNat ≤ num <<< (-e).toNat := by
  have hpos : (0 : ℚ) < den := by exact_mod_cast hden
  rw [zpow_eq_div two_ne_zero, div_le_div_iff₀ (by positivity) hpos, Nat.shiftLeft_eq,
    Nat.shiftLeft_eq, mul_comm]
  exact_mod_cast Iff.rfl

/-- The exponent of the power of two at or below a quotient. -/
theorem ratioLog2_bounds {num den : ℕ} (hnum : 0 < num) (hden : 0 < den) :
    (2 : ℚ) ^ ratioLog2 num den ≤ num / den ∧ (num : ℚ) / den < 2 ^ (ratioLog2 num den + 1) := by
  have hpos : (0 : ℚ) < den := by exact_mod_cast hden
  have hnumLow : (2 : ℚ) ^ (Nat.log2 num : ℤ) ≤ num := by
    rw [zpow_natCast]
    exact_mod_cast Nat.log2_self_le hnum.ne'
  have hnumHigh : (num : ℚ) < 2 ^ ((Nat.log2 num : ℤ) + 1) := by
    rw [← Nat.cast_succ, zpow_natCast]
    exact_mod_cast Nat.lt_log2_self
  have hdenLow : (2 : ℚ) ^ (Nat.log2 den : ℤ) ≤ den := by
    rw [zpow_natCast]
    exact_mod_cast Nat.log2_self_le hden.ne'
  have hdenHigh : (den : ℚ) < 2 ^ ((Nat.log2 den : ℤ) + 1) := by
    rw [← Nat.cast_succ, zpow_natCast]
    exact_mod_cast Nat.lt_log2_self
  have hlow : (2 : ℚ) ^ ((Nat.log2 num : ℤ) - Nat.log2 den - 1) ≤ num / den := by
    rw [sub_sub, zpow_sub₀ two_ne_zero]
    gcongr
  have hhigh : (num : ℚ) / den < 2 ^ ((Nat.log2 num : ℤ) - Nat.log2 den + 1) := by
    rw [sub_add_eq_add_sub, zpow_sub₀ two_ne_zero]
    gcongr
  simp only [ratioLog2]
  split
  · rename_i h
    exact ⟨(two_zpow_le_div_iff _ hden).mpr h, hhigh⟩
  · rename_i h
    rw [sub_add_cancel]
    exact ⟨hlow, not_le.mp fun hle => h ((two_zpow_le_div_iff _ hden).mp hle)⟩

/-! ## Doubles -/

/-- The double that is put together from a mantissa and an exponent has these, or the least
mantissa and the next exponent. -/
theorem parts_of_bits {x : Double} {m : ℕ} {e : ℤ} (he : -1074 ≤ e) (hm : m ≤ 0x20000000000000)
    (hnormal : -1074 < e → 0x10000000000000 ≤ m)
    (hbits : x.magnitude = (e + 1074).toNat * 0x10000000000000 + m) :
    x.mantissa = m ∧ x.exponent = e ∨
      m = 0x20000000000000 ∧ x.mantissa = 0x10000000000000 ∧ x.exponent = e + 1 := by
  have := x.parts
  omega

section Rounds

variable {x : Double} {value : ℚ}

/-- A unit of the mantissa has four quarters. -/
theorem unit_eq_quarters (x : Double) : (2 : ℚ) ^ x.exponent = 4 * x.quarter := by
  rw [quarter, zpow_sub₀ two_ne_zero]
  norm_num
  ring

/-- A number rounds to a double if its count of quarters lies in the interval. -/
theorem rounds_of_count {count : ℚ} (hvalue : value = 4 * count * x.quarter)
    (hodd : x.mantissa % 2 = 1 → (x.interval.1 : ℚ) < 4 * count ∧ 4 * count < x.interval.2)
    (heven : x.mantissa % 2 = 0 → (x.interval.1 : ℚ) ≤ 4 * count ∧ 4 * count ≤ x.interval.2) :
    x.Rounds value := by
  have hpos := x.quarter_pos
  unfold Rounds lower upper
  rw [hvalue]
  split
  · rename_i h
    exact ⟨mul_le_mul_of_nonneg_right (heven h).1 hpos.le,
      mul_le_mul_of_nonneg_right (heven h).2 hpos.le⟩
  · rename_i h
    have h := hodd (by omega)
    exact ⟨mul_lt_mul_of_pos_right h.1 hpos, mul_lt_mul_of_pos_right h.2 hpos⟩

/-- The double with the mantissa that is nearest in its unit. Where the unit below is half as
large, no more than a quarter may be missing. -/
theorem rounds_of_mantissa (hnearest : IsNearest x.mantissa (value / 2 ^ x.exponent))
    (hvalue : 0 ≤ value)
    (hleast : x.mantissa = 0x10000000000000 → -1074 < x.exponent →
      (x.mantissa : ℚ) - 1 / 4 ≤ value / 2 ^ x.exponent) : x.Rounds value := by
  have hcount : value = 4 * (value / 2 ^ x.exponent) * x.quarter := by
    rw [mul_comm 4, mul_assoc, ← unit_eq_quarters, div_mul_cancel₀ _ (by positivity)]
  have hnonneg : 0 ≤ value / 2 ^ x.exponent := by positivity
  have hbounds := hnearest.bounds
  refine rounds_of_count hcount ?_ ?_
  · intro hodd
    have hlow : x.interval.1 + 2 = 4 * x.mantissa := by
      simp only [interval, Bool.and_eq_true, decide_eq_true_eq]
      split <;> omega
    have hlow' : (x.interval.1 : ℚ) + 2 = 4 * x.mantissa := by exact_mod_cast hlow
    have hhigh : (x.interval.2 : ℚ) = 4 * x.mantissa + 2 := by simp [interval]
    rw [IsNearest, if_neg (by omega)] at hnearest
    constructor <;> linarith
  · intro _
    have hhigh : (x.interval.2 : ℚ) = 4 * x.mantissa + 2 := by simp [interval]
    refine ⟨?_, by linarith⟩
    have hparts := x.parts
    simp only [interval, Bool.and_eq_true, decide_eq_true_eq]
    split
    · rename_i h
      have hleast := hleast h.1 (by omega)
      rw [Nat.cast_sub (by omega)]
      push_cast
      linarith
    · rcases Nat.eq_zero_or_pos x.mantissa with hzero | hpos
      · simpa [hzero] using hnonneg
      · rw [Nat.cast_sub (by omega)]
        push_cast
        linarith

/-- The double that is put together from the nearest count of units. -/
theorem rounds_of_bits {m : ℕ} {e : ℤ} (hvalue : 0 ≤ value) (he : -1074 ≤ e)
    (hnearest : IsNearest m (value / 2 ^ e)) (hhigh : value / 2 ^ e < 2 ^ 53)
    (hlow : -1074 < e → 2 ^ 52 ≤ value / 2 ^ e)
    (hbits : x.magnitude = (e + 1074).toNat * 0x10000000000000 + m) : x.Rounds value := by
  have hbounds := hnearest.bounds
  have hm : m ≤ 2 ^ 53 := hnearest.le_of_lt (by exact_mod_cast hhigh)
  have hnormal (h : -1074 < e) : 2 ^ 52 ≤ m := hnearest.le_of_le (by exact_mod_cast hlow h)
  rcases parts_of_bits he hm hnormal hbits with ⟨rfl, rfl⟩ | ⟨rfl, hmantissa, hexponent⟩
  · refine rounds_of_mantissa hnearest hvalue fun hleast hexponent => ?_
    have hleast' : (x.mantissa : ℚ) = 2 ^ 52 := by rw [hleast]; norm_num
    linarith [hlow hexponent]
  · -- The count has become the next power of two, so it is halved and the unit doubled.
    have hhalf : value / 2 ^ x.exponent = value / 2 ^ e / 2 := by
      rw [hexponent, zpow_add_one₀ two_ne_zero, div_div]
    refine rounds_of_mantissa ?_ hvalue fun _ _ => ?_
    · rw [hmantissa, hhalf, IsNearest, if_pos rfl]
      push_cast at hbounds ⊢
      constructor <;> linarith
    · rw [hmantissa, hhalf]
      push_cast at hbounds ⊢
      linarith

end Rounds

/-! ## Quotients -/

section Quotients

variable {num den : ℕ} (hden : 0 < den) {e : ℤ}
include hden

/-- The exponent that a positive quotient is given, and its count of units. -/
theorem unit_bounds (hnum : 0 < num) (he : e = max (ratioLog2 num den - 52) (-1074)) :
    (num / den : ℚ) / 2 ^ e < 2 ^ 53 ∧ (-1074 < e → 2 ^ 52 ≤ (num / den : ℚ) / 2 ^ e) := by
  obtain ⟨hlow, hhigh⟩ := ratioLog2_bounds hnum hden
  rw [div_lt_iff₀ (by positivity), ← zpow_natCast, ← zpow_add₀ two_ne_zero]
  refine ⟨hhigh.trans_le (zpow_le_zpow_right₀ one_le_two (by push_cast; omega)), fun hlt => ?_⟩
  rw [le_div_iff₀ (by positivity), ← zpow_natCast, ← zpow_add₀ two_ne_zero]
  exact (zpow_le_zpow_right₀ one_le_two (by push_cast; omega)).trans hlow

/-- The mantissa is the nearest count of units. -/
theorem mantissa_isNearest (num : ℕ) (e : ℤ) :
    IsNearest (roundDiv (num <<< (-e).toNat) (den <<< e.toNat)) ((num / den : ℚ) / 2 ^ e) := by
  have hcount : (num / den : ℚ) / 2 ^ e =
      (num <<< (-e).toNat : ℕ) / (den <<< e.toNat : ℕ) := by
    rw [zpow_eq_div two_ne_zero, div_div_div_eq, Nat.shiftLeft_eq, Nat.shiftLeft_eq]
    push_cast
    rfl
  rw [hcount]
  exact roundDiv_isNearest _ (by rw [Nat.shiftLeft_eq]; positivity)

/-- A quotient is rounded to the nearest double: no other is as near, but where two are equally
near and this is the one with the even mantissa. -/
theorem ofRatio?_rounds {x : Double} (h : ofRatio? num den = some x) :
    x.isNegative = false ∧ x.Rounds (num / den) := by
  unfold ofRatio? at h
  split at h
  · rename_i hzero
    cases h
    refine ⟨rfl, ?_⟩
    have := zero.quarter_pos.le
    simpa [hzero, Rounds, lower, upper, interval, zero, mantissa, magnitude, biased] using this
  · rename_i hnum
    simp only [Option.ite_none_right_eq_some, Option.some.injEq] at h
    obtain ⟨hbound, hx⟩ := h
    generalize he : max (ratioLog2 num den - 52) (-1074) = e at hbound hx
    obtain ⟨hhigh, hlow⟩ := unit_bounds hden (Nat.pos_of_ne_zero hnum) he.symm
    have hnearest := mantissa_isNearest hden num e
    generalize roundDiv (num <<< (-e).toNat) (den <<< e.toNat) = m at hbound hx hnearest
    rw [Nat.shiftLeft_eq] at hbound hx
    have hmagnitude : x.magnitude = (e + 1074).toNat * 0x10000000000000 + m := by
      rw [← hx]
      exact magnitude_ofMagnitude (by omega)
    refine ⟨?_, rounds_of_bits (by positivity) (by omega) hnearest hhigh hlow hmagnitude⟩
    rw [← hx, isNegative, decide_eq_false_iff_not, UInt64.toNat_ofNat']
    omega

/-- A quotient that is not too large is rounded to some double. -/
theorem exists_ofRatio? (h : (num / den : ℚ) < 2 ^ (1023 : ℤ)) :
    ∃ x, ofRatio? num den = some x := by
  unfold ofRatio?
  split
  · exact ⟨_, rfl⟩
  · rename_i hnum
    have hpos := Nat.pos_of_ne_zero hnum
    have hlog : ratioLog2 num den < 1023 :=
      (zpow_lt_zpow_iff_right₀ one_lt_two).mp ((ratioLog2_bounds hpos hden).1.trans_lt h)
    generalize he : max (ratioLog2 num den - 52) (-1074) = e
    have hm : roundDiv (num <<< (-e).toNat) (den <<< e.toNat) ≤ 2 ^ 53 :=
      (mantissa_isNearest hden num e).le_of_lt (by exact_mod_cast (unit_bounds hden hpos he.symm).1)
    refine ⟨_, if_pos ?_⟩
    rw [Nat.shiftLeft_eq]
    omega

end Quotients

/-- A natural number of 64 bits has a nearest double. -/
theorem exists_ofNat? {n : ℕ} (h : n < 0x10000000000000000) :
    ∃ x, ofNat? n = some x ∧ x.isNegative = false ∧ x.Rounds n := by
  have hlt : (n : ℚ) / (1 : ℕ) < 2 ^ (1023 : ℤ) := by
    have hbits : (n : ℚ) < 2 ^ (64 : ℤ) := by exact_mod_cast h
    rw [Nat.cast_one, div_one]
    exact hbits.trans (zpow_lt_zpow_right₀ one_lt_two (by decide))
  obtain ⟨x, hx⟩ := exists_ofRatio? one_pos hlt
  have hrounds := ofRatio?_rounds one_pos hx
  rw [Nat.cast_one, div_one] at hrounds
  exact ⟨x, hx, hrounds⟩

end OpenApi.Double
