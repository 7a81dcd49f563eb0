-- SUMMARY: The shortest decimal of a double reads back as it, so it is that of no other double.
import Mathlib
import OpenApi.Decimal.Shortest

/-!
# Shortest decimals

The absolute value of a double is the mantissa times a power of two, and the numbers that
round to it lie between two bounds half a unit away, or a quarter below a power of two. The
upper bound of one double is the lower bound of the next, and belongs to the one of them with
the even mantissa. So no number rounds to two doubles.

The search for the shortest decimal comes to a grid that is finer than the interval between
the bounds: the last of its grids has steps of less than three quarters of a unit. So it finds
a decimal, and this rounds to the double.
-/

namespace OpenApi

/-- The number that a decimal stands for. -/
def Decimal.value (d : Decimal) : ℚ := d.digits * 10 ^ d.exponent

namespace Double

/-! ## Bounds -/

/-- A quarter of a unit of the mantissa. -/
def quarter (x : Double) : ℚ := 2 ^ (x.exponent - 2)

/-- The lower bound of the numbers that round to a double. -/
def lower (x : Double) : ℚ := x.interval.1 * x.quarter

/-- The upper bound of the numbers that round to a double. -/
def upper (x : Double) : ℚ := x.interval.2 * x.quarter

/-- A number rounds to the absolute value of a double: a bound does if the mantissa is even. -/
def Rounds (x : Double) (value : ℚ) : Prop :=
  if x.mantissa % 2 = 0 then x.lower ≤ value ∧ value ≤ x.upper
  else x.lower < value ∧ value < x.upper

theorem quarter_pos (x : Double) : 0 < x.quarter := zpow_pos (by norm_num) _

theorem Rounds.bounds {x : Double} {value : ℚ} (h : x.Rounds value) :
    x.lower ≤ value ∧ value ≤ x.upper := by
  unfold Rounds at h
  split at h
  · exact h
  · exact ⟨h.1.le, h.2.le⟩

/-! ## Parts -/

theorem magnitude_lt (x : Double) : x.magnitude < 0x8000000000000000 :=
  Nat.mod_lt _ (by decide)

/-- The absolute value of a double counts mantissas: those of subnormal values, and as many for
each exponent. -/
theorem parts (x : Double) :
    x.biased = 0 ∧ x.magnitude = x.mantissa ∧ x.mantissa < 0x10000000000000 ∧
        x.exponent = -1074 ∨
      0 < x.biased ∧ x.magnitude + 0x10000000000000 = 0x10000000000000 * x.biased + x.mantissa ∧
        0x10000000000000 ≤ x.mantissa ∧ x.mantissa < 0x20000000000000 ∧
        x.exponent = x.biased - 1075 := by
  unfold mantissa exponent biased
  split <;> omega

theorem mantissa_pos {x : Double} (h : x.isZero = false) : 0 < x.mantissa := by
  have hne : x.magnitude ≠ 0 := by simpa [isZero] using h
  have := x.parts
  omega

theorem lower_lt_upper {x : Double} (h : x.isZero = false) : x.lower < x.upper := by
  have hpos := mantissa_pos h
  refine mul_lt_mul_of_pos_right ?_ x.quarter_pos
  unfold interval
  dsimp only
  exact_mod_cast (by split <;> omega)

/-! ## Neighbours -/

section Neighbours

variable {x y : Double} (h : y.magnitude = x.magnitude + 1)
include h

/-- The next double has the next mantissa, or half of it in units twice as large. -/
theorem interval_next :
    y.exponent = x.exponent ∧ y.interval.1 = x.interval.2 ∨
      y.exponent = x.exponent + 1 ∧ 2 * y.interval.1 = x.interval.2 := by
  have hx := x.parts
  have hy := y.parts
  simp only [interval, Bool.and_eq_true, decide_eq_true_eq]
  split <;> omega

/-- The interval of the next double starts where that of a double ends. -/
theorem lower_eq_upper : y.lower = x.upper := by
  unfold lower upper quarter
  rcases interval_next h with ⟨hexponent, hbound⟩ | ⟨hexponent, hbound⟩
  · rw [hexponent, hbound]
  · have hunit : (2 : ℚ) ^ (y.exponent - 2) = 2 * 2 ^ (x.exponent - 2) := by
      rw [hexponent, add_sub_right_comm, zpow_add_one₀ (by norm_num), mul_comm]
    rw [hunit, ← hbound]
    push_cast
    ring

/-- Of two neighbours one has an odd mantissa. -/
theorem mantissa_next : y.mantissa % 2 ≠ x.mantissa % 2 := by
  have hx := x.parts
  have hy := y.parts
  omega

/-- No number rounds to two neighbours. -/
theorem Rounds.not_next {value : ℚ} (hx : x.Rounds value) : ¬ y.Rounds value := by
  intro hy
  have hbound := lower_eq_upper h
  have hodd := mantissa_next h
  have hle := hx.bounds
  have hle' := hy.bounds
  -- Both hold at the common bound only, and one of the two leaves it out.
  unfold Rounds at hx hy
  split at hx <;> split at hy
  · omega
  · exact absurd hy.1 (not_lt.mpr (hbound ▸ hle.2))
  · exact absurd hx.2 (not_lt.mpr (hbound ▸ hle'.1))
  · omega

end Neighbours

/-! ## All doubles -/

/-- A double of a given absolute value. -/
def ofMagnitude (n : Nat) : Double := ⟨UInt64.ofNat n⟩

theorem magnitude_ofMagnitude {n : Nat} (h : n < 0x8000000000000000) :
    (ofMagnitude n).magnitude = n := by
  unfold magnitude ofMagnitude
  rw [UInt64.toNat_ofNat']
  omega

/-- Between doubles that are no neighbours there is room. -/
theorem upper_lt_lower {x y : Double} (h : x.magnitude + 1 < y.magnitude) : x.upper < y.lower := by
  -- The induction goes over the doubles between the two.
  induction hn : y.magnitude generalizing y with
  | zero => omega
  | succ n ih =>
      have hz : (ofMagnitude n).magnitude = n :=
        magnitude_ofMagnitude (by have := y.magnitude_lt; omega)
      have hzero : (ofMagnitude n).isZero = false := by
        simp only [isZero, hz, beq_eq_false_iff_ne]
        omega
      rw [lower_eq_upper (x := ofMagnitude n) (by omega)]
      refine lt_of_le_of_lt ?_ (lower_lt_upper hzero)
      rcases Nat.lt_or_ge (x.magnitude + 1) n with hlt | hge
      · exact (ih (by omega) hz).le
      · exact (lower_eq_upper (by omega)).ge

/-- No number rounds to two absolute values. -/
theorem Rounds.unique {x y : Double} {value : ℚ} (hx : x.Rounds value) (hy : y.Rounds value) :
    x.magnitude = y.magnitude := by
  have hnot : ∀ {x y : Double}, x.Rounds value → y.Rounds value → ¬ x.magnitude < y.magnitude := by
    intro x y hx hy hlt
    rcases Nat.lt_or_eq_of_le (Nat.succ_le_of_lt hlt) with hgap | hnext
    · have hroom := upper_lt_lower hgap
      exact absurd (hx.bounds.2.trans_lt (hroom.trans_le hy.bounds.1)) (lt_irrefl _)
    · exact hx.not_next hnext.symm hy
  have hle := hnot hx hy
  have hge := hnot hy hx
  omega

/-! ## Grids -/

theorem zpow_eq_div {base : ℚ} (h : base ≠ 0) (e : ℤ) :
    base ^ e = base ^ e.toNat / base ^ (-e).toNat := by
  rw [← zpow_natCast, ← zpow_natCast, ← zpow_sub₀ h, Int.toNat_sub_toNat_neg]

section Grid

variable (x : Double) (e : ℤ)

/-- A quarter of a unit of the mantissa, counted in a unit common with the steps of a grid. -/
def gridQuarter : Nat := Nat.pow 10 (-e).toNat <<< (x.exponent - 2).toNat

/-- A step of a grid, counted in the same unit. -/
def gridStep : Nat := Nat.pow 10 e.toNat <<< (-(x.exponent - 2)).toNat

/-- The last step of a grid that is not above the double. -/
def floorOn : Nat := 4 * x.mantissa * x.gridQuarter e / x.gridStep e

/-- Whether a step of a grid lies in the interval of the double. -/
def inside (d : Nat) : Bool :=
  0 < d && if x.mantissa % 2 = 0 then
      x.interval.1 * x.gridQuarter e ≤ d * x.gridStep e &&
        d * x.gridStep e ≤ x.interval.2 * x.gridQuarter e
    else
      x.interval.1 * x.gridQuarter e < d * x.gridStep e &&
        d * x.gridStep e < x.interval.2 * x.gridQuarter e

/-- The steps next to the double are tried. -/
theorem onGrid?_eq :
    x.onGrid? e =
      match x.inside e (x.floorOn e), x.inside e (x.floorOn e + 1) with
      | true, true =>
        let rest := 2 * (4 * x.mantissa * x.gridQuarter e % x.gridStep e)
        some ⟨if rest < x.gridStep e || (rest = x.gridStep e && x.floorOn e % 2 = 0)
          then x.floorOn e else x.floorOn e + 1, e⟩
      | true, false => some ⟨x.floorOn e, e⟩
      | false, true => some ⟨x.floorOn e + 1, e⟩
      | false, false => none := rfl

/-- The common unit. -/
theorem exists_gridUnit :
    ∃ unit : ℚ, 0 < unit ∧ x.gridQuarter e = x.quarter * unit ∧ x.gridStep e = 10 ^ e * unit := by
  refine ⟨10 ^ (-e).toNat * 2 ^ (-(x.exponent - 2)).toNat, by positivity, ?_, ?_⟩
  · rw [quarter, zpow_eq_div (by norm_num), gridQuarter, Nat.shiftLeft_eq, Nat.pow_eq]
    push_cast
    field_simp
  · rw [zpow_eq_div (by norm_num) e, gridStep, Nat.shiftLeft_eq, Nat.pow_eq]
    push_cast
    field_simp

theorem gridStep_pos : 0 < x.gridStep e := by
  rw [gridStep, Nat.shiftLeft_eq, Nat.pow_eq]
  positivity

/-- What lies inside the interval rounds to the double. -/
theorem inside_iff (d : Nat) : x.inside e d = true ↔ 0 < d ∧ x.Rounds (d * 10 ^ e) := by
  obtain ⟨unit, hunit, hquarter, hstep⟩ := x.exists_gridUnit e
  have hle : ∀ bound : Nat, bound * x.gridQuarter e ≤ d * x.gridStep e ↔
      (bound : ℚ) * x.quarter ≤ d * 10 ^ e := by
    intro bound
    rw [← Nat.cast_le (α := ℚ)]
    push_cast
    rw [hquarter, hstep, ← mul_assoc, ← mul_assoc, mul_le_mul_iff_left₀ hunit]
  have hge : ∀ bound : Nat, d * x.gridStep e ≤ bound * x.gridQuarter e ↔
      (d : ℚ) * 10 ^ e ≤ bound * x.quarter := by
    intro bound
    rw [← Nat.cast_le (α := ℚ)]
    push_cast
    rw [hquarter, hstep, ← mul_assoc, ← mul_assoc, mul_le_mul_iff_left₀ hunit]
  unfold inside Rounds lower upper
  split
  · simp only [Bool.and_eq_true, decide_eq_true_eq, hle, hge]
  · simp only [Bool.and_eq_true, decide_eq_true_eq, ← not_le, hle, hge]

variable {x e} in
theorem inside_of_lt {d : Nat} (hpos : 0 < d)
    (hlow : x.interval.1 * x.gridQuarter e < d * x.gridStep e)
    (hhigh : d * x.gridStep e < x.interval.2 * x.gridQuarter e) : x.inside e d = true := by
  unfold inside
  split <;> simp [hpos, hlow, hhigh, hlow.le, hhigh.le]

end Grid

variable {x : Double} {e : ℤ}

/-- A decimal that is found on a grid rounds to the double. -/
theorem rounds_of_onGrid? {d : Decimal} (h : x.onGrid? e = some d) :
    0 < d.digits ∧ x.Rounds d.value := by
  rw [onGrid?_eq] at h
  cases hfloor : x.inside e (x.floorOn e) <;> cases hnext : x.inside e (x.floorOn e + 1) <;>
    rw [hfloor, hnext] at h <;> cases h
  · exact (x.inside_iff e _).mp hnext
  · exact (x.inside_iff e _).mp hfloor
  · unfold Decimal.value
    dsimp only
    split
    · exact (x.inside_iff e _).mp hfloor
    · exact (x.inside_iff e _).mp hnext

/-- Where the steps of a grid are finer than three quarters of a unit, one of them lies in the
interval. -/
theorem onGrid?_isSome (hzero : x.isZero = false) (hfine : (10 : ℚ) ^ e < 3 * x.quarter) :
    (x.onGrid? e).isSome = true := by
  obtain ⟨unit, hunit, hquarter, hstep⟩ := x.exists_gridUnit e
  have hlt : x.gridStep e < 3 * x.gridQuarter e := by
    rw [← Nat.cast_lt (α := ℚ)]
    push_cast
    rw [hquarter, hstep, ← mul_assoc]
    exact mul_lt_mul_of_pos_right hfine hunit
  have hpos := mantissa_pos hzero
  have hfloor : x.floorOn e * x.gridStep e ≤ 4 * (x.mantissa * x.gridQuarter e) := by
    rw [← mul_assoc]
    exact Nat.div_mul_le_self _ _
  have hnext : 4 * (x.mantissa * x.gridQuarter e) < (x.floorOn e + 1) * x.gridStep e := by
    rw [← mul_assoc]
    exact Nat.lt_mul_of_div_lt (Nat.lt_succ_self _) (x.gridStep_pos e)
  have hmantissa : x.gridQuarter e ≤ x.mantissa * x.gridQuarter e := Nat.le_mul_of_pos_left _ hpos
  have hlow : x.interval.1 * x.gridQuarter e + x.gridQuarter e ≤
      4 * (x.mantissa * x.gridQuarter e) := by
    have hbound : x.interval.1 + 1 ≤ 4 * x.mantissa := by
      unfold interval
      dsimp only
      split <;> omega
    calc x.interval.1 * x.gridQuarter e + x.gridQuarter e
        = (x.interval.1 + 1) * x.gridQuarter e := by ring
      _ ≤ 4 * x.mantissa * x.gridQuarter e := Nat.mul_le_mul_right _ hbound
      _ = 4 * (x.mantissa * x.gridQuarter e) := by ring
  have hhigh : x.interval.2 * x.gridQuarter e =
      4 * (x.mantissa * x.gridQuarter e) + 2 * x.gridQuarter e := by
    unfold interval
    ring
  have hinside : x.inside e (x.floorOn e) = true ∨ x.inside e (x.floorOn e + 1) = true := by
    rw [add_mul, one_mul] at hnext
    -- The step below the double is less than a quarter of a unit away, or the one above it less
    -- than half a unit.
    rcases Nat.lt_or_ge (4 * (x.mantissa * x.gridQuarter e))
      (x.floorOn e * x.gridStep e + x.gridQuarter e) with hnear | hfar
    · refine .inl (inside_of_lt (Nat.pos_of_ne_zero fun hnone => ?_) (by omega) (by omega))
      rw [hnone, zero_mul] at hnear
      omega
    · exact .inr (inside_of_lt (Nat.succ_pos _) (by rw [add_mul]; omega) (by rw [add_mul]; omega))
  rw [onGrid?_eq]
  cases hfound : x.inside e (x.floorOn e) <;> cases hfound' : x.inside e (x.floorOn e + 1)
  · simp [hfound, hfound'] at hinside
  · rfl
  · rfl
  · rfl

/-! ## The search -/

theorem ten_zpow_lt_iff {e s : ℤ} :
    (10 : ℚ) ^ e < 3 * 2 ^ s ↔
      10 ^ e.toNat * 2 ^ (-s).toNat < 3 * (2 ^ s.toNat * 10 ^ (-e).toNat) := by
  rw [zpow_eq_div (by norm_num) e, zpow_eq_div (by norm_num) s, ← mul_div_assoc,
    div_lt_div_iff₀ (by positivity) (by positivity), ← Nat.cast_lt (α := ℚ)]
  push_cast
  rw [mul_assoc]

/-- The last power of ten that is tried is fine enough for every power of two that a double of
that size may have for its unit. -/
theorem last_grid_fine : ∀ n : Nat, n < 2099 →
    10 ^ (((n : ℤ) - 1074) * 30103 / 100000 - 22).toNat * 2 ^ (-((n : ℤ) - 1128)).toNat <
      3 * (2 ^ ((n : ℤ) - 1128).toNat *
        10 ^ (-(((n : ℤ) - 1074) * 30103 / 100000 - 22)).toNat) := by
  decide +kernel

theorem topExponent_fine (hzero : x.isZero = false) :
    (10 : ℚ) ^ (x.topExponent - 24) < 3 * x.quarter := by
  have hparts := x.parts
  have hlt := x.magnitude_lt
  have hpos := mantissa_pos hzero
  have hlog : Nat.log2 x.mantissa < 53 :=
    (Nat.log2_lt hpos.ne').mpr (by omega)
  obtain ⟨n, hn⟩ : ∃ n : Nat, (Nat.log2 x.mantissa : ℤ) + x.exponent = n - 1074 :=
    ⟨((Nat.log2 x.mantissa : ℤ) + x.exponent + 1074).toNat, by omega⟩
  have hfine := ten_zpow_lt_iff.mpr (last_grid_fine n (by omega))
  have htop : x.topExponent - 24 = ((n : ℤ) - 1074) * 30103 / 100000 - 22 := by
    rw [topExponent, hn]
    ring
  rw [htop]
  refine hfine.trans_le (mul_le_mul_of_nonneg_left ?_ (by norm_num))
  exact zpow_le_zpow_right₀ (by norm_num) (by omega)

/-- The shortest decimal of a double rounds to it. -/
theorem shortest_rounds (hzero : x.isZero = false) :
    0 < x.shortest.digits ∧ x.Rounds x.shortest.value := by
  unfold shortest
  rw [hzero, if_neg (by decide)]
  cases hfound : (List.range 25).findSome? fun (i : Nat) => x.onGrid? (x.topExponent - (i : ℤ)) with
  | some d =>
      obtain ⟨i, -, hi⟩ := List.exists_of_findSome?_eq_some hfound
      exact rounds_of_onGrid? hi
  | none =>
      have hlast := List.findSome?_eq_none_iff.mp hfound 24 (by decide)
      have hsome := onGrid?_isSome hzero (topExponent_fine hzero)
      rw [show x.topExponent - ((24 : Nat) : ℤ) = x.topExponent - 24 from rfl] at hlast
      rw [hlast] at hsome
      cases hsome

/-- Doubles whose shortest decimals are the same number have the same absolute value. -/
theorem magnitude_eq_of_shortest {y : Double} (hx : x.isZero = false) (hy : y.isZero = false)
    (h : x.shortest.value = y.shortest.value) : x.magnitude = y.magnitude :=
  (shortest_rounds hx).2.unique (h ▸ (shortest_rounds hy).2)

end Double
end OpenApi
