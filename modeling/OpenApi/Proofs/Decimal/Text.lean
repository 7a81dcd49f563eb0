-- SUMMARY: The text of a double determines it.
import OpenApi.Proofs.Calendar.Numbers
import OpenApi.Proofs.Decimal.Shortest

/-!
# The text of doubles

The text of a decimal has its digits, with a point among them or zeros around them, and maybe
a power of ten behind an `e`. Read as a number it is the number that the decimal stands for.
As no two doubles of one sign have shortest decimals of one value, their texts are different.
-/

namespace OpenApi

namespace Decimal

/-! ## Reading -/

/-- The power of ten in the rest of a text. -/
def power : List Char → ℤ
  | 'e' :: '-' :: digits => -Digits.value digits
  | 'e' :: '+' :: digits => Digits.value digits
  | _ => 0

/-- The digits in front of the power of ten, with their point. -/
def mantissaOf (text : List Char) : List Char := text.takeWhile (· != 'e')

/-- The digits behind the point. -/
def fractionOf (mantissa : List Char) : List Char := (mantissa.dropWhile (· != '.')).drop 1

/-- The number that is written by a text. -/
def reading (text : List Char) : ℚ :=
  Digits.value ((mantissaOf text).filter (· != '.')) *
    10 ^ (power (text.dropWhile (· != 'e')) - (fractionOf (mantissaOf text)).length)

section Reading

variable {whole fraction : List Char}
variable (hwhole : ∀ c ∈ whole, c.isDigit = true) (hfraction : ∀ c ∈ fraction, c.isDigit = true)

theorem ne_of_isDigit {c other : Char} (h : c.isDigit = true) (hother : other.isDigit = false) :
    c ≠ other := by
  rintro rfl
  cases h.symm.trans hother

include hwhole

theorem filter_digits : whole.filter (· != '.') = whole :=
  List.filter_eq_self.mpr fun c hc => by simpa using ne_of_isDigit (hwhole c hc) (by decide)

theorem dropWhile_digits (rest : List Char) :
    (whole ++ rest).dropWhile (· != '.') = rest.dropWhile (· != '.') :=
  List.dropWhile_append_of_pos fun c hc => by simpa using ne_of_isDigit (hwhole c hc) (by decide)

/-- A text without a point. -/
theorem reading_whole (sign : Char) (rest : List Char) :
    reading (whole ++ 'e' :: sign :: rest) =
      Digits.value whole * 10 ^ power ('e' :: sign :: rest) := by
  have hmantissa : ∀ c ∈ whole, (c != 'e') = true := fun c hc => by
    simpa using ne_of_isDigit (hwhole c hc) (by decide)
  have htake : (whole ++ 'e' :: sign :: rest).takeWhile (· != 'e') = whole := by
    rw [List.takeWhile_append_of_pos hmantissa]
    simp
  have hdrop : (whole ++ 'e' :: sign :: rest).dropWhile (· != 'e') = 'e' :: sign :: rest := by
    rw [List.dropWhile_append_of_pos hmantissa]
    simp
  have hpoint := dropWhile_digits hwhole []
  rw [List.append_nil] at hpoint
  unfold reading fractionOf mantissaOf
  rw [htake, hdrop, filter_digits hwhole, hpoint]
  simp

include hfraction

/-- A text with a point. -/
theorem reading_point {rest : List Char} (hrest : rest = [] ∨ ∃ more, rest = 'e' :: more) :
    reading (whole ++ '.' :: fraction ++ rest) =
      Digits.value (whole ++ fraction) * 10 ^ (power rest - fraction.length) := by
  have hmantissa : ∀ c ∈ whole ++ '.' :: fraction, (c != 'e') = true := by
    intro c hc
    rcases List.mem_append.mp hc with hc | hc
    · simpa using ne_of_isDigit (hwhole c hc) (by decide)
    · rcases List.mem_cons.mp hc with rfl | hc
      · decide
      · simpa using ne_of_isDigit (hfraction c hc) (by decide)
  have htake : (whole ++ '.' :: fraction ++ rest).takeWhile (· != 'e') =
      whole ++ '.' :: fraction := by
    rw [List.takeWhile_append_of_pos hmantissa]
    rcases hrest with rfl | ⟨more, rfl⟩ <;> simp
  have hdrop : (whole ++ '.' :: fraction ++ rest).dropWhile (· != 'e') = rest := by
    rw [List.dropWhile_append_of_pos hmantissa]
    rcases hrest with rfl | ⟨more, rfl⟩ <;> simp
  unfold reading fractionOf mantissaOf
  rw [htake, hdrop, dropWhile_digits hwhole]
  simp [filter_digits hwhole, filter_digits hfraction]

/-- A text with a point and no power of ten. -/
theorem reading_plain :
    reading (whole ++ '.' :: fraction) =
      Digits.value (whole ++ fraction) * 10 ^ (-(fraction.length : ℤ)) := by
  have h := reading_point hwhole hfraction (.inl rfl)
  rwa [List.append_nil, power.eq_3 [] nofun nofun, zero_sub] at h

end Reading

/-! ## Writing -/

/-- The digits of a decimal. -/
def chars (d : Decimal) : List Char := Nat.toDigits 10 d.digits

theorem isDigit_of_mem_chars {d : Decimal} {c : Char} (h : c ∈ d.chars) : c.isDigit = true :=
  Nat.isDigit_of_mem_toDigits (by decide) (by decide) h

theorem value_chars (d : Decimal) : Digits.value d.chars = d.digits := by
  rw [Digits.value_eq_ofDigitChars, chars, Nat.ofDigitChars_ten_toDigits]

theorem chars_ne_nil (d : Decimal) : d.chars ≠ [] := Nat.toDigits_ne_nil

/-- The power of ten of the first digit. -/
def leading (d : Decimal) : ℤ := d.exponent + d.chars.length - 1

/-- The part of a text that is a power of ten. -/
def powerText (n : ℤ) : List Char :=
  'e' :: (if n < 0 then '-' else '+') :: Nat.toDigits 10 n.natAbs

theorem toList_pushn (n : Nat) : ("".pushn '0' n).toList = List.replicate n '0' := by
  rw [String.pushn_eq_repeat_push]
  induction n with
  | zero => rfl
  | succ n ih =>
      rw [Nat.repeat, String.toList_push, ih, List.replicate_succ']

/-- The characters of the text of a decimal. -/
theorem toList_text (d : Decimal) :
    d.text.toList =
      if !writtenPlainly d.leading then
        if d.chars.length = 1 then d.chars ++ powerText d.leading
        else d.chars.take 1 ++ '.' :: d.chars.drop 1 ++ powerText d.leading
      else if 0 ≤ d.exponent then
        d.chars ++ List.replicate d.exponent.toNat '0' ++ '.' :: List.replicate 1 '0'
      else if d.leading < 0 then
        List.replicate 1 '0' ++ '.' :: (List.replicate (-d.leading - 1).toNat '0' ++ d.chars)
      else
        d.chars.take (d.leading.toNat + 1) ++ '.' :: d.chars.drop (d.leading.toNat + 1) := by
  have htext : d.text =
      if !writtenPlainly d.leading then
        (if d.chars.length = 1 then toString d.digits
          else String.ofList (d.chars.take 1) ++ "." ++ String.ofList (d.chars.drop 1)) ++
          "e" ++ (if d.leading < 0 then "-" else "+") ++ toString d.leading.natAbs
      else if 0 ≤ d.exponent then toString d.digits ++ "".pushn '0' d.exponent.toNat ++ ".0"
      else if d.leading < 0 then
        "0." ++ "".pushn '0' (-d.leading - 1).toNat ++ toString d.digits
      else
        String.ofList (d.chars.take (d.leading.toNat + 1)) ++ "." ++
          String.ofList (d.chars.drop (d.leading.toNat + 1)) := by
    have hchars : (toString d.digits).toList = d.chars := Nat.toList_repr
    have hlength : (toString d.digits).length = d.chars.length := by
      rw [← hchars, String.length_toList]
    unfold text leading
    rw [← hlength, ← hchars]
    rfl
  have hdigits : ∀ n : Nat, (toString n).toList = Nat.toDigits 10 n := fun n => Nat.toList_repr
  rw [htext]
  split_ifs <;>
    simp only [String.toList_append, String.toList_ofList, toList_pushn, hdigits, chars,
      powerText] <;>
    simp_all

/-- Zeros behind a row of digits multiply its value. -/
theorem value_append_zeros (digits : List Char) (n : Nat) :
    Digits.value (digits ++ List.replicate n '0') = Digits.value digits * 10 ^ n := by
  rw [Digits.value_eq_ofDigitChars, Digits.value_eq_ofDigitChars, Nat.ofDigitChars_append,
    Nat.ofDigitChars_replicate_zero, mul_comm]

/-- Zeros in front of a row of digits do not change its value. -/
theorem value_zeros_append (digits : List Char) (n : Nat) :
    Digits.value (List.replicate n '0' ++ digits) = Digits.value digits := by
  rw [Digits.value_eq_ofDigitChars, Digits.value_eq_ofDigitChars, Nat.ofDigitChars_append,
    Nat.ofDigitChars_replicate_zero, Nat.mul_zero]

theorem power_powerText (n : ℤ) : power (powerText n) = n := by
  have hvalue : Digits.value (Nat.toDigits 10 n.natAbs) = n.natAbs := by
    rw [Digits.value_eq_ofDigitChars, Nat.ofDigitChars_ten_toDigits]
  unfold powerText
  split
  · rw [power, hvalue]
    omega
  · rw [power, hvalue]
    omega

/-- The text of a decimal is read as the number that it stands for. -/
theorem reading_text (d : Decimal) : reading d.text.toList = d.value := by
  have hzeros : ∀ n, ∀ c ∈ List.replicate n '0', c.isDigit = true := by
    intro n c hc
    rw [List.eq_of_mem_replicate hc]
    rfl
  have hchars : ∀ c ∈ d.chars, c.isDigit = true := fun c hc => isDigit_of_mem_chars hc
  have hlength : 0 < d.chars.length := List.length_pos_of_ne_nil d.chars_ne_nil
  have hleading : d.leading = d.exponent + d.chars.length - 1 := rfl
  have hpart : ∀ n, (∀ c ∈ d.chars.take n, c.isDigit = true) ∧
      ∀ c ∈ d.chars.drop n, c.isDigit = true :=
    fun n => ⟨fun c hc => hchars c (List.mem_of_mem_take hc),
      fun c hc => hchars c (List.mem_of_mem_drop hc)⟩
  rw [toList_text, value]
  split_ifs with hplain hone hwhole hsmall
  · rw [powerText, reading_whole hchars, ← powerText, power_powerText, value_chars, hleading, hone]
    congr 2
    push_cast
    ring
  · have hpower : powerText d.leading = [] ∨ ∃ more, powerText d.leading = 'e' :: more :=
      .inr ⟨_, rfl⟩
    rw [reading_point (hpart 1).1 (hpart 1).2 hpower, power_powerText, List.take_append_drop,
      value_chars, List.length_drop]
    congr 2
    omega
  · have hfront : ∀ c ∈ d.chars ++ List.replicate d.exponent.toNat '0', c.isDigit = true :=
      List.forall_mem_append.mpr ⟨hchars, hzeros _⟩
    rw [reading_plain hfront (hzeros 1), List.append_assoc, List.replicate_append_replicate,
      value_append_zeros, value_chars, List.length_replicate]
    obtain ⟨n, hn⟩ := Int.eq_ofNat_of_zero_le hwhole
    rw [hn, Int.toNat_natCast]
    push_cast
    rw [pow_succ, zpow_neg_one, zpow_natCast]
    ring
  · have hback : ∀ c ∈ List.replicate (-d.leading - 1).toNat '0' ++ d.chars, c.isDigit = true :=
      List.forall_mem_append.mpr ⟨hzeros _, hchars⟩
    rw [reading_plain (hzeros 1) hback, ← List.append_assoc, List.replicate_append_replicate,
      value_zeros_append, value_chars, List.length_append, List.length_replicate]
    congr 2
    omega
  · rw [reading_plain (hpart _).1 (hpart _).2, List.take_append_drop, value_chars,
      List.length_drop]
    congr 2
    omega

/-- A character of a number. -/
def IsNumeral (c : Char) : Prop := c.isDigit = true ∨ c = '.' ∨ c = 'e' ∨ c = '+' ∨ c = '-'

/-- A text is that of a number with a fraction or an exponent: it is made of the characters of
numbers, a point or an exponent among them, and starts with a digit. -/
structure IsText (text : List Char) : Prop where
  numerals : ∀ c ∈ text, IsNumeral c
  marked : '.' ∈ text ∨ 'e' ∈ text
  first : ∃ c rest, text = c :: rest ∧ c.isDigit = true

theorem isText_append {front back : List Char} (hfront : ∀ c ∈ front, c.isDigit = true)
    (hne : front ≠ []) (hback : ∀ c ∈ back, IsNumeral c) (hmarked : '.' ∈ back ∨ 'e' ∈ back) :
    IsText (front ++ back) := by
  obtain ⟨c, rest, rfl⟩ := List.exists_cons_of_ne_nil hne
  refine ⟨List.forall_mem_append.mpr ⟨fun c hc => .inl (hfront c hc), hback⟩, ?_, ?_⟩
  · exact hmarked.imp (List.mem_append_right _) (List.mem_append_right _)
  · exact ⟨c, rest ++ back, rfl, hfront c List.mem_cons_self⟩

theorem isText_text (d : Decimal) : IsText d.text.toList := by
  have hzeros : ∀ n, ∀ c ∈ List.replicate n '0', c.isDigit = true := by
    intro n c hc
    rw [List.eq_of_mem_replicate hc]
    rfl
  have hchars : ∀ c ∈ d.chars, c.isDigit = true := fun c hc => isDigit_of_mem_chars hc
  have hpoint : ∀ {back : List Char}, (∀ c ∈ back, IsNumeral c) →
      ∀ c ∈ '.' :: back, IsNumeral c :=
    fun hback => List.forall_mem_cons.mpr ⟨.inr (.inl rfl), hback⟩
  have hpower : ∀ c ∈ powerText d.leading, IsNumeral c := by
    have hdigits : ∀ c ∈ Nat.toDigits 10 d.leading.natAbs, IsNumeral c :=
      fun c hc => .inl (Nat.isDigit_of_mem_toDigits (by decide) (by decide) hc)
    unfold powerText
    refine List.forall_mem_cons.mpr ⟨.inr (.inr (.inl rfl)), List.forall_mem_cons.mpr ⟨?_, hdigits⟩⟩
    split
    · exact .inr (.inr (.inr (.inr rfl)))
    · exact .inr (.inr (.inr (.inl rfl)))
  have hmarked : 'e' ∈ powerText d.leading := List.mem_cons_self
  have hlength : 0 < d.chars.length := List.length_pos_of_ne_nil d.chars_ne_nil
  have htake : ∀ n, (∀ c ∈ d.chars.take (n + 1), c.isDigit = true) ∧ d.chars.take (n + 1) ≠ [] :=
    fun n => ⟨fun c hc => hchars c (List.mem_of_mem_take hc), by
      rw [ne_eq, List.take_eq_nil_iff]
      simp [d.chars_ne_nil]⟩
  have hdrop : ∀ n, ∀ c ∈ d.chars.drop n, IsNumeral c :=
    fun n c hc => .inl (hchars c (List.mem_of_mem_drop hc))
  rw [toList_text]
  split_ifs
  · exact isText_append hchars d.chars_ne_nil hpower (.inr hmarked)
  · rw [List.append_assoc, List.cons_append]
    exact isText_append (htake 0).1 (htake 0).2
      (hpoint (List.forall_mem_append.mpr ⟨hdrop 1, hpower⟩)) (.inl List.mem_cons_self)
  · have hfront := List.forall_mem_append.mpr ⟨hchars, hzeros d.exponent.toNat⟩
    exact isText_append hfront (by simp [d.chars_ne_nil])
      (hpoint fun c hc => .inl (hzeros 1 c hc)) (.inl List.mem_cons_self)
  · have hback := List.forall_mem_append.mpr ⟨hzeros (-d.leading - 1).toNat, hchars⟩
    exact isText_append (hzeros 1) (by simp) (hpoint fun c hc => .inl (hback c hc))
      (.inl List.mem_cons_self)
  · exact isText_append (htake _).1 (htake _).2 (hpoint (hdrop _)) (.inl List.mem_cons_self)

end Decimal

/-! ## Doubles -/

namespace Double

theorem eq_of_magnitude {x y : Double} (hsign : x.isNegative = y.isNegative)
    (h : x.magnitude = y.magnitude) : x = y := by
  have hbits : x.bits.toNat = y.bits.toNat := by
    have hx := x.bits.toNat_lt
    have hy := y.bits.toNat_lt
    unfold isNegative at hsign
    unfold magnitude at h
    rw [decide_eq_decide] at hsign
    omega
  obtain ⟨bits⟩ := x
  obtain ⟨bits'⟩ := y
  exact congrArg mk (UInt64.toNat_inj.mp hbits)

/-- The text without the sign. -/
def unsignedText (x : Double) : String := if x.isZero then "0.0" else x.shortest.text

theorem toList_text (x : Double) :
    x.text.toList = (if x.isNegative then ['-'] else []) ++ x.unsignedText.toList := by
  unfold text unsignedText
  rw [String.toList_append]
  split <;> rfl

theorem reading_unsignedText (x : Double) :
    Decimal.reading x.unsignedText.toList = if x.isZero then 0 else x.shortest.value := by
  unfold unsignedText
  split
  · have hzero : Decimal.reading (['0'] ++ '.' :: ['0']) = _ :=
      Decimal.reading_plain (by simp) (by simp)
    exact hzero.trans (by simp [Digits.value, Digits.valueOf])
  · exact Decimal.reading_text _

theorem isText_unsignedText (x : Double) : Decimal.IsText x.unsignedText.toList := by
  unfold unsignedText
  split
  · have hzero : Decimal.IsText (['0'] ++ ['.', '0']) :=
      Decimal.isText_append (by simp) (by simp) (by simp [Decimal.IsNumeral])
        (.inl List.mem_cons_self)
    exact hzero
  · exact Decimal.isText_text _

/-- The sign of a double is the only sign in front of its text. -/
theorem text_inj_unsigned {x y : Double} (h : x.text = y.text) :
    x.isNegative = y.isNegative ∧ x.unsignedText = y.unsignedText := by
  have htext := congrArg String.toList h
  rw [toList_text, toList_text] at htext
  obtain ⟨c, rest, hx, hc⟩ := x.isText_unsignedText.first
  obtain ⟨c', rest', hy, hc'⟩ := y.isText_unsignedText.first
  cases hsign : x.isNegative <;> cases hsign' : y.isNegative <;>
    simp only [hsign, hsign', Bool.false_eq_true, if_false, if_true, List.nil_append,
      List.cons_append] at htext
  · exact ⟨rfl, String.toList_inj.mp htext⟩
  · rw [hx] at htext
    cases htext
    cases hc
  · rw [hy] at htext
    cases htext
    cases hc'
  · exact ⟨rfl, String.toList_inj.mp (List.cons.inj htext).2⟩

/-- Different doubles have different texts. -/
theorem text_injective : Function.Injective text := by
  intro x y h
  obtain ⟨hsign, htext⟩ := text_inj_unsigned h
  refine eq_of_magnitude hsign ?_
  have hvalue := congrArg (fun text : String => Decimal.reading text.toList) htext
  simp only [reading_unsignedText] at hvalue
  have hpos : ∀ {z : Double}, z.isZero = false → 0 < z.shortest.value := by
    intro z hz
    have hdigits := (shortest_rounds hz).1
    unfold Decimal.value
    positivity
  cases hx : x.isZero <;> cases hy : y.isZero <;>
    simp only [hx, hy, Bool.false_eq_true, if_false, if_true] at hvalue
  · exact magnitude_eq_of_shortest hx hy hvalue
  · exact absurd hvalue (hpos hx).ne'
  · exact absurd hvalue (hpos hy).ne
  · have hx' : x.magnitude = 0 := by simpa [isZero] using hx
    have hy' : y.magnitude = 0 := by simpa [isZero] using hy
    rw [hx', hy']

end Double
end OpenApi
