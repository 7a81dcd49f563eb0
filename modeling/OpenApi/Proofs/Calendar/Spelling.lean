-- SUMMARY: Dates, times and moments are read back from the texts in which they are written.
import OpenApi.Proofs.Calendar.Numbers
import OpenApi.Proofs.Except
import Mathlib.Data.List.TakeWhile

/-!
# Spellings of dates and times

Each date and each time of day is read back from its text. A moment is read back with
the spelling of its zone if it was read before: the internet form only knows years of
four digits, and only a zone without an offset is spelled `Z`.
-/

namespace OpenApi.Calendar

/-! ## Dates -/

namespace Date

theorem daysInMonth_le (year : Int) (month : Nat) : daysInMonth year month ≤ 31 := by
  unfold daysInMonth
  split <;> (try split) <;> decide

theorem ofNumbers?_self (date : Date) :
    ofNumbers? date.year date.month date.day = .ok date := dif_pos date.isDay

theorem year_of_ofNumbers? {year : Int} {month day : Nat} {date : Date}
    (h : ofNumbers? year month day = .ok date) : date.year = year := by
  unfold ofNumbers? at h
  split at h <;> cases h
  rfl

/-- A written date is read back, whatever follows it. -/
theorem takeNumbers_chars (date : Date) (rest : List Char) :
    takeNumbers (date.chars ++ rest) = .ok ((date.year, date.month, date.day), rest) := by
  obtain ⟨hyear, hmonth, hday⟩ := date.isDay
  have hlast := Nat.le_trans hday.2 (daysInMonth_le date.year date.month)
  have hdash (more : List Char) : NoDigit ('-' :: more) := by simp [NoDigit]
  simp only [takeNumbers, chars, List.append_assoc, List.cons_append]
  rw [takeYear_yearText hyear (hdash _), ok_bind]
  simp only [takeChar_cons, ok_bind]
  rw [takeWithin_padded (by decide) (by omega) hmonth, ok_bind]
  simp only [takeChar_cons, ok_bind]
  rw [takeWithin_padded (by decide) (by omega) ⟨hday.1, hlast⟩, ok_bind]

/-- A date is read back from its text. -/
theorem read_text (date : Date) : read date.text = .ok date := by
  have htake : takeNumbers date.chars = .ok ((date.year, date.month, date.day), []) := by
    simpa using date.takeNumbers_chars []
  simp only [read, text, String.toList_ofList, htake]
  exact date.ofNumbers?_self

end Date

/-! ## Times of day -/

namespace Clock

theorem ofNumbers?_self (clock : Clock) :
    ofNumbers? clock.hour clock.minute clock.second clock.nano = .ok clock :=
  dif_pos clock.inRange

/-- A written time is read back where neither a point nor a digit follows it. -/
theorem take_chars (clock : Clock) {rest : List Char} (hrest : NoDigit rest)
    (hpoint : rest.head? ≠ some '.') : take (clock.chars ++ rest) = .ok (clock, rest) := by
  obtain ⟨hhour, hminute, hsecond, hnano⟩ := clock.inRange
  simp only [take, chars, List.append_assoc, List.cons_append]
  rw [takeWithin_padded (by decide) (by omega) ⟨Nat.zero_le _, hhour⟩, ok_bind]
  simp only [takeChar_cons, ok_bind]
  rw [takeWithin_padded (by decide) (by omega) ⟨Nat.zero_le _, hminute⟩, ok_bind]
  simp only [takeChar_cons, ok_bind]
  rw [takeWithin_padded (by decide) (by omega) ⟨Nat.zero_le _, hsecond⟩, ok_bind]
  simp only [takeFraction_fractionText hnano hrest hpoint, ofNumbers?_self, ok_bind]

theorem take_chars_end (clock : Clock) : take clock.chars = .ok (clock, []) := by
  have htake : take (clock.chars ++ []) = _ := clock.take_chars (by simp [NoDigit]) (by simp)
  simpa using htake

/-- A time is read back from its characters. -/
theorem read_chars (clock : Clock) : read clock.chars = .ok clock := by
  simp only [read, take_chars_end]
  rfl

theorem fractionText_cases (nano : Nat) :
    fractionText nano = [] ∨ ∃ width n, fractionText nano = '.' :: Digits.padded width n := by
  unfold fractionText
  split
  · exact .inl rfl
  · split
    · exact .inr ⟨_, _, rfl⟩
    · split <;> exact .inr ⟨_, _, rfl⟩

/-- A time ends in a number. -/
theorem chars_eq (clock : Clock) :
    ∃ front width n, clock.chars = front ++ Digits.padded width n := by
  rcases fractionText_cases clock.nano with hnone | ⟨width, n, hsome⟩
  · refine ⟨Digits.padded 2 clock.hour ++ ':' :: Digits.padded 2 clock.minute ++ [':'], 2,
      clock.second, ?_⟩
    simp [chars, hnone]
  · refine ⟨Digits.padded 2 clock.hour ++ ':' :: Digits.padded 2 clock.minute ++ ':' ::
      Digits.padded 2 clock.second ++ ['.'], width, n, ?_⟩
    simp [chars, hsome]

end Clock

/-! ## Ends of texts -/

/-- A text ends in a digit. -/
def EndsInDigit (text : List Char) : Prop :=
  ∃ last, text.getLast? = some last ∧ last.isDigit = true

/-- A text that ends with a part of it ends as that part does. -/
theorem EndsInDigit.of_suffix {part text : List Char} (hpart : EndsInDigit part)
    (h : part <:+ text) : EndsInDigit text := by
  obtain ⟨last, hlast, hdigit⟩ := hpart
  obtain ⟨front, rfl⟩ := h
  exact ⟨last, by simp [List.getLast?_append, hlast], hdigit⟩

theorem endsInDigit_of_all {digits : List Char} (hall : ∀ c ∈ digits, c.isDigit = true)
    (hne : digits ≠ []) : EndsInDigit digits :=
  ⟨digits.getLast hne, List.getLast?_eq_some_getLast hne, hall _ (List.getLast_mem hne)⟩

/-- A text that ends in a number ends in a digit. -/
theorem endsInDigit_padded (front : List Char) (width n : Nat) :
    EndsInDigit (front ++ Digits.padded width n) :=
  (endsInDigit_of_all (fun _ => Digits.isDigit_of_mem_padded)
    (Digits.padded_ne_nil width n)).of_suffix (List.suffix_append front _)

theorem EndsInDigit.getLast?_ne {text : List Char} (h : EndsInDigit text) {c : Char}
    (hc : c.isDigit = false) : text.getLast? ≠ some c := by
  obtain ⟨last, hlast, hdigit⟩ := h
  rw [hlast]
  rintro ⟨⟩
  rw [hc] at hdigit
  cases hdigit

theorem EndsInDigit.not_endsZulu {text : List Char} (h : EndsInDigit text) :
    Moment.endsZulu text = false := by
  simp only [Moment.endsZulu, Bool.or_eq_false_iff, beq_eq_false_iff_ne]
  exact ⟨h.getLast?_ne rfl, h.getLast?_ne rfl⟩

/-! ## Moments -/

namespace Moment

theorem takeFixed_padded {width n : Nat} {rest : List Char} (hwidth : 0 < width)
    (hn : n < 10 ^ width) : takeFixed width (Digits.padded width n ++ rest) = .ok (n, rest) := by
  have hlength := Digits.length_padded hwidth hn
  have hall : (Digits.padded width n).all Char.isDigit = true :=
    List.all_eq_true.mpr fun _ => Digits.isDigit_of_mem_padded
  have htake : (Digits.padded width n ++ rest).take width = Digits.padded width n :=
    List.take_left' hlength
  have hdrop : (Digits.padded width n ++ rest).drop width = rest := List.drop_left' hlength
  have hlong : ¬ (Digits.padded width n ++ rest).length < width := by
    simp only [List.length_append]
    omega
  simp only [takeFixed, htake, hdrop, hall, hlong, if_true, if_false, Digits.value_padded]

theorem takeTwo_padded {low high n : Nat} {rest : List Char} (hn : n < 100)
    (hrange : low ≤ n ∧ n ≤ high) :
    takeTwo low high (Digits.padded 2 n ++ rest) = .ok (n, rest) := by
  rw [takeTwo, takeFixed_padded (by decide) hn, ok_bind]
  exact if_pos hrange

/-- A written offset is read back. -/
theorem takeZone_offsetText {offset : Int} (h : -1440 < offset ∧ offset < 1440) :
    takeZone (offsetText offset) = .ok (offset, []) := by
  have hhours : offset.natAbs / 60 ≤ 23 := by omega
  have hminutes : offset.natAbs % 60 ≤ 59 := by omega
  have hlast : takeTwo 0 59 (Digits.padded 2 (offset.natAbs % 60)) =
      .ok (offset.natAbs % 60, []) := by
    have htwo : takeTwo 0 59 (Digits.padded 2 (offset.natAbs % 60) ++ []) = _ :=
      takeTwo_padded (by omega) ⟨Nat.zero_le _, hminutes⟩
    simpa using htwo
  have hsum : 60 * (offset.natAbs / 60) + offset.natAbs % 60 = offset.natAbs :=
    Nat.div_add_mod _ 60
  by_cases hneg : offset < 0
  · have hcast : -((offset.natAbs : Nat) : Int) = offset := by omega
    simp only [offsetText, if_pos hneg, takeZone]
    simp only [takeTwo_padded (Nat.lt_of_le_of_lt hhours (by decide)) ⟨Nat.zero_le _, hhours⟩,
      ok_bind, takeChar_cons, hlast, hsum, hcast]
  · have hcast : ((offset.natAbs : Nat) : Int) = offset := by omega
    simp only [offsetText, if_neg hneg, takeZone]
    simp only [takeTwo_padded (Nat.lt_of_le_of_lt hhours (by decide)) ⟨Nat.zero_le _, hhours⟩,
      ok_bind, takeChar_cons, hlast, hsum, hcast]

/-- The internet form of a date and a time is read up to the zone. -/
theorem readZoned_chars {date : Date} (hyear : 0 ≤ date.year ∧ date.year ≤ 9999) (clock : Clock)
    {zone : List Char} (hzone : NoDigit zone) (hpoint : zone.head? ≠ some '.') :
    readZoned (date.chars ++ 'T' :: clock.chars ++ zone) =
      ((takeZone zone).bind finish >>= fun offset =>
        if h : -1440 < offset ∧ offset < 1440 then .ok ⟨date, clock, offset, h⟩
        else .error .outOfRange) := by
  obtain ⟨-, hmonth, hday⟩ := date.isDay
  have hlast := Nat.le_trans hday.2 (Date.daysInMonth_le date.year date.month)
  obtain ⟨hhour, hminute, hsecond, hnano⟩ := clock.inRange
  have hcast : ((date.year.toNat : Nat) : Int) = date.year := by omega
  simp only [readZoned, Date.chars, Date.yearText, if_pos hyear, Clock.chars, List.append_assoc,
    List.cons_append]
  rw [takeFixed_padded (by decide) (by omega), ok_bind]
  simp only [takeChar_cons, ok_bind]
  rw [takeTwo_padded (by omega) hmonth, ok_bind]
  simp only [takeChar_cons, ok_bind]
  rw [takeTwo_padded (by omega) ⟨hday.1, hlast⟩, ok_bind]
  simp only [takeMark, ok_bind]
  rw [takeTwo_padded (by omega) ⟨Nat.zero_le _, hhour⟩, ok_bind]
  simp only [takeChar_cons, ok_bind]
  rw [takeTwo_padded (by omega) ⟨Nat.zero_le _, hminute⟩, ok_bind]
  simp only [takeChar_cons, ok_bind]
  rw [takeTwo_padded (by omega) ⟨Nat.zero_le _, hsecond⟩, ok_bind,
    takeFraction_fractionText hnano hzone hpoint, ok_bind]
  simp only [hcast, Date.ofNumbers?_self, Clock.ofNumbers?_self, ok_bind]

/-! ## What has been read -/

theorem takeFixed_eq_ok {width n : Nat} {text rest : List Char}
    (h : takeFixed width text = .ok (n, rest)) :
    text = text.take width ++ rest ∧ n < 10 ^ width ∧
      ∀ c ∈ text.take width, c.isDigit = true := by
  simp only [takeFixed] at h
  split at h
  · cases h
  · rename_i hlong
    split at h
    · rename_i hall
      cases h
      have hdigits := List.all_eq_true.mp hall
      have hlength : (text.take width).length = width := List.length_take_of_le (by omega)
      refine ⟨(List.take_append_drop width text).symm, ?_, hdigits⟩
      simpa only [hlength] using Digits.value_lt hdigits
    · cases h

theorem takeTwo_eq_ok {low high n : Nat} {text rest : List Char}
    (h : takeTwo low high text = .ok (n, rest)) : takeFixed 2 text = .ok (n, rest) := by
  obtain ⟨⟨n', rest'⟩, hfixed, h⟩ := exists_of_bind_eq_ok h
  simp only at h
  split at h
  · cases h
    exact hfixed
  · cases h

theorem suffix_of_takeTwo {low high n : Nat} {text rest : List Char}
    (h : takeTwo low high text = .ok (n, rest)) : rest <:+ text :=
  ⟨_, (takeFixed_eq_ok (takeTwo_eq_ok h)).1.symm⟩

theorem suffix_of_takeChar {c : Char} {text rest : List Char} (h : takeChar c text = .ok rest) :
    rest <:+ text := by
  cases text with
  | nil => cases h
  | cons first more =>
      simp only [takeChar] at h
      split at h
      · cases h
        exact List.suffix_cons _ _
      · cases h

theorem suffix_of_takeMark {text rest : List Char} (h : takeMark text = .ok rest) :
    rest <:+ text := by
  unfold takeMark at h
  split at h <;> cases h <;> exact List.suffix_cons _ _

/-- A number that was taken is the value of the digits that stood there. -/
theorem takeNumber_eq_ok {width n : Nat} {text rest : List Char}
    (h : takeNumber width text = .ok (n, rest)) :
    ∃ digits, text = digits ++ rest ∧ digits ≠ [] ∧ ∀ c ∈ digits, c.isDigit = true := by
  have hsplit := List.prefix_iff_eq_append.mp
    ((List.takeWhile_prefix Char.isDigit).trans (List.take_prefix width text))
  have hall := List.all_eq_true.mp
    (List.all_takeWhile : ((text.take width).takeWhile Char.isDigit).all Char.isDigit = true)
  simp only [takeNumber] at h
  split at h
  · cases h
  · cases h
  · rename_i hne _
    cases h
    exact ⟨_, hsplit.symm, hne, hall⟩

theorem suffix_of_takeNumber {width n : Nat} {text rest : List Char}
    (h : takeNumber width text = .ok (n, rest)) : rest <:+ text := by
  obtain ⟨digits, rfl, -, -⟩ := takeNumber_eq_ok h
  exact List.suffix_append digits rest

theorem suffix_of_takeFraction {n : Nat} {text rest : List Char}
    (h : takeFraction text = .ok (n, rest)) : rest <:+ text := by
  unfold takeFraction at h
  split at h
  · obtain ⟨⟨m, rest'⟩, hnumber, h⟩ := exists_of_bind_eq_ok h
    cases h
    exact ((List.dropWhile_suffix _).trans (suffix_of_takeNumber hnumber)).trans
      (List.suffix_cons _ _)
  · cases h
    exact List.suffix_rfl

/-- The hours and minutes of an offset end in a digit. -/
theorem endsInDigit_of_takeTwo {low high n : Nat} {text : List Char}
    (h : takeTwo low high text = .ok (n, [])) : EndsInDigit text := by
  have hfixed := takeTwo_eq_ok h
  obtain ⟨hsplit, -, hdigits⟩ := takeFixed_eq_ok hfixed
  rw [List.append_nil] at hsplit
  have hne : text ≠ [] := by
    rintro rfl
    cases hfixed
  exact endsInDigit_of_all (hsplit ▸ hdigits) hne

/-- Behind its sign, an offset that makes up the rest of a text ends in a digit. -/
theorem takeUnsigned_end {sign : Char} {text : List Char} {minutes : Nat}
    (h : (do
      let (hours, rest) ← takeTwo 0 23 text
      let rest ← takeChar ':' rest
      let (minutes, rest) ← takeTwo 0 59 rest
      .ok (60 * hours + minutes, rest) : Except Fault (Nat × List Char)) = .ok (minutes, [])) :
    EndsInDigit (sign :: text) := by
  obtain ⟨⟨_, afterHours⟩, hhours, h⟩ := exists_of_bind_eq_ok h
  obtain ⟨afterColon, hcolon, h⟩ := exists_of_bind_eq_ok h
  obtain ⟨⟨_, afterMinutes⟩, hminutes, h⟩ := exists_of_bind_eq_ok h
  cases h
  have hsuffix := ((suffix_of_takeChar hcolon).trans (suffix_of_takeTwo hhours)).trans
    (List.suffix_cons sign text)
  exact (endsInDigit_of_takeTwo hminutes).of_suffix hsuffix

/-- A zone that makes up the rest of a text either means no offset or ends in a digit. -/
theorem takeZone_end {text : List Char} {offset : Int}
    (h : takeZone text = .ok (offset, [])) :
    offset = 0 ∨ EndsInDigit text := by
  unfold takeZone at h
  split at h
  · cases h
    exact .inl rfl
  · cases h
    exact .inl rfl
  · obtain ⟨⟨minutes, rest⟩, hminutes, h⟩ := exists_of_bind_eq_ok h
    cases h
    exact .inr (takeUnsigned_end hminutes)
  · obtain ⟨⟨minutes, rest⟩, hminutes, h⟩ := exists_of_bind_eq_ok h
    cases h
    exact .inr (takeUnsigned_end hminutes)
  · obtain ⟨⟨minutes, rest⟩, hminutes, h⟩ := exists_of_bind_eq_ok h
    cases h
    exact .inr (takeUnsigned_end hminutes)
  · cases h
  · cases h

theorem finish_eq_ok {α : Type} {taken : Taken α} {value : α} (h : taken.bind finish = .ok value) :
    taken = .ok (value, []) := by
  obtain ⟨⟨value', rest⟩, rfl, h⟩ := exists_of_bind_eq_ok h
  cases rest with
  | nil =>
      cases h
      rfl
  | cons => cases h

/-- The internet form has a year of four digits, and a `Z` at its end means no offset. -/
theorem readZoned_eq_ok {text : List Char} {moment : Moment} (h : readZoned text = .ok moment) :
    (0 ≤ moment.date.year ∧ moment.date.year ≤ 9999) ∧
      (endsZulu text = true → moment.offset = 0) := by
  obtain ⟨⟨year, afterYear⟩, hyear, h⟩ := exists_of_bind_eq_ok h
  obtain ⟨beforeMonth, hdash, h⟩ := exists_of_bind_eq_ok h
  obtain ⟨⟨month, afterMonth⟩, hmonth, h⟩ := exists_of_bind_eq_ok h
  obtain ⟨beforeDay, hdash', h⟩ := exists_of_bind_eq_ok h
  obtain ⟨⟨day, afterDay⟩, hday, h⟩ := exists_of_bind_eq_ok h
  obtain ⟨beforeHour, hmark, h⟩ := exists_of_bind_eq_ok h
  obtain ⟨⟨hour, afterHour⟩, hhour, h⟩ := exists_of_bind_eq_ok h
  obtain ⟨beforeMinute, hcolon, h⟩ := exists_of_bind_eq_ok h
  obtain ⟨⟨minute, afterMinute⟩, hminute, h⟩ := exists_of_bind_eq_ok h
  obtain ⟨beforeSecond, hcolon', h⟩ := exists_of_bind_eq_ok h
  obtain ⟨⟨second, afterSecond⟩, hsecond, h⟩ := exists_of_bind_eq_ok h
  obtain ⟨⟨nano, zone⟩, hnano, h⟩ := exists_of_bind_eq_ok h
  obtain ⟨offset, hoffset, h⟩ := exists_of_bind_eq_ok h
  obtain ⟨date, hdate, h⟩ := exists_of_bind_eq_ok h
  obtain ⟨clock, -, h⟩ := exists_of_bind_eq_ok h
  split at h
  · cases h
    obtain ⟨hsplit, hbound, -⟩ := takeFixed_eq_ok hyear
    refine ⟨?_, fun hzulu => ?_⟩
    · rw [Date.year_of_ofNumbers? hdate]
      omega
    · -- Everything that is read stands at the end of what was there before.
      have hsuffix : zone <:+ text := by
        have hdate := ((((suffix_of_takeTwo hday).trans (suffix_of_takeChar hdash')).trans
          (suffix_of_takeTwo hmonth)).trans (suffix_of_takeChar hdash)).trans ⟨_, hsplit.symm⟩
        have hclock := ((((suffix_of_takeFraction hnano).trans (suffix_of_takeTwo hsecond)).trans
          (suffix_of_takeChar hcolon')).trans (suffix_of_takeTwo hminute)).trans
          ((suffix_of_takeChar hcolon).trans (suffix_of_takeTwo hhour))
        exact (hclock.trans (suffix_of_takeMark hmark)).trans hdate
      rcases takeZone_end (finish_eq_ok hoffset) with hzero | hends
      · exact hzero
      · rw [(hends.of_suffix hsuffix).not_endsZulu] at hzulu
        cases hzulu
  · cases h

/-! ## Texts without a zone -/

theorem suffix_of_takeWithin {width low high n : Nat} {text rest : List Char}
    (h : takeWithin width low high text = .ok (n, rest)) : rest <:+ text := by
  obtain ⟨⟨n', rest'⟩, hnumber, h⟩ := exists_of_bind_eq_ok h
  simp only at h
  split at h
  · cases h
    exact (suffix_of_takeNumber hnumber).trans (List.dropWhile_suffix _)
  · cases h

theorem endsInDigit_of_takeWithin {width low high n : Nat} {text : List Char}
    (h : takeWithin width low high text = .ok (n, [])) : EndsInDigit text := by
  obtain ⟨⟨n', rest⟩, hnumber, h⟩ := exists_of_bind_eq_ok h
  simp only at h
  split at h
  · cases h
    obtain ⟨digits, hsplit, hne, hall⟩ := takeNumber_eq_ok hnumber
    rw [List.append_nil] at hsplit
    rw [← hsplit] at hne hall
    exact (endsInDigit_of_all hall hne).of_suffix (List.dropWhile_suffix _)
  · cases h

/-- Where nothing is left behind a fraction, it is missing or it ends in a digit. -/
theorem takeFraction_end {n : Nat} {text : List Char} (h : takeFraction text = .ok (n, [])) :
    text = [] ∨ EndsInDigit text := by
  unfold takeFraction at h
  split at h
  · rename_i behind
    obtain ⟨⟨m, rest⟩, hnumber, h⟩ := exists_of_bind_eq_ok h
    obtain ⟨digits, rfl, hne, hall⟩ := takeNumber_eq_ok hnumber
    -- Digits beyond the ninth are dropped, so all that stands behind the point are digits.
    have hrest : ∀ c ∈ rest, c.isDigit = true :=
      List.dropWhile_eq_nil_iff.mp (congrArg Prod.snd (Except.ok.inj h))
    have hboth : ∀ c ∈ digits ++ rest, c.isDigit = true :=
      List.forall_mem_append.mpr ⟨hall, hrest⟩
    exact .inr ((endsInDigit_of_all hboth (by simp [hne])).of_suffix (List.suffix_cons _ _))
  · cases h
    exact .inl rfl

theorem endsInDigit_of_takeShort {text : List Char} {clock : Clock}
    (h : Clock.takeShort text = .ok (clock, [])) : EndsInDigit text := by
  obtain ⟨⟨hour, afterHour⟩, hhour, h⟩ := exists_of_bind_eq_ok h
  obtain ⟨afterColon, hcolon, h⟩ := exists_of_bind_eq_ok h
  obtain ⟨⟨minute, rest⟩, hminute, h⟩ := exists_of_bind_eq_ok h
  obtain ⟨clock', -, h⟩ := exists_of_bind_eq_ok h
  cases h
  exact (endsInDigit_of_takeWithin hminute).of_suffix
    ((suffix_of_takeChar hcolon).trans (suffix_of_takeWithin hhour))

theorem endsInDigit_of_take {text : List Char} {clock : Clock}
    (h : Clock.take text = .ok (clock, [])) : EndsInDigit text := by
  obtain ⟨⟨hour, afterHour⟩, hhour, h⟩ := exists_of_bind_eq_ok h
  obtain ⟨beforeMinute, hcolon, h⟩ := exists_of_bind_eq_ok h
  obtain ⟨⟨minute, afterMinute⟩, hminute, h⟩ := exists_of_bind_eq_ok h
  obtain ⟨beforeSecond, hcolon', h⟩ := exists_of_bind_eq_ok h
  obtain ⟨⟨second, afterSecond⟩, hsecond, h⟩ := exists_of_bind_eq_ok h
  obtain ⟨⟨nano, rest⟩, hnano, h⟩ := exists_of_bind_eq_ok h
  obtain ⟨clock', -, h⟩ := exists_of_bind_eq_ok h
  cases h
  have hseconds : EndsInDigit beforeSecond := by
    rcases takeFraction_end hnano with rfl | hends
    · exact endsInDigit_of_takeWithin hsecond
    · exact hends.of_suffix (suffix_of_takeWithin hsecond)
  have hminutes := (suffix_of_takeChar hcolon').trans (suffix_of_takeWithin hminute)
  have hhours := (suffix_of_takeChar hcolon).trans (suffix_of_takeWithin hhour)
  exact hseconds.of_suffix (hminutes.trans hhours)

/-- A time of day ends in a digit, with seconds or without. -/
theorem endsInDigit_of_readClock {text : List Char} {clock : Clock}
    (h : Clock.read text = .ok clock) : EndsInDigit text := by
  unfold Clock.read at h
  split at h
  · rename_i hlong
    exact endsInDigit_of_take (finish_eq_ok hlong)
  · exact endsInDigit_of_takeShort (finish_eq_ok h)

theorem suffix_of_takeYear {year : Int} {text rest : List Char}
    (h : takeYear text = .ok (year, rest)) : rest <:+ text := by
  obtain ⟨⟨year', rest'⟩, hsigned, h⟩ := exists_of_bind_eq_ok h
  have htrimmed : rest' <:+ trimStart text := by
    split at hsigned
    · rename_i htext
      obtain ⟨⟨n, rest⟩, hnumber, hsigned⟩ := exists_of_bind_eq_ok hsigned
      cases hsigned
      rw [htext]
      exact (suffix_of_takeNumber hnumber).trans (List.suffix_cons _ _)
    · rename_i htext
      obtain ⟨⟨n, rest⟩, hnumber, hsigned⟩ := exists_of_bind_eq_ok hsigned
      cases hsigned
      rw [htext]
      exact (suffix_of_takeNumber hnumber).trans (List.suffix_cons _ _)
    · obtain ⟨⟨n, rest⟩, hnumber, hsigned⟩ := exists_of_bind_eq_ok hsigned
      cases hsigned
      exact suffix_of_takeNumber hnumber
  simp only at h
  split at h
  · cases h
    exact htrimmed.trans (List.dropWhile_suffix _)
  · cases h

theorem suffix_of_takeNumbers {numbers : Int × Nat × Nat} {text rest : List Char}
    (h : Date.takeNumbers text = .ok (numbers, rest)) : rest <:+ text := by
  obtain ⟨⟨year, afterYear⟩, hyear, h⟩ := exists_of_bind_eq_ok h
  obtain ⟨beforeMonth, hdash, h⟩ := exists_of_bind_eq_ok h
  obtain ⟨⟨month, afterMonth⟩, hmonth, h⟩ := exists_of_bind_eq_ok h
  obtain ⟨beforeDay, hdash', h⟩ := exists_of_bind_eq_ok h
  obtain ⟨⟨day, afterDay⟩, hday, h⟩ := exists_of_bind_eq_ok h
  cases h
  exact (((suffix_of_takeWithin hday).trans (suffix_of_takeChar hdash')).trans
    (suffix_of_takeWithin hmonth)).trans
    ((suffix_of_takeChar hdash).trans (suffix_of_takeYear hyear))

theorem endsInDigit_of_readFloating {text : List Char} {moment : Moment}
    (h : readFloating text = .ok moment) : EndsInDigit text := by
  obtain ⟨⟨numbers, afterDate⟩, hdate, h⟩ := exists_of_bind_eq_ok h
  obtain ⟨beforeClock, hmark, h⟩ := exists_of_bind_eq_ok h
  obtain ⟨clock, hclock, -⟩ := exists_of_bind_eq_ok h
  exact (endsInDigit_of_take (finish_eq_ok hclock)).of_suffix
    ((suffix_of_takeChar hmark).trans (suffix_of_takeNumbers hdate))

/-- A moment is read with a `Z` as its zone exactly if its text ends in one. -/
theorem endsZulu_of_read {source : String} {moment : Moment} {zone : Zone}
    (h : read source = .ok (moment, zone)) : endsZulu source.toList = true ↔ zone = .zulu := by
  simp only [read] at h
  split at h
  · cases h
    split <;> simp_all
  · cases hfloating : readFloating source.toList with
    | error fault =>
        rw [hfloating] at h
        cases h
    | ok moment' =>
        rw [hfloating] at h
        cases h
        simp [(endsInDigit_of_readFloating hfloating).not_endsZulu]

/-! ## Both forms -/

/-- Without a zone a written moment is not in the internet form. -/
theorem readZoned_floating (date : Date) (clock : Clock) :
    ∃ fault, readZoned (date.chars ++ 'T' :: clock.chars) = .error fault := by
  by_cases hyear : 0 ≤ date.year ∧ date.year ≤ 9999
  · have hread : readZoned (date.chars ++ 'T' :: clock.chars ++ []) = _ :=
      readZoned_chars hyear clock (by simp [NoDigit]) (by simp)
    rw [List.append_nil] at hread
    exact ⟨_, hread⟩
  · -- Other years are written with a sign.
    have hsign : ∃ sign rest, date.chars ++ 'T' :: clock.chars = sign :: rest ∧
        sign.isDigit = false := by
      simp only [Date.chars, Date.yearText, if_neg hyear, List.cons_append]
      refine ⟨_, _, rfl, ?_⟩
      split <;> rfl
    obtain ⟨sign, rest, hchars, hsign⟩ := hsign
    have hfixed : ∃ fault, takeFixed 4 (date.chars ++ 'T' :: clock.chars) = .error fault := by
      simp only [hchars, takeFixed, List.take_succ_cons, List.all_cons, hsign, Bool.false_and,
        Bool.false_eq_true, if_false]
      split <;> exact ⟨_, rfl⟩
    obtain ⟨fault, hfixed⟩ := hfixed
    exact ⟨fault, by rw [readZoned, hfixed]; rfl⟩

theorem readFloating_chars (date : Date) (clock : Clock) :
    readFloating (date.chars ++ 'T' :: clock.chars) = .ok ⟨date, clock, 0, by decide⟩ := by
  simp only [readFloating, Date.takeNumbers_chars, ok_bind, takeChar_cons, Clock.take_chars_end]
  rw [show ((.ok (clock, []) : Except Fault (Clock × List Char)).bind finish) = .ok clock from rfl]
  simp only [Date.ofNumbers?_self, ok_bind]

theorem offset_of_readFloating {text : List Char} {moment : Moment}
    (h : readFloating text = .ok moment) : moment.offset = 0 := by
  obtain ⟨_, -, h⟩ := exists_of_bind_eq_ok h
  obtain ⟨_, -, h⟩ := exists_of_bind_eq_ok h
  obtain ⟨_, -, h⟩ := exists_of_bind_eq_ok h
  obtain ⟨_, -, h⟩ := exists_of_bind_eq_ok h
  cases h
  rfl

/-- A moment with a zone that is read as its offset is read back. -/
theorem readZoned_text {moment : Moment} (hyear : 0 ≤ moment.date.year ∧ moment.date.year ≤ 9999)
    {zone : List Char} (hzone : takeZone zone = .ok (moment.offset, [])) (hdigit : NoDigit zone)
    (hpoint : zone.head? ≠ some '.') :
    readZoned (moment.date.chars ++ 'T' :: moment.clock.chars ++ zone) = .ok moment := by
  rw [readZoned_chars hyear moment.clock hdigit hpoint, hzone]
  exact dif_pos moment.withinDay

theorem endsZulu_offsetText (front : List Char) (offset : Int) :
    endsZulu (front ++ offsetText offset) = false := by
  have hshape : ∃ before, front ++ offsetText offset =
      before ++ Digits.padded 2 (offset.natAbs % 60) :=
    ⟨front ++ (if offset < 0 then '-' else '+') :: Digits.padded 2 (offset.natAbs / 60) ++ [':'],
      by simp [offsetText]⟩
  obtain ⟨before, hshape⟩ := hshape
  rw [hshape]
  exact (endsInDigit_padded before 2 _).not_endsZulu

/-- A moment that was read is read back from its text, with the same spelling of its zone. -/
theorem read_text {source : String} {moment : Moment} {zone : Zone}
    (h : read source = .ok (moment, zone)) : read (moment.text zone) = .ok (moment, zone) := by
  simp only [read] at h
  split at h
  · rename_i moment' hzoned
    obtain ⟨hyear, hzulu⟩ := readZoned_eq_ok hzoned
    split at h
    · -- A `Z` is only written for no offset, and it was read for none.
      rename_i hends
      cases h
      have hoffset := hzulu hends
      have hread : readZoned (moment.date.chars ++ 'T' :: moment.clock.chars ++ ['Z']) = _ :=
        readZoned_text hyear (by rw [hoffset]; rfl) (by simp [NoDigit]) (by simp)
      have hlast : endsZulu (moment.date.chars ++ 'T' :: moment.clock.chars ++ ['Z']) = true := by
        rw [endsZulu, List.getLast?_concat]
        rfl
      simp only [read, text, String.toList_ofList, zoneText, hoffset, if_true, hread, hlast]
    · cases h
      have hsign : NoDigit (offsetText moment.offset) ∧
          (offsetText moment.offset).head? ≠ some '.' := by
        simp only [NoDigit, offsetText, List.head?_cons]
        split <;> simp
      have hread := readZoned_text hyear (takeZone_offsetText moment.withinDay) hsign.1 hsign.2
      simp only [read, text, String.toList_ofList, zoneText, hread, endsZulu_offsetText,
        Bool.false_eq_true, if_false]
  · cases hfloating : readFloating source.toList with
    | error fault =>
        rw [hfloating] at h
        cases h
    | ok moment' =>
        rw [hfloating] at h
        cases h
        obtain ⟨fault, hnone⟩ := readZoned_floating moment.date moment.clock
        simp only [read, text, String.toList_ofList, zoneText, List.append_nil, hnone,
          readFloating_chars]
        obtain ⟨date, clock, offset, hday⟩ := moment
        cases offset_of_readFloating hfloating
        rfl

end Moment
end OpenApi.Calendar
