-- SUMMARY: A scalar that was decoded is decoded again from the JSON value it is written as.
import OpenApi.Scalar
import OpenApi.Proofs.Address
import OpenApi.Proofs.Calendar.Spelling

/-!
# Spellings of scalars

Dates, times and addresses are read from many texts and written as one of them. The
written text is read by the same type as the same scalar, with the same spelling of its
zone; every other text is kept as it is.
-/

namespace OpenApi

open Calendar (Clock Date Moment Zone)

/-- How the zone of a scalar was spelled, if it has one. -/
def Scalar.zone? : Scalar → Option Zone
  | .dateTime _ zone | .time _ zone => some zone
  | _ => none

namespace ScalarType

/-! ## Times of day -/

theorem readTime_zulu (clock : Clock) : readTime (clock.chars ++ ['Z']) = .ok (clock, .zulu) := by
  rw [readTime, if_pos List.getLast?_concat, List.dropLast_concat, clock.read_chars]
  rfl

theorem readTime_floating (clock : Clock) : readTime clock.chars = .ok (clock, .floating) := by
  obtain ⟨front, width, n, hchars⟩ := clock.chars_eq
  have hzone : clock.chars.getLast? ≠ some 'Z' := by
    rw [hchars]
    exact (Calendar.endsInDigit_padded front width n).getLast?_ne rfl
  rw [readTime, if_neg hzone, clock.read_chars]
  rfl

/-- No time is read with a numeric offset. -/
theorem zone_of_readTime {text : List Char} {clock : Clock} {zone : Zone}
    (h : readTime text = .ok (clock, zone)) : zone = .zulu ∨ zone = .floating := by
  unfold readTime at h
  split at h
  · cases hread : Clock.read text.dropLast with
    | error => rw [hread] at h; cases h
    | ok => rw [hread] at h; cases h; exact .inl rfl
  · cases hread : Clock.read text with
    | error => rw [hread] at h; cases h
    | ok => rw [hread] at h; cases h; exact .inr rfl

/-- A time that was read is read back from its text, with the same spelling of its zone. -/
theorem readTime_text {text : List Char} {clock : Clock} {zone : Zone}
    (h : readTime text = .ok (clock, zone)) :
    readTime (clock.text ++ if zone = .zulu then "Z" else "").toList = .ok (clock, zone) := by
  rw [String.toList_append, Clock.text, String.toList_ofList]
  rcases zone_of_readTime h with rfl | rfl
  · exact readTime_zulu clock
  · simpa using readTime_floating clock

/-- A time is read with a `Z` as its zone exactly if its text ends in one. -/
theorem endsZulu_of_readTime {text : List Char} {clock : Clock} {zone : Zone}
    (h : readTime text = .ok (clock, zone)) : Moment.endsZulu text = true ↔ zone = .zulu := by
  unfold readTime at h
  split at h
  · rename_i hlast
    cases hread : Clock.read text.dropLast with
    | error => rw [hread] at h; cases h
    | ok => rw [hread] at h; cases h; simp [Moment.endsZulu, hlast]
  · cases hread : Clock.read text with
    | error => rw [hread] at h; cases h
    | ok =>
        rw [hread] at h
        cases h
        simp [(Moment.endsInDigit_of_readClock hread).not_endsZulu]

/-! ## Texts -/

theorem text_of_keep {type : ScalarType} {ok : Bool} {text reason : String} {scalar : Scalar}
    (h : type.keep ok text reason = .ok scalar) : scalar = .text text := by
  unfold keep at h
  split at h <;> cases h
  rfl

/-- What a text is decoded to is written as a text that is decoded to the same. -/
theorem decodeText_toJson {type : ScalarType} {text : String} {scalar : Scalar}
    (h : type.decodeText text = .ok scalar) :
    ∃ written, scalar.toJson = .str written ∧ type.decodeText written = .ok scalar := by
  have hkept (hkept : scalar = .text text) :
      ∃ written, scalar.toJson = .str written ∧ type.decodeText written = .ok scalar :=
    ⟨text, by rw [hkept]; rfl, h⟩
  cases type with
  | text | password | binary | path =>
      apply hkept
      cases h
      rfl
  | byte | email | nameEmail | uri | uuid => exact hkept (text_of_keep h)
  | regex | ipv4Network | ipv6Network | ipAnyNetwork =>
      apply hkept
      simp only [decodeText] at h
      split at h <;> cases h
      rfl
  | date =>
      simp only [decodeText] at h
      split at h
      · rename_i date hdate
        cases h
        exact ⟨date.text, rfl, by simp only [decodeText, date.read_text]⟩
      · cases h
  | dateTime =>
      simp only [decodeText] at h
      split at h
      · rename_i value hmoment
        cases h
        exact ⟨value.1.text value.2, rfl, by simp only [decodeText, Moment.read_text hmoment]⟩
      · cases h
  | time =>
      simp only [decodeText] at h
      split at h
      · rename_i value htime
        cases h
        exact ⟨_, rfl, by simp only [decodeText, readTime_text htime]⟩
      · cases h
  | ipv4 | ipv6 | ipAny =>
      simp only [decodeText] at h
      split at h
      · cases h
      · rename_i ip hip
        split at h <;> cases h
        rename_i hfamily
        refine ⟨ip.text, rfl, ?_⟩
        simp only [decodeText, ip.read_text]
        exact if_neg hfamily
  | boolean | integer | float | timeDelta => cases h

/-- What is decoded from a text has a `Z` as its zone exactly if the text ends in one. -/
theorem endsZulu_of_decodeText {type : ScalarType} {text : String} {scalar : Scalar} {zone : Zone}
    (h : type.decodeText text = .ok scalar) (hzone : scalar.zone? = some zone) :
    Moment.endsZulu text.toList = true ↔ zone = .zulu := by
  have hkept {kept : String} (hkept : scalar = .text kept) :
      Moment.endsZulu text.toList = true ↔ zone = .zulu := by
    rw [hkept] at hzone
    cases hzone
  cases type with
  | text | password | binary | path =>
      cases h
      cases hzone
  | byte | email | nameEmail | uri | uuid => exact hkept (text_of_keep h)
  | regex | ipv4Network | ipv6Network | ipAnyNetwork | date =>
      simp only [decodeText] at h
      split at h <;> cases h
      cases hzone
  | dateTime =>
      simp only [decodeText] at h
      split at h
      · rename_i value hmoment
        cases h
        cases hzone
        exact Moment.endsZulu_of_read hmoment
      · cases h
  | time =>
      simp only [decodeText] at h
      split at h
      · rename_i value htime
        cases h
        cases hzone
        exact endsZulu_of_readTime htime
      · cases h
  | ipv4 | ipv6 | ipAny =>
      simp only [decodeText] at h
      split at h
      · cases h
      · split at h <;> cases h
        cases hzone
  | boolean | integer | float | timeDelta => cases h

/-! ## Scalars -/

/-- A scalar that was decoded is decoded again from what it is written as. -/
theorem decode_toJson {type : ScalarType} {value : Json} {scalar : Scalar}
    (h : type.decode value = .ok scalar) : type.decode scalar.toJson = .ok scalar := by
  cases type with
  | boolean =>
      simp only [decode] at h
      split at h <;> cases h
      rfl
  | integer =>
      simp only [decode] at h
      split at h
      · split at h <;> cases h
        rename_i n hfits
        exact if_pos hfits
      · cases h
      · cases h
  | float | timeDelta =>
      -- An integer literal that does not fit is written as the number it was read as.
      simp only [decode] at h
      split at h
      · split at h <;> cases h
        · rename_i n hfits
          exact if_pos hfits
        · rfl
      · cases h
        rfl
      · cases h
  | text | byte | binary | date | dateTime | time | password | email | nameEmail | uri | uuid
    | ipv4 | ipv6 | ipAny | ipv4Network | ipv6Network | ipAnyNetwork | regex | path =>
      simp only [decode] at h
      split at h
      · obtain ⟨written, hwritten, hdecode⟩ := decodeText_toJson h
        rw [hwritten]
        exact hdecode
      · cases h

/-- Where a scalar with a zone was decoded, there was a text. -/
theorem text_of_zone? {type : ScalarType} {value : Json} {scalar : Scalar} {zone : Zone}
    (h : type.decode value = .ok scalar) (hzone : scalar.zone? = some zone) :
    ∃ text, value = .str text ∧ type.decodeText text = .ok scalar := by
  cases type with
  | boolean =>
      simp only [decode] at h
      split at h <;> cases h
      cases hzone
  | integer | float | timeDelta =>
      simp only [decode] at h
      split at h
      · split at h <;> cases h <;> cases hzone
      · cases h <;> cases hzone
      · cases h
  | text | byte | binary | date | dateTime | time | password | email | nameEmail | uri | uuid
    | ipv4 | ipv6 | ipAny | ipv4Network | ipv6Network | ipAnyNetwork | regex | path =>
      simp only [decode] at h
      split at h
      · exact ⟨_, rfl, h⟩
      · cases h

/-- A scalar that was decoded is decoded again from what it is written as. Its zone is spelled alike
in both texts: one of them ends in a `Z` if the other does, and this is the zone that was read. -/
theorem decode_written {type : ScalarType} {value : Json} {scalar : Scalar}
    (h : type.decode value = .ok scalar) :
    type.decode scalar.toJson = .ok scalar ∧
      ∀ zone, scalar.zone? = some zone → ∃ text written,
        value = .str text ∧ scalar.toJson = .str written ∧
        (Moment.endsZulu text.toList = true ↔ zone = .zulu) ∧
        (Moment.endsZulu written.toList = true ↔ zone = .zulu) := by
  have hagain := decode_toJson h
  refine ⟨hagain, fun zone hzone => ?_⟩
  obtain ⟨text, rfl, htext⟩ := text_of_zone? h hzone
  obtain ⟨written, hwritten, hdecoded⟩ := text_of_zone? hagain hzone
  exact ⟨text, written, rfl, hwritten, endsZulu_of_decodeText htext hzone,
    endsZulu_of_decodeText hdecoded hzone⟩

/-- A leap second with a blank for the `T`, a small `z` and a fraction of two digits. -/
theorem decode_written_leapSecond :
    ∃ scalar, dateTime.decode (.str "2024-02-09 08:05:60.25z") = .ok scalar ∧
      scalar.zone? = some .zulu ∧ scalar.toJson = .str "2024-02-09T08:05:60.250Z" ∧
      dateTime.decode (.str "2024-02-09T08:05:60.250Z") = .ok scalar ∧
      Moment.endsZulu "2024-02-09T08:05:60.250Z".toList = true := by
  let date : Date := ⟨2024, 2, 9, by decide⟩
  let clock : Clock := ⟨8, 5, 60, 250000000, by decide⟩
  have hdecode : dateTime.decode (.str "2024-02-09 08:05:60.25z") =
      .ok (.dateTime ⟨date, clock, 0, by decide⟩ .zulu) := rfl
  have htext : (Scalar.dateTime ⟨date, clock, 0, by decide⟩ .zulu).toJson =
      .str "2024-02-09T08:05:60.250Z" := congrArg Json.str (by decide)
  obtain ⟨hagain, hzone⟩ := decode_written hdecode
  obtain ⟨-, written, -, hwritten, -, hends⟩ := hzone .zulu rfl
  rw [htext] at hagain hwritten
  cases hwritten
  exact ⟨_, hdecode, rfl, htext, hagain, hends.mpr rfl⟩

end ScalarType
end OpenApi
