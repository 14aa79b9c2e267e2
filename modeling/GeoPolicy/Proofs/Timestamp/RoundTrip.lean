import GeoPolicy.Proofs.Text.Numeral
import GeoPolicy.Proofs.Timestamp.Calendar

/-!
# Points in time as text

A point in time is written to the millisecond, and its text is read back as the point that is left
when the finer fraction is dropped. That point has the same text, so nothing is lost by writing and
reading once more. Second number 60 is the leap second both ways; a leap second inside of a minute
is written as the second that follows.

## Main definitions

* `Timestamp.date` — the date of a point in time.
* `Timestamp.IsProper` — the fraction ends with the leap second.
* `Timestamp.SameMillisecond` — two points differ in less than the text tells.
* `Timestamp.truncated` — the point in time that a text denotes.
-/

namespace GeoPolicy

/-! ## Numerals of a fixed width -/

namespace Text

theorem length_paddedDigits {width n : Nat} (hw : 0 < width) (h : n < 10 ^ width) :
    (paddedDigits 10 width n).length = width := by
  rw [paddedDigits, List.length_leftpad, max_eq_left]
  exact (Nat.length_toDigits_le_iff (by decide) hw).2 h

theorem isDigit_of_mem_paddedDigits {width n : Nat} :
    ∀ c ∈ paddedDigits 10 width n, c.isDigit = true := by
  intro c hc
  obtain hc | hc := List.mem_append.1 hc
  · rw [List.eq_of_mem_replicate hc]
    rfl
  · exact Nat.isDigit_of_mem_toDigits (by decide) (by decide) hc

theorem ofDigitChars_paddedDigits (width n : Nat) :
    Nat.ofDigitChars 10 (paddedDigits 10 width n) 0 = n := by
  rw [paddedDigits, List.leftpad, Nat.ofDigitChars_append, Nat.ofDigitChars_replicate_zero,
    Nat.mul_zero, Nat.ofDigitChars_ten_toDigits]

theorem readDecimal?_paddedDigits (width n : Nat) :
    readDecimal? (paddedDigits 10 width n) = some n := by
  have hne : paddedDigits 10 width n ≠ [] := (isNumeral_paddedDigits width n).ne_nil
  rw [readDecimal?, if_pos ⟨hne, List.all_eq_true.2 isDigit_of_mem_paddedDigits⟩,
    ofDigitChars_paddedDigits]

end Text

namespace Timestamp

open Text Calendar

/-! ## Parts of a text -/

theorem isShorter_eq_false {count : Nat} {s : List Char} (h : count ≤ s.length) :
    isShorter count s = false := by
  have hsize : ∀ start, start + s.length ≤ s.foldl (fun size c => size + c.utf8Size) start := by
    clear h
    induction s with
    | nil => exact fun start => le_rfl
    | cons c s ih =>
      intro start
      have hrest := ih (start + c.utf8Size)
      have hpos := c.utf8Size_pos
      rw [List.foldl_cons, List.length_cons]
      omega
  have hleast := hsize 0
  rw [isShorter, decide_eq_false_iff_not]
  omega

theorem readNumber_paddedDigits {count n : Nat} (hcount : 0 < count) (h : n < 10 ^ count)
    (rest : List Char) :
    readNumber count (paddedDigits 10 count n ++ rest) = .ok (n, rest) := by
  have hlength := length_paddedDigits hcount h
  have hlong : isShorter count (paddedDigits 10 count n ++ rest) = false :=
    isShorter_eq_false (by rw [List.length_append]; omega)
  rw [readNumber, hlong, List.take_left' hlength, List.drop_left' hlength,
    readDecimal?_paddedDigits]
  rfl

theorem skip_cons {allowed : List Char} {c : Char} (h : c ∈ allowed) (rest : List Char) :
    skip allowed (c :: rest) = .ok rest := by
  rw [skip, if_pos h]

/-- Three digits are a number of milliseconds. -/
theorem readFraction_paddedDigits {millis : Nat} (h : millis < 1000) {rest : List Char}
    (hrest : rest.head?.all (!·.isDigit) = true) :
    readFraction ('.' :: (paddedDigits 10 3 millis ++ rest)) = .ok (millis * 1000000, rest) := by
  have hlength : (paddedDigits 10 3 millis).length = 3 := length_paddedDigits (by decide) h
  have hnone : rest.takeWhile Char.isDigit = [] ∧ rest.dropWhile Char.isDigit = rest := by
    cases rest with
    | nil => exact ⟨rfl, rfl⟩
    | cons c rest =>
      have hc : c.isDigit = false := by simpa using hrest
      simp [hc]
  have htake : (paddedDigits 10 3 millis ++ rest).takeWhile Char.isDigit =
      paddedDigits 10 3 millis := by
    rw [List.takeWhile_append_of_pos isDigit_of_mem_paddedDigits, hnone.1, List.append_nil]
  have hdrop : (paddedDigits 10 3 millis ++ rest).dropWhile Char.isDigit = rest := by
    rw [List.dropWhile_append_of_pos isDigit_of_mem_paddedDigits, hnone.2]
  have hvalue : Nat.ofDigitChars 10 (((paddedDigits 10 3 millis).take 9).rightpad 9 '0') 0 =
      millis * 1000000 := by
    rw [List.take_of_length_le (by omega), List.rightpad, hlength, Nat.ofDigitChars_append,
      ofDigitChars_paddedDigits, Nat.ofDigitChars_replicate_zero]
    omega
  have hpos : 0 < (paddedDigits 10 3 millis).length := by omega
  obtain ⟨first, others, hdigits⟩ := List.exists_cons_of_length_pos hpos
  rw [readFraction, htake, hdrop, ← hvalue, hdigits]

/-- A date is read back from its text if its year has four digits. -/
theorem readDate_text {d : Date} (h : d.isValid = true) (hyear : 0 ≤ d.year ∧ d.year ≤ 9999)
    (rest : List Char) :
    readDate (yearText d.year ++ ('-' :: (paddedDigits 10 2 d.month ++
      ('-' :: (paddedDigits 10 2 d.day ++ rest))))) = .ok (d, rest) := by
  have hdate : (⟨d.year.toNat, d.month, d.day⟩ : Date) = d := by
    rw [Int.toNat_of_nonneg hyear.1]
  obtain ⟨hmonth, hday⟩ := Date.le_of_isValid h
  rw [readDate, yearText, if_pos hyear]
  simp (disch := first | decide | omega) only [readNumber_paddedDigits, skip_cons, bind,
    Except.bind]
  rw [hdate, if_pos h]
  rfl

/-- A time of day is read back from its text. Second number 60 is in the leap second. -/
theorem readTime_text {hour minute second millis : Nat} (hhour : hour < 24) (hminute : minute < 60)
    (hsecond : second ≤ 60) (hmillis : millis < 1000) {rest : List Char}
    (hrest : rest.head?.all (!·.isDigit) = true) :
    readTime (paddedDigits 10 2 hour ++ (':' :: (paddedDigits 10 2 minute ++
      (':' :: (paddedDigits 10 2 second ++ ('.' :: (paddedDigits 10 3 millis ++ rest))))))) =
      .ok (hour * 3600 + minute * 60 + min second 59,
        if second = 60 then millis * 1000000 + 1000000000 else millis * 1000000, rest) := by
  rw [readTime]
  simp (disch := first | decide | omega) only [readNumber_paddedDigits, skip_cons, bind,
    Except.bind, readFraction_paddedDigits hmillis hrest]
  rw [if_neg (by omega)]
  rfl

/-! ## Whole texts -/

/-- The date of a point in time. -/
def date (t : Timestamp) : Date :=
  ofDayNumber (t.seconds / 86400)

/-- The fraction of a point in time ends with the leap second. -/
def IsProper (t : Timestamp) : Prop :=
  t.nanos < 2000000000

instance (t : Timestamp) : Decidable t.IsProper :=
  inferInstanceAs (Decidable (t.nanos < 2000000000))

/-- Two points in time differ at most in what is finer than a millisecond. -/
def SameMillisecond (t u : Timestamp) : Prop :=
  t.seconds = u.seconds ∧ t.nanos / 1000000 = u.nanos / 1000000

instance (t u : Timestamp) : Decidable (t.SameMillisecond u) :=
  inferInstanceAs (Decidable (_ ∧ _))

/-- A point in time without what is finer than a millisecond. A leap second that does not end a
minute is the second that follows. -/
def truncated (t : Timestamp) : Timestamp :=
  if 1000000000 ≤ t.nanos ∧ t.seconds % 60 ≠ 59 then
    ⟨t.seconds + 1, t.nanos / 1000000 * 1000000 - 1000000000⟩
  else
    ⟨t.seconds, t.nanos / 1000000 * 1000000⟩

theorem text_congr {t u : Timestamp} (h : t.SameMillisecond u) : t.text = u.text := by
  have hleap : t.nanos / 1000000000 = u.nanos / 1000000000 := by have := h.2; omega
  have hmillis : t.nanos % 1000000000 / 1000000 = u.nanos % 1000000000 / 1000000 := by
    have := h.2
    omega
  simp only [text, h.1, hleap, hmillis]

/-- What a text leaves out does not come back. -/
theorem text_truncated {t : Timestamp} (h : t.IsProper) : t.truncated.text = t.text := by
  unfold truncated
  unfold IsProper at h
  split
  · next hleap =>
    -- The second that follows is in the same minute.
    have hday : (t.seconds + 1) / 86400 = t.seconds / 86400 := by omega
    have hhour : ((t.seconds + 1) % 86400).toNat / 3600 = (t.seconds % 86400).toNat / 3600 := by
      omega
    have hminute : ((t.seconds + 1) % 86400).toNat / 60 % 60 =
        (t.seconds % 86400).toNat / 60 % 60 := by omega
    have hsecond : ((t.seconds + 1) % 86400).toNat % 60 +
        (t.nanos / 1000000 * 1000000 - 1000000000) / 1000000000 =
        (t.seconds % 86400).toNat % 60 + t.nanos / 1000000000 := by omega
    have hmillis : (t.nanos / 1000000 * 1000000 - 1000000000) % 1000000000 / 1000000 =
        t.nanos % 1000000000 / 1000000 := by omega
    simp only [text, hday, hhour, hminute, hsecond, hmillis]
  · exact text_congr ⟨rfl, by dsimp only; omega⟩

theorem toList_text (t : Timestamp) :
    t.text.toList = yearText t.date.year ++ ('-' :: (paddedDigits 10 2 t.date.month ++
      ('-' :: (paddedDigits 10 2 t.date.day ++ ('T' ::
        (paddedDigits 10 2 ((t.seconds % 86400).toNat / 3600) ++
          (':' :: (paddedDigits 10 2 ((t.seconds % 86400).toNat / 60 % 60) ++
            (':' :: (paddedDigits 10 2
                ((t.seconds % 86400).toNat % 60 + t.nanos / 1000000000) ++
              ('.' :: (paddedDigits 10 3 (t.nanos % 1000000000 / 1000000) ++ ['Z'])))))))))))) := by
  simp [text, date]

/-- What is left of a point in time, told by the numbers in its text. -/
theorem truncated_eq {t : Timestamp} (h : t.IsProper) {second : Nat}
    (hsecond : (t.seconds % 86400).toNat = second) :
    t.truncated = {
      seconds := t.seconds / 86400 * 86400 + (second / 3600 * 3600 + second / 60 % 60 * 60 +
        min (second % 60 + t.nanos / 1000000000) 59 : Nat)
      nanos := if second % 60 + t.nanos / 1000000000 = 60 then
          t.nanos % 1000000000 / 1000000 * 1000000 + 1000000000
        else t.nanos % 1000000000 / 1000000 * 1000000 } := by
  unfold IsProper at h
  unfold truncated
  rw [← hsecond]
  split
  · next hleap =>
    rw [Timestamp.mk.injEq, if_neg (by omega)]
    omega
  · next hleap =>
    rw [Timestamp.mk.injEq]
    refine ⟨by omega, ?_⟩
    split <;> omega

/-- A text denotes the point in time that it was written for, to the millisecond. -/
theorem parse_text {t : Timestamp} (h : t.IsProper)
    (hyear : 0 ≤ t.date.year ∧ t.date.year ≤ 9999) : parse t.text = .ok t.truncated := by
  obtain ⟨second, hsecond⟩ : ∃ second, (t.seconds % 86400).toNat = second := ⟨_, rfl⟩
  have hvalid : t.date.isValid = true := isValid_ofDayNumber (t.seconds / 86400)
  have hnumber : dayNumber t.date = t.seconds / 86400 := dayNumber_ofDayNumber (t.seconds / 86400)
  obtain ⟨hmonth, hday⟩ := Date.le_of_isValid hvalid
  have hleap : t.nanos / 1000000000 ≤ 1 := by unfold IsProper at h; omega
  have hlong : isShorter leastSize t.text.toList = false := by
    refine isShorter_eq_false ?_
    rw [toList_text, yearText, if_pos hyear, hsecond]
    simp (disch := first | decide | omega) [length_paddedDigits, leastSize]
  have htime := @readTime_text (second / 3600) (second / 60 % 60)
    (second % 60 + t.nanos / 1000000000) (t.nanos % 1000000000 / 1000000) (by omega) (by omega)
    (by omega) (by omega) ['Z'] rfl
  rw [parse, hlong, toList_text, hsecond]
  simp (disch := decide) only [bind, Except.bind, readDate_text hvalid hyear, skip_cons, htime,
    readOffset]
  rw [hnumber, truncated_eq h hsecond]
  simp [pure, Except.pure]

end Timestamp

end GeoPolicy
