import BoundFields.Calendar.Writer
import BoundFields.Declaration.Parser
import BoundFields.Proofs.Calendar.Clock

/-!
# Dates in the default format

A date that was read is a day of its year (`isDay_of_read?`), and such a day is found again from its
month and the day of the month (`ofMonthDay?_monthDay`). So the default format, which writes a
year of any length, a month and a day, reads back what it writes (`read?_write?_default`).
-/

set_option autoImplicit false

namespace BoundFields

open Text

namespace Date

/-! ## Days of a year -/

/-- The days that there are. -/
structure IsDay (d : Date) : Prop where
  firstYear_le : firstYear ≤ d.year
  le_lastYear : d.year ≤ lastYear
  one_le : 1 ≤ d.ordinal
  le_daysInYear : d.ordinal ≤ daysInYear d.year

theorem ofOrdinal?_eq_some_iff {year : Int} {ordinal : Nat} {d : Date} :
    ofOrdinal? year ordinal = some d ↔ d = ⟨year, ordinal⟩ ∧ d.IsDay := by
  unfold ofOrdinal?
  constructor
  · intro h
    split at h
    · next hday =>
      obtain rfl := Option.some.inj h
      exact ⟨rfl, hday.1, hday.2.1, hday.2.2.1, hday.2.2.2⟩
    · cases h
  · rintro ⟨rfl, hday⟩
    exact if_pos ⟨hday.firstYear_le, hday.le_lastYear, hday.one_le, hday.le_daysInYear⟩

theorem isDay_of_ofOrdinal? {year : Int} {ordinal : Nat} {d : Date}
    (h : ofOrdinal? year ordinal = some d) : d.IsDay :=
  (ofOrdinal?_eq_some_iff.1 h).2

theorem isDay_of_ofMonthDay? {year : Int} {month day : Nat} {d : Date}
    (h : ofMonthDay? year month day = some d) : d.IsDay := by
  unfold ofMonthDay? at h
  split at h
  · cases h
  · split at h
    · cases h
    · split at h
      · exact isDay_of_ofOrdinal? h
      · cases h

theorem isDay_of_ofWeek? {start : Nat} {year : Int} {week weekday : Nat} {d : Date}
    (h : ofWeek? start year week weekday = some d) : d.IsDay := by
  unfold ofWeek? at h
  dsimp only at h
  split at h
  · exact isDay_of_ofOrdinal? h
  · cases h

theorem isDay_of_ofIsoWeek? {year : Int} {week weekday : Nat} {d : Date}
    (h : ofIsoWeek? year week weekday = some d) : d.IsDay := by
  unfold ofIsoWeek? at h
  dsimp only at h
  split at h
  · split at h
    · exact isDay_of_ofOrdinal? h
    · split at h
      · exact isDay_of_ofOrdinal? h
      · exact isDay_of_ofOrdinal? h
  · cases h

theorem isDay_of_candidate? {f : Fields} {year weekYear : Option Int} {d : Date}
    (h : f.candidate? year weekYear = some d) : d.IsDay := by
  unfold Fields.candidate? at h
  split at h
  · exact isDay_of_ofMonthDay? h
  · exact isDay_of_ofOrdinal? h
  · exact isDay_of_ofWeek? h
  · exact isDay_of_ofWeek? h
  · split at h
    · exact isDay_of_ofIsoWeek? h
    · cases h
  · cases h

/-- Whatever the format is, only days are read. -/
theorem isDay_of_read? {format : String} {cs : List Char} {d : Date}
    (h : read? format cs = some d) : d.IsDay := by
  obtain ⟨f, -, hf⟩ := Option.bind_eq_some_iff.1 h
  unfold Fields.date? at hf
  obtain ⟨year, -, hf⟩ := Option.bind_eq_some_iff.1 hf
  obtain ⟨weekYear, -, hf⟩ := Option.bind_eq_some_iff.1 hf
  obtain ⟨found, hfound, hf⟩ := Option.bind_eq_some_iff.1 hf
  split at hf
  · obtain rfl := Option.some.inj hf
    exact isDay_of_candidate? hfound
  · cases hf

/-! ## Months -/

/-- All days of these months, behind `days` others. -/
def daysAfter (days : Nat) (lengths : List Nat) : Nat := lengths.foldl (· + ·) days

theorem daysAfter_add (days more : Nat) (lengths : List Nat) :
    daysAfter (days + more) lengths = days + daysAfter more lengths :=
  List.foldl_assoc

theorem daysAfter_monthLengths (year : Int) :
    daysAfter 0 (monthLengths year) = daysInYear year := by
  unfold monthLengths daysInYear
  cases isLeapYear year <;> rfl

/-- The month and the day of the month lead back to the day of the year. -/
theorem exists_monthDayIn {lengths : List Nat} {ordinal : Nat} (first : Nat) (hone : 1 ≤ ordinal)
    (hle : ordinal ≤ daysAfter 0 lengths) :
    ∃ k length, lengths[k]? = some length ∧ (monthDayIn lengths first ordinal).1 = first + k ∧
      1 ≤ (monthDayIn lengths first ordinal).2 ∧ (monthDayIn lengths first ordinal).2 ≤ length ∧
      daysAfter (monthDayIn lengths first ordinal).2 (lengths.take k) = ordinal := by
  induction lengths generalizing first ordinal with
  | nil =>
    have hzero : daysAfter 0 [] = 0 := rfl
    omega
  | cons length more ih =>
    have hcons (days : Nat) (ls : List Nat) :
        daysAfter days (length :: ls) = length + daysAfter days ls := by
      rw [← daysAfter_add, Nat.add_comm]
      rfl
    unfold monthDayIn
    by_cases hin : ordinal ≤ length
    · rw [if_pos hin]
      exact ⟨0, length, rfl, rfl, hone, hin, rfl⟩
    · -- The month has passed, and the rest is found among the months behind it.
      rw [if_neg hin]
      rw [hcons] at hle
      obtain ⟨k, l, hl, hmonth, hday, hday', hdays⟩ :=
        ih (first + 1) (by omega : 1 ≤ ordinal - length) (by omega)
      refine ⟨k + 1, l, hl, by omega, hday, hday', ?_⟩
      rw [List.take_succ_cons, hcons, hdays]
      omega

theorem length_monthLengths (year : Int) : (monthLengths year).length = 12 := rfl

theorem le_of_mem_monthLengths {year : Int} {length : Nat} (h : length ∈ monthLengths year) :
    length ≤ 31 := by
  unfold monthLengths at h
  simp only [List.mem_cons, List.not_mem_nil, or_false] at h
  split at h <;> omega

/-- What is known of the month of a day. -/
structure HasMonth (d : Date) (length : Nat) : Prop where
  one_le_month : 1 ≤ d.month
  getElem : (monthLengths d.year)[d.month - 1]? = some length
  one_le_day : 1 ≤ d.day
  day_le : d.day ≤ length
  daysAfter_eq : daysAfter d.day ((monthLengths d.year).take (d.month - 1)) = d.ordinal

theorem exists_hasMonth {d : Date} (h : d.IsDay) : ∃ length, d.HasMonth length := by
  have hle := h.le_daysInYear
  rw [← daysAfter_monthLengths] at hle
  obtain ⟨k, length, hlength, hmonth, hone, hday, hdays⟩ := exists_monthDayIn 1 h.one_le hle
  have hk : d.month - 1 = k := by
    have hmonth' : d.month = 1 + k := hmonth
    omega
  have hmonth' : d.month = 1 + k := hmonth
  refine ⟨length, by omega, ?_, hone, hday, ?_⟩
  · rw [hk]
    exact hlength
  · rw [hk]
    exact hdays

theorem HasMonth.month_le {d : Date} {length : Nat} (h : d.HasMonth length) : d.month ≤ 12 := by
  obtain ⟨hlt, -⟩ := List.getElem?_eq_some_iff.1 h.getElem
  rw [length_monthLengths] at hlt
  omega

theorem HasMonth.day_le_31 {d : Date} {length : Nat} (h : d.HasMonth length) : d.day ≤ 31 :=
  Nat.le_trans h.day_le (le_of_mem_monthLengths (List.mem_of_getElem? h.getElem))

/-- A day is found again from its year, its month and the day of the month. -/
theorem ofMonthDay?_monthDay {d : Date} (h : d.IsDay) :
    ofMonthDay? d.year d.month d.day = some d := by
  obtain ⟨length, hmonth⟩ := exists_hasMonth h
  have hzero : d.month ≠ 0 := by
    have hone := hmonth.one_le_month
    omega
  -- The days of the months before are added to the day in the order of the months.
  have hdays : ((monthLengths d.year).take (d.month - 1)).foldl (· + ·) d.day = d.ordinal :=
    hmonth.daysAfter_eq
  unfold ofMonthDay?
  rw [if_neg hzero, hmonth.getElem]
  simp only
  rw [if_pos ⟨hmonth.one_le_day, hmonth.day_le⟩, hdays]
  exact ofOrdinal?_eq_some_iff.2 ⟨rfl, h⟩

end Date

/-! ## Years -/

namespace ReadStep

/-- A year without a sign is read like any other number. -/
theorem numberPart_year_digits (f : Fields) {ds : List Char} (rest : List Char)
    (hd : ∀ c ∈ ds, c.isDigit = true) (hne : ds ≠ []) :
    numberPart .year f (ds ++ rest) =
      (number? 4 (ds ++ rest)).bind fun (n, rest) =>
        (f.setNumber n .year).map fun f => (f, rest) := by
  unfold numberPart
  simp only [trimStart_digits hd hne]
  cases ds with
  | nil => exact absurd rfl hne
  | cons d more =>
    have hdigit := hd d List.mem_cons_self
    rw [List.cons_append]
    simp only [isSigned, if_true]
    split
    · next heq =>
      obtain ⟨rfl, -⟩ := List.cons.inj heq
      exact absurd hdigit (by decide)
    · next heq =>
      obtain ⟨rfl, -⟩ := List.cons.inj heq
      exact absurd hdigit (by decide)
    · rfl

theorem setNumber_year {year : Int} (hfirst : Date.firstYear ≤ year)
    (hlast : year ≤ Date.lastYear) :
    ({} : Fields).setNumber year .year = some { year := some year } := by
  have hlow : (-twoTo 31 : Int) ≤ Date.firstYear := by decide
  have hhigh : Date.lastYear ≤ Fields.largest32 := by decide
  have hbounds : (-twoTo 31 : Int) ≤ year ∧ year ≤ Fields.largest32 := by omega
  simp [Fields.setNumber, Fields.setYear, Fields.agree, hbounds]

/-- Digits are read up to the hyphen behind them. -/
theorem number?_hyphen {width n : Nat} (rest : List Char) (hval : (n : Int) ≤ Fields.largest64) :
    number? (padded '0' width n ++ '-' :: rest).length (padded '0' width n ++ '-' :: rest) =
      some ((n : Int), '-' :: rest) := by
  have hd : ∀ c ∈ padded '0' width n, c.isDigit = true := fun c hc => isDigit_of_mem_padded hc
  have hstop : (padded '0' width n).length ≤ (padded '0' width n ++ '-' :: rest).length ∧
      ∀ c, ('-' :: rest).head? = some c → c.isDigit = false := by
    constructor
    · rw [List.length_append]
      omega
    · intro c hc
      obtain rfl := Option.some.inj hc
      rfl
  rw [number?_append hd (padded_ne_nil '0' width n) (by rw [valueOfDigits_padded]; exact hval)
    (.inr hstop), valueOfDigits_padded]

/-- A year is read back whatever its length, as it has a sign if that is not four. -/
theorem numberPart_writeYear {year : Int} (hfirst : Date.firstYear ≤ year)
    (hlast : year ≤ Date.lastYear) (rest : List Char) :
    numberPart .year {} (Date.writeYear .zeros year ++ '-' :: rest) =
      some ({ year := some year }, '-' :: rest) := by
  have hset := setNumber_year hfirst hlast
  have hlow : (-Fields.largest64 : Int) ≤ Date.firstYear := by decide
  have hhigh : Date.lastYear ≤ Fields.largest64 := by decide
  unfold Date.writeYear
  by_cases hfour : 0 ≤ year ∧ year ≤ 9999
  · rw [if_pos hfour]
    have hd : ∀ c ∈ padded '0' 4 year.toNat, c.isDigit = true :=
      fun c hc => isDigit_of_mem_padded hc
    have hlength : (Nat.toDigits 10 year.toNat).length ≤ 4 :=
      (Nat.length_toDigits_le_iff (by decide) (by decide)).2 (by omega)
    have hyear : (year.toNat : Int) = year := by omega
    have hread : number? 4 (padded '0' 4 year.toNat ++ '-' :: rest) = some (year, '-' :: rest) := by
      rw [number?_append hd (padded_ne_nil '0' 4 year.toNat)
        (by rw [valueOfDigits_padded]; omega) (.inl (length_padded hlength)),
        valueOfDigits_padded, hyear]
    simp only [Padding.fill]
    rw [numberPart_year_digits {} ('-' :: rest) hd (padded_ne_nil '0' 4 year.toNat), hread]
    simp only [Option.bind_some, hset, Option.map_some]
  · -- With a sign any number of digits is read, and the hyphen ends them.
    rw [if_neg hfour]
    have hread := @number?_hyphen 4 year.natAbs rest (by omega)
    by_cases hneg : year < 0
    · have hyear : -(year.natAbs : Int) = year := by omega
      simp only [if_pos hneg, List.cons_append, numberPart, isSigned,
        trimStart_cons_of_not_blank (by decide : isBlank '-' = false), hread, if_true,
        Option.map_some, Option.bind_some, hyear, hset]
    · have hyear : (year.natAbs : Int) = year := by omega
      simp only [if_neg hneg, List.cons_append, numberPart, isSigned,
        trimStart_cons_of_not_blank (by decide : isBlank '+' = false), hread, if_true,
        Option.map_some, Option.bind_some, hyear, hset]

end ReadStep

/-! ## The default format -/

namespace Date

theorem ofText_defaultDateFormat :
    Pattern.ofText defaultDateFormat =
      [.number .year .zeros, .literal ['-'], .number .month .zeros, .literal ['-'],
        .number .day .zeros] := by
  decide +kernel

theorem write?_default (d : Date) :
    d.write? defaultDateFormat = some (String.ofList (writeYear .zeros d.year ++
      '-' :: (padded '0' 2 d.month ++ '-' :: padded '0' 2 d.day))) := by
  unfold write?
  rw [ofText_defaultDateFormat]
  simp [writeItem?, writeNumber?, Padding.fill]

/-- The fields that a date in the default format gives. -/
theorem fields?_write?_default {d : Date} (h : d.IsDay) :
    (Pattern.ofText defaultDateFormat).fields? (writeYear .zeros d.year ++
      '-' :: (padded '0' 2 d.month ++ '-' :: padded '0' 2 d.day)) =
        some { year := some d.year, month := some d.month, day := some d.day } := by
  obtain ⟨length, hmonth⟩ := exists_hasMonth h
  have hmonth₁ := hmonth.one_le_month
  have hmonth₁₂ := hmonth.month_le
  have hday₁ := hmonth.one_le_day
  have hday₃₁ := hmonth.day_le_31
  have hlarge : (100 : Int) ≤ Fields.largest64 := by decide
  have hyear := ReadStep.numberPart_writeYear h.firstYear_le h.le_lastYear
    (padded '0' 2 d.month ++ '-' :: padded '0' 2 d.day)
  have hreadMonth := ReadStep.numberPart_padded .month { year := some d.year }
    ('-' :: padded '0' 2 d.day) rfl rfl
    (TimeOfDay.length_toDigits_le_two (by omega : d.month < 100)) (by omega)
  have hreadDay := ReadStep.numberPart_padded .day
    { year := some d.year, month := some (d.month : Int) } [] rfl rfl
    (TimeOfDay.length_toDigits_le_two (by omega : d.day < 100)) (by omega)
  have hsetMonth : ({ year := some d.year } : Fields).setNumber d.month .month =
      some { year := some d.year, month := some (d.month : Int) } := by
    have hbounds : (1 : Int) ≤ d.month ∧ (d.month : Int) ≤ 12 := by omega
    simp [Fields.setNumber, Fields.setMonth, Fields.agree, hbounds]
  have hsetDay : ({ year := some d.year, month := some (d.month : Int) } : Fields).setNumber
      d.day .day = some { year := some d.year, month := some (d.month : Int),
                          day := some (d.day : Int) } := by
    have hbounds : (1 : Int) ≤ d.day ∧ (d.day : Int) ≤ 31 := by omega
    simp [Fields.setNumber, Fields.agree, hbounds]
  rw [hsetMonth] at hreadMonth
  rw [hsetDay, List.append_nil] at hreadDay
  unfold Pattern.fields?
  rw [ofText_defaultDateFormat]
  simp only [List.map_cons, List.map_nil, ReadStep.ofItem, ReadStep.all, hyear, hreadMonth,
    hreadDay, Option.bind_some, Option.map_some, ReadStep.literal, dropPrefix?, if_true]

/-- A day is found from its year, its month and the day of the month alone. -/
theorem date?_yearMonthDay {d : Date} (h : d.IsDay) :
    ({ year := some d.year, month := some d.month, day := some d.day } : Fields).date? =
      some d := by
  have hmonthDay := ofMonthDay?_monthDay h
  simp [Fields.date?, Fields.resolveYear?, Fields.candidate?, hmonthDay, Fields.monthDayFits,
    Fields.isoWeekFits, Fields.ordinalFits, Fields.yearFits, Fields.allows]

/-- A year starts with a digit or a sign. -/
theorem exists_writeYear_eq_cons (year : Int) :
    ∃ c cs, writeYear .zeros year = c :: cs ∧ isBlank c = false := by
  unfold writeYear
  split
  · obtain ⟨d, more, hyear, hd⟩ := exists_padded_eq_cons 4 year.toNat
    exact ⟨d, more, hyear, isBlank_of_isDigit hd⟩
  · refine ⟨if year < 0 then '-' else '+', padded '0' 4 year.natAbs, rfl, ?_⟩
    split <;> decide

/-- A day is read back from its text in the default format, to which trimming does nothing. -/
theorem read?_write?_default {d : Date} (h : d.IsDay) {text : String}
    (hwrite : d.write? defaultDateFormat = some text) :
    read? defaultDateFormat (trim text.toList) = some d := by
  rw [write?_default] at hwrite
  obtain rfl := Option.some.inj hwrite
  have hfields := fields?_write?_default h
  obtain ⟨c, cs, hyear, hc⟩ := exists_writeYear_eq_cons d.year
  have htrim := trim_append_padded hc (cs ++ '-' :: (padded '0' 2 d.month ++ ['-'])) 2 d.day
  have htext : c :: (cs ++ '-' :: (padded '0' 2 d.month ++ ['-'])) ++ padded '0' 2 d.day =
      writeYear .zeros d.year ++ '-' :: (padded '0' 2 d.month ++ '-' :: padded '0' 2 d.day) := by
    rw [hyear]
    simp
  rw [htext] at htrim
  rw [String.toList_ofList, htrim]
  unfold read?
  rw [hfields, Option.bind_some]
  exact date?_yearMonthDay h

end Date

end BoundFields
