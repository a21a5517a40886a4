import BoundFields.Calendar.TimeOfDay
import BoundFields.Proofs.Text.Trim

/-!
# Written numbers and times of day are read back

A number that fills its width is read as that number, whatever follows it (`number?_padded`). So
a time of day is read back from its text (`read?_write`), and no other times are read than those
of a day (`isOfDay_of_read?`).
-/

set_option autoImplicit false

namespace BoundFields

open Text

/-! ## Padded numbers -/

theorem isDigit_of_mem_padded {width n : Nat} {c : Char} (h : c ∈ padded '0' width n) :
    c.isDigit = true := by
  unfold padded at h
  rcases List.mem_append.1 h with h | h
  · rw [List.eq_of_mem_replicate h]
    decide
  · exact Nat.isDigit_of_mem_toDigits (by decide) (by decide) h

theorem valueOfDigits_eq_ofDigitChars (cs : List Char) :
    valueOfDigits cs = Nat.ofDigitChars 10 cs 0 := by
  rw [Nat.ofDigitChars_eq_foldl]
  rfl

/-- Zeros in front do not change the value of a number. -/
theorem valueOfDigits_padded (width n : Nat) : valueOfDigits (padded '0' width n) = n := by
  unfold padded
  rw [valueOfDigits_eq_ofDigitChars, Nat.ofDigitChars_append, Nat.ofDigitChars_replicate_zero,
    Nat.mul_zero, Nat.ofDigitChars_ten_toDigits]

theorem length_padded {pad : Char} {width n : Nat} (h : (Nat.toDigits 10 n).length ≤ width) :
    (padded pad width n).length = width := by
  unfold padded
  rw [List.length_append, List.length_replicate]
  omega

theorem padded_ne_nil (pad : Char) (width n : Nat) : padded pad width n ≠ [] := by
  unfold padded
  intro h
  exact Nat.toDigits_ne_nil (List.append_eq_nil_iff.1 h).2

theorem isBlank_of_isDigit {c : Char} (h : c.isDigit = true) : isBlank c = false := by
  simp only [Char.isDigit, Bool.and_eq_true, decide_eq_true_eq] at h
  have hge : 48 ≤ c.toNat := UInt32.le_iff_toNat_le.1 h.1
  have hle : c.toNat ≤ 57 := UInt32.le_iff_toNat_le.1 h.2
  exact isBlank_of_visible (by omega) (by omega)

theorem exists_padded_eq_cons (width n : Nat) :
    ∃ d more, padded '0' width n = d :: more ∧ d.isDigit = true := by
  cases hpad : padded '0' width n with
  | nil => exact absurd hpad (padded_ne_nil '0' width n)
  | cons d more =>
    exact ⟨d, more, rfl, isDigit_of_mem_padded (hpad ▸ List.mem_cons_self)⟩

/-- A text that ends with a number has no blank at its end. -/
theorem trim_append_padded {c : Char} (hc : isBlank c = false) (cs : List Char) (width n : Nat) :
    trim (c :: cs ++ padded '0' width n) = c :: cs ++ padded '0' width n := by
  apply trim_eq_self
  · intro first rest h
    obtain ⟨rfl, -⟩ := List.cons.inj h
    exact hc
  · intro front last h
    have hlast : (padded '0' width n).getLast? = some last := by
      have hgetLast := congrArg List.getLast? h
      rw [List.getLast?_concat, List.getLast?_append] at hgetLast
      cases hnumber : (padded '0' width n).getLast? with
      | none => exact absurd (List.getLast?_eq_none_iff.1 hnumber) (padded_ne_nil '0' width n)
      | some d =>
        rw [hnumber] at hgetLast
        exact hgetLast
    exact isBlank_of_isDigit (isDigit_of_mem_padded (List.mem_of_getLast? hlast))

/-- A text that starts with a digit has no blank in front. -/
theorem trimStart_digits {ds rest : List Char} (hd : ∀ c ∈ ds, c.isDigit = true) (hne : ds ≠ []) :
    trimStart (ds ++ rest) = ds ++ rest := by
  cases ds with
  | nil => exact absurd rfl hne
  | cons d more =>
    exact trimStart_cons_of_not_blank (isBlank_of_isDigit (hd d List.mem_cons_self))

namespace ReadStep

/-- Digits that fill the width, or that no digit follows, are read to their end. -/
theorem number?_append {width : Nat} {ds rest : List Char} (hd : ∀ c ∈ ds, c.isDigit = true)
    (hne : ds ≠ []) (hval : (valueOfDigits ds : Int) ≤ Fields.largest64)
    (hstop : ds.length = width ∨
      ds.length ≤ width ∧ ∀ c, rest.head? = some c → c.isDigit = false) :
    number? width (ds ++ rest) = some ((valueOfDigits ds : Int), rest) := by
  -- The reader takes the width first, and the digits of that then.
  have hdigits : ((ds ++ rest).take width).takeWhile Char.isDigit = ds := by
    rcases hstop with hfull | ⟨hle, hrest⟩
    · rw [← hfull, List.take_left' rfl]
      have hself : (ds ++ []).takeWhile Char.isDigit = ds ++ [].takeWhile Char.isDigit :=
        List.takeWhile_append_of_pos hd
      rw [List.append_nil, List.takeWhile_nil, List.append_nil] at hself
      exact hself
    · rw [List.take_append, List.take_of_length_le hle, List.takeWhile_append_of_pos hd]
      have hnil : (rest.take (width - ds.length)).takeWhile Char.isDigit = [] := by
        cases rest with
        | nil => simp
        | cons c more =>
          cases width - ds.length with
          | zero => rfl
          | succ k => simp [hrest c rfl]
      rw [hnil, List.append_nil]
  unfold number?
  simp only [hdigits]
  rw [if_neg, List.drop_left' rfl]
  intro h
  rcases h with hempty | hbig
  · exact hne (List.isEmpty_iff.1 hempty)
  · omega

/-- A number that fills the width of its part is read as that number. -/
theorem numberPart_padded (part : NumberPart) {w n : Nat} (f : Fields) (rest : List Char)
    (hwidth : width part = some w) (hsigned : isSigned part = false)
    (hlen : (Nat.toDigits 10 n).length ≤ w) (hval : (n : Int) ≤ Fields.largest64) :
    numberPart part f (padded '0' w n ++ rest) = (f.setNumber n part).map fun f => (f, rest) := by
  have hd : ∀ c ∈ padded '0' w n, c.isDigit = true := fun c hc => isDigit_of_mem_padded hc
  have hne : padded '0' w n ≠ [] := padded_ne_nil '0' w n
  have hread : number? w (padded '0' w n ++ rest) = some ((n : Int), rest) := by
    rw [number?_append hd hne (by rw [valueOfDigits_padded]; exact hval)
      (Or.inl (length_padded hlen)), valueOfDigits_padded]
  unfold numberPart
  simp only [trimStart_digits hd hne, hwidth, hsigned, Option.getD_some, hread,
    Bool.false_eq_true, if_false, Option.bind_some]

end ReadStep

/-! ## Times of day -/

namespace TimeOfDay

/-- The times that a day has. -/
structure IsOfDay (t : TimeOfDay) : Prop where
  hour_lt : t.hour < 24
  minute_lt : t.minute < 60

theorem length_toDigits_le_two {n : Nat} (h : n < 100) : (Nat.toDigits 10 n).length ≤ 2 :=
  (Nat.length_toDigits_le_iff (by decide) (by decide)).2 h

/-- The fields that a written time of day gives. -/
theorem fields?_write {t : TimeOfDay} (h : t.IsOfDay) :
    Pattern.hourMinute.fields? t.write.toList =
      some { half := some (t.hour / 12 : Nat), hourOfHalf := some (t.hour % 12 : Nat),
             minute := some (t.minute : Int) } := by
  have hhour := h.hour_lt
  have hminute := h.minute_lt
  have hlarge : (100 : Int) ≤ Fields.largest64 := by decide
  -- The hour is kept as the half of the day and the hour of that half.
  have hsetHour : ({} : Fields).setNumber t.hour .hour =
      some { half := some (t.hour / 12 : Nat), hourOfHalf := some (t.hour % 12 : Nat) } := by
    have h23 : (t.hour : Int) ≤ 23 := by omega
    have hhalf : (0 : Int) ≤ (t.hour : Int) / 12 ∧ (t.hour : Int) / 12 ≤ 1 := by omega
    have hof : (0 : Int) ≤ (t.hour : Int) % 12 ∧ (t.hour : Int) % 12 ≤ 11 := by omega
    simp [Fields.setNumber, Fields.setHalf, Fields.setHourOfHalf, Fields.agree, h23, hhalf, hof]
  have hsetMinute : ({ half := some (t.hour / 12 : Nat), hourOfHalf := some (t.hour % 12 : Nat) }
        : Fields).setNumber t.minute .minute =
      some { half := some (t.hour / 12 : Nat), hourOfHalf := some (t.hour % 12 : Nat),
             minute := some (t.minute : Int) } := by
    have h59 : (0 : Int) ≤ t.minute ∧ (t.minute : Int) ≤ 59 := by omega
    simp [Fields.setNumber, Fields.agree, h59]
  have hreadHour := ReadStep.numberPart_padded .hour (w := 2) {}
    (':' :: padded '0' 2 t.minute) rfl rfl (length_toDigits_le_two (by omega : t.hour < 100))
    (by omega)
  have hreadMinute := ReadStep.numberPart_padded .minute (w := 2)
    { half := some (t.hour / 12 : Nat), hourOfHalf := some (t.hour % 12 : Nat) } []
    rfl rfl (length_toDigits_le_two (by omega : t.minute < 100)) (by omega)
  rw [hsetHour] at hreadHour
  rw [hsetMinute, List.append_nil] at hreadMinute
  have hall : ReadStep.all (Pattern.hourMinute.map ReadStep.ofItem) {} t.write.toList =
      some ({ half := some (t.hour / 12 : Nat), hourOfHalf := some (t.hour % 12 : Nat),
              minute := some (t.minute : Int) }, []) := by
    unfold write
    rw [String.toList_ofList]
    simp only [Pattern.hourMinute, List.map_cons, List.map_nil, ReadStep.ofItem, ReadStep.all,
      hreadHour, Option.map_some, Option.bind_some, ReadStep.literal, dropPrefix?, if_true,
      hreadMinute]
  unfold Pattern.fields?
  rw [hall]

theorem trim_write (t : TimeOfDay) : trim t.write.toList = t.write.toList := by
  unfold write
  rw [String.toList_ofList]
  obtain ⟨d, more, hhour, hd⟩ := exists_padded_eq_cons 2 t.hour
  have htrim := trim_append_padded (isBlank_of_isDigit hd) (more ++ [':']) 2 t.minute
  rw [hhour]
  simpa using htrim

/-- A time of day is read back from its text, to which trimming does nothing. -/
theorem read?_write {t : TimeOfDay} (h : t.IsOfDay) : read? (trim t.write.toList) = some t := by
  have hhour : (12 * ((t.hour / 12 : Nat) : Int) + ((t.hour % 12 : Nat) : Int)).toNat = t.hour := by
    omega
  rw [trim_write]
  unfold read?
  rw [fields?_write h]
  simp only [Option.bind_eq_bind, Option.bind_some, hhour, Int.toNat_natCast, Option.pure_def]

/-- What reading a number part yields comes from a number that was set. -/
theorem exists_setNumber_of_numberPart {part : NumberPart} {f f' : Fields} {cs rest : List Char}
    (h : ReadStep.numberPart part f cs = some (f', rest)) :
    ∃ n, f.setNumber n part = some f' := by
  unfold ReadStep.numberPart at h
  obtain ⟨⟨n, more⟩, -, hset⟩ := Option.bind_eq_some_iff.1 h
  obtain ⟨g, hg, hpair⟩ := Option.map_eq_some_iff.1 hset
  obtain ⟨rfl, -⟩ := Prod.mk.inj hpair
  exact ⟨n, hg⟩

theorem eq_of_agree {old new : Option Int} {low high v : Int}
    (h : Fields.agree old low high v = some new) : low ≤ v ∧ v ≤ high ∧ new = some v := by
  unfold Fields.agree at h
  split at h
  · next hv => exact ⟨hv.1, hv.2.1, (Option.some.inj h).symm⟩
  · exact absurd h (by simp)

/-- Only times of a day are read. -/
theorem isOfDay_of_read? {cs : List Char} {t : TimeOfDay} (h : read? cs = some t) : t.IsOfDay := by
  unfold read? at h
  simp only [Option.bind_eq_bind, Option.bind_eq_some_iff, Option.pure_def, Option.some.injEq] at h
  obtain ⟨f, hf, half, hhalf, hour, hhour, minute, hminute, rfl⟩ := h
  unfold Pattern.fields? at hf
  split at hf
  · next f₂ hall =>
    obtain rfl := Option.some.inj hf
    simp only [Pattern.hourMinute, List.map_cons, List.map_nil, ReadStep.all, ReadStep.ofItem,
      Option.bind_eq_some_iff, Prod.exists, Option.some.injEq, Prod.mk.injEq] at hall
    obtain ⟨f₁, cs₁, hread, f₁', cs₂, hcolon, f₂', cs₃, hread', rfl, rfl⟩ := hall
    obtain ⟨_, _, hpair⟩ := Option.map_eq_some_iff.1 hcolon
    obtain ⟨rfl, -⟩ := Prod.mk.inj hpair
    -- A field takes no number outside its bounds, so that the bounds need not be checked again.
    obtain ⟨n, hn⟩ := exists_setNumber_of_numberPart hread
    obtain ⟨m, hm⟩ := exists_setNumber_of_numberPart hread'
    obtain ⟨x, hx, rfl⟩ := Option.map_eq_some_iff.1 hm
    obtain ⟨hm0, hm59, rfl⟩ := eq_of_agree hx
    simp only [Fields.setNumber] at hn
    split at hn
    · obtain ⟨g, hg, hg'⟩ := Option.bind_eq_some_iff.1 hn
      obtain ⟨y, hy, rfl⟩ := Option.map_eq_some_iff.1 hg
      obtain ⟨hhalf0, hhalf1, rfl⟩ := eq_of_agree hy
      obtain ⟨z, hz, rfl⟩ := Option.map_eq_some_iff.1 hg'
      obtain ⟨hhour0, hhour11, rfl⟩ := eq_of_agree hz
      obtain rfl := Option.some.inj hhalf
      obtain rfl := Option.some.inj hhour
      obtain rfl := Option.some.inj hminute
      exact ⟨by simp only; omega, by simp only; omega⟩
    · exact absurd hn (by simp)
  · exact absurd hf (by simp)

end TimeOfDay

end BoundFields
