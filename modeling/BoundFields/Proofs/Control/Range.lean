import BoundFields.Proofs.Control.Equivalence

/-!
# The range of a slider

A slider moves every number that it is given into the range that its declaration asks for, and takes
its default, which lies in that range, for all that is no number. So its value is in the range
whatever it was given before, with one exception: a number that is not one cannot be moved anywhere,
and is stored as it is (`Role.isBetween_of_accept_iff`). Only the last value that it was given
counts (`Control.setAll_eq`), so that the slider is in its range again with the next one
(`Control.isBetween_setAll_iff`).
-/

set_option autoImplicit false

namespace BoundFields

open Text

/-- The value is a number in the range from `min` to `max`, the ends included. -/
def Value.IsBetween (min max : Double) (v : Value) : Prop :=
  ∃ n, v = .number n ∧ min.le n.toDouble = true ∧ n.toDouble.le max = true

/-- A number is held as a value in a range if it lies in the range itself. -/
theorem Value.isBetween_ofDouble_iff {min max x : Double} :
    (Value.ofDouble x).IsBetween min max ↔ min.le x = true ∧ x.le max = true := by
  cases hx : x.isNaN with
  | true =>
    cases x with
    | nan =>
      refine iff_of_false ?_ ?_
      · rintro ⟨n, hn, hle, -⟩
        obtain rfl := Value.number.inj hn
        cases (Double.isNaN_of_le hle).2
      · rintro ⟨hle, -⟩
        cases (Double.isNaN_of_le hle).2
    | infinite | finite => cases hx
  | false =>
    obtain ⟨n, hn, hsame⟩ := Value.exists_same_ofDouble hx
    have hlow := (Double.le_of_same hsame min).2
    have hhigh := (Double.le_of_same hsame max).1
    rw [hn, ← hlow, ← hhigh]
    constructor
    · rintro ⟨m, hm, hbetween⟩
      rw [Value.number.inj hm]
      exact hbetween
    · intro hbetween
      exact ⟨n, rfl, hbetween⟩

namespace Role

/-- A slider stores a number in its range, unless it is given one that is no number. -/
theorem isBetween_of_accept_iff {min max step default : Double} (hrange : min.le max = true)
    (hdefault : min.le default = true ∧ default.le max = true) {v w : Value}
    (h : (slider min max step default).accept v = .ok w) :
    w.IsBetween min max ↔ v.isNaN = false := by
  obtain rfl := Except.ok.inj h
  rw [Value.isBetween_ofDouble_iff]
  cases hx : v.asNumber? with
  | none =>
    refine iff_of_true hdefault ?_
    cases v with
    | number => cases hx
    | _ => rfl
  | some x =>
    rw [← Value.isNaN_of_asNumber? hx]
    constructor
    · rintro ⟨hle, -⟩
      cases hnan : x.isNaN with
      | false => rfl
      | true =>
        cases x with
        | nan =>
          rw [Option.map_some, Option.getD_some, Double.clamp_nan] at hle
          cases (Double.isNaN_of_le hle).2
        | infinite | finite => cases hnan
    · intro hnumber
      exact Double.between_clamp hnumber hrange

end Role

namespace Control

/-- The control after it was given some values one after the other. -/
def setAll (c : Control) (values : List Value) : Except Fault Control :=
  values.foldlM Control.set c

/-- Of the values that a control was given the last one counts. -/
theorem setAll_eq {c : Control} (hmounted : c.isMounted = true) {stored : Value → Value}
    (h : ∀ v, c.role.accept v = .ok (stored v)) (values : List Value) :
    c.setAll values = .ok { c with current := (values.getLast?.map stored).getD c.current } := by
  unfold setAll
  -- Only the value of the control changes on the way, so that what it stores stays the same.
  induction values generalizing c with
  | nil => rfl
  | cons v more ih =>
    have hset : c.set v = .ok { c with current := stored v } := by
      rw [set_of_isMounted hmounted, h v]
      rfl
    rw [List.foldlM_cons, hset]
    refine (ih (c := { c with current := stored v }) hmounted h).trans ?_
    rw [List.getLast?_cons]
    cases more.getLast? <;> rfl

/-- A mounted slider holds a number after every run of values, which is in its range exactly if it
was so from the start or the last of the values was not a number that is none. -/
theorem isBetween_current_iff {c : Control} (hmounted : c.isMounted = true)
    {min max step default : Double} (hrole : c.role = .slider min max step default)
    (hrange : min.le max = true) (hdefault : min.le default = true ∧ default.le max = true)
    (hcurrent : c.current.IsBetween min max) (values : List Value) :
    ∃ after n, c.setAll values = .ok after ∧ after.value = .ok (.number n) ∧
      ((Value.number n).IsBetween min max ↔
        ∀ v, values.getLast? = some v → v.isNaN = false) := by
  obtain ⟨stored, hstored⟩ : ∃ stored : Value → Value, ∀ v, c.role.accept v = .ok (stored v) := by
    rw [hrole]
    exact ⟨_, fun _ => rfl⟩
  have hafter := setAll_eq hmounted hstored values
  cases hlast : values.getLast? with
  | none =>
    rw [hlast] at hafter
    have hin := hcurrent
    obtain ⟨n, hn, -⟩ := hcurrent
    rw [hn] at hin
    have hvalue := value_of_isMounted (c := { c with current := c.current }) hmounted
    exact ⟨_, n, hafter, hvalue.trans (congrArg Except.ok hn), iff_of_true hin (by simp)⟩
  | some v =>
    rw [hlast] at hafter
    have haccept := hstored v
    rw [hrole] at haccept
    obtain ⟨n, hn⟩ : ∃ n, stored v = .number n := by
      rw [← Except.ok.inj haccept]
      exact Value.exists_ofDouble _
    have hvalue := value_of_isMounted (c := { c with current := stored v }) hmounted
    refine ⟨_, n, hafter, hvalue.trans (congrArg Except.ok hn), ?_⟩
    rw [← hn, Role.isBetween_of_accept_iff hrange hdefault haccept]
    simp

/-- An accepted declaration makes a slider that starts in its range. -/
theorem exists_slider {d : Declaration} (hd : d.IsAccepted) (htype : d.fieldType = .slider)
    (format : String) :
    ∃ min max step default c, d.HasRange min max ∧ Control.ofDeclaration d format = .ok c ∧
      c.role = .slider min max step default ∧ (min.le default = true ∧ default.le max = true) ∧
      c.current.IsBetween min max := by
  have hmade := @Role.IsMadeFrom.slider d format _ _ htype rfl rfl
  obtain ⟨hrange, hdefault⟩ := Role.between_slider hd hmade
  have hrole := Role.ofDeclaration_of_isMadeFrom hmade
  exact ⟨_, _, _, _, _, hrange, Outcome.bind_eq_ok_iff.2 ⟨_, hrole, rfl⟩, rfl, hdefault,
    Value.isBetween_ofDouble_iff.2 hdefault⟩

/-- Whatever the slider of an accepted declaration was given, its value is a number, and this number
is in the range that the declaration asks for exactly if the last value that it was given was not a
number that is none. -/
theorem isBetween_setAll_iff {d : Declaration} (hd : d.IsAccepted) (htype : d.fieldType = .slider)
    (format : String) :
    ∃ min max c, d.HasRange min max ∧ Control.ofDeclaration d format = .ok c ∧
      ∀ values, ∃ after n, c.mount.setAll values = .ok after ∧ after.value = .ok (.number n) ∧
        ((Value.number n).IsBetween min max ↔
          ∀ v, values.getLast? = some v → v.isNaN = false) := by
  obtain ⟨min, max, step, default, c, hrange, hc, hrole, hdefault, hcurrent⟩ :=
    exists_slider hd htype format
  exact ⟨min, max, c, hrange, hc,
    isBetween_current_iff (c := c.mount) rfl hrole hrange.isInOrder hdefault hcurrent⟩

/-- A slider with a range of its own. -/
def ratingSlider : Declaration :=
  ⟨.slider, [⟨.minValue, .number (.ofInt 1), some "1"⟩, ⟨.maxValue, .number (.ofInt 5), some "5"⟩],
    false, none, none⟩

theorem isAccepted_ratingSlider : ratingSlider.IsAccepted := by
  have hread : ({} : Parser).read "INPUT[slider(minValue(1), maxValue(5))]" = .ok ratingSlider := by
    decide +kernel
  exact ⟨{}, ⟨{}, [], rfl⟩, .inl ⟨_, hread⟩⟩

/-- A slider that is given what is no number, a number beyond its range, and one in its range. -/
theorem isBetween_setAll_rating :
    ratingSlider.IsAccepted ∧ ratingSlider.fieldType = .slider ∧
      ∃ min max c, ratingSlider.HasRange min max ∧
        Control.ofDeclaration ratingSlider defaultDateFormat = .ok c ∧
        ∃ after n, c.mount.setAll [.number (.float .nan), .string "9", .number (.integer 3)] =
            .ok after ∧ after.value = .ok (.number n) ∧ (Value.number n).IsBetween min max := by
  obtain ⟨min, max, c, hrange, hc, hruns⟩ :=
    isBetween_setAll_iff isAccepted_ratingSlider rfl defaultDateFormat
  obtain ⟨after, n, hafter, hvalue, hbetween⟩ :=
    hruns [.number (.float .nan), .string "9", .number (.integer 3)]
  refine ⟨isAccepted_ratingSlider, rfl, min, max, c, hrange, hc, after, n, hafter, hvalue,
    hbetween.2 fun v hv => ?_⟩
  obtain rfl := Option.some.inj hv
  decide +kernel

/-- A number that is none is stored as it is, and is in no range. -/
theorem exists_setAll_not_isBetween :
    ¬ ∀ (d : Declaration) (min max : Double) (c after : Control) (values : List Value) (v : Value),
      d.IsAccepted → d.fieldType = .slider → d.HasRange min max →
      Control.ofDeclaration d defaultDateFormat = .ok c → c.mount.setAll values = .ok after →
      after.value = .ok v → v.IsBetween min max := by
  intro hall
  obtain ⟨min, max, step, default, c, hrange, hc, hrole, hdefault, hcurrent⟩ :=
    exists_slider isAccepted_ratingSlider rfl defaultDateFormat
  obtain ⟨after, n, hafter, hvalue, hbetween⟩ := isBetween_current_iff (c := c.mount) rfl hrole
    hrange.isInOrder hdefault hcurrent [.number (.float .nan)]
  have hin := hall _ min max c after _ _ isAccepted_ratingSlider rfl hrange hc hafter hvalue
  cases hbetween.1 hin _ rfl

end Control

end BoundFields
