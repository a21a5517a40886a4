import BoundFields.Proofs.Control.Accepted

/-!
# Equal values are not always stored alike

The synchronizer passes over a value that the rule of a control finds equal to the one before. The
control may make something else of it all the same: where a value is none of its kind it stores its
default (`Role.FallsBackFor`), while the rule goes on to compare the short texts. What the control
stores for two values that are equal is equal again exactly if it falls back for both of them or for
neither, or if its default happens to be equal to both results (`Control.eq_stored_iff`). For truth
values and numbers it always is, as their rules go on to compare the values themselves.
-/

set_option autoImplicit false

namespace BoundFields

namespace EqualityRule

theorem compare_comm {α : Type} {as? : Value → Option α} {eq : α → α → Bool}
    {otherwise : Value → Value → Bool} {a b : Value} (heq : ∀ x y, eq x y = eq y x)
    (hother : otherwise a b = otherwise b a) :
    compare as? eq otherwise a b = compare as? eq otherwise b a := by
  unfold compare
  cases as? a with
  | none => cases as? b <;> exact hother
  | some x =>
    cases as? b with
    | none => exact hother
    | some y => exact heq x y

/-- What is compared by what values are taken for tells apart the values that are taken for
something from the others, if the values themselves are compared so. -/
theorem as?_eq_none_iff_of_compare {α : Type} {as? : Value → Option α} {eq : α → α → Bool}
    {otherwise : Value → Value → Bool} {a b : Value}
    (hother : otherwise a b = true → (as? a = none ↔ as? b = none))
    (h : compare as? eq otherwise a b = true) : as? a = none ↔ as? b = none := by
  by_cases hnone : as? a = none ∨ as? b = none
  · rw [compare_of_none hnone] at h
    exact hother h
  · rw [not_or] at hnone
    exact iff_of_false hnone.1 hnone.2

/-- Values that are taken for something are compared as what they are taken for. -/
theorem exists_eq_of_compare {α : Type} {as? : Value → Option α} {eq : α → α → Bool}
    {otherwise : Value → Value → Bool} {a b : Value} (ha : as? a ≠ none) (hb : as? b ≠ none)
    (h : compare as? eq otherwise a b = true) :
    ∃ p q, as? a = some p ∧ as? b = some q ∧ eq p q = true := by
  obtain ⟨p, hp⟩ := Option.ne_none_iff_exists'.1 ha
  obtain ⟨q, hq⟩ := Option.ne_none_iff_exists'.1 hb
  exact ⟨p, q, hp, hq, (compare_of_some hp hq).symm.trans h⟩

end EqualityRule

open EqualityRule

namespace Value

theorem asBool?_eq_none_of_same {a b : Value} (h : a.same b = true) :
    a.asBool? = none ↔ b.asBool? = none := by
  cases a <;> cases b <;> simp_all [same, asBool?]

theorem asNumber?_eq_none_of_same {a b : Value} (h : a.same b = true) :
    a.asNumber? = none ↔ b.asNumber? = none := by
  cases a <;> cases b <;> simp_all [same, asNumber?]

end Value

namespace Role

/-- The control stores its default, since the value is none of its kind. -/
def FallsBackFor : Role → Value → Prop
  | .toggle _, v => v.asBool? = none
  | .slider .., v => v.asNumber? = none
  | .text .., v | .select .., v | .multiSelect .., v => v = .null
  | .date format .., v => v.asDate? format = none
  | .time _, v => v.asTime? = none

variable {role : Role} {a b x y : Value}

theorem accept_of_fallsBackFor (h : role.FallsBackFor a) : role.accept a = .ok role.default := by
  cases role with
  | toggle b =>
    have hnone : a.asBool? = none := h
    simp only [accept, hnone, Option.getD_none, default]
  | slider min max step d =>
    have hnone : a.asNumber? = none := h
    simp only [accept, hnone, Option.map_none, Option.getD_none, default]
  | text | select | multiSelect =>
    obtain rfl : a = .null := h
    exact accept_null _
  | date format min max d =>
    have hnone : a.asDate? format = none := h
    simp only [accept, hnone]
  | time t =>
    have hnone : a.asTime? = none := h
    simp only [accept, hnone, Option.getD_none, default]

/-- Truth values and numbers are never equal to what the control falls back for. -/
theorem fallsBackFor_iff_of_eq (hrule : role.rule = .bool ∨ role.rule = .number)
    (hab : role.rule.eq a b = true) : role.FallsBackFor a ↔ role.FallsBackFor b := by
  cases role with
  | toggle d => exact as?_eq_none_iff_of_compare Value.asBool?_eq_none_of_same hab
  | slider min max step d => exact as?_eq_none_iff_of_compare Value.asNumber?_eq_none_of_same hab
  | text | select | multiSelect | date | time => simp [rule] at hrule

/-! ## Values of the control's kind -/

/-- A text or a choice stores the short text of what it was given. -/
theorem accept_eq_display (hrule : role.rule = .text) (hnull : a ≠ .null) :
    role.accept a = .ok (.string a.display) := by
  cases role with
  | text | select => exact congrArg Except.ok (if_neg hnull)
  | toggle | slider | multiSelect | date | time => cases hrule

/-- A choice of several stores the texts that it was given. -/
theorem asTextSet_of_accept {options default : List String} (hnull : a ≠ .null)
    (h : (multiSelect options default).accept a = .ok x) : x.asTextSet = a.asTextSet := by
  have hstored (items : List String) :
      (Value.ofTexts items).asTextSet = Ascending.ofList items := by
    simp only [Value.asTextSet, Value.ofTexts, Value.itemTexts, Value.map_display_string]
  cases a with
  | null => exact absurd rfl hnull
  | sequence items =>
    obtain rfl := Except.ok.inj h
    exact hstored _
  | bool | number | string | mapping | tagged =>
    obtain rfl := Except.ok.inj h
    exact hstored _

/-- What is stored for two values of the control's kind that are equal is equal again. -/
theorem eq_of_not_fallsBackFor (ha : ¬ role.FallsBackFor a) (hb : ¬ role.FallsBackFor b)
    (hab : role.rule.eq a b = true) (hx : role.accept a = .ok x) (hy : role.accept b = .ok y) :
    role.rule.eq x y = true := by
  cases role with
  | toggle d =>
    obtain ⟨p, q, hp, hq, hpq⟩ := exists_eq_of_compare ha hb hab
    simp only [accept, hp, Option.getD_some, Except.ok.injEq] at hx
    simp only [accept, hq, Option.getD_some, Except.ok.injEq] at hy
    rw [← hx, ← hy]
    exact hpq
  | slider min max step d =>
    obtain ⟨p, q, hp, hq, hpq⟩ := exists_eq_of_compare ha hb hab
    simp only [accept, hp, Option.map_some, Option.getD_some, Except.ok.injEq] at hx
    simp only [accept, hq, Option.map_some, Option.getD_some, Except.ok.injEq] at hy
    -- The same bounds hold for both numbers, and either may be stored as an integer.
    have hclamped := Double.clamp_of_same hpq min max
    obtain ⟨hle, hge⟩ := Bool.and_eq_true_iff.1 hclamped
    obtain ⟨m, hm, hmp⟩ := Value.exists_same_ofDouble (Double.isNaN_of_le hle).1
    obtain ⟨n, hn, hnq⟩ := Value.exists_same_ofDouble (Double.isNaN_of_le hge).1
    rw [← hx, ← hy, hm, hn]
    show m.toDouble.same n.toDouble = true
    rw [Double.same_comm] at hnq
    exact Double.same_trans hmp (Double.same_trans hclamped hnq)
  | text | select =>
    obtain rfl := Except.ok.inj ((accept_eq_display rfl ha).symm.trans hx)
    obtain rfl := Except.ok.inj ((accept_eq_display rfl hb).symm.trans hy)
    rw [sameText_iff.1 hab]
    exact sameText_iff.2 rfl
  | multiSelect options d =>
    have hsets := beq_iff_eq.1 hab
    exact beq_iff_eq.2
      ((asTextSet_of_accept ha hx).trans (hsets.trans (asTextSet_of_accept hb hy).symm))
  | date format min max d =>
    obtain ⟨p, q, hp, hq, hpq⟩ := exists_eq_of_compare ha hb hab
    obtain rfl := of_decide_eq_true hpq
    simp only [accept, hp] at hx
    simp only [accept, hq] at hy
    obtain rfl := Except.ok.inj (hx.symm.trans hy)
    exact compare_self (Value.asDate? format) x
  | time t =>
    obtain ⟨p, q, hp, hq, hpq⟩ := exists_eq_of_compare ha hb hab
    obtain rfl := of_decide_eq_true hpq
    simp only [accept, hp] at hx
    simp only [accept, hq] at hy
    obtain rfl := Except.ok.inj (hx.symm.trans hy)
    exact compare_self Value.asTime? x

/-- Of two values that the control stored either is equal to the other one, or neither is. -/
theorem eq_comm_of_accept (hx : role.accept a = .ok x) (hy : role.accept b = .ok y) :
    role.rule.eq x y = role.rule.eq y x := by
  cases role with
  | toggle d =>
    obtain rfl := Except.ok.inj hx
    obtain rfl := Except.ok.inj hy
    exact Bool.beq_comm
  | slider min max step d =>
    obtain ⟨m, hm⟩ := Value.exists_ofDouble ((a.asNumber?.map fun n => n.clamp min max).getD d)
    obtain ⟨n, hn⟩ := Value.exists_ofDouble ((b.asNumber?.map fun n => n.clamp min max).getD d)
    obtain rfl : Value.number m = x := hm.symm.trans (Except.ok.inj hx)
    obtain rfl : Value.number n = y := hn.symm.trans (Except.ok.inj hy)
    exact Double.same_comm m.toDouble n.toDouble
  | text | select => exact sameText_comm x y
  | multiSelect => exact BEq.comm
  | date | time => exact compare_comm (fun p q => by simp only [eq_comm]) (sameText_comm x y)

/-- What is stored for two values that are equal is equal again, unless the control falls back for
one of them only and the default is not equal to what it stores for the other one. -/
theorem eq_accept_iff (h : role.IsAccepted) (hab : role.rule.eq a b = true)
    (hx : role.accept a = .ok x) (hy : role.accept b = .ok y) :
    role.rule.eq x y = true ↔ (role.FallsBackFor a ↔ role.FallsBackFor b) ∨
      role.rule.eq role.default x = true ∧ role.rule.eq role.default y = true := by
  -- What the control falls back to is its default, which is equal to itself.
  have hself := h.eq_default_self
  by_cases ha : role.FallsBackFor a
  · obtain rfl := Except.ok.inj ((accept_of_fallsBackFor ha).symm.trans hx)
    by_cases hb : role.FallsBackFor b
    · obtain rfl := Except.ok.inj ((accept_of_fallsBackFor hb).symm.trans hy)
      simp only [ha, hb, hself, true_or]
    · simp only [ha, hb, hself, true_iff, false_or, true_and]
  · by_cases hb : role.FallsBackFor b
    · obtain rfl := Except.ok.inj ((accept_of_fallsBackFor hb).symm.trans hy)
      simp only [ha, hb, hself, eq_comm_of_accept hx hy, iff_true, false_or, and_true]
    · simp only [ha, hb, eq_of_not_fallsBackFor ha hb hab hx hy, iff_self, true_or]

end Role

/-! ## Mounted controls -/

namespace Control

/-- What a control stores for two values that are equal is equal again, unless it falls back for one
of them only and its default is not equal to what it stores for the other one. A toggle or a slider
never does that. -/
theorem eq_stored_iff {c : Control} (hc : c.IsLive) {a b x y : Value}
    (hab : c.role.rule.eq a b = true) (hx : c.Stores a x) (hy : c.Stores b y) :
    (c.role.rule.eq x y = true ↔ (c.role.FallsBackFor a ↔ c.role.FallsBackFor b) ∨
        c.role.rule.eq c.role.default x = true ∧ c.role.rule.eq c.role.default y = true) ∧
      (c.role.rule = .bool ∨ c.role.rule = .number → c.role.rule.eq x y = true) := by
  rw [stores_iff hc.isMounted] at hx hy
  have hiff := Role.eq_accept_iff hc.role hab hx hy
  exact ⟨hiff, fun hrule => hiff.2 (.inl (Role.fallsBackFor_iff_of_eq hrule hab))⟩

/-- A date in the default format that shows nothing yet. -/
def blankDate : Control :=
  { type := .date, title := none, classes := [], alignRight := false,
    role := .date defaultDateFormat none none none, isMounted := true, current := .null }

theorem isLive_blankDate : blankDate.IsLive := by
  have hread : ({} : Parser).read "INPUT[date]" = .ok ⟨.date, [], false, none, none⟩ := by
    decide +kernel
  exact ⟨rfl, _, defaultDateFormat, ⟨{}, ⟨{}, [], rfl⟩, .inl ⟨_, hread⟩⟩, by decide +kernel⟩

/-- Two texts of one date are stored alike. -/
theorem eq_stored_iff_blankDate :
    blankDate.role.rule.eq (.string "2024-6-1") (.string " 2024-06-01") = true ∧
      blankDate.role.rule.eq (.string "2024-06-01") (.string "2024-06-01") = true := by
  have hab : blankDate.role.rule.eq (.string "2024-6-1") (.string " 2024-06-01") = true := by
    decide +kernel
  have hx : blankDate.Stores (.string "2024-6-1") (.string "2024-06-01") :=
    (stores_iff rfl).2 (by decide +kernel)
  have hy : blankDate.Stores (.string " 2024-06-01") (.string "2024-06-01") :=
    (stores_iff rfl).2 (by decide +kernel)
  have hneither : (Value.string "2024-6-1").asDate? defaultDateFormat ≠ none ∧
      (Value.string " 2024-06-01").asDate? defaultDateFormat ≠ none := by
    decide +kernel
  exact ⟨hab, (eq_stored_iff isLive_blankDate hab hx hy).1.2
    (.inl (iff_of_false hneither.1 hneither.2))⟩

/-- A date and a sequence of this one date are equal, but only the first of them is stored. -/
theorem exists_stored_ne :
    ¬ ∀ (c : Control) (a b x y : Value), c.IsLive → c.role.rule.eq a b = true → c.Stores a x →
      c.Stores b y → c.role.rule.eq x y = true := by
  intro hall
  have hequal := hall blankDate (.sequence [.string "2024-06-01"]) (.string "2024-06-01") .null
    (.string "2024-06-01") isLive_blankDate (by decide +kernel)
    ((stores_iff rfl).2 (by decide +kernel)) ((stores_iff rfl).2 (by decide +kernel))
  revert hequal
  decide +kernel

end Control

end BoundFields
