import BoundFields.Proofs.Calendar.Written
import BoundFields.Proofs.Control.NormalForm

/-!
# Comparing what controls store

The rule of a control finds a value that the control stored equal to itself, unless it is no number
(`Role.eq_self_of_accept`), and finds equal to it what is equal to a value that it takes for the
same (`Role.eq_of_eq_of_accept`).
-/

set_option autoImplicit false

namespace BoundFields

open Text

/-- A number that is not one, which no rule for numbers finds equal to itself. -/
def Value.isNaN : Value → Bool
  | .number n => n.toDouble.isNaN
  | _ => false

theorem Value.exists_ofDouble (d : Double) : ∃ n, Value.ofDouble d = .number n := by
  unfold Value.ofDouble
  split
  · split
    · exact ⟨_, rfl⟩
    · exact ⟨_, rfl⟩
  · exact ⟨_, rfl⟩

namespace EqualityRule

theorem sameText_iff {a b : Value} : sameText a b = true ↔ a.display = b.display := by
  unfold sameText
  exact beq_iff_eq

theorem sameText_comm (a b : Value) : sameText a b = sameText b a := by
  unfold sameText
  exact BEq.comm

theorem compare_of_some {α : Type} {as? : Value → Option α} {eq : α → α → Bool}
    {otherwise : Value → Value → Bool} {a b : Value} {x y : α} (hx : as? a = some x)
    (hy : as? b = some y) : compare as? eq otherwise a b = eq x y := by
  unfold compare
  rw [hx, hy]

theorem compare_of_none {α : Type} {as? : Value → Option α} {eq : α → α → Bool}
    {otherwise : Value → Value → Bool} {a b : Value} (h : as? a = none ∨ as? b = none) :
    compare as? eq otherwise a b = otherwise a b := by
  unfold compare
  rcases h with ha | hb
  · rw [ha]
  · rw [hb]
    cases as? a <;> rfl

/-- What is compared by what values are taken for, or else by their texts, is equal to itself. -/
theorem compare_self {α : Type} [DecidableEq α] (as? : Value → Option α) (a : Value) :
    compare as? (fun x y => decide (x = y)) sameText a a = true := by
  cases ha : as? a with
  | none => rw [compare_of_none (.inl ha), sameText_iff]
  | some x => rw [compare_of_some ha ha, decide_eq_true rfl]

end EqualityRule

namespace Role

/-- What a control stores is equal to itself, unless it is no number. -/
theorem eq_self_of_accept {role : Role} {v w : Value} (h : role.accept v = .ok w)
    (hnumber : w.isNaN = false) : role.rule.eq w w = true := by
  cases role with
  | toggle b =>
    obtain rfl := Except.ok.inj h
    show (v.asBool?.getD b == v.asBool?.getD b) = true
    exact beq_self_eq_true _
  | slider min max step d =>
    obtain rfl := Except.ok.inj h
    obtain ⟨n, hn⟩ := Value.exists_ofDouble ((v.asNumber?.map fun n => n.clamp min max).getD d)
    rw [hn] at hnumber ⊢
    show Double.same n.toDouble n.toDouble = true
    exact Double.same_self hnumber
  | text | select => exact EqualityRule.sameText_iff.2 rfl
  | multiSelect => exact beq_self_eq_true _
  | date format min max d => exact EqualityRule.compare_self (Value.asDate? format) w
  | time t => exact EqualityRule.compare_self Value.asTime? w

/-! ## Values that are taken for the same -/

/-- A date control stores the text of a date that is read back from it, or nothing. -/
theorem date_of_accept {format : String} {min max : Option Date} {default : Option String}
    (hdefault : (Role.date format min max default).KeepsDefault) (hdates : RereadsDates format)
    {v w : Value} (h : (Role.date format min max default).accept v = .ok w) :
    w = .null ∨ ∃ d s, w = .string s ∧ w.asDate? format = some d ∧ d.write? format = some s := by
  unfold accept at h
  simp only at h
  split at h
  · next d hd =>
    obtain ⟨text, htext, rfl⟩ := Outcome.map_eq_ok_iff.1 h
    obtain ⟨s, -, hread⟩ := Option.bind_eq_some_iff.1 hd
    have hwrite := writeDate_eq_ok_iff.1 htext
    refine .inr ⟨d, text, rfl, ?_, hwrite⟩
    rw [Value.asDate?_string]
    exact hdates s.toList d text hread hwrite
  · obtain rfl := Except.ok.inj h
    cases default with
    | none => exact .inl rfl
    | some s =>
      obtain ⟨d, hread, hwrite⟩ := hdefault
      exact .inr ⟨d, s, rfl, (Value.asDate?_string format s).trans hread, hwrite⟩

/-- A time control stores a time of day. -/
theorem time_of_accept {default : TimeOfDay} (hdefault : (Role.time default).KeepsDefault)
    {v w : Value} (h : (Role.time default).accept v = .ok w) :
    ∃ t : TimeOfDay, w = .string t.write ∧ w.asTime? = some t := by
  obtain rfl := Except.ok.inj h
  have hday : (v.asTime?.getD default).IsOfDay := by
    cases htime : v.asTime? with
    | none => exact hdefault
    | some t =>
      obtain ⟨s, -, hread⟩ := Option.bind_eq_some_iff.1 htime
      exact TimeOfDay.isOfDay_of_read? hread
  refine ⟨_, rfl, ?_⟩
  rw [Value.asTime?_string]
  exact TimeOfDay.read?_write hday

/-- The text of a date is not empty, so that it is not taken for a missing one. -/
theorem not_sameText_null_of_asDate? {format s : String} {d : Date}
    (h : (Value.string s).asDate? format = some d) :
    EqualityRule.sameText (.string s) .null = false := by
  rw [← Bool.not_eq_true, EqualityRule.sameText_iff, Value.display_string]
  intro hempty
  have hnull : Value.null.display = "" := by
    unfold Value.display
    rfl
  rw [hnull] at hempty
  rw [hempty, Value.asDate?_string] at h
  exact absurd (h.symm.trans (Date.read?_nil format)) (by simp)

/-- Two values of a control that its rule finds equal are one value, unless they are numbers, texts
or sets. -/
theorem eq_of_rule_eq {role : Role} (hdefault : role.KeepsDefault)
    (hdates : role.RereadsItsDates) {v v' a b : Value} (ha : role.accept v = .ok a)
    (hb : role.accept v' = .ok b) (hab : role.rule.eq a b = true) :
    a = b ∨ role.rule = .number ∨ role.rule = .text ∨ role.rule = .set := by
  cases role with
  | slider => exact .inr (.inl rfl)
  | text | select => exact .inr (.inr (.inl rfl))
  | multiSelect => exact .inr (.inr (.inr rfl))
  | toggle d =>
    obtain rfl := Except.ok.inj ha
    obtain rfl := Except.ok.inj hb
    have hsame : (v.asBool?.getD d == v'.asBool?.getD d) = true := hab
    exact .inl (congrArg Value.bool (beq_iff_eq.1 hsame))
  | date format min max default =>
    refine .inl ?_
    have hrule : EqualityRule.compare (Value.asDate? format) (fun x y => decide (x = y))
      EqualityRule.sameText a b = true := hab
    rcases date_of_accept hdefault hdates ha with rfl | ⟨d, s, rfl, hd, hs⟩
    · rcases date_of_accept hdefault hdates hb with rfl | ⟨d', s', rfl, hd', hs'⟩
      · rfl
      · rw [EqualityRule.compare_of_none (.inl rfl), EqualityRule.sameText_comm,
          not_sameText_null_of_asDate? hd'] at hrule
        cases hrule
    · rcases date_of_accept hdefault hdates hb with rfl | ⟨d', s', rfl, hd', hs'⟩
      · rw [EqualityRule.compare_of_none (.inr rfl), not_sameText_null_of_asDate? hd] at hrule
        cases hrule
      · rw [EqualityRule.compare_of_some hd hd', decide_eq_true_eq] at hrule
        rw [← hrule, hs] at hs'
        exact congrArg Value.string (Option.some.inj hs')
  | time default =>
    refine .inl ?_
    have hrule : EqualityRule.compare Value.asTime? (fun x y => decide (x = y))
      EqualityRule.sameText a b = true := hab
    obtain ⟨t, rfl, ht⟩ := time_of_accept hdefault ha
    obtain ⟨t', rfl, ht'⟩ := time_of_accept hdefault hb
    rw [EqualityRule.compare_of_some ht ht', decide_eq_true_eq] at hrule
    rw [hrule]

/-- What is equal to one of two values of a control is equal to the other one, if the rule of the
control finds these equal. -/
theorem eq_of_eq_of_accept {role : Role} (hdefault : role.KeepsDefault)
    (hdates : role.RereadsItsDates) {v v' a b x : Value} (ha : role.accept v = .ok a)
    (hb : role.accept v' = .ok b) (hab : role.rule.eq a b = true) (hbx : role.rule.eq b x = true) :
    role.rule.eq a x = true := by
  rcases eq_of_rule_eq hdefault hdates ha hb hab with rfl | hnumber | htext | hset
  · exact hbx
  · cases role with
    | slider min max step d =>
      obtain ⟨n, hn⟩ := Value.exists_ofDouble ((v.asNumber?.map fun n => n.clamp min max).getD d)
      obtain ⟨n', hn'⟩ :=
        Value.exists_ofDouble ((v'.asNumber?.map fun n => n.clamp min max).getD d)
      obtain rfl : Value.number n = a := hn.symm.trans (Except.ok.inj ha)
      obtain rfl : Value.number n' = b := hn'.symm.trans (Except.ok.inj hb)
      have hsame : n.toDouble.same n'.toDouble = true := hab
      have hrule : EqualityRule.compare Value.asNumber? Double.same Value.same (.number n') x =
        true := hbx
      show EqualityRule.compare Value.asNumber? Double.same Value.same (.number n) x = true
      cases hx : x.asNumber? with
      | some y =>
        have hn : (Value.number n).asNumber? = some n.toDouble := rfl
        have hn' : (Value.number n').asNumber? = some n'.toDouble := rfl
        rw [EqualityRule.compare_of_some hn' hx] at hrule
        rw [EqualityRule.compare_of_some hn hx]
        exact Double.same_trans hsame hrule
      | none =>
        -- A number is never the same as what is not taken for one.
        rw [EqualityRule.compare_of_none (.inr hx)] at hrule
        cases x with
        | number => cases hx
        | _ => simp [Value.same] at hrule
    | _ => cases hnumber
  · rw [htext] at hab hbx ⊢
    have hshown := (EqualityRule.sameText_iff.1 hab).trans (EqualityRule.sameText_iff.1 hbx)
    exact EqualityRule.sameText_iff.2 hshown
  · rw [hset] at hab hbx ⊢
    exact beq_iff_eq.2 ((beq_iff_eq.1 hab).trans (beq_iff_eq.1 hbx))

end Role

end BoundFields
