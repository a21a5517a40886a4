import BoundFields.Proofs.Control.Fallback
import BoundFields.Proofs.Metadata.Sameness

/-!
# Where the rules are equivalence relations

Every rule finds each value equal to itself, unless it is no number, and does so both ways round. A
value that is equal to an equal value is equal too under the rules for truth values, numbers, texts
and sets. Dates and times of day are compared by their short texts as soon as one of two values
cannot be read as one: if this is so for just one of three values, the other two are compared
otherwise than each of them with the third. The chain holds then exactly if these two are the same
both as dates and as texts (`EqualityRule.isEquivalenceOn_iff`).
-/

set_option autoImplicit false

namespace BoundFields

/-- A text is taken for finite numbers only. -/
theorem Value.isNaN_of_asNumber? {v : Value} {x : Double} (h : v.asNumber? = some x) :
    x.isNaN = v.isNaN := by
  cases v with
  | number n =>
    obtain rfl := Option.some.inj h
    rfl
  | string s => exact Double.isNaN_of_isFinite (Option.filter_eq_some_iff.1 h).2
  | null | bool | sequence | mapping | tagged => cases h

namespace EqualityRule

/-- What an equivalence relation asks of three values. -/
structure IsEquivalenceOn (rule : EqualityRule) (a b c : Value) : Prop where
  refl : rule.eq a a = true
  symm : rule.eq a b = true → rule.eq b a = true
  trans : rule.eq a b = true → rule.eq b c = true → rule.eq a c = true

/-- If `a` and `b` are taken for something and `c` is not, then `a` and `b` are taken for the same
and have the same short text. -/
def AgreeBeside {α : Type} (as? : Value → Option α) (a b c : Value) : Prop :=
  as? a ≠ none → as? b ≠ none → as? c = none → as? a = as? b ∧ a.display = b.display

/-- Whichever of three values is the one that is not taken for anything, the other two agree. -/
structure AgreeAllRound {α : Type} (as? : Value → Option α) (a b c : Value) : Prop where
  last : AgreeBeside as? a b c
  middle : AgreeBeside as? a c b
  first : AgreeBeside as? b c a

/-- Three values that the rule can compare in a chain. Only dates and times of day are compared in
two ways that do not go together. -/
def Coheres : EqualityRule → Value → Value → Value → Prop
  | .date format, a, b, c => AgreeAllRound (Value.asDate? format) a b c
  | .time, a, b, c => AgreeAllRound Value.asTime? a b c
  | .bool, _, _, _ | .number, _, _, _ | .text, _, _, _ | .set, _, _, _ => True

/-! ## Comparing what values are taken for -/

section Compare

variable {α : Type} {as? : Value → Option α} {eq : α → α → Bool}
  {otherwise : Value → Value → Bool} {a b c : Value}

theorem compare_symm (heq : ∀ x y, eq x y = eq y x)
    (hother : otherwise a b = true → otherwise b a = true)
    (h : compare as? eq otherwise a b = true) : compare as? eq otherwise b a = true := by
  unfold compare at h ⊢
  cases ha : as? a with
  | none =>
    rw [ha] at h
    cases hb : as? b <;> exact hother h
  | some x =>
    cases hb : as? b with
    | none =>
      rw [ha, hb] at h
      exact hother h
    | some y =>
      rw [ha, hb] at h
      exact (heq y x).trans h

/-- Where values that are otherwise equal are either both taken for something or neither, a chain of
comparisons is made in one way all along. -/
theorem compare_trans (hnone : ∀ v w, otherwise v w = true → (as? v = none ↔ as? w = none))
    (heq : ∀ x y z, eq x y = true → eq y z = true → eq x z = true)
    (hother : otherwise a b = true → otherwise b c = true → otherwise a c = true)
    (hab : compare as? eq otherwise a b = true) (hbc : compare as? eq otherwise b c = true) :
    compare as? eq otherwise a c = true := by
  have hab_none := as?_eq_none_iff_of_compare (hnone a b) hab
  have hbc_none := as?_eq_none_iff_of_compare (hnone b c) hbc
  by_cases hb : as? b = none
  · rw [compare_of_none (.inr hb)] at hab
    rw [compare_of_none (.inl hb)] at hbc
    rw [compare_of_none (.inl (hab_none.2 hb))]
    exact hother hab hbc
  · obtain ⟨x, y, hx, hy, hxy⟩ := exists_eq_of_compare (fun ha => hb (hab_none.1 ha)) hb hab
    obtain ⟨y', z, hy', hz, hyz⟩ := exists_eq_of_compare hb (fun hc => hb (hbc_none.2 hc)) hbc
    obtain rfl := Option.some.inj (hy.symm.trans hy')
    rw [compare_of_some hx hz]
    exact heq x y z hxy hyz

/-! ### Falling back on short texts -/

variable [DecidableEq α]

/-- Two values that are taken for something agree if they are equal and both of them are equal to
one that is not. -/
theorem agreeBeside_of_compare (hab : compare as? (fun x y => decide (x = y)) sameText a b = true)
    (hac : compare as? (fun x y => decide (x = y)) sameText a c = true)
    (hbc : compare as? (fun x y => decide (x = y)) sameText b c = true) :
    AgreeBeside as? a b c := by
  intro ha hb hc
  obtain ⟨x, y, hx, hy, hxy⟩ := exists_eq_of_compare ha hb hab
  rw [compare_of_none (.inr hc), sameText_iff] at hac hbc
  rw [hx, hy, of_decide_eq_true hxy]
  exact ⟨rfl, hac.trans hbc.symm⟩

/-- A chain of comparisons holds exactly if the values agree all round. -/
theorem compare_trans_iff (hab : compare as? (fun x y => decide (x = y)) sameText a b = true)
    (hbc : compare as? (fun x y => decide (x = y)) sameText b c = true) :
    compare as? (fun x y => decide (x = y)) sameText a c = true ↔ AgreeAllRound as? a b c := by
  have hsymm {v w : Value} (h : compare as? (fun x y => decide (x = y)) sameText v w = true) :
      compare as? (fun x y => decide (x = y)) sameText w v = true :=
    compare_symm (fun x y => by simp only [eq_comm]) (sameText_comm v w ▸ id) h
  constructor
  · intro hac
    exact ⟨agreeBeside_of_compare hab hac hbc, agreeBeside_of_compare hac hab (hsymm hbc),
      agreeBeside_of_compare hbc (hsymm hab) (hsymm hac)⟩
  · rintro ⟨hlast, hmiddle, hfirst⟩
    by_cases hb : as? b = none
    · -- All three have the short text of `b`.
      rw [compare_of_none (.inr hb), sameText_iff] at hab
      rw [compare_of_none (.inl hb), sameText_iff] at hbc
      by_cases hac : as? a = none ∨ as? c = none
      · rw [compare_of_none hac, sameText_iff]
        exact hab.trans hbc
      · rw [not_or] at hac
        obtain ⟨x, hx⟩ := Option.ne_none_iff_exists'.1 hac.1
        rw [compare_of_some hx ((hmiddle hac.1 hac.2 hb).1 ▸ hx), decide_eq_true rfl]
    · by_cases ha : as? a = none
      · rw [compare_of_none (.inl ha), sameText_iff] at hab ⊢
        by_cases hc : as? c = none
        · rw [compare_of_none (.inr hc), sameText_iff] at hbc
          exact hab.trans hbc
        · exact hab.trans (hfirst hb hc ha).2
      · obtain ⟨x, y, hx, hy, hxy⟩ := exists_eq_of_compare ha hb hab
        by_cases hc : as? c = none
        · rw [compare_of_none (.inr hc), sameText_iff] at hbc ⊢
          exact (hlast ha hb hc).2.trans hbc
        · obtain ⟨y', z, hy', hz, hyz⟩ := exists_eq_of_compare hb hc hbc
          obtain rfl := Option.some.inj (hy.symm.trans hy')
          rw [compare_of_some hx hz, of_decide_eq_true hxy]
          exact hyz

end Compare

/-! ## The rules -/

variable {rule : EqualityRule} {a b c : Value}

/-- Every rule finds a value equal to itself, unless that is no number. -/
theorem eq_self (rule : EqualityRule) {v : Value} (hkeys : v.HasDistinctKeys)
    (hnumber : v.isNaN = false) : rule.eq v v = true := by
  have hsame := Value.same_self hkeys
  cases rule with
  | bool =>
    show compare Value.asBool? (· == ·) Value.same v v = true
    cases hb : v.asBool? with
    | none => rw [compare_of_none (.inl hb), hsame]
    | some b => rw [compare_of_some hb hb, beq_self_eq_true]
  | number =>
    show compare Value.asNumber? Double.same Value.same v v = true
    cases hx : v.asNumber? with
    | none => rw [compare_of_none (.inl hx), hsame]
    | some x =>
      rw [compare_of_some hx hx, Double.same_self ((Value.isNaN_of_asNumber? hx).trans hnumber)]
  | text => exact sameText_iff.2 rfl
  | set => exact beq_self_eq_true _
  | date format => exact compare_self (Value.asDate? format) v
  | time => exact compare_self Value.asTime? v

theorem eq_symm (hkeys : a.HasDistinctKeys) (h : rule.eq a b = true) : rule.eq b a = true := by
  cases rule with
  | bool => exact compare_symm (fun x y => Bool.beq_comm) (Value.same_symm hkeys) h
  | number => exact compare_symm Double.same_comm (Value.same_symm hkeys) h
  | text => exact (sameText_comm b a).trans h
  | set => exact beq_iff_eq.2 (beq_iff_eq.1 h).symm
  | date | time =>
    exact compare_symm (fun x y => by simp only [eq_comm]) (sameText_comm a b ▸ id) h

/-- Values that are equal in a chain are equal exactly if the rule can compare them so. -/
theorem eq_trans_iff (hkeys : a.HasDistinctKeys) (hab : rule.eq a b = true)
    (hbc : rule.eq b c = true) : rule.eq a c = true ↔ rule.Coheres a b c := by
  cases rule with
  | bool =>
    refine iff_of_true (compare_trans (fun v w => Value.asBool?_eq_none_of_same) ?_
      (Value.same_trans hkeys) hab hbc) trivial
    intro x y z hxy hyz
    exact beq_iff_eq.2 ((beq_iff_eq.1 hxy).trans (beq_iff_eq.1 hyz))
  | number =>
    exact iff_of_true (compare_trans (fun v w => Value.asNumber?_eq_none_of_same)
      (fun x y z => Double.same_trans) (Value.same_trans hkeys) hab hbc) trivial
  | text =>
    have hshown := (sameText_iff.1 hab).trans (sameText_iff.1 hbc)
    exact iff_of_true (sameText_iff.2 hshown) trivial
  | set =>
    exact iff_of_true (beq_iff_eq.2 ((beq_iff_eq.1 hab).trans (beq_iff_eq.1 hbc))) trivial
  | date format => exact compare_trans_iff hab hbc
  | time => exact compare_trans_iff hab hbc

/-- On values without double keys that are not NaN, every rule is an equivalence relation but for
chains of dates or times of day that do not cohere. Nothing is asked of the second and the third
value. -/
theorem isEquivalenceOn_iff (rule : EqualityRule) {a : Value} (hkeys : a.HasDistinctKeys)
    (hnumber : a.isNaN = false) (b c : Value) :
    rule.IsEquivalenceOn a b c ↔
      (rule.eq a b = true → rule.eq b c = true → rule.Coheres a b c) := by
  constructor
  · intro h hab hbc
    exact (eq_trans_iff hkeys hab hbc).1 (h.trans hab hbc)
  · intro h
    exact ⟨eq_self rule hkeys hnumber, eq_symm hkeys,
      fun hab hbc => (eq_trans_iff hkeys hab hbc).2 (h hab hbc)⟩

/-- Three texts of one date. -/
theorem isEquivalenceOn_dateTexts :
    (Value.string "2024-6-1").HasDistinctKeys ∧ (Value.string "2024-6-1").isNaN = false ∧
      (date defaultDateFormat).IsEquivalenceOn (.string "2024-6-1") (.string "2024-06-01")
        (.string " 2024-06-01") := by
  have hdates : (Value.string "2024-6-1").asDate? defaultDateFormat ≠ none ∧
      (Value.string "2024-06-01").asDate? defaultDateFormat ≠ none ∧
      (Value.string " 2024-06-01").asDate? defaultDateFormat ≠ none := by
    decide +kernel
  obtain ⟨ha, hb, hc⟩ := hdates
  refine ⟨.string _, rfl, (isEquivalenceOn_iff _ (.string _) rfl _ _).2 fun _ _ => ?_⟩
  exact ⟨fun _ _ h => absurd h hc, fun _ _ h => absurd h hb, fun _ _ h => absurd h ha⟩

/-- A date written in two ways, and a sequence with one of these texts: the ends of the chain are
not equal. -/
theorem date_eq_not_trans :
    (date defaultDateFormat).eq (.string "2024-6-1") (.string "2024-06-01") = true ∧
      (date defaultDateFormat).eq (.string "2024-06-01") (.sequence [.string "2024-06-01"]) =
        true ∧
      (date defaultDateFormat).eq (.string "2024-6-1") (.sequence [.string "2024-06-01"]) =
        false := by
  decide +kernel

end EqualityRule

end BoundFields
