import BoundFields.Proofs.Control.Equality

/-!
# Controls of accepted declarations

A control that is built from an accepted declaration has a default that it stores as it is
(`Role.IsAccepted.keepsDefault`) and that its rule finds equal to itself
(`Role.IsAccepted.eq_default_self`): the check on the default of a slider lets only a number between
its bounds pass, which leaves out what is no number.
-/

set_option autoImplicit false

namespace BoundFields

open Text

/-- The value of a number is the same number, also where it is held as an integer. -/
theorem Value.exists_same_ofDouble {d : Double} (h : d.isNaN = false) :
    ∃ n, Value.ofDouble d = .number n ∧ n.toDouble.same d = true := by
  have hself := Double.same_self h
  unfold Value.ofDouble
  split
  · next n hn =>
    split
    · exact ⟨_, rfl, Double.same_ofInt hn⟩
    · exact ⟨_, rfl, hself⟩
  · exact ⟨_, rfl, hself⟩

theorem Value.isNaN_ofDouble {d : Double} (h : d.isNaN = false) :
    (Value.ofDouble d).isNaN = false := by
  obtain ⟨n, hn, hsame⟩ := Value.exists_same_ofDouble h
  rw [hn]
  exact (Double.isNaN_of_le (Bool.and_eq_true_iff.1 hsame).1).1

namespace Role

/-- The role of a control that is built from an accepted declaration, in whatever date format. -/
def IsAccepted (role : Role) : Prop :=
  ∃ d format, d.IsAccepted ∧ Role.ofDeclaration d format = .ok role

variable {role : Role}

theorem IsAccepted.keepsDefault (h : role.IsAccepted) (hdates : role.RereadsItsDates) :
    role.KeepsDefault := by
  obtain ⟨d, format, hd, hrole⟩ := h
  exact keepsDefault_ofDeclaration hd hrole hdates

theorem IsAccepted.isNaN_default (h : role.IsAccepted) : role.default.isNaN = false := by
  obtain ⟨d, format, hd, hrole⟩ := h
  have hmade := isMadeFrom_of_ofDeclaration hrole
  cases isMadeFrom_of_ofDeclaration hrole with
  | toggle | text | select | multiSelect | noDate | date | time => rfl
  | slider =>
    obtain ⟨-, hlow, -⟩ := between_slider hd hmade
    exact Value.isNaN_ofDouble (Double.isNaN_of_le hlow).2

/-- The default is equal to itself. -/
theorem IsAccepted.eq_default_self (h : role.IsAccepted) :
    role.rule.eq role.default role.default = true :=
  eq_self_of_accept (accept_null role) h.isNaN_default

end Role

/-- A mounted control that was built from an accepted declaration. -/
structure Control.IsLive (c : Control) : Prop where
  isMounted : c.isMounted = true
  role : c.role.IsAccepted

end BoundFields
