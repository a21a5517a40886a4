import BoundFields.Control.Basic
import BoundFields.Proofs.Calendar.Written
import BoundFields.Proofs.Number.Whole
import BoundFields.Proofs.Declaration.Accepted

/-!
# The roles of declarations

What a control does is told by the type of its declaration and by the default value that is given
(`Role.IsMadeFrom`). A declaration of a valid type has a role wherever its format writes the dates
that it reads (`Role.exists_ofDeclaration`). The slider of an accepted declaration has the range
that is asked for, and a default in it (`Role.between_slider`).
-/

set_option autoImplicit false

namespace BoundFields

open Text

theorem writeDate_eq_ok_iff {format text : String} {d : Date} :
    writeDate format d = .ok text ↔ d.write? format = some text := by
  unfold writeDate
  cases d.write? format with
  | none => simp
  | some written => simp

namespace Role

/-- The roles that a declaration can have, by its type. A date that is given as the default is
written in the format, and one that cannot be read is none. -/
inductive IsMadeFrom (d : Declaration) (format : String) : Role → Prop
  | toggle (type : d.fieldType = .toggle) :
      IsMadeFrom d format (.toggle
        (((d.givenText? .defaultValue).bind fun raw => (Value.string raw).asBool?).getD false))
  | slider {min max : Double} (type : d.fieldType = .slider)
      (hmin : (d.number? .minValue).getD Double.zero = min)
      (hmax : (d.number? .maxValue).getD (Double.ofInt 100) = max) :
      IsMadeFrom d format (.slider min max ((d.number? .step).getD (Double.ofInt 1))
        ((((d.givenText? .defaultValue).bind fun raw => Double.read? (trim raw.toList)).map
          fun n => n.clamp min max).getD min))
  | text (type : d.fieldType = .text ∨ d.fieldType = .textArea) :
      IsMadeFrom d format
        (.text (d.givenText? .placeholder) ((d.givenText? .defaultValue).getD ""))
  | select (type : d.fieldType = .select) :
      IsMadeFrom d format
        (.select d.options (((d.givenText? .defaultValue).or d.options.head?).getD ""))
  | multiSelect (type : d.fieldType = .multiSelect) :
      IsMadeFrom d format
        (.multiSelect d.options (((d.givenText? .defaultValue).map commaItems).getD []))
  | noDate (type : d.fieldType = .date ∨ d.fieldType = .datePicker)
      (unread : ∀ raw, d.givenText? .defaultValue = some raw →
        Date.read? format (trim raw.toList) = none) :
      IsMadeFrom d format (.date format (d.givenDate? .minDate) (d.givenDate? .maxDate) none)
  | date {raw text : String} {day : Date} (type : d.fieldType = .date ∨ d.fieldType = .datePicker)
      (given : d.givenText? .defaultValue = some raw)
      (read : Date.read? format (trim raw.toList) = some day)
      (written : day.write? format = some text) :
      IsMadeFrom d format (.date format (d.givenDate? .minDate) (d.givenDate? .maxDate) (some text))
  | time (type : d.fieldType = .time) :
      IsMadeFrom d format (.time (((d.givenText? .defaultValue).bind fun raw =>
        TimeOfDay.read? (trim raw.toList)).getD ⟨0, 0⟩))

section Made

variable {d : Declaration} {format : String} {role : Role}

theorem ofDeclaration_of_isMadeFrom (h : role.IsMadeFrom d format) :
    Role.ofDeclaration d format = .ok role := by
  unfold Role.ofDeclaration
  cases h with
  | toggle type | select type | multiSelect type | time type => simp only [type]
  | slider type hmin hmax => simp only [type, hmin, hmax]
  | text type => rcases type with type | type <;> simp only [type]
  | noDate type unread =>
    rcases type with type | type <;>
      simp only [type, Option.bind_eq_none_iff.2 unread, Option.mapM_none] <;> rfl
  | date type given read written =>
    rcases type with type | type <;>
      simp only [type, given, Option.bind_some, read, Option.mapM_some,
        writeDate_eq_ok_iff.2 written] <;> rfl

/-- A date control is only made if its default can be written. -/
theorem isMadeFrom_date (type : d.fieldType = .date ∨ d.fieldType = .datePicker)
    (h : Role.ofDeclaration d format = .ok role) : role.IsMadeFrom d format := by
  have hmade : (do
      let default ← ((d.givenText? .defaultValue).bind fun raw =>
        Date.read? format (trim raw.toList)).mapM (writeDate format)
      return Role.date format (d.givenDate? .minDate) (d.givenDate? .maxDate) default) =
        Except.ok role := by
    rw [← h]
    unfold Role.ofDeclaration
    rcases type with type | type <;> rw [type]
  obtain ⟨default, hdefault, hpure⟩ := Outcome.bind_eq_ok_iff.1 hmade
  obtain rfl := Except.ok.inj hpure
  cases hgiven : (d.givenText? .defaultValue).bind
      fun raw => Date.read? format (trim raw.toList) with
  | none =>
    rw [hgiven] at hdefault
    obtain rfl := Except.ok.inj hdefault
    exact .noDate type (Option.bind_eq_none_iff.1 hgiven)
  | some day =>
    rw [hgiven] at hdefault
    obtain ⟨text, htext, rfl⟩ := Outcome.map_eq_ok_iff.1 hdefault
    obtain ⟨raw, hraw, hread⟩ := Option.bind_eq_some_iff.1 hgiven
    exact .date type hraw hread (writeDate_eq_ok_iff.1 htext)

theorem isMadeFrom_of_ofDeclaration (h : Role.ofDeclaration d format = .ok role) :
    role.IsMadeFrom d format := by
  -- There is one role only, so that it is enough to find one that the declaration makes.
  have hsame {made : Role} (hmade : made.IsMadeFrom d format) : role.IsMadeFrom d format := by
    rw [← Except.ok.inj ((ofDeclaration_of_isMadeFrom hmade).symm.trans h)]
    exact hmade
  cases type : d.fieldType with
  | toggle => exact hsame (.toggle type)
  | slider => exact hsame (.slider type rfl rfl)
  | text => exact hsame (.text (.inl type))
  | textArea => exact hsame (.text (.inr type))
  | select => exact hsame (.select type)
  | multiSelect => exact hsame (.multiSelect type)
  | date => exact isMadeFrom_date (.inl type) h
  | datePicker => exact isMadeFrom_date (.inr type) h
  | time => exact hsame (.time type)
  | invalid =>
    unfold Role.ofDeclaration at h
    rw [type] at h
    cases h

/-- A declaration has a role if its format writes the dates that it reads. -/
theorem exists_ofDeclaration (hwrites : WritesItsDates format) (hvalid : d.fieldType ≠ .invalid) :
    ∃ role, Role.ofDeclaration d format = .ok role := by
  suffices hmade : ∃ role, IsMadeFrom d format role from
    hmade.imp fun _ => ofDeclaration_of_isMadeFrom
  have hdate (type : d.fieldType = .date ∨ d.fieldType = .datePicker) :
      ∃ role, IsMadeFrom d format role := by
    cases hgiven : (d.givenText? .defaultValue).bind
        fun raw => Date.read? format (trim raw.toList) with
    | none => exact ⟨_, .noDate type (Option.bind_eq_none_iff.1 hgiven)⟩
    | some day =>
      obtain ⟨raw, hraw, hread⟩ := Option.bind_eq_some_iff.1 hgiven
      obtain ⟨text, htext⟩ := hwrites raw.toList day hread
      exact ⟨_, .date type hraw hread htext⟩
  cases type : d.fieldType with
  | toggle => exact ⟨_, .toggle type⟩
  | slider => exact ⟨_, .slider type rfl rfl⟩
  | text => exact ⟨_, .text (.inl type)⟩
  | textArea => exact ⟨_, .text (.inr type)⟩
  | select => exact ⟨_, .select type⟩
  | multiSelect => exact ⟨_, .multiSelect type⟩
  | date => exact hdate (.inl type)
  | datePicker => exact hdate (.inr type)
  | time => exact ⟨_, .time type⟩
  | invalid => exact absurd type hvalid

/-- The range of a slider is the one that its declaration asks for. -/
theorem IsMadeFrom.hasRange (hread : ∀ a ∈ d.arguments, ∃ own, a.IsReadIn own)
    (hinOrder : d.IsInOrder) {min max step default : Double}
    (h : (Role.slider min max step default).IsMadeFrom d format) : d.HasRange min max := by
  cases h with
  | slider type hmin hmax =>
    obtain ⟨low, high, hrange⟩ := Declaration.exists_hasRange hread hinOrder type
    rw [hrange.minValue] at hmin
    rw [hrange.maxValue] at hmax
    obtain rfl : low = min := hmin
    obtain rfl : high = max := hmax
    exact hrange

/-- The slider of an accepted declaration starts with a number in its range. -/
theorem between_slider (hd : d.IsAccepted) {min max step default : Double}
    (h : (slider min max step default).IsMadeFrom d format) :
    d.HasRange min max ∧ min.le default = true ∧ default.le max = true := by
  have hrange := h.hasRange hd.exists_isReadIn hd.isInOrder
  refine ⟨hrange, ?_⟩
  cases h with
  | slider type =>
    cases hgiven : d.givenText? .defaultValue with
    | none =>
      have hnumber := (Double.isNaN_of_le hrange.isInOrder).1
      exact ⟨Double.le_self hnumber, hrange.isInOrder⟩
    | some raw =>
      obtain ⟨n, hn, hle, -⟩ := hd.between_default type hrange hgiven
      simp only [Option.bind_some, hn, Option.map_some, Option.getD_some]
      exact Double.between_clamp (Double.isNaN_of_le hle).2 hrange.isInOrder

end Made

end Role

end BoundFields
