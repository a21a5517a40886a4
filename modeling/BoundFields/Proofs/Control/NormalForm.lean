import BoundFields.Proofs.Calendar.Iso
import BoundFields.Proofs.Control.Role

/-!
# Stored values are in normal form

A control stores a value of its own kind, and what it stores it stores again as it is
(`Role.storesNormalForms`). This rests on the default of the control being such a value, which the
checks on declarations see to (`Role.keepsDefault_ofDeclaration`), and for dates on the format: it
has to read the dates back that it writes (`RereadsDates`).
-/

set_option autoImplicit false

namespace BoundFields

open Text

/-- A format reads the dates that it has read back from the text that it writes for them. Texts are
read as controls read them, without the blanks at their ends. -/
def RereadsDates (format : String) : Prop :=
  ∀ (cs : List Char) (d : Date) (text : String), Date.read? format (trim cs) = some d →
    d.write? format = some text → Date.read? format (trim text.toList) = some d

/-- The default format is such a format. -/
theorem rereadsDates_default : RereadsDates defaultDateFormat := by
  intro cs d text hread hwrite
  exact Date.read?_write?_default (Date.isDay_of_read? hread) hwrite

theorem Value.display_string (s : String) : (Value.string s).display = s := by
  unfold Value.display
  rfl

theorem Value.map_display_string (items : List String) :
    (items.map Value.string).map Value.display = items := by
  rw [List.map_map]
  exact (List.map_congr_left fun s _ => Value.display_string s).trans (List.map_id' items)

theorem Value.asDate?_string (format s : String) :
    (Value.string s).asDate? format = Date.read? format (trim s.toList) := by
  simp only [asDate?, untagged, text?, Option.bind_some]

theorem Value.asTime?_string (s : String) :
    (Value.string s).asTime? = TimeOfDay.read? (trim s.toList) := by
  simp only [asTime?, untagged, text?, Option.bind_some]

/-! ## Mounted controls -/

namespace Control

/-- A mounted control stores what its role accepts. -/
theorem set_of_isMounted {c : Control} (h : c.isMounted = true) (v : Value) :
    c.set v = (c.role.accept v).map fun stored => { c with current := stored } := by
  unfold set
  cases c.role.accept v with
  | error fault => rfl
  | ok stored => exact if_pos h

theorem value_of_isMounted {c : Control} (h : c.isMounted = true) : c.value = .ok c.current :=
  if_pos h

/-- The control has the value `w` once it was given `v`. -/
def Stores (c : Control) (v w : Value) : Prop := ∃ set, c.set v = .ok set ∧ set.value = .ok w

theorem stores_iff {c : Control} (h : c.isMounted = true) {v w : Value} :
    c.Stores v w ↔ c.role.accept v = .ok w := by
  unfold Stores
  rw [set_of_isMounted h]
  constructor
  · rintro ⟨set, hset, hvalue⟩
    obtain ⟨stored, haccept, rfl⟩ := Outcome.map_eq_ok_iff.1 hset
    have hstored : ({ c with current := stored } : Control).value = .ok stored :=
      value_of_isMounted h
    rw [haccept, Except.ok.inj (hstored.symm.trans hvalue)]
  · intro haccept
    exact ⟨_, Outcome.map_eq_ok_iff.2 ⟨w, haccept, rfl⟩, value_of_isMounted h⟩

end Control

/-! ## Values that are kept -/

namespace Role

/-- The default is a value that the control would store. -/
def KeepsDefault : Role → Prop
  | .slider min max _ d => d.clamp min max = d
  | .date format _ _ (some s) =>
      ∃ d, Date.read? format (trim s.toList) = some d ∧ d.write? format = some s
  | .time t => t.IsOfDay
  | .toggle _ | .text .. | .select .. | .multiSelect .. | .date _ _ _ none => True

/-- The format of a date control reads its own dates back. -/
def RereadsItsDates : Role → Prop
  | .date format .. => RereadsDates format
  | _ => True

/-! ## Numbers -/

/-- A number in the range of a slider is kept by it. -/
theorem accept_ofDouble {min max step d x : Double} (hx : x.clamp min max = x) :
    (slider min max step d).accept (.ofDouble x) = .ok (.ofDouble x) := by
  have hfloat : (slider min max step d).accept (.number (.float x)) = .ok (.ofDouble x) := by
    simp only [accept, Value.asNumber?, Number.toDouble, Option.map_some, Option.getD_some, hx]
  cases hint : x.toInt? with
  | none =>
    have hof : Value.ofDouble x = .number (.float x) := by
      unfold Value.ofDouble
      rw [hint]
    rw [hof] at hfloat ⊢
    exact hfloat
  | some n =>
    by_cases hsmall : n.natAbs < twoTo 63
    · have hof (y : Double) (hy : y.toInt? = some n) : Value.ofDouble y = .number (.integer n) := by
        unfold Value.ofDouble
        rw [hy]
        exact if_pos hsmall
      -- The integer may be another double than `x`, but it is clamped to one with the same value.
      have hclamp := Double.toInt?_clamp_ofInt hint hx
      rw [hof x hint]
      simp only [accept, Value.asNumber?, Number.toDouble, Option.map_some, Option.getD_some,
        hof _ hclamp]
    · have hof : Value.ofDouble x = .number (.float x) := by
        unfold Value.ofDouble
        rw [hint]
        exact if_neg hsmall
      rw [hof] at hfloat ⊢
      exact hfloat

/-! ## Texts -/

theorem accept_ofTexts (options default items : List String) :
    (multiSelect options default).accept (.ofTexts items) = .ok (.ofTexts items) := by
  simp only [accept, Value.ofTexts, Value.map_display_string]

/-- A date control keeps the text of a date that its format reads and writes. -/
theorem accept_dateText {format text : String} {date : Date} (min max : Option Date)
    (default : Option String) (hread : Date.read? format (trim text.toList) = some date)
    (hwrite : date.write? format = some text) :
    (Role.date format min max default).accept (.string text) = .ok (.string text) := by
  have hdate : (Value.string text).asDate? format = some date := by
    rw [Value.asDate?_string, hread]
  simp only [accept, hdate, writeDate_eq_ok_iff.2 hwrite]
  rfl

theorem accept_timeText (default : TimeOfDay) {time : TimeOfDay} (htime : time.IsOfDay) :
    (Role.time default).accept (.string time.write) = .ok (.string time.write) := by
  have hread : (Value.string time.write).asTime? = some time := by
    rw [Value.asTime?_string, TimeOfDay.read?_write htime]
  simp only [accept, hread, Option.getD_some]

/-! ## All controls -/

/-- What the control stores it stores again as it is. -/
def StoresNormalForms (role : Role) : Prop :=
  ∀ v w, role.accept v = .ok w → role.accept w = .ok w

theorem storesNormalForms {role : Role} (hdefault : role.KeepsDefault)
    (hdates : role.RereadsItsDates) : role.StoresNormalForms := by
  intro v w h
  cases role with
  | toggle b =>
    obtain rfl := Except.ok.inj h
    rfl
  | slider min max step d =>
    obtain rfl := Except.ok.inj h
    apply accept_ofDouble
    cases v.asNumber? with
    | none => exact hdefault
    | some n => exact n.clamp_clamp min max
  | text placeholder d =>
    obtain rfl := Except.ok.inj h
    by_cases hnull : v = .null
    · simp [accept, hnull, Role.default, Value.display_string]
    · simp [accept, hnull, Value.display_string]
  | select options d =>
    obtain rfl := Except.ok.inj h
    by_cases hnull : v = .null
    · simp [accept, hnull, Role.default, Value.display_string]
    · simp [accept, hnull, Value.display_string]
  | multiSelect options d =>
    unfold accept at h
    simp only at h
    split at h
    · obtain rfl := Except.ok.inj h
      exact accept_ofTexts options d d
    · obtain rfl := Except.ok.inj h
      exact accept_ofTexts options d _
    · obtain rfl := Except.ok.inj h
      exact accept_ofTexts options d _
  | date format min max d =>
    unfold accept at h
    simp only at h
    split at h
    · next date hdate =>
      -- The date was read from some text, so that its format reads it again.
      obtain ⟨text, htext, rfl⟩ := Outcome.map_eq_ok_iff.1 h
      obtain ⟨s, -, hread⟩ := Option.bind_eq_some_iff.1 hdate
      have hwrite := writeDate_eq_ok_iff.1 htext
      exact accept_dateText min max d (hdates s.toList date text hread hwrite) hwrite
    · obtain rfl := Except.ok.inj h
      cases d with
      | none => rfl
      | some s =>
        obtain ⟨date, hread, hwrite⟩ := hdefault
        exact accept_dateText min max (some s) hread hwrite
  | time t =>
    obtain rfl := Except.ok.inj h
    apply accept_timeText
    cases htime : v.asTime? with
    | none => exact hdefault
    | some time =>
      obtain ⟨s, -, hread⟩ := Option.bind_eq_some_iff.1 htime
      exact TimeOfDay.isOfDay_of_read? hread

/-! ## Controls of declarations -/

section Made

variable {d : Declaration} {format : String} {role : Role}

/-- The checks see to it that the default of a control is a value that it would store. -/
theorem keepsDefault_ofDeclaration (hd : d.IsAccepted) (h : Role.ofDeclaration d format = .ok role)
    (hdates : role.RereadsItsDates) : role.KeepsDefault := by
  have hmade := isMadeFrom_of_ofDeclaration h
  cases isMadeFrom_of_ofDeclaration h with
  | toggle | text | select | multiSelect | noDate => trivial
  | slider =>
    obtain ⟨-, hlow, hhigh⟩ := between_slider hd hmade
    exact Double.clamp_of_between hlow hhigh
  | @date raw text day type given read written =>
    exact ⟨day, hdates raw.toList day text read written, written⟩
  | time =>
    unfold KeepsDefault
    cases hgiven : (d.givenText? .defaultValue).bind
        fun raw => TimeOfDay.read? (trim raw.toList) with
    | none => exact ⟨by decide, by decide⟩
    | some time =>
      obtain ⟨raw, -, hraw⟩ := Option.bind_eq_some_iff.1 hgiven
      exact TimeOfDay.isOfDay_of_read? hraw

end Made

/-! ## Defaults -/

/-- Null is no value of any kind, so that the control stores its default for it. -/
theorem accept_null (role : Role) : role.accept .null = .ok role.default := by
  cases role with
  | toggle | slider | multiSelect | date | time => rfl
  | text | select => exact congrArg Except.ok (if_pos rfl)

end Role

/-- A control that is made from a text that was read would store its default. -/
theorem Control.keepsDefault_of_read {p : Parser} (hp : p.IsLoaded) {text : String}
    {d : Declaration} {control : Control} (hread : p.read text = .ok d)
    (h : Control.ofDeclaration d p.dateFormat = .ok control)
    (hdates : control.role.RereadsItsDates) : control.role.KeepsDefault := by
  obtain ⟨role, hrole, hpure⟩ := Outcome.bind_eq_ok_iff.1 h
  obtain rfl := Except.ok.inj hpure
  exact Role.keepsDefault_ofDeclaration ⟨p, hp, .inl ⟨text, hread⟩⟩ hrole hdates

/-- A control that is made from a text that was read stores values in normal form. -/
theorem Control.storesNormalForms_of_read {p : Parser} (hp : p.IsLoaded) {text : String}
    {d : Declaration} {control : Control} (hread : p.read text = .ok d)
    (h : Control.ofDeclaration d p.dateFormat = .ok control)
    (hdates : control.role.RereadsItsDates) : control.role.StoresNormalForms :=
  Role.storesNormalForms (Control.keepsDefault_of_read hp hread h hdates) hdates

end BoundFields
