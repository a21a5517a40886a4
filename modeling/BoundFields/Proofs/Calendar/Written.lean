import BoundFields.Calendar.Writer
import BoundFields.Calendar.Reader
import BoundFields.Proofs.Outcome

/-!
# Which dates can be written

Whether a date can be written depends on the format alone (`Date.write?_eq_none_iff`): a format that
asks for a time of day cannot be filled in with a date, although a text in that format, which has
the time of day, may well be read as one (`writesItsDates_iff`). A format that asks for dates only
writes all of its dates (`writesItsDates_of_datesOnly`), whether it can be used or not: with an
unknown item in it, it reads no date at all. No format reads a date where there is no text
(`Date.read?_nil`).
-/

set_option autoImplicit false

namespace BoundFields

/-- A part of a time of day, which a date alone does not have. -/
def PatternItem.isOfClock : PatternItem → Bool
  | .number .hour _ | .number .hourOfHalf _ | .number .minute _ | .number .second _
  | .number .nanosecond _ | .number .timestamp _ => true
  | .clock _ => true
  | _ => false

namespace Date

theorem writeItem?_eq_none_iff (d : Date) (item : PatternItem) :
    d.writeItem? item = none ↔ item.isOfClock = true ∨ item = .unknown := by
  cases item with
  | number part padding => cases part <;> simp [writeItem?, writeNumber?, PatternItem.isOfClock]
  | literal | blanks | name | clock | unknown => simp [writeItem?, PatternItem.isOfClock]

theorem write?_eq_none_iff (d : Date) (format : String) :
    d.write? format = none ↔
      ∃ item ∈ Pattern.ofText format, item.isOfClock = true ∨ item = .unknown := by
  unfold write?
  rw [Option.map_eq_none_iff, Outcome.mapM_eq_none_iff]
  simp only [writeItem?_eq_none_iff]

end Date

/-- Every date that is read in the format can be written in it. -/
def WritesItsDates (format : String) : Prop :=
  ∀ cs d, Date.read? format (Text.trim cs) = some d → ∃ text, d.write? format = some text

/-- A usable format writes its dates unless it asks for a time of day and reads dates all the
same. -/
theorem writesItsDates_iff {format : String} (h : Pattern.isUsable format = true) :
    WritesItsDates format ↔
      ((∃ item ∈ Pattern.ofText format, item.isOfClock = true) →
        ∀ cs, Date.read? format (Text.trim cs) = none) := by
  have hknown : ∀ item ∈ Pattern.ofText format, item ≠ .unknown := by
    have hall := (Bool.and_eq_true_iff.1 h).2
    simpa using hall
  constructor
  · rintro hwrites ⟨item, hmem, hclock⟩ cs
    rw [Option.eq_none_iff_forall_ne_some]
    intro d hd
    obtain ⟨text, htext⟩ := hwrites cs d hd
    have hnone := (d.write?_eq_none_iff format).2 ⟨item, hmem, .inl hclock⟩
    rw [hnone] at htext
    cases htext
  · intro hnone cs d hd
    rw [← Option.ne_none_iff_exists']
    intro hwrite
    obtain ⟨item, hmem, hclock | hunknown⟩ := (d.write?_eq_none_iff format).1 hwrite
    · rw [hnone ⟨item, hmem, hclock⟩ cs] at hd
      cases hd
    · exact hknown item hmem hunknown

/-! ## Formats for dates only -/

/-- An unknown item keeps everything from being read. -/
theorem ReadStep.all_eq_none_of_unknown {items : List PatternItem} (h : .unknown ∈ items)
    (f : Fields) (cs : List Char) : all (items.map ofItem) f cs = none := by
  induction items generalizing f cs with
  | nil => cases h
  | cons item items ih =>
    rw [List.map_cons, all, Option.bind_eq_none_iff]
    rintro ⟨g, rest⟩ hstep
    rcases List.mem_cons.1 h with rfl | hmem
    · cases hstep
    · exact ih hmem g rest

theorem Date.read?_eq_none_of_unknown {format : String} (h : .unknown ∈ Pattern.ofText format)
    (cs : List Char) : Date.read? format cs = none := by
  unfold Date.read? Pattern.fields?
  rw [ReadStep.all_eq_none_of_unknown h]
  rfl

/-- The format asks for nothing of a time of day. -/
def IsForDatesOnly (format : String) : Prop :=
  ∀ item ∈ Pattern.ofText format, item.isOfClock = false

theorem writesItsDates_of_datesOnly {format : String} (h : IsForDatesOnly format) :
    WritesItsDates format := by
  intro cs d hd
  rw [← Option.ne_none_iff_exists']
  intro hwrite
  obtain ⟨item, hmem, hclock | rfl⟩ := (d.write?_eq_none_iff format).1 hwrite
  · rw [h item hmem] at hclock
    cases hclock
  · rw [Date.read?_eq_none_of_unknown hmem] at hd
    cases hd

/-! ## Nothing is no date -/

namespace ReadStep

/-- Where no text is left, an item finds nothing that tells a date. -/
theorem ofItem_nil (item : PatternItem) (f : Fields) :
    ofItem item f [] = none ∨ ∃ n, ofItem item f [] = some ({ f with nanosecond := n }, []) := by
  have hnumber (width : Nat) : number? width [] = none := by simp [number?]
  cases item with
  | literal text =>
    cases text with
    | nil => exact .inr ⟨f.nanosecond, rfl⟩
    | cons c cs => exact .inl rfl
  | blanks text => exact .inr ⟨f.nanosecond, rfl⟩
  | number part padding =>
    refine .inl ?_
    unfold ofItem numberPart
    simp [Text.trimStart, hnumber]
  | name part => cases part <;> exact .inl rfl
  | clock part =>
    cases part with
    | bareFraction digits =>
      simp only [ofItem, clockPart, fixedFraction, Fields.setNanosecond]
      split
      · exact .inl rfl
      · generalize Fields.agree f.nanosecond 0 999999999 _ = agreed
        cases agreed with
        | none => exact .inl rfl
        | some n => exact .inr ⟨n, by simp⟩
    | fraction | pointedFraction digits | zoneName => exact .inr ⟨f.nanosecond, rfl⟩
    | halfOfDay | zoneOffset | looseOffset | wholeInstant => exact .inl rfl
  | unknown => exact .inl rfl

theorem all_nil (items : List PatternItem) (f : Fields) :
    all (items.map ofItem) f [] = none ∨
      ∃ n, all (items.map ofItem) f [] = some ({ f with nanosecond := n }, []) := by
  induction items generalizing f with
  | nil => exact .inr ⟨f.nanosecond, rfl⟩
  | cons item items ih =>
    rw [List.map_cons, all]
    rcases ofItem_nil item f with hnone | ⟨n, hn⟩
    · exact .inl (by rw [hnone]; rfl)
    · rw [hn, Option.bind_some]
      rcases ih { f with nanosecond := n } with hnone | ⟨m, hm⟩
      · exact .inl hnone
      · exact .inr ⟨m, hm⟩

end ReadStep

theorem Date.read?_nil (format : String) : Date.read? format [] = none := by
  unfold Date.read? Pattern.fields?
  rcases ReadStep.all_nil (Pattern.ofText format) {} with hnone | ⟨n, hn⟩
  · rw [hnone]
    rfl
  · rw [hn]
    rfl

end BoundFields
