import BoundFields.Proofs.Control.Fallback

/-!
# The default of a control

The text of a default value is looked at in two places: the parser refuses a declaration whose field
cannot hold it, and the control that is made from the declaration reads it once more and has
something else to fall back to where it cannot. The two agree. What the parser lets pass is of the
control's kind, and is the default that the control has (`Role.accept_given`), so that a default
that was accepted is never passed over (`Control.hasDefault_of_accepts`).
-/

set_option autoImplicit false

namespace BoundFields

open Text

namespace Role

variable {d : Declaration} {format raw : String} {role : Role}

/-- A text or a choice stores a text as it is. -/
theorem accept_string (hrule : role.rule = .text) (s : String) :
    role.accept (.string s) = .ok (.string s) := by
  rw [accept_eq_display hrule Value.noConfusion, Value.display_string]

/-- A choice of several has the items of the given text as its default. -/
theorem default_given_multiSelect (h : role.IsMadeFrom d format)
    (htype : d.fieldType = .multiSelect) (hgiven : d.givenText? .defaultValue = some raw) :
    role.default = .ofTexts (commaItems raw) := by
  cases h with
  | multiSelect => simp only [default, hgiven, Option.map_some, Option.getD_some]
  | toggle type | slider type | select type | time type => simp [htype] at type
  | text type | noDate type | date type => simp [htype] at type

/-- The text of a default value that the field can hold is of the control's kind, and what the
control stores for it is its default. A choice of several takes the text apart for its default, but
not where it is set. -/
theorem accept_given (hd : d.IsAccepted) (h : role.IsMadeFrom d format)
    (hgiven : d.givenText? .defaultValue = some raw) (hholds : d.CanHold format raw) :
    ¬ role.FallsBackFor (.string raw) ∧
      (d.fieldType ≠ .multiSelect → role.accept (.string raw) = .ok role.default) := by
  have hmade := h
  unfold Declaration.CanHold at hholds
  cases h with
  | toggle type =>
    rw [type] at hholds
    obtain ⟨b, hb⟩ : ∃ b, (Value.string raw).asBool? = some b := by
      rcases hholds with rfl | rfl
      · exact ⟨true, by decide⟩
      · exact ⟨false, by decide⟩
    refine ⟨by simp [FallsBackFor, hb], fun _ => ?_⟩
    simp only [accept, default, hgiven, Option.bind_some, hb, Option.getD_some]
  | slider type hmin hmax =>
    rw [type] at hholds
    obtain ⟨low, high, n, hlow, hhigh, hn, hle, hge⟩ := hholds
    -- The control only takes finite numbers, and the range of the slider has finite ends.
    have hrange := (between_slider hd hmade).1
    obtain rfl := Option.some.inj (hlow.symm.trans hrange.minValue)
    obtain rfl := Option.some.inj (hhigh.symm.trans hrange.maxValue)
    have hfinite := Double.isFinite_of_between hrange.isFinite.1 hrange.isFinite.2 hle hge
    have hnumber : (Value.string raw).asNumber? = some n := by
      simp only [Value.asNumber?, Double.readFinite?, hn, Option.filter_some_pos hfinite]
    refine ⟨by simp [FallsBackFor, hnumber], fun _ => ?_⟩
    simp only [accept, default, hgiven, Option.bind_some, hn, hnumber, Option.map_some,
      Option.getD_some]
  | text | select =>
    refine ⟨Value.noConfusion, fun _ => ?_⟩
    rw [accept_string rfl]
    simp only [default, hgiven, Option.some_or, Option.getD_some]
  | multiSelect type => exact ⟨Value.noConfusion, fun hother => absurd type hother⟩
  | noDate type unread =>
    -- The control would have no default, although the parser has read the text as a date.
    obtain ⟨day, hday⟩ : ∃ day, Date.read? format (trim raw.toList) = some day := by
      rcases type with type | type <;> rwa [type] at hholds
    rw [unread raw hgiven] at hday
    cases hday
  | @date given text day type hraw read written =>
    obtain rfl := Option.some.inj (hraw.symm.trans hgiven)
    have hdate : (Value.string given).asDate? format = some day := by
      rw [Value.asDate?_string, read]
    refine ⟨by simp [FallsBackFor, hdate], fun _ => ?_⟩
    simp only [accept, hdate, writeDate_eq_ok_iff.2 written, default]
    rfl
  | time type =>
    rw [type] at hholds
    obtain ⟨time, htime⟩ := hholds
    have hread : (Value.string raw).asTime? = some time := by
      rw [Value.asTime?_string, htime]
    refine ⟨by simp [FallsBackFor, hread], fun _ => ?_⟩
    simp only [accept, default, hgiven, Option.bind_some, htime, hread, Option.getD_some]

end Role

namespace Control

/-- The value that a control has from the start, and goes back to when it is set to null, whatever
it holds. -/
structure HasDefault (c : Control) (v : Value) : Prop where
  start : c.mount.value = .ok v
  back : ∀ current, ({ c.mount with current } : Control).Stores .null v

/-- The default of a control is what a text says that was given for it, and not what the control
would fall back to. -/
structure TakesDefault (c : Control) (d : Declaration) (raw : String) : Prop where
  isOfKind : ¬ c.role.FallsBackFor (.string raw)
  /-- It is what the control stores when it is set to the text. -/
  stores : d.fieldType ≠ .multiSelect →
    ∀ current, ({ c.mount with current } : Control).Stores (.string raw) c.role.default
  /-- A choice of several has the items of the text, which are among its options if it has any. -/
  items : d.fieldType = .multiSelect → c.role.default = .ofTexts (commaItems raw) ∧
    (d.options ≠ [] → ∀ item ∈ commaItems raw, item ∈ d.options)

variable {p : Parser} {d : Declaration} {format : String} {c : Control}

theorem exists_isMadeFrom (h : Control.ofDeclaration d format = .ok c) :
    c.role.IsMadeFrom d format ∧ c.current = c.role.default := by
  obtain ⟨role, hrole, hpure⟩ := Outcome.bind_eq_ok_iff.1 h
  obtain rfl := Except.ok.inj hpure
  exact ⟨Role.isMadeFrom_of_ofDeclaration hrole, rfl⟩

theorem hasDefault (h : Control.ofDeclaration d format = .ok c) : c.HasDefault c.role.default := by
  obtain ⟨-, hcurrent⟩ := exists_isMadeFrom h
  constructor
  · rw [← hcurrent]
    exact value_of_isMounted (c := c.mount) rfl
  · intro current
    exact (stores_iff rfl).2 (Role.accept_null c.role)

theorem takesDefault (hp : p.IsLoaded) (hd : p.Accepts d)
    (h : Control.ofDeclaration d p.dateFormat = .ok c) {raw : String}
    (hgiven : d.givenText? .defaultValue = some raw) : c.TakesDefault d raw := by
  have hholds := Parser.canHold_of_accepts hp hd hgiven
  obtain ⟨hmade, -⟩ := exists_isMadeFrom h
  obtain ⟨hkind, haccept⟩ := Role.accept_given ⟨p, hp, hd⟩ hmade hgiven hholds
  refine ⟨hkind, fun htype current => (stores_iff rfl).2 (haccept htype), fun htype => ?_⟩
  refine ⟨Role.default_given_multiSelect hmade htype hgiven, fun hoffers => ?_⟩
  unfold Declaration.CanHold at hholds
  rw [htype] at hholds
  exact hholds.resolve_left hoffers

/-- The control of a declaration that a parser accepts starts with its default and goes back to it,
and a default value that was given is that default. It can be made at least where the format asks
for nothing of a time of day. -/
theorem hasDefault_of_accepts (hp : p.IsLoaded) (hd : p.Accepts d) :
    (IsForDatesOnly p.dateFormat → ∃ c, Control.ofDeclaration d p.dateFormat = .ok c) ∧
      ∀ c, Control.ofDeclaration d p.dateFormat = .ok c → c.HasDefault c.role.default ∧
        ∀ raw, d.givenText? .defaultValue = some raw → c.TakesDefault d raw := by
  constructor
  · intro hformat
    obtain ⟨role, hrole⟩ := Role.exists_ofDeclaration (writesItsDates_of_datesOnly hformat)
      (Declaration.IsAccepted.fieldType_ne_invalid ⟨p, hp, hd⟩)
    exact ⟨_, Outcome.bind_eq_ok_iff.2 ⟨role, hrole, rfl⟩⟩
  · intro c hc
    exact ⟨hasDefault hc, fun raw hgiven => takesDefault hp hd hc hgiven⟩

/-- A date whose default is not written as its format writes it. -/
theorem hasDefault_of_accepts_date :
    ∃ d c, ({} : Parser).IsLoaded ∧ ({} : Parser).Accepts d ∧ IsForDatesOnly defaultDateFormat ∧
      Control.ofDeclaration d defaultDateFormat = .ok c ∧
      c.HasDefault c.role.default ∧ c.TakesDefault d "2024-6-1" := by
  have hread : ({} : Parser).read "INPUT[date(defaultValue(2024-6-1))]" =
      .ok ⟨.date, [⟨.defaultValue, .text "2024-6-1", some "2024-6-1"⟩], false, none, none⟩ := by
    decide +kernel
  have hloaded : ({} : Parser).IsLoaded := ⟨{}, [], rfl⟩
  have hformat : IsForDatesOnly defaultDateFormat := by
    unfold IsForDatesOnly
    decide +kernel
  obtain ⟨hmade, hdefault⟩ := hasDefault_of_accepts hloaded (.inl ⟨_, hread⟩)
  obtain ⟨c, hc⟩ := hmade hformat
  obtain ⟨hhas, htakes⟩ := hdefault c hc
  exact ⟨_, c, hloaded, .inl ⟨_, hread⟩, hformat, hc, hhas, htakes _ rfl⟩

end Control

end BoundFields
