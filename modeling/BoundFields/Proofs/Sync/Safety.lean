import BoundFields.Settings.Validation
import BoundFields.Proofs.Calendar.Written
import BoundFields.Proofs.Sync.Call

/-!
# Calls that return

A call can only be ended by a date that is to be written in a format for more than dates. The
settings let such formats pass, so that every call returns exactly if the format writes the dates
that it reads (`Session.isSafe_iff_of_reaches`). The ranges that sliders move their values into are
never empty, whatever the format is.
-/

set_option autoImplicit false

namespace BoundFields

open Text

/-! ## Roles -/

namespace Role

/-- A slider moves its values into a range that is not empty. -/
def IsInOrder : Role → Prop
  | .slider min max _ _ => min.le max = true
  | _ => True

/-- A date is read and written in this format. -/
def UsesFormat (format : String) : Role → Prop
  | .date own _ _ _ => own = format
  | _ => True

variable {role : Role} {format : String} {d : Declaration}

theorem exists_accept (hformat : role.UsesFormat format) (hwrites : WritesItsDates format)
    (v : Value) : ∃ w, role.accept v = .ok w := by
  cases role with
  | date own min max default =>
    obtain rfl : own = format := hformat
    unfold accept
    simp only
    cases hdate : v.asDate? own with
    | none => exact ⟨_, rfl⟩
    | some date =>
      obtain ⟨s, -, hread⟩ := Option.bind_eq_some_iff.1 hdate
      obtain ⟨text, htext⟩ := hwrites s.toList date hread
      simp only [writeDate_eq_ok_iff.2 htext]
      exact ⟨.string text, rfl⟩
  | multiSelect options default =>
    unfold accept
    simp only
    split <;> exact ⟨_, rfl⟩
  | toggle | slider | text | select | time => exact ⟨_, rfl⟩

/-- The slider of a declaration has a range, and its dates have the format that it was made for. -/
theorem suits_ofDeclaration (hread : ∀ a ∈ d.arguments, ∃ own, a.IsReadIn own)
    (hinOrder : d.IsInOrder) (h : Role.ofDeclaration d format = .ok role) :
    role.IsInOrder ∧ role.UsesFormat format := by
  have hmade := isMadeFrom_of_ofDeclaration h
  cases isMadeFrom_of_ofDeclaration h with
  | slider => exact ⟨(hmade.hasRange hread hinOrder).isInOrder, trivial⟩
  | noDate | date => exact ⟨trivial, rfl⟩
  | toggle | text | select | multiSelect | time => exact ⟨trivial, trivial⟩

/-- A default date that was read but cannot be written keeps the role from being made. -/
theorem ofDeclaration_eq_error {raw : String} {date : Date} (htype : d.fieldType = .date)
    (hgiven : d.givenText? .defaultValue = some raw)
    (hread : Date.read? format (trim raw.toList) = some date)
    (hwrite : date.write? format = none) :
    Role.ofDeclaration d format = .error (.unwritableDate format) := by
  have hfault : writeDate format date = .error (.unwritableDate format) := by
    unfold writeDate
    rw [hwrite]
  unfold Role.ofDeclaration
  simp only [htype, hgiven, Option.bind_some, hread, Option.mapM_some, hfault]
  rfl

end Role

/-- The role is that of a declaration which the parser reads. -/
def Parser.Makes (p : Parser) (role : Role) : Prop :=
  ∃ text d, p.read text = .ok d ∧ Role.ofDeclaration d p.dateFormat = .ok role

theorem Parser.suits_of_makes {p : Parser} (hp : p.TemplatesAreRead) {role : Role}
    (h : p.Makes role) : role.IsInOrder ∧ role.UsesFormat p.dateFormat := by
  obtain ⟨text, d, hread, hrole⟩ := h
  have hvalid := isValid_of_read hp hread
  exact Role.suits_ofDeclaration (fun a ha => ⟨_, hvalid.arguments a ha⟩) hvalid.inOrder hrole

/-- A field for dates with a default. -/
def dateWithDefault (raw : String) : Declaration :=
  ⟨.date, [⟨.defaultValue, .text raw, some raw⟩], false, none, none⟩

/-- Every parser reads the text of a date whose default is one in its format. -/
theorem Parser.read_dateWithDefault {p : Parser} (hp : p.TemplatesAreRead) {raw : String}
    {date : Date} (hdate : Date.read? p.dateFormat (trim raw.toList) = some date) :
    p.read (dateWithDefault raw).text = .ok (dateWithDefault raw) := by
  have hread : ∀ a ∈ (dateWithDefault raw).arguments, a.IsReadIn p.dateFormat := by
    intro a ha
    obtain rfl := List.mem_singleton.1 ha
    rfl
  have hcheck : (dateWithDefault raw).check p.dateFormat = .ok () := by
    rw [Declaration.check_eq_ok_iff,
      Declaration.checkDefault_eq_ok_iff fun a ha => ⟨_, hread a ha⟩]
    refine ⟨rfl, rfl, rfl, ?_⟩
    intro raw' hraw'
    obtain rfl := Option.some.inj hraw'
    exact ⟨date, hdate⟩
  have hbuilds : p.Builds ⟨some .date, (dateWithDefault raw).arguments, none, none⟩ none
      (dateWithDefault raw) := ⟨rfl, rfl, rfl, rfl, rfl, nofun, hcheck⟩
  exact read_text_of_isRereadBy hp hread (by simp) hbuilds ⟨nofun, nofun, nofun⟩

/-! ## Calls -/

namespace Renderer

variable {r : Renderer} {field : LiveField}

section Writing

variable {format : String} (hformat : field.control.role.UsesFormat format)
  (hwrites : WritesItsDates format) (hmounted : field.control.isMounted = true)

include hformat hwrites hmounted

theorem returned_edit (v : Value) (store : Store) : Returned (r.edit field v store).outcome := by
  obtain ⟨w, haccept⟩ := Role.exists_accept hformat hwrites v
  rw [edit_of_accept hmounted haccept]
  intro own h
  cases hwrote : (r.sync.onEdit field.uid w store).1 with
  | ok b =>
    simp only [hwrote] at h
    cases h
  | error error =>
    simp only [hwrote] at h
    cases h

theorem returned_flush : Returned (r.flush field).1 := by
  intro own h
  cases he : r.sync.registry.get? field.uid with
  | none =>
    rw [flush_of_get?_eq_none he] at h
    cases h
  | some e =>
    rcases flush_cases he hmounted with
      ⟨-, hflush⟩ | ⟨v, w, -, -, hflush⟩ | ⟨v, _, -, hfault, -⟩
    · rw [hflush] at h
      cases h
    · rw [hflush] at h
      cases h
    · obtain ⟨w, haccept⟩ := Role.exists_accept hformat hwrites v
      rw [haccept] at hfault
      cases hfault

end Writing

/-- Every text is shown in one of the two ways if the dates that its parser reads can be
written. -/
theorem exists_render (hp : r.parser.TemplatesAreRead)
    (hwrites : WritesItsDates r.parser.dateFormat) (text : String) (context : FileRef)
    (store : Store) : ∃ rendered after, r.render text context store = .ok (rendered, after) := by
  unfold render mount
  cases hread : r.parser.read text with
  | error error => exact ⟨_, _, rfl⟩
  | ok d =>
    have hvalid := (Parser.isValid_of_read hp hread).hasType
    obtain ⟨role, hrole⟩ := Role.exists_ofDeclaration hwrites hvalid
    obtain ⟨-, hformat⟩ := Parser.suits_of_makes hp ⟨text, d, hread, hrole⟩
    simp only [Control.ofDeclaration, hrole, bind, Except.bind, pure, Except.pure]
    rcases r.mountControl_cases d context _ store with ⟨w, -, hmount⟩ | ⟨format, hfault, -⟩
    · rw [hmount]
      exact ⟨_, _, rfl⟩
    · obtain ⟨w, haccept⟩ := Role.exists_accept hformat hwrites _
      rw [haccept] at hfault
      cases hfault

/-- A text with a default date that can be read but not written ends the run. -/
theorem exists_render_eq_error (hp : r.parser.TemplatesAreRead)
    (hwrites : ¬ WritesItsDates r.parser.dateFormat) (context : FileRef) (store : Store) :
    ∃ text, r.render text context store = .error (.unwritableDate r.parser.dateFormat) := by
  obtain ⟨cs, date, hdate, hwrite⟩ : ∃ cs date,
      Date.read? r.parser.dateFormat (trim cs) = some date ∧
        date.write? r.parser.dateFormat = none := by
    by_contra hnone
    apply hwrites
    intro cs date hdate
    rw [← Option.ne_none_iff_exists']
    intro hwrite
    exact hnone ⟨cs, date, hdate, hwrite⟩
  rw [← String.toList_ofList (l := cs)] at hdate
  have hread := Parser.read_dateWithDefault hp hdate
  have hrole : Role.ofDeclaration (dateWithDefault (String.ofList cs)) r.parser.dateFormat =
      .error (.unwritableDate r.parser.dateFormat) :=
    Role.ofDeclaration_eq_error rfl rfl hdate hwrite
  refine ⟨(dateWithDefault (String.ofList cs)).text, ?_⟩
  unfold render mount
  simp only [hread, Control.ofDeclaration, hrole]
  rfl

end Renderer

theorem Settings.isUsable_of_validate {settings : Settings} (h : settings.validate = .ok ()) :
    Pattern.isUsable settings.dateFormat = true := by
  unfold validate at h
  split at h
  · next hempty =>
    have hnone := (List.append_eq_nil_iff.1 (List.isEmpty_iff.1 hempty)).1
    by_contra hunusable
    rw [if_neg hunusable] at hnone
    cases hnone
  · cases h

/-! ## Sessions -/

namespace Session

/-- Where a renderer made from some settings starts, with nothing rendered yet. -/
def ofSettings (settings : Settings) (index : FileIndex) (store : Store) : Session :=
  { renderer := .ofSettings settings index, store }

/-- Every call in this state returns: a text is shown in one of the two ways, and all fields can be
edited and flushed. Every slider has a range, which its values are moved into. -/
structure IsSafe (s : Session) : Prop where
  render : ∀ text context, ∃ rendered after,
    s.renderer.render text context s.store = .ok (rendered, after)
  edit : ∀ uid h v, s.held.get? uid = some h →
    Returned (s.renderer.edit h.field v s.store).outcome
  flush : ∀ uid h, s.held.get? uid = some h → Returned (s.renderer.flush h.field).1
  inOrder : ∀ uid h, s.held.get? uid = some h → h.field.control.role.IsInOrder
  /-- The ranges of the fields that are yet to be rendered. -/
  rendersInOrder : ∀ role, s.renderer.parser.Makes role → role.IsInOrder

/-- All fields are of a kind that the parser makes, which stays the same. -/
structure IsMadeBy (p : Parser) (s : Session) : Prop where
  parser : s.renderer.parser = p
  makes : ∀ uid h, s.held.get? uid = some h → p.Makes h.field.control.role

variable {p : Parser} {s s' : Session}

theorem isBlank_ofSettings (settings : Settings) (index : FileIndex) (store : Store) :
    (ofSettings settings index store).IsBlank := ⟨rfl, rfl⟩

theorem isMadeBy_of_step (hs : s.IsMadeBy p) (hstep : Step s s') : s'.IsMadeBy p := by
  refine ⟨(parser_of_step hstep).trans hs.parser, ?_⟩
  intro uid h' hheld
  rcases held_cases hstep hheld with
    ⟨h, hold, heq | ⟨w, heq⟩⟩ | ⟨text, _, d, control, stored, hrenders, -, -, heq⟩
  · rw [heq]
    exact hs.makes uid h hold
  · rw [heq]
    exact hs.makes uid h hold
  · obtain ⟨role, hrole, hpure⟩ := Outcome.bind_eq_ok_iff.1 hrenders.controls
    obtain rfl := Except.ok.inj hpure
    have hread := hrenders.read
    rw [hs.parser] at hread hrole
    rw [heq]
    exact ⟨text, d, hread, hrole⟩

theorem isMadeBy_of_reaches (hs : s.IsMadeBy p) (hreach : Reaches s s') : s'.IsMadeBy p := by
  induction hreach with
  | refl => exact hs
  | tail _ hstep ih => exact isMadeBy_of_step ih hstep

theorem isSafe_of_isMadeBy (hp : p.TemplatesAreRead) (hwrites : WritesItsDates p.dateFormat)
    (hordered : s.IsOrderly) (hs : s.IsMadeBy p) : s.IsSafe := by
  obtain ⟨rfl, hmakes⟩ := hs
  constructor
  · intro text context
    exact Renderer.exists_render hp hwrites text context s.store
  · intro uid h v hheld
    obtain ⟨-, hformat⟩ := Parser.suits_of_makes hp (hmakes uid h hheld)
    exact Renderer.returned_edit hformat hwrites (hordered.mounted uid h hheld) v s.store
  · intro uid h hheld
    obtain ⟨-, hformat⟩ := Parser.suits_of_makes hp (hmakes uid h hheld)
    exact Renderer.returned_flush hformat hwrites (hordered.mounted uid h hheld)
  · intro uid h hheld
    exact (Parser.suits_of_makes hp (hmakes uid h hheld)).1
  · intro role hrole
    exact (Parser.suits_of_makes hp hrole).1

/-- Every call returns, whatever came before it, unless the format of the settings asks for a time
of day and there are texts that are read as dates in it. -/
theorem isSafe_iff_of_reaches {settings : Settings} {index : FileIndex} {store : Store}
    (hvalid : settings.validate = .ok ()) (hreach : Reaches (ofSettings settings index store) s) :
    s.IsSafe ↔
      ((∃ item ∈ Pattern.ofText settings.dateFormat, item.isOfClock = true) →
        ∀ cs, Date.read? settings.dateFormat (trim cs) = none) := by
  have hp : settings.parser.1.TemplatesAreRead :=
    Parser.templatesAreRead_loadTemplates _ settings.templates
  have hordered := isOrderly_of_reaches
    (isOrderly_of_isBlank (isBlank_ofSettings settings index store)) hreach
  have hstart : (ofSettings settings index store).IsMadeBy settings.parser.1 :=
    ⟨rfl, fun uid h hheld => by cases hheld⟩
  have hs := isMadeBy_of_reaches hstart hreach
  rw [← writesItsDates_iff (Settings.isUsable_of_validate hvalid)]
  constructor
  · intro hsafe
    by_contra hwrites
    rw [← hs.parser] at hp
    have hwrites' : ¬ WritesItsDates s.renderer.parser.dateFormat := by
      rw [hs.parser]
      exact hwrites
    obtain ⟨text, hfault⟩ := Renderer.exists_render_eq_error hp hwrites' ⟨""⟩ s.store
    obtain ⟨rendered, after, hrender⟩ := hsafe.render text ⟨""⟩
    rw [hfault] at hrender
    cases hrender
  · intro hwrites
    exact isSafe_of_isMadeBy hp hwrites hordered hs

/-- The default format has no time of day, so that every call of the run returns. -/
theorem isSafe_iff_of_reaches_dueFlushed :
    Settings.validate {} = .ok () ∧
      Reaches (ofSettings {} dueStart.renderer.sync.index dueStart.store) dueFlushed ∧
      dueFlushed.IsSafe := by
  have hvalid : Settings.validate {} = .ok () := by decide +kernel
  have hstart : ofSettings {} dueStart.renderer.sync.index dueStart.store = dueStart := by
    decide +kernel
  have hreach : Reaches (ofSettings {} dueStart.renderer.sync.index dueStart.store) dueFlushed := by
    rw [hstart]
    exact reaches_dueFlushed
  refine ⟨hvalid, hreach, (isSafe_iff_of_reaches hvalid hreach).2 ?_⟩
  intro hclock
  exact absurd hclock (by decide +kernel)

/-- A date with an hour is accepted as a format and as a default, and ends the run. -/
theorem exists_reaches_not_isSafe :
    ¬ ∀ (settings : Settings) (index : FileIndex) (store : Store) (s : Session),
      settings.validate = .ok () → Reaches (ofSettings settings index store) s → s.IsSafe := by
  intro hall
  have hvalid : Settings.validate { dateFormat := "%Y-%m-%d %H" } = .ok () := by decide +kernel
  have hsafe := hall { dateFormat := "%Y-%m-%d %H" } {} {} _ hvalid .refl
  obtain ⟨rendered, after, hrender⟩ :=
    hsafe.render "INPUT[date(defaultValue(2024-06-01 10))]" ⟨"a.md"⟩
  have hfault : (ofSettings { dateFormat := "%Y-%m-%d %H" } {} {}).renderer.render
      "INPUT[date(defaultValue(2024-06-01 10))]" ⟨"a.md"⟩ {} =
        .error (.unwritableDate "%Y-%m-%d %H") := by
    decide +kernel
  exact absurd (hfault.symm.trans hrender) (by simp)

end Session

end BoundFields
