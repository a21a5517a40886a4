import BoundFields.Proofs.Metadata.Refusal
import BoundFields.Proofs.Sync.Call

/-!
# Edits that fail

An edit fails exactly if the document refuses the path that its field is bound to
(`Renderer.edit_fails_iff`). The renderer and the store have not changed then; but the control was
set before the write was tried, so that the field goes on showing a value that nobody else has,
unless it was what it showed anyway (`Renderer.isUntouched_edit_iff`).
-/

set_option autoImplicit false

namespace BoundFields

/-! ## Fields as they are drawn -/

/-- The control is mounted, and the field looks like it. -/
structure LiveField.IsDrawn (field : LiveField) : Prop where
  mounted : field.control.isMounted = true
  view : field.view = field.control.view

theorem LiveField.isDrawn_showing {field : LiveField} (h : field.IsDrawn) (stored : Value) :
    (field.showing stored).IsDrawn := ⟨h.mounted, rfl⟩

/-- A field looks the same if its control stores the value that it has. -/
theorem LiveField.showing_current {field : LiveField} (h : field.IsDrawn) :
    field.showing field.control.current = field :=
  congrArg (fun view => ({ field with view } : LiveField)) h.view.symm

namespace Renderer

theorem isDrawn_of_render {r r' : Renderer} {field : LiveField} {text : String}
    {context : FileRef} {store : Store}
    (h : r.render text context store = .ok (.live field, r')) : field.IsDrawn := by
  rcases render_cases h with ⟨-, message, hplaceholder⟩ | ⟨d, control, stored, -, hlive, -⟩
  · cases hplaceholder
  · obtain rfl := Rendered.live.inj hlive
    exact ⟨rfl, rfl⟩

end Renderer

namespace Session

variable {s s' : Session}

theorem isDrawn_of_step (hs : ∀ uid h, s.held.get? uid = some h → h.field.IsDrawn)
    (hstep : Step s s') : ∀ uid h, s'.held.get? uid = some h → h.field.IsDrawn := by
  intro uid h' hheld
  rcases held_cases hstep hheld with
    ⟨h, hold, heq | ⟨w, heq⟩⟩ | ⟨_, _, d, control, stored, -, -, -, heq⟩
  · rw [heq]
    exact hs uid h hold
  · rw [heq]
    exact LiveField.isDrawn_showing (hs uid h hold) w
  · rw [heq]
    exact ⟨rfl, rfl⟩

/-- Whatever is done with a session, the fields that are held look like their controls. -/
theorem isDrawn_of_reaches (hs : ∀ uid h, s.held.get? uid = some h → h.field.IsDrawn)
    (hreach : Reaches s s') : ∀ uid h, s'.held.get? uid = some h → h.field.IsDrawn := by
  induction hreach with
  | refl => exact hs
  | tail _ hstep ih => exact isDrawn_of_step ih hstep

end Session

/-! ## Failures -/

/-- An edit of a field that is bound comes out as its write does. -/
theorem Synchronizer.onEdit_of_resolved {s : Synchronizer} {uid : Nat} {e : Entry} {t : Target}
    (he : s.registry.get? uid = some e) (ht : e.binding = .resolved t) (v : Value)
    (store : Store) : (s.onEdit uid v store).1 = (store.write t v).1.map fun _ => true := by
  unfold onEdit
  rw [he]
  simp only [Entry.target?_eq_some_iff.2 ht]
  rcases store.write t v with ⟨error | _, store'⟩
  · rfl
  · rfl

namespace Renderer

variable {r : Renderer} {field : LiveField} {v : Value} {store : Store} {error : Error}

/-- An edit that fails has shown what the control made of the value, and done nothing else. -/
theorem edit_of_fails (hdrawn : field.IsDrawn)
    (hfails : (r.edit field v store).outcome = .error (.refused error)) :
    ∃ w, field.control.role.accept v = .ok w ∧
      r.sync.onEdit field.uid w store = (.error error, r.sync, store) ∧
      r.edit field v store = ⟨.error (.refused error), field.showing w, r, store⟩ := by
  cases haccept : field.control.role.accept v with
  | error fault =>
    -- A date that cannot be written ends the call without an error.
    obtain ⟨format, rfl⟩ := Role.exists_of_accept_eq_error haccept
    rw [edit_of_accept_eq_error hdrawn.mounted haccept] at hfails
    cases hfails
  | ok w =>
    rw [edit_of_accept hdrawn.mounted haccept] at hfails ⊢
    rcases r.sync.onEdit_cases field.uid w store with
      ⟨hedit, -⟩ | ⟨e, t, -, -, ⟨root, -, hedit⟩ | ⟨failed, hedit⟩⟩
    · rw [hedit] at hfails
      cases hfails
    · rw [hedit] at hfails
      cases hfails
    · rw [hedit] at hfails ⊢
      obtain rfl : failed = error := Fault.refused.inj (Except.error.inj hfails)
      exact ⟨w, rfl, hedit, rfl⟩

/-- An edit fails where the document refuses the path that the field is bound to. -/
theorem edit_fails_iff (hdrawn : field.IsDrawn) :
    (r.edit field v store).outcome = .error (.refused error) ↔
      ∃ w e t segment, field.control.role.accept v = .ok w ∧
        r.sync.registry.get? field.uid = some e ∧ e.binding = .resolved t ∧
          ((store.snapshot? t.file).getD .null).RefusesAlong t.path.segments segment ∧
            error = .badIndex segment t.path.text := by
  constructor
  · intro hfails
    obtain ⟨w, haccept, hsync, -⟩ := edit_of_fails hdrawn hfails
    rcases r.sync.onEdit_cases field.uid w store with ⟨hedit, -⟩ | ⟨e, t, he, ht, -⟩
    · rw [hedit] at hsync
      cases hsync
    · -- The field is bound, so that it was the write that failed.
      have hwrite : (store.write t w).1 = .error error := by
        have houtcome := Synchronizer.onEdit_of_resolved he ht w store
        rw [hsync] at houtcome
        cases hboth : (store.write t w).1 with
        | ok _ =>
          rw [hboth] at houtcome
          cases houtcome
        | error failed =>
          rw [hboth] at houtcome
          exact congrArg _ (Except.error.inj houtcome).symm
      obtain ⟨segment, hrefused, herror⟩ := Store.exists_refusesAlong_of_write hwrite
      exact ⟨w, e, t, segment, haccept, he, ht, hrefused, herror⟩
  · rintro ⟨w, e, t, segment, haccept, he, ht, hrefused, rfl⟩
    rw [edit_of_accept hdrawn.mounted haccept, Synchronizer.onEdit_of_resolved he ht,
      Store.write_of_refusesAlong hrefused]
    rfl

/-! ## What is left behind -/

/-- An edit has left everything as it was. -/
structure IsUntouched (r : Renderer) (field : LiveField) (store : Store) (edited : Edited) :
    Prop where
  value : edited.field.control.value = field.control.value
  view : edited.field.view = field.view
  renderer : edited.renderer = r
  store : edited.store = store

/-- An edit that fails leaves the renderer and the store as they were, and the field too if it is
given what it has already. Any other value is shown although it was not written. -/
theorem isUntouched_edit_iff (hdrawn : field.IsDrawn)
    (hfails : (r.edit field v store).outcome = .error (.refused error)) :
    (r.edit field v store).renderer = r ∧ (r.edit field v store).store = store ∧
      (r.IsUntouched field store (r.edit field v store) ↔
        field.control.role.accept v = .ok field.control.current) := by
  obtain ⟨w, haccept, -, hedit⟩ := edit_of_fails hdrawn hfails
  have hvalue : (field.showing w).control.value = .ok w := if_pos hdrawn.mounted
  have hcurrent : field.control.value = .ok field.control.current := if_pos hdrawn.mounted
  rw [hedit, haccept]
  refine ⟨rfl, rfl, ?_, ?_⟩
  · intro huntouched
    have hsame : Except.ok w = Except.ok field.control.current :=
      (hvalue.symm.trans huntouched.value).trans hcurrent
    rw [Except.ok.inj hsame]
  · intro hsame
    obtain rfl := Except.ok.inj hsame
    rw [LiveField.showing_current hdrawn]
    exact ⟨rfl, rfl, rfl, rfl⟩

/-! ### A tag that is not there -/

/-- Where `INPUT[text:tags.5]` is bound to in the document `a.md`. -/
def sixthTag : Target := ⟨⟨"a.md"⟩, ⟨["tags", "5"]⟩⟩

/-- A document with two tags. -/
def tagsStore : Store :=
  { documents :=
      ⟨[(⟨"a.md"⟩, .mapping [(.string "tags", .sequence [.string "a", .string "b"])])]⟩ }

/-- The mounted control of a text field that shows nothing. -/
def tagControl : Control :=
  { type := .text, title := none, classes := [], alignRight := false, role := .text none "",
    isMounted := true, current := .string "" }

/-- The field for the sixth tag. -/
def tagField : LiveField := ⟨1, tagControl, tagControl.view⟩

/-- The renderer that has this field live. -/
def tagRenderer : Renderer :=
  { sync :=
      { registry :=
          { entries := ⟨[(1,
              { declaration := ⟨.text, [], true, some "tags.5", none⟩, context := ⟨"a.md"⟩,
                binding := .resolved sixthTag, rule := .text, default := .string "",
                lastKnown := .string "", unechoed := [], mailbox := {} })]⟩
            issued := 1 }
        index := ({} : FileIndex).insert ⟨"a.md"⟩ } }

theorem render_tag :
    ({ sync := { index := ({} : FileIndex).insert ⟨"a.md"⟩ } } : Renderer).render
      "INPUT[text:tags.5]" ⟨"a.md"⟩ tagsStore = .ok (.live tagField, tagRenderer) := by
  decide +kernel

theorem edit_tag_fails (text : String) :
    (tagRenderer.edit tagField (.string text) tagsStore).outcome =
      .error (.refused (.badIndex "5" "tags.5")) := by
  have hpath : sixthTag.path.text = "tags.5" := by decide +kernel
  rw [← hpath, edit_fails_iff (isDrawn_of_render render_tag)]
  refine ⟨.string text, _, sixthTag, "5", rfl, rfl, rfl, ?_, rfl⟩
  exact ⟨["tags"], [], .sequence [.string "a", .string "b"], rfl, rfl,
    Value.refuses_sequence_iff.2 (by decide +kernel)⟩

/-- Writing the empty text that the field shows fails, and nothing is changed. -/
theorem isUntouched_edit_tag :
    tagRenderer.IsUntouched tagField tagsStore
      (tagRenderer.edit tagField (.string "") tagsStore) :=
  (isUntouched_edit_iff (isDrawn_of_render render_tag) (edit_tag_fails "")).2.2.2 rfl

/-- Writing another text fails too, but the field shows it. -/
theorem exists_edit_not_isUntouched :
    ¬ ∀ (r : Renderer) (field : LiveField) (v : Value) (store : Store) (error : Error),
      field.IsDrawn → (r.edit field v store).outcome = .error (.refused error) →
        r.IsUntouched field store (r.edit field v store) := by
  intro hall
  have huntouched := hall tagRenderer tagField (.string "x") tagsStore _
    (isDrawn_of_render render_tag) (edit_tag_fails "x")
  exact absurd huntouched.value (by decide +kernel)

end Renderer

end BoundFields
