import BoundFields.Proofs.Metadata.Update

/-!
# Writes that are refused

A write gets stuck exactly if its path meets a sequence with a segment that is no index of it
(`put_snd_eq_some_iff`). This can only be in what was there before: once a part is missing, all that
follows is made anew, and nothing is refused in there. So a write that fails has changed nothing,
neither in the value (`put_stuck`) nor in the store, and a write that goes through replaces one
document and reports it once (`Store.write_allOrNothing`).
-/

set_option autoImplicit false

namespace BoundFields

namespace Value

/-- Segments lead to a sequence that refuses the next one of them. -/
def RefusesAlong (root : Value) (segments : List String) (segment : String) : Prop :=
  ∃ front rest v, segments = front ++ segment :: rest ∧ follow? front root = some v ∧
    v.Refuses segment

theorem not_refusesAlong_nil (root : Value) (segment : String) :
    ¬ root.RefusesAlong [] segment := by
  rintro ⟨front, rest, -, heq, -⟩
  exact List.append_ne_nil_of_right_ne_nil front (List.cons_ne_nil segment rest) heq.symm

/-- Behind a segment that leads somewhere, segments are refused as they are there. -/
theorem refusesAlong_cons_iff {root child : Value} {next : String}
    (hchild : root.child? next = some child) {more : List String} {segment : String} :
    root.RefusesAlong (next :: more) segment ↔ child.RefusesAlong more segment := by
  constructor
  · rintro ⟨front, rest, v, heq, hfollow, hrefuses⟩
    cases front with
    | nil =>
      obtain ⟨rfl, -⟩ := List.cons.inj heq
      obtain rfl : root = v := Option.some.inj hfollow
      exact absurd hrefuses (not_refuses_of_child? hchild)
    | cons first front =>
      obtain ⟨rfl, rfl⟩ := List.cons.inj heq
      rw [follow?, hchild, Option.bind_some] at hfollow
      exact ⟨front, rest, v, rfl, hfollow, hrefuses⟩
  · rintro ⟨front, rest, v, rfl, hfollow, hrefuses⟩
    refine ⟨next :: front, rest, v, rfl, ?_, hrefuses⟩
    rw [follow?, hchild, Option.bind_some, hfollow]

/-- A segment that leads nowhere is refused itself, or nothing behind it is refused. -/
theorem refusesAlong_cons_of_none {root : Value} {next : String} (hchild : root.child? next = none)
    {more : List String} {segment : String} :
    root.RefusesAlong (next :: more) segment ↔ root.Refuses next ∧ next = segment := by
  constructor
  · rintro ⟨front, rest, v, heq, hfollow, hrefuses⟩
    cases front with
    | nil =>
      obtain ⟨rfl, -⟩ := List.cons.inj heq
      obtain rfl : root = v := Option.some.inj hfollow
      exact ⟨hrefuses, rfl⟩
    | cons first front =>
      obtain ⟨rfl, -⟩ := List.cons.inj heq
      rw [follow?, hchild, Option.bind_none] at hfollow
      cases hfollow
  · rintro ⟨hrefuses, rfl⟩
    exact ⟨[], more, root, rfl, rfl, hrefuses⟩

/-- A write gets stuck at the segment that its path is refused at. -/
theorem put_snd_eq_some_iff {new root : Value} {segments : List String} {segment : String} :
    (put new segments root).2 = some segment ↔ root.RefusesAlong segments segment := by
  induction segments generalizing root with
  | nil => exact iff_of_false nofun (not_refusesAlong_nil root segment)
  | cons next more ih =>
    cases hchild : root.child? next with
    | some child =>
      rw [put_of_not_refuses (not_refuses_of_child? hchild), hchild, Option.getD_some, ih,
        refusesAlong_cons_iff hchild]
    | none =>
      -- What is missing counts as null, and in null nothing is refused any more.
      rw [refusesAlong_cons_of_none hchild]
      by_cases hrefuses : root.Refuses next
      · rw [put_of_refuses hrefuses, Option.some.injEq, and_iff_right hrefuses]
      · rw [put_of_not_refuses hrefuses, hchild, Option.getD_none, put_null]
        exact iff_of_false nofun fun h => hrefuses h.1

/-- A path leads to a sequence that refuses the next segment. -/
def IsRefused (root : Value) (path : FieldPath) : Prop :=
  ∃ segment, root.RefusesAlong path.segments segment

/-- A write fails where its path is refused, with the segment in the error, and leaves the value as
it was. -/
theorem writeAt_of_refusesAlong {root : Value} {path : FieldPath} {segment : String}
    (h : root.RefusesAlong path.segments segment) (v : Value) :
    root.writeAt path v = (.error (.badIndex segment path.text), root) := by
  have hstuck : (put v path.segments root).2 = some segment := put_snd_eq_some_iff.2 h
  have hput : put v path.segments root = (root, some segment) := Prod.ext (put_stuck hstuck) hstuck
  rw [writeAt, hput]

/-- Elsewhere it goes through. -/
theorem exists_writeAt_of_not_isRefused {root : Value} {path : FieldPath}
    (h : ¬ root.IsRefused path) (v : Value) : ∃ root', root.writeAt path v = (.ok (), root') := by
  refine ⟨(put v path.segments root).1, writeAt_eq_ok_iff.2 ⟨?_, rfl⟩⟩
  cases hstuck : (put v path.segments root).2 with
  | none => rfl
  | some segment => exact absurd ⟨segment, put_snd_eq_some_iff.1 hstuck⟩ h

end Value

namespace Store

/-- A write is refused where the document refuses its path, and leaves the store as it was. -/
theorem write_of_refusesAlong {s : Store} {t : Target} {segment : String}
    (h : ((s.snapshot? t.file).getD .null).RefusesAlong t.path.segments segment) (v : Value) :
    s.write t v = (.error (.badIndex segment t.path.text), s) := by
  have hrefused : (s.write t v).1 = .error (.badIndex segment t.path.text) := by
    unfold write
    simp only [Value.writeAt_of_refusesAlong h v]
  rcases s.write_cases t v with ⟨root, -, hwrite⟩ | ⟨error, hwrite⟩
  · rw [hwrite] at hrefused
    cases hrefused
  · rw [hwrite] at hrefused ⊢
    exact Prod.ext hrefused rfl

/-- No other write fails. -/
theorem exists_refusesAlong_of_write {s : Store} {t : Target} {v : Value} {error : Error}
    (h : (s.write t v).1 = .error error) :
    ∃ segment, ((s.snapshot? t.file).getD .null).RefusesAlong t.path.segments segment ∧
      error = .badIndex segment t.path.text := by
  by_cases hrefused : ((s.snapshot? t.file).getD .null).IsRefused t.path
  · obtain ⟨segment, hsegment⟩ := hrefused
    rw [write_of_refusesAlong hsegment] at h
    exact ⟨segment, hsegment, (Except.error.inj h).symm⟩
  · obtain ⟨root, hwrite⟩ := Value.exists_writeAt_of_not_isRefused hrefused v
    unfold write at h
    simp only [hwrite] at h
    cases h

/-- One store is another one with a document replaced, and one more change, which reports it. -/
structure HasReplaced (s s' : Store) (file : FileRef) (document : Value) : Prop where
  snapshot : s'.snapshot? file = some document
  others : ∀ other, other ≠ file → s'.snapshot? other = s.snapshot? other
  pending : s'.pending = s.pending ++ [⟨file, document⟩]

theorem hasReplaced_replace (s : Store) (file : FileRef) (document : Value) :
    s.HasReplaced (s.replace file document) file document := by
  refine ⟨?_, ?_, rfl⟩
  · rw [snapshot?_replace, if_pos rfl]
  · intro other hother
    rw [snapshot?_replace, if_neg (Ne.symm hother)]

/-- A write does all that it should, or nothing. It fails exactly where the path meets a sequence
with a segment that is no index of it, and then the value, and the store, are as they were.
Otherwise one document is replaced, by what the write makes of it, and this is reported once. -/
theorem write_allOrNothing (root : Value) (s : Store) (t : Target) (v : Value) :
    ((∃ error, (root.writeAt t.path v).1 = .error error) ↔ root.IsRefused t.path) ∧
      (∀ error, (root.writeAt t.path v).1 = .error error → (root.writeAt t.path v).2 = root) ∧
      (∀ error, (s.write t v).1 = .error error → (s.write t v).2 = s) ∧
      ((s.write t v).1 = .ok () → ∃ document,
        ((s.snapshot? t.file).getD .null).writeAt t.path v = (.ok (), document) ∧
          s.HasReplaced (s.write t v).2 t.file document) := by
  have hfails : (∃ error, (root.writeAt t.path v).1 = .error error) → root.IsRefused t.path := by
    rintro ⟨error, herror⟩
    by_contra hfree
    obtain ⟨root', hwrite⟩ := Value.exists_writeAt_of_not_isRefused hfree v
    rw [hwrite] at herror
    cases herror
  refine ⟨⟨hfails, ?_⟩, ?_, ?_, ?_⟩
  · rintro ⟨segment, hrefused⟩
    exact ⟨_, congrArg Prod.fst (Value.writeAt_of_refusesAlong hrefused v)⟩
  · intro error herror
    obtain ⟨segment, hrefused⟩ := hfails ⟨error, herror⟩
    rw [Value.writeAt_of_refusesAlong hrefused v]
  · intro error herror
    rcases s.write_cases t v with ⟨document, -, hwrite⟩ | ⟨failed, hwrite⟩
    · rw [hwrite] at herror
      cases herror
    · rw [hwrite]
  · intro hok
    have hwrite : s.write t v = (.ok (), (s.write t v).2) := Prod.ext hok rfl
    obtain ⟨hput, hstore⟩ := write_eq_ok_iff.1 hwrite
    refine ⟨_, Value.writeAt_eq_ok_iff.2 ⟨hput, rfl⟩, ?_⟩
    rw [hstore]
    exact hasReplaced_replace s t.file _

end Store

end BoundFields
