import BoundFields.Proofs.Declaration.Printed
import BoundFields.Proofs.Outcome

/-!
# The groups of a declaration

A declaration text is `INPUT` and one or two bracket groups. `IsGroups` says what the groups of a
text are without saying how they are found; the reader finds exactly these
(`readGroups_iff`). What is read from a text is told by its groups
(`exists_groups_of_ofChars`), and the groups of a printed declaration are the template name and the
body if these are closed.
-/

set_option autoImplicit false

namespace BoundFields

open Text

/-! ## Groups -/

/-- The texts between the brackets of the groups that a text consists of. -/
inductive IsGroups : List Char → List (List Char) → Prop where
  | nil {cs : List Char} (blank : isBlankText cs = true) : IsGroups cs []
  | cons {cs inner rest : List Char} {inners : List (List Char)}
      (start : trimStart cs = '[' :: (inner ++ ']' :: rest)) (closed : IsClosed inner)
      (more : IsGroups rest inners) : IsGroups cs (inner :: inners)

/-- What is left behind a group is shorter than the text. -/
theorem length_lt_of_group {cs inner rest : List Char}
    (h : trimStart cs = '[' :: (inner ++ ']' :: rest)) : rest.length + 1 < cs.length := by
  have hle := length_trimStart_le cs
  rw [h] at hle
  simp only [List.length_cons, List.length_append] at hle
  omega

/-- With fuel for every character, the reader does not run out of it. -/
theorem readGroupsWithin_congr {fuel fuel' stop : Nat} {cs : List Char} (h : cs.length < fuel)
    (h' : cs.length < fuel') : readGroupsWithin fuel stop cs = readGroupsWithin fuel' stop cs := by
  induction fuel generalizing fuel' cs with
  | zero => exact absurd h (Nat.not_lt_zero _)
  | succ fuel ih =>
    obtain ⟨fuel', rfl⟩ := Nat.exists_eq_succ_of_ne_zero (Nat.ne_of_gt (Nat.zero_lt_of_lt h'))
    unfold readGroupsWithin
    split
    · rfl
    · next more hstart =>
      split
      · rfl
      · next inner rest hsplit =>
        obtain ⟨rfl, -⟩ := BracketState.splitGroup_eq_some_iff.1 hsplit
        have hlt := length_lt_of_group hstart
        rw [ih (show rest.length < fuel by omega) (show rest.length < fuel' by omega)]
    · rfl

theorem readGroups_eq_nil_iff {stop : Nat} {cs : List Char} :
    readGroups stop cs = .ok [] ↔ isBlankText cs = true := by
  rw [← trimStart_eq_nil_iff]
  unfold readGroups readGroupsWithin
  split
  · next hnil => exact iff_of_true rfl hnil
  · next hstart =>
    rw [hstart]
    refine iff_of_false ?_ (by simp)
    split
    · simp
    · simp only [Outcome.bind_eq_ok_iff]
      rintro ⟨groups, -, hcons⟩
      cases hcons
  · next hnil _ => exact iff_of_false (by simp) hnil

/-- A group is followed by the other groups. -/
theorem readGroups_eq_cons_iff {stop : Nat} {cs : List Char} {g : BracketGroup}
    {groups : List BracketGroup} :
    readGroups stop cs = .ok (g :: groups) ↔
      ∃ rest, trimStart cs = '[' :: (g.inner ++ ']' :: rest) ∧ IsClosed g.inner ∧
        g.stop = stop - rest.length - 1 ∧ readGroups stop rest = .ok groups := by
  have hfuel {rest : List Char} (hstart : trimStart cs = '[' :: (g.inner ++ ']' :: rest)) :
      readGroupsWithin cs.length stop rest = readGroups stop rest := by
    have hlt := length_lt_of_group hstart
    exact readGroupsWithin_congr (by omega) (Nat.lt_succ_self _)
  constructor
  · intro hread
    unfold readGroups readGroupsWithin at hread
    split at hread
    · cases hread
    · next more hstart =>
      split at hread
      · cases hread
      · next inner rest hsplit =>
        obtain ⟨groups', hgroups, hcons⟩ := Outcome.bind_eq_ok_iff.1 hread
        cases hcons
        obtain ⟨rfl, hclosed⟩ := BracketState.splitGroup_eq_some_iff.1 hsplit
        exact ⟨rest, hstart, hclosed, rfl, (hfuel hstart).symm.trans hgroups⟩
    · cases hread
  · rintro ⟨rest, hstart, hclosed, hstop, hgroups⟩
    rw [← hfuel hstart] at hgroups
    unfold readGroups readGroupsWithin
    rw [hstart]
    simp only [BracketState.splitGroup_eq_some_iff.2 ⟨rfl, hclosed⟩, hgroups, bind, Except.bind]
    rw [← hstop]

/-- The reader finds the groups of a text. -/
theorem readGroups_iff (stop : Nat) {cs : List Char} {inners : List (List Char)} :
    (∃ groups, readGroups stop cs = .ok groups ∧ groups.map (·.inner) = inners) ↔
      IsGroups cs inners := by
  constructor
  · rintro ⟨groups, hread, rfl⟩
    induction groups generalizing cs with
    | nil => exact .nil (readGroups_eq_nil_iff.1 hread)
    | cons g groups ih =>
      obtain ⟨rest, hstart, hclosed, -, hmore⟩ := readGroups_eq_cons_iff.1 hread
      exact .cons hstart hclosed (ih hmore)
  · intro h
    induction h with
    | nil blank => exact ⟨[], readGroups_eq_nil_iff.2 blank, rfl⟩
    | @cons _ inner rest _ start closed _ ih =>
      obtain ⟨groups, hmore, rfl⟩ := ih
      exact ⟨⟨inner, stop - rest.length - 1⟩ :: groups,
        readGroups_eq_cons_iff.2 ⟨rest, start, closed, rfl, hmore⟩, rfl⟩

/-! ## Declarations as written -/

/-- What a declaration was read from: the body alone, or the template name and the body. -/
inductive IsReadFrom (raw : RawDeclaration) : List (List Char) → Prop where
  | body {body : List Char} {stop : Nat} (template : raw.template = none)
      (read : readBody stop body = .ok raw.body) : IsReadFrom raw [body]
  | templateAndBody {name body : List Char} {stop : Nat} (named : isBlankText name = false)
      (template : raw.template = some (String.ofList (trim name)))
      (read : readBody stop body = .ok raw.body) : IsReadFrom raw [name, body]

/-- What was read from a text was read from its groups. -/
theorem exists_groups_of_ofChars {text : List Char} {raw : RawDeclaration}
    (h : RawDeclaration.ofChars text = .ok raw) :
    ∃ rest inners, trimStart text = "INPUT".toList ++ rest ∧ IsGroups rest inners ∧
      IsReadFrom raw inners := by
  unfold RawDeclaration.ofChars at h
  simp only at h
  split at h
  · next rest hstart =>
    -- One group is the body, two are the template name and the body, and more are an error.
    obtain ⟨groups, hgroups, hread⟩ := Outcome.bind_eq_ok_iff.1 h
    have his := (readGroups_iff _).1 ⟨groups, hgroups, rfl⟩
    refine ⟨rest, groups.map (·.inner), hstart, his, ?_⟩
    split at hread
    · cases hread
    · next body =>
      obtain ⟨b, hb, hpure⟩ := Outcome.bind_eq_ok_iff.1 hread
      cases hpure
      exact .body rfl hb
    · next template body =>
      split at hread
      · cases hread
      · next hnamed =>
        obtain ⟨b, hb, hpure⟩ := Outcome.bind_eq_ok_iff.1 hread
        cases hpure
        exact .templateAndBody (by simpa using hnamed) rfl hb
    · cases hread
  · cases h

/-- One group is the body. -/
theorem ofChars_of_body {text rest : List Char} {g : BracketGroup} {b : RawBody}
    (hstart : trimStart text = "INPUT".toList ++ rest)
    (hgroups : readGroups text.length rest = .ok [g]) (hbody : readBody g.stop g.inner = .ok b) :
    RawDeclaration.ofChars text = .ok ⟨none, b⟩ := by
  have hinput : trimStart text = 'I' :: 'N' :: 'P' :: 'U' :: 'T' :: rest := hstart
  unfold RawDeclaration.ofChars
  simp only [hinput, hgroups, hbody, bind, Except.bind]

/-- Two groups are the template name and the body. -/
theorem ofChars_of_templateAndBody {text rest : List Char} {t g : BracketGroup} {b : RawBody}
    (hstart : trimStart text = "INPUT".toList ++ rest)
    (hgroups : readGroups text.length rest = .ok [t, g]) (hname : isBlankText t.inner = false)
    (hbody : readBody g.stop g.inner = .ok b) :
    RawDeclaration.ofChars text = .ok ⟨some (String.ofList (trim t.inner)), b⟩ := by
  have hinput : trimStart text = 'I' :: 'N' :: 'P' :: 'U' :: 'T' :: rest := hstart
  unfold RawDeclaration.ofChars
  simp only [hinput, hgroups, hbody, hname, bind, Except.bind, Bool.false_eq_true, if_false]

/-- A text that is one group is a declaration if the group is a body. -/
theorem ofChars_of_isGroups_body {rest body : List Char} {P : RawBody → Prop}
    (hgroups : IsGroups rest [body]) (hbody : ∀ stop, ∃ b, readBody stop body = .ok b ∧ P b) :
    ∃ raw, RawDeclaration.ofChars ("INPUT".toList ++ rest) = .ok raw ∧ raw.template = none ∧
      P raw.body := by
  obtain ⟨groups, hread, hinners⟩ :=
    (readGroups_iff ("INPUT".toList ++ rest).length).2 hgroups
  obtain ⟨group, rfl, rfl⟩ := List.map_eq_singleton_iff.1 hinners
  obtain ⟨b, hb, hP⟩ := hbody group.stop
  exact ⟨⟨none, b⟩, ofChars_of_body (trimStart_cons_of_not_blank (by decide)) hread hb, rfl, hP⟩

/-- A text of two groups is a declaration if the first one is not blank and the second one is a
body. -/
theorem ofChars_of_isGroups_templateAndBody {rest name body : List Char} {P : RawBody → Prop}
    (hgroups : IsGroups rest [name, body]) (hname : isBlankText name = false)
    (hbody : ∀ stop, ∃ b, readBody stop body = .ok b ∧ P b) :
    ∃ raw, RawDeclaration.ofChars ("INPUT".toList ++ rest) = .ok raw ∧
      raw.template = some (String.ofList (trim name)) ∧ P raw.body := by
  obtain ⟨groups, hread, hinners⟩ :=
    (readGroups_iff ("INPUT".toList ++ rest).length).2 hgroups
  obtain ⟨first, more, rfl, rfl, hmore⟩ := List.map_eq_cons_iff.1 hinners
  obtain ⟨second, rfl, rfl⟩ := List.map_eq_singleton_iff.1 hmore
  obtain ⟨b, hb, hP⟩ := hbody second.stop
  have hraw := ofChars_of_templateAndBody (trimStart_cons_of_not_blank (by decide)) hread hname hb
  exact ⟨_, hraw, rfl, hP⟩

/-- A bind target that was read has no blanks at its ends and is not empty. -/
theorem trim_of_readBody {stop : Nat} {cs : List Char} {b : RawBody} {t : String}
    (h : readBody stop cs = .ok b) (ht : b.target = some t) :
    trim t.toList = t.toList ∧ isBlankString t = false := by
  unfold readBody at h
  split at h
  · cases h
  · obtain ⟨⟨arguments, rest⟩, -, h⟩ := Outcome.bind_eq_ok_iff.1 h
    obtain ⟨target, htarget, hpure⟩ := Outcome.bind_eq_ok_iff.1 h
    cases hpure
    obtain rfl : target = some t := ht
    unfold readTarget at htarget
    split at htarget
    · next cs' _ =>
      split at htarget
      · cases htarget
      · next hblank =>
        cases htarget
        refine ⟨by rw [String.toList_ofList, trim_trim], ?_⟩
        unfold isBlankString
        rw [String.toList_ofList, isBlankText_trim]
        exact Bool.eq_false_iff.2 hblank
    · cases htarget
    · cases htarget

/-! ## Printed declarations -/

namespace Declaration

/-- The type and the arguments as they are printed. -/
def printedHead (d : Declaration) : List Char := d.fieldType.name.toList ++ d.printedArguments

/-- The target as it is printed, behind a colon. -/
def printedTarget (d : Declaration) : List Char :=
  match d.target with
  | some target => ':' :: target.toList
  | none => []

/-- What is printed between the last two brackets. -/
def printedBody (d : Declaration) : List Char := d.printedHead ++ d.printedTarget

/-- The name of the template as it is printed, between brackets. -/
def printedTemplate (d : Declaration) : List Char :=
  match d.templateName with
  | some name => '[' :: (name.toList ++ [']'])
  | none => []

theorem toList_text (d : Declaration) :
    d.text.toList =
      "INPUT".toList ++ (d.printedTemplate ++ '[' :: (d.printedBody ++ [']'])) := by
  unfold text printedTemplate printedBody printedHead printedTarget printedArguments
  cases d.templateName <;> cases d.target <;> cases d.arguments.isEmpty <;> simp

theorem isClosed_printedHead (d : Declaration) : IsClosed d.printedHead :=
  (isClosed_append_iff d.fieldType.isClosed_name _).2 d.isClosed_printedArguments

/-- Only the target can keep a printed body from being closed. -/
theorem isClosed_printedBody_iff (d : Declaration) :
    IsClosed d.printedBody ↔ ∀ t, d.target = some t → IsClosed t.toList := by
  have hcolon : IsClosed [':'] := by decide
  unfold printedBody
  rw [isClosed_append_iff d.isClosed_printedHead]
  unfold printedTarget
  cases d.target with
  | none => exact ⟨fun _ t ht => absurd ht (by simp), fun _ => isClosed_nil⟩
  | some target =>
    have hskip := isClosed_append_iff hcolon target.toList
    constructor
    · intro h t ht
      obtain rfl := Option.some.inj ht
      exact hskip.1 h
    · intro h
      exact hskip.2 (h target rfl)

theorem printedTarget_cases (d : Declaration) :
    d.printedTarget = [] ∨ ∃ more, d.printedTarget = ':' :: more := by
  unfold printedTarget
  cases d.target with
  | none => exact .inl rfl
  | some target => exact .inr ⟨_, rfl⟩

/-- The type is read up to the arguments or the target, neither of which goes on with a letter. -/
theorem identifier?_printedBody (d : Declaration) :
    identifier? d.printedBody =
      some (d.fieldType.name.toList, d.printedArguments ++ d.printedTarget) := by
  unfold printedBody printedHead
  rw [List.append_assoc]
  refine identifier?_append d.fieldType.identifier?_name fun c more hc => ?_
  unfold printedArguments at hc
  split at hc
  · rw [List.nil_append] at hc
    rcases d.printedTarget_cases with hnil | ⟨more', hcolon⟩
    · rw [hnil] at hc
      cases hc
    · obtain ⟨rfl, -⟩ := List.cons.inj (hcolon.symm.trans hc)
      decide
  · obtain ⟨rfl, -⟩ := List.cons.inj hc
    decide

theorem readTarget_printedTarget (stop : Nat) {d : Declaration}
    (hblank : ∀ t, d.target = some t → isBlankString t = false) :
    readTarget stop d.printedTarget = .ok (d.target.map trimmed) := by
  unfold printedTarget
  cases ht : d.target with
  | none => rfl
  | some target =>
    have hcolon : trimStart (':' :: target.toList) = ':' :: target.toList :=
      trimStart_cons_of_not_blank (by decide)
    have hnot : isBlankText target.toList = false := hblank target ht
    unfold readTarget
    simp only [hcolon, hnot, Bool.false_eq_true, if_false]
    rfl

/-- The body of a printed declaration is read back, with the target trimmed. -/
theorem readBody_printed (stop : Nat) (d : Declaration)
    (hblank : ∀ t, d.target = some t → isBlankString t = false) :
    ∃ b, readBody stop d.printedBody = .ok b ∧ b.type.map (·.1) = some d.fieldType.name ∧
      b.arguments.map RawArgument.written = d.arguments.map Argument.written ∧
      b.target = d.target.map trimmed := by
  obtain ⟨raws, hargs, hwritten⟩ := readArgumentGroup_printed stop d d.printedTarget_cases
  have hname := d.identifier?_printedBody
  have htarget := readTarget_printedTarget stop hblank
  have hstart : ∃ c cs, d.printedBody = c :: cs ∧ isBlank c = false := by
    unfold printedBody printedHead
    cases d.fieldType <;> exact ⟨_, _, rfl, by decide⟩
  obtain ⟨c, cs, hbody, hc⟩ := hstart
  refine ⟨{ type := some (d.fieldType.name, stop - (c :: cs).length), arguments := raws,
            target := d.target.map trimmed }, ?_, rfl, hwritten, rfl⟩
  rw [hbody] at hname ⊢
  unfold readBody
  rw [trimStart_cons_of_not_blank hc]
  simp only [hname, hargs, htarget, bind, Except.bind, String.ofList_toList]

end Declaration

end BoundFields
