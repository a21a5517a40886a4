import BoundFields.Proofs.Declaration.Arguments
import BoundFields.Proofs.Declaration.Groups

/-!
# Declarations that are read are forms

The groups of a declaration are cut off by their brackets before anything in them is looked at, and
the body is read with other rules than it was cut off with. All the same, the reader takes exactly
the texts apart that have a form, and gives what the form says (`Form.ofText_eq_ok_iff`).
-/

set_option autoImplicit false

namespace BoundFields

open Text

namespace Form

/-! ## Bodies -/

theorem readTarget_iff {stop : Nat} {cs : List Char} {target : Option String} :
    readTarget stop cs = .ok target ↔
      ∃ t : Option Filled, trimStart cs = targetChars t ∧ t.map Filled.text = target := by
  unfold readTarget
  constructor
  · intro hread
    split at hread
    · next chars hstart =>
      split at hread
      · cases hread
      · next hfilled =>
        cases hread
        have hne : trim chars ≠ [] := by
          rw [Ne, trim_eq_nil_iff]
          exact hfilled
        exact ⟨some ⟨chars, hne⟩, hstart, rfl⟩
    · next hstart =>
      cases hread
      exact ⟨none, hstart, rfl⟩
    · cases hread
  · rintro ⟨t, hstart, rfl⟩
    rw [hstart]
    cases t with
    | none => rfl
    | some t =>
      have hfilled : isBlankText t.chars = false := by
        rw [← Bool.not_eq_true, ← trim_eq_nil_iff]
        exact t.filled
      simp only [targetChars, hfilled]
      rfl

theorem readArgumentGroup_of_open {stop : Nat} {cs inner : List Char}
    (h : trimStart cs = '(' :: inner) : readArgumentGroup stop cs = readArguments stop inner := by
  unfold readArgumentGroup
  rw [h]
  rfl

theorem readArgumentGroup_of_no_open {stop : Nat} {cs : List Char}
    (h : (trimStart cs).head? ≠ some '(') :
    readArgumentGroup stop cs = .ok ([], trimStart cs) := by
  unfold readArgumentGroup
  split
  · next hstart =>
    rw [hstart] at h
    exact absurd rfl h
  · rfl

/-- Behind the type of a body there may be arguments, and then a target. -/
theorem readBehindType_iff {start stop : Nat} {cs : List Char} (hstop : stop = start + cs.length)
    (raws : List RawArgument) (target : Option String) :
    (∃ behind, readArgumentGroup stop cs = .ok (raws, behind) ∧
        readTarget stop behind = .ok target) ↔
      ∃ (b : Blanks) (as : Option (Arguments × Blanks)) (t : Option Filled),
        cs = b.chars ++ (group '(' ')' Arguments.chars as ++ targetChars t) ∧
          groupRaws (start + b.chars.length) as = raws ∧ t.map Filled.text = target := by
  obtain ⟨before, hbefore⟩ := exists_blanks cs
  have hlength := (congrArg List.length hbefore).trans List.length_append
  constructor
  · rintro ⟨behind, hread, htarget⟩
    obtain ⟨t, hbehind, rfl⟩ := readTarget_iff.1 htarget
    by_cases hopen : (trimStart cs).head? = some '('
    · obtain ⟨inner, hstart⟩ := List.head?_eq_some_iff.1 hopen
      rw [readArgumentGroup_of_open hstart] at hread
      rw [hstart, List.length_cons] at hlength
      have hstop' : stop = start + before.chars.length + 1 + inner.length := by omega
      obtain ⟨as, rfl, rfl⟩ := (readArguments_iff hstop' behind raws).1 hread
      obtain ⟨b, rfl⟩ := (trimStart_eq_iff (endsBefore_targetChars (by decide) t)).1 hbehind
      refine ⟨before, some (as, b), t, ?_, rfl, rfl⟩
      rw [hbefore, hstart]
      simp only [group, List.cons_append, List.append_assoc]
    · rw [readArgumentGroup_of_no_open hopen] at hread
      obtain ⟨rfl, rfl⟩ := Prod.mk.inj (Except.ok.inj hread)
      rw [trimStart_trimStart] at hbehind
      refine ⟨before, none, t, ?_, rfl, rfl⟩
      rw [hbefore, hbehind]
      rfl
  · rintro ⟨b, as, t, hcs, rfl, rfl⟩
    have hstart := trimStart_append b (endsBefore_behindType (by decide) (by decide) as t)
    rw [← hcs] at hstart
    have htarget := endsBefore_targetChars (p := isBlank) (by decide) t
    cases as with
    | none =>
      have hopen : (trimStart cs).head? ≠ some '(' := by
        rw [hstart]
        exact head?_targetChars t
      refine ⟨_, readArgumentGroup_of_no_open hopen, readTarget_iff.2 ⟨t, ?_, rfl⟩⟩
      rw [hstart]
      exact trimStart_of_endsBefore htarget
    | some as =>
      obtain ⟨as, after⟩ := as
      simp only [group, List.cons_append, List.append_assoc] at hstart hcs
      have hlength := congrArg List.length hcs
      rw [List.length_append, List.length_cons] at hlength
      have hstop' : stop = start + b.chars.length + 1 +
          (as.chars ++ ')' :: (after.chars ++ targetChars t)).length := by omega
      refine ⟨after.chars ++ targetChars t, ?_,
        readTarget_iff.2 ⟨t, trimStart_append after htarget, rfl⟩⟩
      rw [readArgumentGroup_of_open hstart]
      exact (readArguments_iff hstop' _ _).2 ⟨as, rfl, rfl⟩

theorem readBody_of_name {stop : Nat} {cs name rest : List Char} {raw : RawBody}
    (hname : identifier? (trimStart cs) = some (name, rest)) :
    readBody stop cs = .ok raw ↔
      raw.type = some (String.ofList name, stop - (trimStart cs).length) ∧
        ∃ behind, readArgumentGroup stop rest = .ok (raw.arguments, behind) ∧
          readTarget stop behind = .ok raw.target := by
  unfold readBody
  split
  · next hnil =>
    rw [hnil] at hname
    cases hname
  · simp only [hname, Outcome.bind_eq_ok_iff, Prod.exists]
    constructor
    · rintro ⟨arguments, behind, hread, target, htarget, hraw⟩
      cases hraw
      exact ⟨rfl, behind, hread, htarget⟩
    · rintro ⟨htype, behind, hread, htarget⟩
      exact ⟨_, behind, hread, _, htarget, by rw [← htype]⟩

theorem readBody_of_no_name {stop : Nat} {cs : List Char} {raw : RawBody}
    (hfilled : trimStart cs ≠ []) (hname : identifier? (trimStart cs) = none) :
    readBody stop cs = .ok raw ↔
      raw.type = none ∧
        ∃ behind, readArgumentGroup stop (trimStart cs) = .ok (raw.arguments, behind) ∧
          readTarget stop behind = .ok raw.target := by
  unfold readBody
  split
  · next hnil => exact absurd hnil hfilled
  · simp only [hname, Outcome.bind_eq_ok_iff, Prod.exists]
    constructor
    · rintro ⟨arguments, behind, hread, target, htarget, hraw⟩
      cases hraw
      exact ⟨rfl, behind, hread, htarget⟩
    · rintro ⟨htype, behind, hread, htarget⟩
      exact ⟨_, behind, hread, _, htarget, by rw [← htype]⟩

theorem readBody_of_blank {stop : Nat} {cs : List Char} (h : trimStart cs = []) :
    readBody stop cs = .error ⟨.emptyDeclaration, some (stop - cs.length), none⟩ := by
  unfold readBody
  rw [h]

/-- The blanks of two runs that follow each other. -/
def Blanks.append (b b' : Blanks) : Blanks :=
  ⟨b.chars ++ b'.chars, by rw [isBlankText_append, b.blank, b'.blank, Bool.and_self]⟩

theorem exists_body_of_readBody {start stop : Nat} {cs : List Char}
    (hstop : stop = start + cs.length) {raw : RawBody} (h : readBody stop cs = .ok raw) :
    isBlankText cs = false ∧ ∃ b : Body, b.chars = cs ∧ b.raw start = raw := by
  obtain ⟨before, hbefore⟩ := exists_blanks cs
  have hlength := (congrArg List.length hbefore).trans List.length_append
  by_cases hblank : trimStart cs = []
  · rw [readBody_of_blank hblank] at h
    cases h
  · have hfilled : isBlankText cs = false := by
      rw [← Bool.not_eq_true, ← trimStart_eq_nil_iff]
      exact hblank
    refine ⟨hfilled, ?_⟩
    obtain ⟨type, arguments, target⟩ := raw
    cases hname : identifier? (trimStart cs) with
    | none =>
      obtain ⟨rfl, hbehind⟩ := (readBody_of_no_name hblank hname).1 h
      have hstop' : stop = start + before.chars.length + (trimStart cs).length := by omega
      obtain ⟨b, as, t, hcs, rfl, rfl⟩ := (readBehindType_iff hstop' _ _).1 hbehind
      -- With no name in between, the blanks that the two readers skip are one run.
      refine ⟨⟨before.append b, none, as, t⟩, ?_, ?_⟩
      · rw [hbefore, hcs]
        simp only [Body.chars, Blanks.append, typeChars, List.append_assoc, List.nil_append]
      · have hat : start + (before.append b).chars.length + (typeChars none).length =
            start + before.chars.length + b.chars.length := by
          simp only [Blanks.append, typeChars, List.length_append, List.length_nil]
          omega
        simp only [Body.raw, hat, Option.map_none]
    | some found =>
      obtain ⟨name, rest⟩ := found
      obtain ⟨rfl, hbehind⟩ := (readBody_of_name hname).1 h
      obtain ⟨-, n, rfl, hsplit⟩ := exists_name_of_identifier? hname
      have hlengths := (congrArg List.length hsplit).trans List.length_append
      have hstop' : stop = start + before.chars.length + n.chars.length + rest.length := by omega
      obtain ⟨b, as, t, rfl, rfl, rfl⟩ := (readBehindType_iff hstop' _ _).1 hbehind
      refine ⟨⟨before, some (n, b), as, t⟩, ?_, ?_⟩
      · rw [hbefore, hsplit]
        simp only [Body.chars, typeChars, List.append_assoc]
      · have hat : start + before.chars.length + (typeChars (some (n, b))).length =
            start + before.chars.length + n.chars.length + b.chars.length := by
          simp only [typeChars, List.length_append]
          omega
        have hposition : stop - (trimStart cs).length = start + before.chars.length := by omega
        simp only [Body.raw, hat, hposition, Option.map_some, Name.text]

theorem readBody_chars (b : Body) (hfilled : isBlankText b.chars = false) {start stop : Nat}
    (hstop : stop = start + b.chars.length) : readBody stop b.chars = .ok (b.raw start) := by
  have hblank : trimStart b.chars ≠ [] := by
    rw [Ne, trimStart_eq_nil_iff, hfilled]
    decide
  obtain ⟨before, type, as, t⟩ := b
  have hbehind {p : Char → Bool} (hopen : p '(' = false) (hcolon : p ':' = false) :=
    endsBefore_behindType hopen hcolon as t
  have hstart : trimStart (Body.chars ⟨before, type, as, t⟩) =
      typeChars type ++ (group '(' ')' Arguments.chars as ++ targetChars t) :=
    trimStart_append before (endsBefore_typeChars type (hbehind (by decide) (by decide)))
  have hlength : stop = start + before.chars.length + (typeChars type).length +
      (group '(' ')' Arguments.chars as ++ targetChars t).length := by
    have hsum : (Body.chars ⟨before, type, as, t⟩).length = before.chars.length +
        ((typeChars type).length +
          (group '(' ')' Arguments.chars as ++ targetChars t).length) := by
      show (before.chars ++ (typeChars type ++ _)).length = _
      rw [List.length_append, List.length_append]
    omega
  cases type with
  | none =>
    have hname : identifier? (trimStart (Body.chars ⟨before, none, as, t⟩)) = none := by
      rw [hstart]
      exact identifier?_eq_none_iff.2 (hbehind (by decide) (by decide))
    refine (readBody_of_no_name hblank hname).2 ⟨rfl, ?_⟩
    rw [hstart]
    exact (readBehindType_iff hlength _ _).2 ⟨⟨[], rfl⟩, as, t, rfl, rfl, rfl⟩
  | some type =>
    obtain ⟨n, after⟩ := type
    have hname : identifier? (trimStart (Body.chars ⟨before, some (n, after), as, t⟩)) =
        some (n.chars, after.chars ++ (group '(' ')' Arguments.chars as ++ targetChars t)) := by
      rw [hstart, typeChars, List.append_assoc]
      exact identifier?_chars_append n
        (endsBefore_append after.endsBefore_isIdentChar (hbehind (by decide) (by decide)))
    have hsum : (typeChars (some (n, after))).length = n.chars.length + after.chars.length :=
      List.length_append
    have hstop' : stop = start + before.chars.length + n.chars.length +
        (after.chars ++ (group '(' ')' Arguments.chars as ++ targetChars t)).length := by
      rw [List.length_append]
      omega
    have hposition : start + before.chars.length =
        stop - (trimStart (Body.chars ⟨before, some (n, after), as, t⟩)).length := by
      rw [hstart, List.length_append]
      omega
    refine (readBody_of_name hname).2 ⟨?_, ?_⟩
    · rw [← hposition]
      rfl
    · refine (readBehindType_iff hstop' _ _).2 ⟨after, as, t, rfl, ?_, rfl⟩
      unfold Body.raw
      rw [hsum, Nat.add_assoc _ n.chars.length]

/-! ## Declarations -/

/-- Where the body of a declaration text ends. -/
theorem stop_of_body {text head body after : List Char}
    (h : text = head ++ '[' :: (body ++ ']' :: after)) :
    text.length - after.length - 1 = head.length + 1 + body.length := by
  rw [h]
  simp only [List.length_append, List.length_cons]
  omega

theorem exists_declaration_of_ofChars {text : List Char} {raw : RawDeclaration}
    (h : RawDeclaration.ofChars text = .ok raw) :
    ∃ d : Declaration, d.chars = text ∧ d.raw = raw := by
  obtain ⟨before, hbefore⟩ := exists_blanks text
  unfold RawDeclaration.ofChars at h
  simp only at h
  split at h
  · next rest hinput =>
    obtain ⟨behindInput, hbehind⟩ := exists_blanks rest
    have htext : text =
        before.chars ++ ("INPUT".toList ++ (behindInput.chars ++ trimStart rest)) := by
      rw [← hbehind]
      exact hbefore.trans (congrArg (before.chars ++ ·) hinput)
    obtain ⟨groups, hgroups, hread⟩ := Outcome.bind_eq_ok_iff.1 h
    split at hread
    · cases hread
    · next g =>
      obtain ⟨b, hb, hpure⟩ := Outcome.bind_eq_ok_iff.1 hread
      cases hpure
      obtain ⟨after, hgroup, hclosed, hstop, hnil⟩ := readGroups_eq_cons_iff.1 hgroups
      have hsplit : text = (before.chars ++ ("INPUT".toList ++ (behindInput.chars ++ []))) ++
          '[' :: (g.inner ++ ']' :: after) := by
        rw [htext, hgroup]
        simp only [List.append_assoc, List.nil_append]
      rw [stop_of_body hsplit] at hstop
      obtain ⟨hfilled, form, hform, rfl⟩ := exists_body_of_readBody hstop hb
      rw [← hform] at hclosed hfilled hsplit
      exact ⟨⟨before, behindInput, none, form, ⟨after, readGroups_eq_nil_iff.1 hnil⟩, hclosed,
        hfilled⟩, hsplit.symm, rfl⟩
    · next t g =>
      split at hread
      · cases hread
      · next hnamed =>
        obtain ⟨b, hb, hpure⟩ := Outcome.bind_eq_ok_iff.1 hread
        cases hpure
        obtain ⟨rest', hfirst, hclosedName, -, hmore⟩ := readGroups_eq_cons_iff.1 hgroups
        obtain ⟨after, hgroup, hclosed, hstop, hnil⟩ := readGroups_eq_cons_iff.1 hmore
        -- The name of the template is only trimmed, so that any closed text can be one.
        obtain ⟨between, hbetween⟩ := exists_blanks rest'
        have hname : trim t.inner ≠ [] := by
          rw [Ne, trim_eq_nil_iff]
          exact hnamed
        have hsplit : text = (before.chars ++ ("INPUT".toList ++ (behindInput.chars ++
            group '[' ']' Template.chars (some (⟨⟨t.inner, hname⟩, hclosedName⟩, between))))) ++
              '[' :: (g.inner ++ ']' :: after) := by
          rw [htext, hfirst, hbetween, hgroup]
          simp only [group, Template.chars, List.append_assoc, List.cons_append]
        rw [stop_of_body hsplit] at hstop
        obtain ⟨hfilled, form, hform, rfl⟩ := exists_body_of_readBody hstop hb
        rw [← hform] at hclosed hfilled hsplit
        exact ⟨⟨before, behindInput, some (⟨⟨t.inner, hname⟩, hclosedName⟩, between), form,
          ⟨after, readGroups_eq_nil_iff.1 hnil⟩, hclosed, hfilled⟩, hsplit.symm, rfl⟩
    · cases hread
  · cases h

theorem ofChars_chars (d : Declaration) : RawDeclaration.ofChars d.chars = .ok d.raw := by
  have hstop : d.chars.length - d.after.chars.length - 1 =
      d.head.length + 1 + d.body.chars.length := stop_of_body rfl
  have hbody := readBody_chars d.body d.filled hstop
  have hbracket (cs : List Char) : EndsBefore isBlank ('[' :: cs) := endsBefore_cons (by decide) cs
  have hstart : trimStart d.chars = "INPUT".toList ++ (d.behindInput.chars ++
      (group '[' ']' Template.chars d.template ++
        '[' :: (d.body.chars ++ ']' :: d.after.chars))) := by
    simp only [Declaration.chars, Declaration.head, List.append_assoc]
    exact trimStart_append d.before (endsBefore_cons (by decide) _)
  have hlast (b : Blanks) : readGroups d.chars.length
      (b.chars ++ '[' :: (d.body.chars ++ ']' :: d.after.chars)) =
        .ok [⟨d.body.chars, d.chars.length - d.after.chars.length - 1⟩] :=
    readGroups_eq_cons_iff.2 ⟨d.after.chars, trimStart_append b (hbracket _), d.closed, rfl,
      readGroups_eq_nil_iff.2 d.after.blank⟩
  cases htemplate : d.template with
  | none =>
    rw [htemplate] at hstart
    rw [ofChars_of_body hstart (hlast d.behindInput) hbody, Declaration.raw, htemplate]
    rfl
  | some template =>
    obtain ⟨t, between⟩ := template
    rw [htemplate] at hstart
    simp only [group, List.cons_append, List.append_assoc] at hstart
    have hgroups : readGroups d.chars.length (d.behindInput.chars ++ '[' :: (t.chars ++ ']' ::
        (between.chars ++ '[' :: (d.body.chars ++ ']' :: d.after.chars)))) =
          .ok [⟨t.chars, _⟩, _] :=
      readGroups_eq_cons_iff.2 ⟨_, trimStart_append d.behindInput (hbracket _), t.closed, rfl,
        hlast between⟩
    have hnamed : isBlankText t.chars = false := by
      rw [← Bool.not_eq_true, ← trim_eq_nil_iff]
      exact t.name.filled
    rw [ofChars_of_templateAndBody hstart hgroups hnamed hbody, Declaration.raw, htemplate]
    rfl

/-- A declaration text is taken apart exactly if it has a form, and it says what its form says; no
text has two forms. -/
theorem ofText_eq_ok_iff :
    (∀ (text : String) (raw : RawDeclaration), RawDeclaration.ofText text = .ok raw ↔
      ∃ d : Declaration, d.chars = text.toList ∧ d.raw = raw) ∧
        Function.Injective Declaration.chars := by
  refine ⟨?_, Declaration.chars_injective⟩
  intro text raw
  unfold RawDeclaration.ofText
  constructor
  · intro h
    exact exists_declaration_of_ofChars h
  · rintro ⟨d, hd, rfl⟩
    rw [← hd]
    exact ofChars_chars d

/-- Quotes hide a bracket from the groups wherever they stand, but make a value quoted only where
they start it. -/
example : RawDeclaration.ofText "INPUT[text(title(see \"a]\"))]" =
    .ok ⟨none, { type := some ("text", 6), arguments := [⟨"title", some "see \"a]\"", 11⟩] }⟩ := by
  decide +kernel

end Form

end BoundFields
