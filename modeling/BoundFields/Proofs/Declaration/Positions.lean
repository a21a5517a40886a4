import BoundFields.Proofs.Declaration.Agreement

/-!
# Where the names of a declaration stand

The positions in the outcome of reading a declaration are offsets into its text, counted in
characters. The position of an error is not behind the end of the text, and the few characters that
an error quotes are the ones that stand there; the type and the arguments of what was read stand at
the positions they come with, the type first and the arguments one behind the other
(`isLocated_ofText`).

Reading by index comes to the same outcome on every text. It would end early at a piece that is not
in the text and at a count that is taken below zero, so neither ever happens. The groups of a text
are found first, in the text as a whole; the body is read a second time from the text up to the
bracket behind the body, which leaves every position as it is (`Agree.of_take`).
-/

set_option autoImplicit false

namespace BoundFields

open Text

/-! ## Names in a body -/

/-- The names of a body stand in the text where the body says, the type first and the arguments one
behind the other. -/
structure RawBody.IsLocatedIn (body : RawBody) (text : List Char) : Prop where
  type_stands : ∀ name position, body.type = some (name, position) →
    StandsAt text position name.toList
  argument_stands : ∀ a ∈ body.arguments, StandsAt text a.position a.name.toList
  ascending : body.arguments.Pairwise (·.position < ·.position)
  behind_type : ∀ name position, body.type = some (name, position) →
    ∀ a ∈ body.arguments, position + name.length < a.position

/-- What stands in the front of a text stands in the text. -/
theorem RawBody.IsLocatedIn.of_take {body : RawBody} {text : List Char} {stop : Nat}
    (h : body.IsLocatedIn (text.take stop)) : body.IsLocatedIn text :=
  ⟨fun name position htype => (h.type_stands name position htype).of_take,
    fun a ha => (h.argument_stands a ha).of_take, h.ascending, h.behind_type⟩

namespace Walk

variable {chars : List Char}

/-! ## Arguments -/

theorem agree_argumentValue {pos : Nat} (h : pos ≤ chars.length) :
    Agree chars (Reached chars fun _ stop => pos ≤ stop) (argumentValue chars pos)
      (readArgumentValue chars.length (chars.drop pos)) := by
  obtain ⟨start, hskip, htrim, hle, hlength⟩ := exists_skipBlanks h
  rw [argumentValue, readArgumentValue, hskip, htrim]
  by_cases hc : chars[start]? = some '('
  · simp only [if_pos hc, drop_of_getElem? hc]
    apply (agree_value (lt_length_of_getElem? chars hc)).bind
    rintro ⟨text, stop⟩ ⟨_, _⟩ ⟨hstop, hlt⟩
    obtain ⟨behind, hskip, htrim, hstep, hbehind⟩ := exists_skipBlanks hstop
    simp only [hskip, htrim]
    by_cases hclose : chars[behind]? = some ')'
    · simp only [if_pos hclose, drop_of_getElem? hclose]
      exact .read (.intro (lt_length_of_getElem? chars hclose) (by omega))
    · simp only [if_neg hclose]
      split
      · next rest hrest => exact absurd (getElem?_of_drop hrest).1 hclose
      · exact .refuse _ hbehind
  · simp only [if_neg hc]
    split
    · next inner hinner => exact absurd (getElem?_of_drop hinner).1 hc
    · exact .read (.intro hlength hle)

/-- An argument is read alike; its name stands where it says, not before `pos` and before what is
read next. -/
theorem agree_argument {pos : Nat} (h : pos ≤ chars.length) :
    Agree chars
      (Reached chars fun a stop =>
        StandsAt chars a.position a.name.toList ∧ pos ≤ a.position ∧ a.position < stop)
      (argument chars pos) (readArgument chars.length (chars.drop pos)) := by
  obtain ⟨start, hskip, htrim, hle, hlength⟩ := exists_skipBlanks h
  simp only [argument, readArgument, hskip, htrim, length_sub_length_drop hlength]
  rcases name_spec hlength with ⟨hread, hwalk⟩ | ⟨found, behind, hread, hwalk, hlt, hfound⟩
  · rw [hread, hwalk]
    exact .refuse _ hlength
  · rw [hread, hwalk]
    apply (agree_argumentValue hfound.stop_le).bind
    rintro ⟨text, stop⟩ ⟨_, _⟩ ⟨hstop, hbehind⟩
    refine .read (.intro hstop ⟨?_, hle, ?_⟩)
    · rw [String.toList_ofList]
      exact hfound.standsAt
    · exact Nat.lt_of_lt_of_le hlt hbehind

/-- Arguments whose names stand where they say, from `start` on and one behind the other. -/
structure ArgumentsFrom (chars : List Char) (start : Nat) (arguments : List RawArgument) :
    Prop where
  stands : ∀ a ∈ arguments, StandsAt chars a.position a.name.toList
  start_le : ∀ a ∈ arguments, start ≤ a.position
  ascending : arguments.Pairwise (·.position < ·.position)

namespace ArgumentsFrom

variable {start next : Nat} {a : RawArgument} {arguments : List RawArgument}

theorem nil : ArgumentsFrom chars start [] :=
  ⟨fun _ h => absurd h List.not_mem_nil, fun _ h => absurd h List.not_mem_nil, .nil⟩

theorem cons (hstands : StandsAt chars a.position a.name.toList) (hle : start ≤ a.position)
    (hlt : a.position < next) (h : ArgumentsFrom chars next arguments) :
    ArgumentsFrom chars start (a :: arguments) := by
  refine ⟨List.forall_mem_cons.2 ⟨hstands, h.stands⟩,
    List.forall_mem_cons.2 ⟨hle, fun b hb => ?_⟩, .cons (fun b hb => ?_) h.ascending⟩
  · exact Nat.le_trans hle (Nat.le_trans (Nat.le_of_lt hlt) (h.start_le b hb))
  · exact Nat.lt_of_lt_of_le hlt (h.start_le b hb)

theorem of_le (hle : start ≤ next) (h : ArgumentsFrom chars next arguments) :
    ArgumentsFrom chars start arguments :=
  ⟨h.stands, fun a ha => Nat.le_trans hle (h.start_le a ha), h.ascending⟩

end ArgumentsFrom

/-- Arguments are read alike. Every argument takes a character, so neither of the two runs out of
fuel if it has some for every character left. -/
theorem agree_argumentsWithin {fuel fuel' pos : Nat} (h : pos ≤ chars.length)
    (hfuel : chars.length - pos < fuel) (hfuel' : chars.length - pos < fuel') :
    Agree chars (Reached chars fun arguments _ => ArgumentsFrom chars pos arguments)
      (argumentsWithin chars fuel pos)
      (readArgumentsWithin fuel' chars.length (chars.drop pos)) := by
  induction fuel generalizing fuel' pos with
  | zero => exact absurd hfuel (Nat.not_lt_zero _)
  | succ fuel ih =>
    obtain ⟨fuel', rfl⟩ := Nat.exists_eq_succ_of_ne_zero (Nat.ne_zero_of_lt hfuel')
    rw [argumentsWithin, readArgumentsWithin]
    apply (agree_argument h).bind
    rintro ⟨a, stop⟩ ⟨_, _⟩ ⟨hstop, hstands, hle, hlt⟩
    obtain ⟨behind, hskip, htrim, hstep, hbehind⟩ := exists_skipBlanks hstop
    simp only [hskip, htrim]
    by_cases hcomma : chars[behind]? = some ','
    · have hnext := lt_length_of_getElem? chars hcomma
      simp only [if_pos hcomma, drop_of_getElem? hcomma]
      apply (ih hnext (by omega) (by omega)).bind
      rintro ⟨others, last⟩ ⟨_, _⟩ ⟨hlast, hothers⟩
      exact .read (.intro hlast (.cons hstands hle (by omega) hothers))
    · by_cases hclose : chars[behind]? = some ')'
      · simp only [if_neg hcomma, if_pos hclose, drop_of_getElem? hclose]
        exact .read (.intro (lt_length_of_getElem? chars hclose) (.cons hstands hle hlt .nil))
      · simp only [if_neg hcomma, if_neg hclose]
        split
        · next rest hrest => exact absurd (getElem?_of_drop hrest).1 hcomma
        · next rest hrest => exact absurd (getElem?_of_drop hrest).1 hclose
        · exact .refuse _ hbehind

/-- The arguments between parentheses are read alike; their names stand behind the opening one. -/
theorem agree_argumentGroup {pos : Nat} (h : pos ≤ chars.length) :
    Agree chars (Reached chars fun arguments _ => ArgumentsFrom chars (pos + 1) arguments)
      (argumentGroup chars pos) (readArgumentGroup chars.length (chars.drop pos)) := by
  obtain ⟨start, hskip, htrim, hle, hlength⟩ := exists_skipBlanks h
  simp only [argumentGroup, readArgumentGroup, hskip, htrim]
  by_cases hc : chars[start]? = some '('
  · obtain ⟨first, hskip, htrim, hstep, hfirst⟩ :=
      exists_skipBlanks (lt_length_of_getElem? chars hc)
    simp only [if_pos hc, drop_of_getElem? hc, readArguments, hskip, htrim]
    by_cases hclose : chars[first]? = some ')'
    · simp only [if_pos hclose, drop_of_getElem? hclose]
      exact .read (.intro (lt_length_of_getElem? chars hclose) .nil)
    · simp only [if_neg hclose]
      split
      · next rest hrest => exact absurd (getElem?_of_drop hrest).1 hclose
      · have hfuel : chars.length - first < (chars.drop first).length + 1 := by
          rw [List.length_drop]
          omega
        apply (agree_argumentsWithin hfirst (by omega) hfuel).mono
        rintro _ _ ⟨hlast, harguments⟩
        exact .intro hlast (harguments.of_le (by omega))
  · simp only [if_neg hc]
    split
    · next inner hinner => exact absurd (getElem?_of_drop hinner).1 hc
    · exact .read (.intro hlength .nil)

/-! ## Bodies -/

/-- The bind target is read alike. -/
theorem agree_target {pos : Nat} (h : pos ≤ chars.length) :
    Agree chars Eq (target chars pos) (readTarget chars.length (chars.drop pos)) := by
  obtain ⟨start, hskip, htrim, hle, hlength⟩ := exists_skipBlanks h
  rw [target, readTarget, hskip, htrim]
  by_cases hc : chars[start]? = some ':'
  · have hpart : Between chars (start + 1) chars.length (chars.drop (start + 1)) :=
      ⟨lt_length_of_getElem? chars hc, Nat.le_refl _, by
        rw [List.drop_length, List.append_nil]⟩
    simp only [if_pos hc, drop_of_getElem? hc, hpart.slice_eq, Outcome.ok_bind, isEmpty_trim]
    split
    · -- Everything is taken before the target turns out to be empty.
      rw [← List.drop_length (l := chars)]
      exact .refuse _ (Nat.le_refl _)
    · exact .read rfl
  · simp only [if_neg hc]
    by_cases hmore : start < chars.length
    · rw [if_pos hmore]
      split
      · next rest hrest => exact absurd (getElem?_of_drop hrest).1 hc
      · next hnil => exact absurd (List.drop_eq_nil_iff.1 hnil) (Nat.not_le.2 hmore)
      · exact .refuse _ hlength
    · rw [if_neg hmore, List.drop_eq_nil_of_le (Nat.not_lt.1 hmore)]
      exact .read rfl

/-- What follows the type of a body is read alike, and the names of the body stand where it says if
the type stands in front of what follows. -/
theorem agree_behindType {type : Option (String × Nat)} {pos : Nat} (h : pos ≤ chars.length)
    (hstands : ∀ name position, type = some (name, position) →
      StandsAt chars position name.toList)
    (hle : ∀ name position, type = some (name, position) → position + name.length ≤ pos) :
    Agree chars (fun b b' : RawBody => b = b' ∧ b.IsLocatedIn chars)
      (do
        let (arguments, behind) ← argumentGroup chars pos
        let target ← target chars behind
        .ok { type, arguments, target })
      (do
        let (arguments, rest) ← readArgumentGroup chars.length (chars.drop pos)
        let target ← readTarget chars.length rest
        .ok { type, arguments, target }) := by
  apply (agree_argumentGroup h).bind
  rintro ⟨arguments, stop⟩ ⟨_, _⟩ ⟨hstop, harguments⟩
  apply (agree_target hstop).bind
  rintro target _ rfl
  refine .read ⟨rfl, hstands, harguments.stands, harguments.ascending, ?_⟩
  intro name position htype a ha
  exact Nat.lt_of_le_of_lt (hle name position htype) (harguments.start_le a ha)

/-- A body is read alike, and its names stand where it says. -/
theorem agree_body {start : Nat} (h : start ≤ chars.length) :
    Agree chars (fun b b' : RawBody => b = b' ∧ b.IsLocatedIn chars) (body chars start)
      (readBody chars.length (chars.drop start)) := by
  obtain ⟨pos, hskip, htrim, hle, hlength⟩ := exists_skipBlanks h
  simp only [body, readBody, hskip, htrim, length_sub_length_drop h]
  by_cases hend : chars.length ≤ pos
  · rw [if_pos hend, List.drop_eq_nil_of_le hend]
    exact .refused (SyntaxError.pointsInto_of_no_snippet _ h)
  · rw [if_neg hend]
    split
    · next hnil => exact absurd (List.drop_eq_nil_iff.1 hnil) hend
    · rcases name_spec hlength with ⟨hread, hwalk⟩ | ⟨found, behind, hread, hwalk, hlt, hfound⟩
      · simp only [hread, hwalk, Outcome.ok_bind]
        apply agree_behindType hlength
        · rintro _ _ ⟨⟩
        · rintro _ _ ⟨⟩
      · simp only [hread, hwalk, Outcome.ok_bind, length_sub_length_drop hlength]
        apply agree_behindType hfound.stop_le
        · rintro _ _ ⟨⟩
          rw [String.toList_ofList]
          exact hfound.standsAt
        · rintro _ _ ⟨⟩
          rw [String.length_ofList]
          exact Nat.le_of_eq hfound.length_eq

/-! ## Groups -/

/-- A bracket group and the two indices that its text lies between. -/
structure LiesAt (chars : List Char) (bounds : Nat × Nat) (group : BracketGroup) : Prop where
  between : Between chars bounds.1 bounds.2 group.inner
  stop_eq : group.stop = bounds.2

/-- The groups of a text are found alike. Every group takes a character, so neither search runs out
of fuel. -/
theorem agree_groupsWithin {fuel fuel' pos : Nat} (h : pos ≤ chars.length)
    (hfuel : chars.length - pos < fuel) (hfuel' : chars.length - pos < fuel') :
    Agree chars (List.Forall₂ (LiesAt chars)) (groupsWithin chars fuel pos)
      (readGroupsWithin fuel' chars.length (chars.drop pos)) := by
  induction fuel generalizing fuel' pos with
  | zero => exact absurd hfuel (Nat.not_lt_zero _)
  | succ fuel ih =>
    obtain ⟨fuel', rfl⟩ := Nat.exists_eq_succ_of_ne_zero (Nat.ne_zero_of_lt hfuel')
    obtain ⟨start, hskip, htrim, hle, hlength⟩ := exists_skipBlanks h
    rw [groupsWithin, readGroupsWithin, hskip, htrim]
    cases hc : chars[start]? with
    | none =>
      rw [drop_of_getElem?_none hc]
      exact .read .nil
    | some c =>
      by_cases hopen : c = '['
      · subst hopen
        have hfinds := @finds_groupEnd chars start 0 (start + 1) false (Nat.zero_le (start + 1))
        rw [bracketState, if_neg Bool.false_ne_true] at hfinds
        simp only [if_true, drop_of_getElem? hc]
        split
        · next hread =>
          rw [hread] at hfinds
          rw [hfinds.eq_refuse, refuse_bind _ hlength, ← drop_of_getElem? hc]
          exact .refuse _ hlength
        · next inner rest hread =>
          rw [hread] at hfinds
          obtain ⟨stop, hwalk, hbetween, hbehind⟩ := hfinds.eq_ok
          obtain ⟨hclose, hrest⟩ := getElem?_of_drop hbehind
          obtain rfl : chars.drop (stop + 1) = rest := hrest
          have hstep := hbetween.start_le
          have hstop := lt_length_of_getElem? chars hclose
          have hposition : chars.length - (chars.drop (stop + 1)).length - 1 = stop := by
            rw [length_sub_length_drop hstop, Nat.succ_sub_one]
          rw [hwalk, Outcome.ok_bind, hposition]
          apply (ih hstop (by omega) (by omega)).bind
          intro bounds groups hgroups
          exact .read (.cons ⟨hbetween, rfl⟩ hgroups)
      · simp only [if_neg hopen]
        split
        · next hnil =>
          rw [drop_of_getElem? hc] at hnil
          cases hnil
        · next more hstart =>
          rw [drop_of_getElem? hc] at hstart
          exact absurd (List.cons.inj hstart).1 hopen
        · exact .refuse _ hlength

/-- The body between two brackets is read alike. The text it is read from ends where the body does,
so what is left behind an index there is what is left of the body. -/
theorem agree_bodyBetween {bounds : Nat × Nat} {group : BracketGroup}
    (h : LiesAt chars bounds group) :
    Agree chars (fun b b' : RawBody => b = b' ∧ b.IsLocatedIn chars)
      (bodyBetween chars bounds.1 bounds.2) (readBody group.stop group.inner) := by
  obtain ⟨hbetween, hstop⟩ := h
  have hlength : (chars.take bounds.2).length = bounds.2 := by
    rw [List.length_take, Nat.min_eq_left hbetween.stop_le]
  have hfront : slice chars 0 bounds.2 = .ok (chars.take bounds.2) := by
    rw [slice, if_pos ⟨Nat.zero_le _, hbetween.stop_le⟩, List.drop_zero]
  have hstart : bounds.1 ≤ (chars.take bounds.2).length := hlength.symm ▸ hbetween.start_le
  have hagree := agree_body hstart
  rw [hbetween.take_drop, hlength] at hagree
  rw [bodyBetween, hfront, Outcome.ok_bind, hstop]
  apply hagree.of_take.mono
  rintro read _ ⟨rfl, hlocated⟩
  exact ⟨rfl, hlocated.of_take⟩

/-! ## Declarations -/

theorem between_of_expect {part : List Char} {pos stop : Nat} (hle : pos ≤ chars.length)
    (h : expect chars part pos = some stop) : Between chars pos stop part := by
  induction part generalizing pos with
  | nil =>
    obtain rfl : pos = stop := Option.some.inj h
    exact .nil hle
  | cons c part ih =>
    rw [expect] at h
    split at h
    · next hc => exact (ih (lt_length_of_getElem? chars hc) h).cons hc
    · cases h

theorem expect_of_drop_eq {part rest : List Char} {pos : Nat} (h : chars.drop pos = part ++ rest) :
    expect chars part pos = some (pos + part.length) := by
  induction part generalizing pos with
  | nil => rfl
  | cons c part ih =>
    obtain ⟨hc, hmore⟩ := getElem?_of_drop h
    rw [expect, if_pos hc, ih hmore, List.length_cons, Nat.add_assoc, Nat.add_comm 1]

/-- A declaration text is taken apart alike, and the names of its body stand where the body says. -/
theorem agree_declaration (text : List Char) :
    Agree text (fun d d' => d = d' ∧ d.body.IsLocatedIn text) (declaration text)
      (RawDeclaration.ofChars text) := by
  obtain ⟨start, hskip, htrim, -, hlength⟩ := exists_skipBlanks (Nat.zero_le text.length)
  rw [List.drop_zero] at htrim
  simp only [declaration, RawDeclaration.ofChars, hskip, htrim]
  cases hexpect : expect text ['I', 'N', 'P', 'U', 'T'] start with
  | none =>
    dsimp only
    split
    · next rest hrest =>
      have hfound := @expect_of_drop_eq text ['I', 'N', 'P', 'U', 'T'] rest start hrest
      rw [hexpect] at hfound
      cases hfound
    · exact .refuse _ hlength
  | some pos =>
    have hprefix := between_of_expect hlength hexpect
    have hrest : text.drop start = 'I' :: 'N' :: 'P' :: 'U' :: 'T' :: text.drop pos :=
      hprefix.drop_start
    have hgroups : Agree text (List.Forall₂ (LiesAt text))
        (groupsWithin text (text.length + 1) pos) (readGroups text.length (text.drop pos)) :=
      agree_groupsWithin hprefix.stop_le (by omega) (by rw [List.length_drop]; omega)
    simp only [hrest]
    apply hgroups.bind
    intro bounds groups h
    cases h with
    | nil =>
      rw [← hrest]
      exact .refuse _ hlength
    | @cons bounds group _ _ hfirst hmore =>
      cases hmore with
      | nil =>
        apply (agree_bodyBetween hfirst).bind
        rintro _ _ ⟨rfl, hlocated⟩
        exact .read ⟨rfl, hlocated⟩
      | cons hsecond hmore =>
        cases hmore with
        | nil =>
          have hstart := Nat.le_trans hfirst.between.start_le hfirst.between.stop_le
          have hposition : group.stop - group.inner.length = bounds.1 := by
            have hlengths := hfirst.between.length_eq
            rw [hfirst.stop_eq]
            omega
          simp only [hfirst.between.slice_eq, Outcome.ok_bind, isEmpty_trim, hposition]
          split
          · exact .refused (SyntaxError.pointsInto_of_no_snippet _ hstart)
          · apply (agree_bodyBetween hsecond).bind
            rintro _ _ ⟨rfl, hlocated⟩
            exact .read ⟨rfl, hlocated⟩
        | cons => exact .refused SyntaxError.pointsInto_of_no_position

end Walk

/-- What the positions in the outcome of taking a text apart say about the text is so. -/
structure IsLocated (text : List Char) (outcome : Except SyntaxError RawDeclaration) : Prop where
  /-- By index the text is taken apart with the same outcome, so no check on the way fails. -/
  in_bounds : Walk.declaration text = outcome.mapError Halt.refused
  refused : ∀ error, outcome = .error error → error.PointsInto text
  read : ∀ declaration, outcome = .ok declaration → declaration.body.IsLocatedIn text

/-- Every position is that of the text. -/
theorem isLocated_ofText (text : String) : IsLocated text.toList (RawDeclaration.ofText text) := by
  have hagree : Walk.Agree text.toList (fun d d' => d = d' ∧ d.body.IsLocatedIn text.toList)
      (Walk.declaration text.toList) (RawDeclaration.ofText text) :=
    Walk.agree_declaration text.toList
  cases hread : RawDeclaration.ofText text with
  | ok declaration =>
    rw [hread] at hagree
    obtain ⟨_, hwalk, rfl, hlocated⟩ := hagree.eq_ok
    refine ⟨hwalk, ?_, ?_⟩
    · rintro _ ⟨⟩
    · rintro _ ⟨⟩
      exact hlocated
  | error error =>
    rw [hread] at hagree
    obtain ⟨hwalk, hpoints⟩ := hagree.eq_error
    refine ⟨hwalk, ?_, ?_⟩
    · rintro _ ⟨⟩
      exact hpoints
    · rintro _ ⟨⟩

-- The text that an error in a body quotes ends where the body does.
example : RawDeclaration.ofText "INPUT[toggle(title(x) class(y))]" =
    .error ⟨.unclosedArgumentList, some 22, some "class(y))"⟩ := by
  cbv

end BoundFields
