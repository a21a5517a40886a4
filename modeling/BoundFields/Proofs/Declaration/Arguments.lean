import BoundFields.Proofs.Declaration.Printed
import BoundFields.Proofs.Declaration.Unambiguous
import BoundFields.Proofs.Outcome

/-!
# Argument lists that are read are forms

A reader takes exactly the texts apart that start with a form of its own kind, and gives what that
form says: names, values (`Form.readValue_iff`), arguments (`Form.readArgument_iff`) and lists of
them (`Form.readArguments_iff`). The readers skip blanks where the next token is looked for, so that
what is left behind a value or an argument may start with blanks of the form that was read.
-/

set_option autoImplicit false

namespace BoundFields

open Text

namespace Form

/-! ## Tokens -/

theorem trimStart_of_endsBefore {rest : List Char} (h : EndsBefore isBlank rest) :
    trimStart rest = rest := by
  cases rest with
  | nil => rfl
  | cons c rest => exact trimStart_cons_of_not_blank (h c rfl)

theorem trimStart_append (b : Blanks) {rest : List Char} (h : EndsBefore isBlank rest) :
    trimStart (b.chars ++ rest) = rest :=
  (trimStart_blanks_append b.blank rest).trans (trimStart_of_endsBefore h)

theorem trimStart_eq_iff {cs rest : List Char} (h : EndsBefore isBlank rest) :
    trimStart cs = rest ↔ ∃ b : Blanks, cs = b.chars ++ rest := by
  constructor
  · rintro rfl
    exact exists_blanks cs
  · rintro ⟨b, rfl⟩
    exact trimStart_append b h

theorem trimStart_trimStart (cs : List Char) : trimStart (trimStart cs) = trimStart cs :=
  trimStart_of_endsBefore (endsBefore_trimStart cs)

theorem trim_blanks_append (b : Blanks) (cs : List Char) : trim (b.chars ++ cs) = trim cs :=
  congrArg trimEnd (trimStart_blanks_append b.blank cs)

theorem identifier?_cons (c : Char) (cs : List Char) :
    identifier? (c :: cs) =
      if isIdentStart c then some (c :: cs.takeWhile isIdentChar, cs.dropWhile isIdentChar)
      else none := rfl

theorem identifier?_chars_append (n : Name) {rest : List Char} (h : EndsBefore isIdentChar rest) :
    identifier? (n.chars ++ rest) = some (n.chars, rest) := by
  have hname : identifier? n.chars = some (n.chars, []) := by
    have htake : n.more.takeWhile isIdentChar = n.more := List.takeWhile_eq_self_iff.2 n.isMore
    have hdrop : n.more.dropWhile isIdentChar = [] := List.dropWhile_eq_nil_iff.2 n.isMore
    rw [Name.chars, identifier?_cons, if_pos n.isStart, htake, hdrop]
  apply identifier?_append hname
  rintro c more rfl
  exact h c rfl

theorem exists_name_of_identifier? {cs name rest : List Char}
    (h : identifier? cs = some (name, rest)) :
    EndsBefore isIdentChar rest ∧ ∃ n : Name, n.chars = name ∧ cs = n.chars ++ rest := by
  cases cs with
  | nil => cases h
  | cons c cs =>
    rw [identifier?_cons] at h
    split at h
    · next hstart =>
      obtain ⟨rfl, rfl⟩ := Prod.mk.inj (Option.some.inj h)
      refine ⟨?_, ⟨c, cs.takeWhile isIdentChar, hstart, ?_⟩, rfl, ?_⟩
      · intro d hd
        have hnot := List.head?_dropWhile_not isIdentChar cs
        rw [hd] at hnot
        exact hnot
      · exact List.all_eq_true.1 List.all_takeWhile
      · exact congrArg (c :: ·) List.takeWhile_append_dropWhile.symm
    · cases h

theorem identifier?_eq_none_iff {cs : List Char} :
    identifier? cs = none ↔ EndsBefore isIdentStart cs := by
  cases cs with
  | nil => exact ⟨fun _ => endsBefore_nil _, fun _ => rfl⟩
  | cons c cs =>
    constructor
    · intro h
      apply endsBefore_cons
      by_contra hstart
      rw [Bool.not_eq_false] at hstart
      rw [identifier?_cons, if_pos hstart] at h
      cases h
    · intro h
      rw [identifier?_cons, h c rfl]
      rfl

/-! ## Values -/

theorem quotedText?_pieces (pieces : List Piece) (rest : List Char) :
    quotedText? (pieces.flatMap Piece.chars ++ '"' :: rest) =
      some (pieces.flatMap Piece.content, rest) := by
  induction pieces with
  | nil => rfl
  | cons piece pieces ih =>
    cases piece with
    | plain c isPlain =>
      have hcons : quotedText? (c :: (pieces.flatMap Piece.chars ++ '"' :: rest)) =
          some (c :: pieces.flatMap Piece.content, rest) := by
        rw [quotedText?_cons isPlain.1 isPlain.2, ih, Option.map_some]
      exact hcons
    | escaped c =>
      have hcons : quotedText? ('\\' :: c :: (pieces.flatMap Piece.chars ++ '"' :: rest)) =
          some ((Piece.escaped c).content ++ pieces.flatMap Piece.content, rest) := by
        simp only [quotedText?, ih, Option.map_some, Piece.content]
        split <;> rfl
      exact hcons

theorem exists_pieces_of_quotedText? {cs text rest : List Char}
    (h : quotedText? cs = some (text, rest)) :
    ∃ pieces : List Piece, cs = pieces.flatMap Piece.chars ++ '"' :: rest ∧
      pieces.flatMap Piece.content = text := by
  fun_induction quotedText? cs generalizing text with
  | case1 => cases h
  | case2 cs =>
    obtain ⟨rfl, rfl⟩ := Prod.mk.inj (Option.some.inj h)
    exact ⟨[], rfl, rfl⟩
  | case3 => cases h
  | case4 c cs ih =>
    obtain ⟨⟨text', rest'⟩, hread, heq⟩ := Option.map_eq_some_iff.1 h
    obtain ⟨rfl, rfl⟩ := Prod.mk.inj heq
    obtain ⟨pieces, rfl, rfl⟩ := ih hread
    refine ⟨.escaped c :: pieces, rfl, ?_⟩
    rw [List.flatMap_cons, Piece.content]
    split <;> rfl
  | case5 c cs hquote hend hescape ih =>
    have hplain : c ≠ '\\' := by
      rintro rfl
      cases cs with
      | nil => exact hend rfl rfl
      | cons d more => exact hescape d more rfl rfl
    obtain ⟨⟨text', rest'⟩, hread, heq⟩ := Option.map_eq_some_iff.1 h
    obtain ⟨rfl, rfl⟩ := Prod.mk.inj heq
    obtain ⟨pieces, rfl, rfl⟩ := ih hread
    exact ⟨.plain c ⟨hquote, hplain⟩ :: pieces, rfl, rfl⟩

/-- Blanks open and close no parentheses. -/
theorem isBalanced_blanks_append_iff (b : Blanks) (cs : List Char) :
    IsBalanced (b.chars ++ cs) ↔ IsBalanced cs := by
  apply isBalanced_append_iff
  intro c hc
  have hblank := List.all_eq_true.1 b.blank c hc
  constructor
  · rintro rfl
    exact absurd hblank (by decide)
  · rintro rfl
    exact absurd hblank (by decide)

theorem readValue_of_quote {stop : Nat} {cs inner behind : List Char} {value : String}
    (h : trimStart cs = '"' :: inner) :
    readValue stop cs = .ok (value, behind) ↔
      ∃ text, quotedText? inner = some (text, behind) ∧ String.ofList text = value := by
  unfold readValue
  simp only [h]
  cases quotedText? inner with
  | none => simp
  | some read => simp [Prod.ext_iff, and_comm]

theorem readValue_of_no_quote {stop : Nat} {cs behind : List Char} {value : String}
    (h : (trimStart cs).head? ≠ some '"') :
    readValue stop cs = .ok (value, behind) ↔
      ∃ text, bareText? 0 (trimStart cs) = some (text, behind) ∧
        String.ofList (trim text) = value := by
  unfold readValue
  generalize trimStart cs = start at h ⊢
  dsimp only
  split
  · exact absurd rfl h
  · cases bareText? 0 start with
    | none => simp
    | some read => simp [Prod.ext_iff, and_comm]

/-- The value of an argument is read up to the parenthesis behind it. -/
theorem readValue_iff (stop : Nat) (cs rest : List Char) (value : String) :
    (∃ behind, readValue stop cs = .ok (value, behind) ∧ trimStart behind = ')' :: rest) ↔
      ∃ v : Value, cs = v.chars ++ ')' :: rest ∧ v.text = value := by
  have hclose : EndsBefore isBlank (')' :: rest) := endsBefore_cons (by decide) rest
  constructor
  · rintro ⟨behind, hread, hbehind⟩
    obtain ⟨before, hbefore⟩ := exists_blanks cs
    by_cases hquote : (trimStart cs).head? = some '"'
    · obtain ⟨inner, hstart⟩ := List.head?_eq_some_iff.1 hquote
      obtain ⟨text, hquoted, rfl⟩ := (readValue_of_quote hstart).1 hread
      obtain ⟨pieces, rfl, rfl⟩ := exists_pieces_of_quotedText? hquoted
      obtain ⟨after, rfl⟩ := (trimStart_eq_iff hclose).1 hbehind
      refine ⟨.quoted before pieces after, ?_, rfl⟩
      rw [hbefore, hstart]
      simp only [Value.chars, List.append_assoc, List.cons_append]
    · obtain ⟨text, hbare, rfl⟩ := (readValue_of_no_quote hquote).1 hread
      obtain ⟨hstart, hbalanced, hhead⟩ := bareText?_eq_some_iff.1 hbare
      -- Nothing but the parenthesis is left, so that the blanks behind the value belong to it.
      obtain ⟨more, rfl⟩ := List.head?_eq_some_iff.1 hhead
      rw [trimStart_of_endsBefore (endsBefore_cons (by decide) more)] at hbehind
      obtain ⟨-, rfl⟩ := List.cons.inj hbehind
      have htext : EndsBefore isBlank text := by
        apply endsBefore_of_append
        rw [← hstart]
        exact endsBefore_trimStart cs
      have hunquoted : (trimStart (before.chars ++ text)).head? ≠ some '"' := by
        rw [trimStart_append before htext]
        intro hhead
        obtain ⟨cs', rfl⟩ := List.head?_eq_some_iff.1 hhead
        rw [hstart] at hquote
        exact hquote rfl
      have hall := (isBalanced_blanks_append_iff before text).2 hbalanced
      refine ⟨.bare (before.chars ++ text) hall hunquoted, ?_, ?_⟩
      · exact (hbefore.trans (congrArg (before.chars ++ ·) hstart)).trans
          (List.append_assoc _ _ _).symm
      · exact congrArg String.ofList (trim_blanks_append before text)
  · rintro ⟨v, rfl, rfl⟩
    cases v with
    | quoted before pieces after =>
      refine ⟨after.chars ++ ')' :: rest, ?_, trimStart_append after hclose⟩
      have hstart : trimStart ((Value.quoted before pieces after).chars ++ ')' :: rest) =
          '"' :: (pieces.flatMap Piece.chars ++ '"' :: (after.chars ++ ')' :: rest)) := by
        simp only [Value.chars, List.append_assoc, List.cons_append]
        exact trimStart_append before (endsBefore_cons (by decide) _)
      exact (readValue_of_quote hstart).2 ⟨_, quotedText?_pieces pieces _, rfl⟩
    | bare chars balanced unquoted =>
      obtain ⟨before, hbefore⟩ := exists_blanks chars
      have hstart : trimStart (chars ++ ')' :: rest) = trimStart chars ++ ')' :: rest := by
        conv_lhs => rw [hbefore, List.append_assoc]
        exact trimStart_append before (endsBefore_append (endsBefore_trimStart chars) hclose)
      have hquote : (trimStart (chars ++ ')' :: rest)).head? ≠ some '"' := by
        rw [hstart, List.head?_append]
        cases hhead : (trimStart chars).head? with
        | none => simp
        | some c =>
          rw [hhead] at unquoted
          exact unquoted
      rw [hbefore, isBalanced_blanks_append_iff] at balanced
      refine ⟨')' :: rest, ?_, trimStart_of_endsBefore hclose⟩
      refine (readValue_of_no_quote hquote).2 ⟨trimStart chars, ?_, ?_⟩
      · rw [hstart, bareText?_eq_some_iff]
        exact ⟨rfl, balanced, rfl⟩
      · unfold Value.text trim
        rw [trimStart_trimStart]

/-! ## Arguments -/

theorem readArgumentValue_of_open {stop : Nat} {cs inner behind : List Char}
    {value : Option String} (h : trimStart cs = '(' :: inner) :
    readArgumentValue stop cs = .ok (value, behind) ↔
      ∃ text closing, readValue stop inner = .ok (text, closing) ∧
        trimStart closing = ')' :: behind ∧ some text = value := by
  unfold readArgumentValue
  rw [h]
  simp only [Outcome.bind_eq_ok_iff, Prod.exists]
  refine exists_congr fun text => exists_congr fun closing => and_congr_right fun _ => ?_
  split
  · next behind' hclosing => simp [hclosing, and_comm, Prod.ext_iff]
  · next hother =>
    constructor
    · intro h
      cases h
    · rintro ⟨hclosing, -⟩
      exact absurd hclosing (hother _)

theorem readArgumentValue_of_no_open {stop : Nat} {cs : List Char}
    (h : (trimStart cs).head? ≠ some '(') :
    readArgumentValue stop cs = .ok (none, trimStart cs) := by
  unfold readArgumentValue
  split
  · next hstart =>
    rw [hstart] at h
    exact absurd rfl h
  · rfl

section Argument

variable {c : Char} (hc : c = ',' ∨ c = ')')

include hc

theorem head?_ne_open_of_separator (rest : List Char) : (c :: rest).head? ≠ some '(' := by
  rcases hc with rfl | rfl <;> simp

theorem readArgumentValue_iff (stop : Nat) (cs rest : List Char) (value : Option String) :
    (∃ behind, readArgumentValue stop cs = .ok (value, behind) ∧ trimStart behind = c :: rest) ↔
      ∃ (after : Blanks) (v : Option (Value × Blanks)),
        cs = after.chars ++ (group '(' ')' Value.chars v ++ c :: rest) ∧
          v.map (·.1.text) = value := by
  have hblank : EndsBefore isBlank (c :: rest) :=
    endsBefore_separator (by decide) (by decide) hc rest
  constructor
  · rintro ⟨behind, hread, hbehind⟩
    obtain ⟨after, hafter⟩ := exists_blanks cs
    by_cases hopen : (trimStart cs).head? = some '('
    · obtain ⟨inner, hstart⟩ := List.head?_eq_some_iff.1 hopen
      obtain ⟨text, closing, hvalue, hclosing, rfl⟩ := (readArgumentValue_of_open hstart).1 hread
      obtain ⟨v, rfl, rfl⟩ := (readValue_iff stop inner behind text).1 ⟨closing, hvalue, hclosing⟩
      obtain ⟨b, rfl⟩ := (trimStart_eq_iff hblank).1 hbehind
      refine ⟨after, some (v, b), ?_, rfl⟩
      rw [hafter, hstart]
      simp only [group, List.cons_append, List.append_assoc]
    · rw [readArgumentValue_of_no_open hopen] at hread
      obtain ⟨rfl, rfl⟩ := Prod.mk.inj (Except.ok.inj hread)
      rw [trimStart_trimStart] at hbehind
      refine ⟨after, none, ?_, rfl⟩
      rw [hafter, hbehind]
      rfl
  · rintro ⟨after, v, rfl, rfl⟩
    cases v with
    | none =>
      have hstart : trimStart (after.chars ++ ([] ++ c :: rest)) = c :: rest :=
        trimStart_append after hblank
      have hopen := head?_ne_open_of_separator hc rest
      rw [← hstart] at hopen
      exact ⟨_, readArgumentValue_of_no_open hopen, hstart.symm ▸ trimStart_of_endsBefore hblank⟩
    | some v =>
      obtain ⟨v, b⟩ := v
      have hstart : trimStart
          (after.chars ++ (group '(' ')' Value.chars (some (v, b)) ++ c :: rest)) =
            '(' :: (v.chars ++ ')' :: (b.chars ++ c :: rest)) := by
        simp only [group, List.cons_append, List.append_assoc]
        exact trimStart_append after (endsBefore_cons (by decide) _)
      obtain ⟨closing, hvalue, hclosing⟩ :=
        (readValue_iff stop (v.chars ++ ')' :: (b.chars ++ c :: rest)) _ v.text).2 ⟨v, rfl, rfl⟩
      exact ⟨b.chars ++ c :: rest,
        (readArgumentValue_of_open hstart).2 ⟨_, closing, hvalue, hclosing, rfl⟩,
        trimStart_append b hblank⟩

/-- An argument is read up to the comma or the parenthesis behind it. -/
theorem readArgument_iff {start stop : Nat} {cs : List Char} (hstop : stop = start + cs.length)
    (rest : List Char) (raw : RawArgument) :
    (∃ behind, readArgument stop cs = .ok (raw, behind) ∧ trimStart behind = c :: rest) ↔
      ∃ a : Argument, cs = a.chars ++ c :: rest ∧ a.raw start = raw := by
  constructor
  · rintro ⟨behind, hread, hbehind⟩
    obtain ⟨before, hbefore⟩ := exists_blanks cs
    have hlength := (congrArg List.length hbefore).trans List.length_append
    unfold readArgument at hread
    simp only at hread
    split at hread
    · cases hread
    · next name rest' hname =>
      obtain ⟨⟨value, behind'⟩, hvalue, hpure⟩ := Outcome.bind_eq_ok_iff.1 hread
      cases hpure
      obtain ⟨-, n, rfl, hsplit⟩ := exists_name_of_identifier? hname
      obtain ⟨after, v, rfl, rfl⟩ :=
        (readArgumentValue_iff hc stop rest' rest value).1 ⟨behind', hvalue, hbehind⟩
      -- The reader counts positions from the end of the text, and the form from its start.
      refine ⟨⟨before, n, after, v⟩, ?_, ?_⟩
      · rw [Argument.chars_append, ← hsplit]
        exact hbefore
      · have hposition : start + before.chars.length = stop - (trimStart cs).length := by omega
        unfold Argument.raw Name.text
        rw [hposition]
  · rintro ⟨a, rfl, rfl⟩
    have hstart := trimStart_append a.before (a.name.endsBefore_isBlank
      (a.after.chars ++ (group '(' ')' Value.chars a.value ++ c :: rest)))
    rw [← Argument.chars_append] at hstart
    have hname := identifier?_chars_append a.name (endsBefore_behindName hc a.after a.value rest)
    obtain ⟨behind, hvalue, hbehind⟩ :=
      (readArgumentValue_iff hc stop _ rest (a.value.map (·.1.text))).2 ⟨a.after, a.value, rfl, rfl⟩
    have hlength := (congrArg List.length (a.chars_append (c :: rest))).trans List.length_append
    refine ⟨behind, ?_, hbehind⟩
    have hposition : stop - (a.name.chars ++
        (a.after.chars ++ (group '(' ')' Value.chars a.value ++ c :: rest))).length =
          start + a.before.chars.length := by omega
    unfold readArgument
    simp only [hstart, hname, hvalue, hposition, bind, Except.bind]
    rfl

end Argument

/-! ## Argument lists -/

/-- Behind an argument, the list ends or goes on with another one. -/
theorem readArgumentsWithin_succ_iff {fuel stop : Nat} {cs rest : List Char}
    {raws : List RawArgument} :
    readArgumentsWithin (fuel + 1) stop cs = .ok (raws, rest) ↔
      ∃ raw behind, readArgument stop cs = .ok (raw, behind) ∧
        (trimStart behind = ')' :: rest ∧ [raw] = raws ∨
          ∃ behind' raws', trimStart behind = ',' :: behind' ∧
            readArgumentsWithin fuel stop behind' = .ok (raws', rest) ∧ raw :: raws' = raws) := by
  rw [readArgumentsWithin, Outcome.bind_eq_ok_iff, Prod.exists]
  refine exists_congr fun raw => exists_congr fun behind => and_congr_right fun _ => ?_
  dsimp only
  split
  · next behind' hcomma =>
    simp [hcomma, Outcome.bind_eq_ok_iff, Prod.ext_iff, and_comm]
  · next rest' hclose =>
    simp [hclose, Prod.ext_iff, and_comm]
  · next hcomma hclose =>
    constructor
    · intro h
      cases h
    · rintro (⟨h, -⟩ | ⟨_, _, h, -⟩)
      · exact absurd h (hclose _)
      · exact absurd h (hcomma _)

/-- The name of an argument takes a character, and so does what stands behind the argument. -/
theorem length_behind_argument (a : Argument) (c : Char) (rest : List Char) :
    rest.length + 1 < (trimStart (a.chars ++ c :: rest)).length := by
  rw [Argument.chars_append, trimStart_append a.before (a.name.endsBefore_isBlank _)]
  simp only [Name.chars, List.length_append, List.length_cons]
  omega

theorem readArgumentsWithin_iff {fuel start stop : Nat} {cs : List Char}
    (hfuel : (trimStart cs).length < fuel) (hstop : stop = start + cs.length) (rest : List Char)
    (raws : List RawArgument) :
    readArgumentsWithin fuel stop cs = .ok (raws, rest) ↔
      ∃ a more, cs = joined a more ++ ')' :: rest ∧ joinedRaws start a more = raws := by
  induction fuel generalizing cs start raws with
  | zero => exact absurd hfuel (Nat.not_lt_zero _)
  | succ fuel ih =>
    -- What is left behind a comma is a shorter list, which starts behind the comma.
    have hmore (a : Argument) (cs' : List Char) (hcs : cs = a.chars ++ ',' :: cs') :
        (trimStart cs').length < fuel ∧ stop = start + a.chars.length + 1 + cs'.length := by
      have hbehind := length_behind_argument a ',' cs'
      have htrim := length_trimStart_le cs'
      rw [← hcs] at hbehind
      rw [hcs, List.length_append, List.length_cons] at hstop
      omega
    rw [readArgumentsWithin_succ_iff]
    constructor
    · rintro ⟨raw, behind, hread, ⟨hclose, rfl⟩ | ⟨cs', raws', hcomma, hrest, rfl⟩⟩
      · obtain ⟨a, hcs, rfl⟩ :=
          (readArgument_iff (.inr rfl) hstop rest raw).1 ⟨behind, hread, hclose⟩
        exact ⟨a, [], hcs, rfl⟩
      · obtain ⟨a, hcs, rfl⟩ :=
          (readArgument_iff (.inl rfl) hstop cs' raw).1 ⟨behind, hread, hcomma⟩
        obtain ⟨hfuel', hstop'⟩ := hmore a cs' hcs
        obtain ⟨b, more, rfl, rfl⟩ := (ih hfuel' hstop' raws').1 hrest
        refine ⟨a, b :: more, ?_, rfl⟩
        rw [hcs, joined, List.append_assoc]
        rfl
    · rintro ⟨a, more, hcs, rfl⟩
      cases more with
      | nil =>
        obtain ⟨behind, hread, hclose⟩ :=
          (readArgument_iff (.inr rfl) hstop rest (a.raw start)).2 ⟨a, hcs, rfl⟩
        exact ⟨_, behind, hread, .inl ⟨hclose, rfl⟩⟩
      | cons b more =>
        rw [joined, List.append_assoc] at hcs
        obtain ⟨behind, hread, hcomma⟩ :=
          (readArgument_iff (.inl rfl) hstop _ (a.raw start)).2 ⟨a, hcs, rfl⟩
        obtain ⟨hfuel', hstop'⟩ := hmore a _ hcs
        have hrest := (ih hfuel' hstop' _).2 ⟨b, more, rfl, rfl⟩
        exact ⟨_, behind, hread, .inr ⟨_, _, hcomma, hrest, rfl⟩⟩

theorem readArgument_trimStart (stop : Nat) (cs : List Char) :
    readArgument stop (trimStart cs) = readArgument stop cs := by
  unfold readArgument
  rw [trimStart_trimStart]

theorem readArguments_of_no_close {stop : Nat} {cs : List Char}
    (h : (trimStart cs).head? ≠ some ')') :
    readArguments stop cs = readArgumentsWithin ((trimStart cs).length + 1) stop cs := by
  unfold readArguments
  split
  · next hstart =>
    rw [hstart] at h
    exact absurd rfl h
  · rw [readArgumentsWithin, readArgumentsWithin, readArgument_trimStart]

theorem readArguments_of_close {stop : Nat} {cs rest : List Char} (h : trimStart cs = ')' :: rest) :
    readArguments stop cs = .ok ([], rest) := by
  unfold readArguments
  rw [h]
  rfl

theorem head?_trimStart_joined (a : Argument) (more : List Argument) (rest : List Char) :
    (trimStart (joined a more ++ rest)).head? ≠ some ')' := by
  obtain ⟨cs, hjoined⟩ := exists_joined_eq a more
  rw [hjoined, List.append_assoc, List.append_assoc,
    trimStart_append a.before (a.name.endsBefore_isBlank _)]
  intro hhead
  obtain hfirst : a.name.first = ')' := Option.some.inj hhead
  have hstart := a.name.isStart
  rw [hfirst] at hstart
  exact absurd hstart (by decide)

theorem readArguments_iff {start stop : Nat} {cs : List Char} (hstop : stop = start + cs.length)
    (rest : List Char) (raws : List RawArgument) :
    readArguments stop cs = .ok (raws, rest) ↔
      ∃ as : Arguments, cs = as.chars ++ ')' :: rest ∧ as.raws start = raws := by
  have hblank : EndsBefore isBlank (')' :: rest) := endsBefore_cons (by decide) rest
  constructor
  · intro hread
    by_cases hclose : (trimStart cs).head? = some ')'
    · obtain ⟨rest', hstart⟩ := List.head?_eq_some_iff.1 hclose
      rw [readArguments_of_close hstart] at hread
      obtain ⟨rfl, rfl⟩ := Prod.mk.inj (Except.ok.inj hread)
      obtain ⟨b, hcs⟩ := (trimStart_eq_iff hblank).1 hstart
      exact ⟨.empty b, hcs, rfl⟩
    · rw [readArguments_of_no_close hclose] at hread
      obtain ⟨a, more, hcs, rfl⟩ :=
        (readArgumentsWithin_iff (Nat.lt_succ_self _) hstop rest raws).1 hread
      exact ⟨.list a more, hcs, rfl⟩
  · rintro ⟨as, hcs, rfl⟩
    cases as with
    | empty b => exact readArguments_of_close ((trimStart_eq_iff hblank).2 ⟨b, hcs⟩)
    | list a more =>
      have hclose := head?_trimStart_joined a more (')' :: rest)
      rw [← show cs = joined a more ++ ')' :: rest from hcs] at hclose
      rw [readArguments_of_no_close hclose]
      exact (readArgumentsWithin_iff (Nat.lt_succ_self _) hstop rest _).2 ⟨a, more, hcs, rfl⟩

end Form

end BoundFields
