import Mathlib.Data.List.TakeWhile
import BoundFields.Declaration.Basic
import BoundFields.Declaration.Raw
import BoundFields.Proofs.Declaration.Bracket

/-!
# Reading what was printed

The arguments of a printed declaration are taken apart into what they were printed from: every one
of them comes back with its name and its text (`readArgumentGroup_printed`). Values are quoted where
they need it (`readValue_quoteChars`), so that printed arguments are always closed
(`Declaration.isClosed_printedArguments`).
-/

set_option autoImplicit false

namespace BoundFields

open Text

/-! ## Values -/

/-- A text without delimiters ends at the parenthesis behind it. -/
theorem bareText?_append {raw : List Char} (h : ∀ c ∈ raw, isDelimiter c = false)
    (rest : List Char) : bareText? 0 (raw ++ ')' :: rest) = some (raw, ')' :: rest) := by
  have hplain : ∀ c ∈ raw, c ≠ '(' ∧ c ≠ ')' := by
    intro c hc
    constructor
    · rintro rfl
      exact absurd (h _ hc) (by decide)
    · rintro rfl
      exact absurd (h _ hc) (by decide)
  have hbalanced := (isBalanced_append_iff hplain []).2 rfl
  rw [List.append_nil] at hbalanced
  exact bareText?_eq_some_iff.2 ⟨rfl, hbalanced, rfl⟩

/-- A value is read back as it was, up to the parenthesis behind it. -/
theorem readValue_quoteChars (stop : Nat) (raw rest : List Char) :
    readValue stop (quoteChars raw ++ ')' :: rest) = .ok (String.ofList raw, ')' :: rest) := by
  unfold quoteChars
  split
  · have hquoted := quotedText?_escapeQuoted raw (')' :: rest)
    have hstart : trimStart ('"' :: (escapeQuoted raw ++ '"' :: ')' :: rest)) =
        '"' :: (escapeQuoted raw ++ '"' :: ')' :: rest) := trimStart_cons_of_not_blank (by decide)
    unfold readValue
    simp only [List.cons_append, List.append_assoc, List.nil_append, hstart, hquoted]
  · next hbare =>
    -- A value without quotes has no blank at its ends, and none of the delimiters in it.
    simp only [needsQuotes, Bool.or_eq_true, not_or, Bool.not_eq_true, List.any_eq_false,
      decide_eq_true_eq, Decidable.not_not] at hbare
    obtain ⟨⟨hne, htrim⟩, hplain⟩ := hbare
    cases raw with
    | nil => exact absurd hne (by decide)
    | cons c cs =>
      have hstart : trimStart (c :: (cs ++ ')' :: rest)) = c :: (cs ++ ')' :: rest) :=
        trimStart_cons_of_not_blank (isBlank_head_trim htrim)
      have hquote : c ≠ '"' := by
        rintro rfl
        exact absurd (hplain '"' List.mem_cons_self) (by decide)
      have hread : bareText? 0 (c :: cs ++ ')' :: rest) = some (c :: cs, ')' :: rest) :=
        bareText?_append hplain rest
      rw [List.cons_append] at hread ⊢
      unfold readValue
      simp only [hstart]
      split
      · next heq =>
        obtain ⟨hcq, -⟩ := List.cons.inj heq
        exact absurd hcq hquote
      · rw [hread]
        simp only [htrim]

/-! ## Names -/

theorem identifier?_append {name rest : List Char} (h : identifier? name = some (name, []))
    (hrest : ∀ c more, rest = c :: more → isIdentChar c = false) :
    identifier? (name ++ rest) = some (name, rest) := by
  cases name with
  | nil => exact absurd h (by simp [identifier?])
  | cons c cs =>
    unfold identifier? at h
    split at h
    · next d ds heq =>
      obtain ⟨rfl, rfl⟩ := List.cons.inj heq
      split at h
      · next hstart =>
        obtain ⟨htake, hdrop⟩ := Prod.mk.inj (Option.some.inj h)
        -- The whole name is of such characters, and what follows it does not start with one.
        have hall : ∀ d ∈ cs, isIdentChar d = true := List.dropWhile_eq_nil_iff.1 hdrop
        have htakeRest : rest.takeWhile isIdentChar = [] := by
          cases rest with
          | nil => rfl
          | cons d more => simp [hrest d more rfl]
        have hdropRest : rest.dropWhile isIdentChar = rest := by
          cases rest with
          | nil => rfl
          | cons d more => simp [hrest d more rfl]
        rw [List.cons_append]
        unfold identifier?
        simp only [hstart, if_true]
        rw [List.takeWhile_append_of_pos hall, List.dropWhile_append_of_pos hall, htakeRest,
          hdropRest, List.append_nil]
      · cases h
    · next heq => cases heq

theorem ArgumentKind.identifier?_name (kind : ArgumentKind) :
    identifier? kind.name.toList = some (kind.name.toList, []) := by
  cases kind <;> decide

theorem FieldType.identifier?_name (type : FieldType) :
    identifier? type.name.toList = some (type.name.toList, []) := by
  cases type <;> decide

theorem ArgumentKind.isClosed_name (kind : ArgumentKind) : IsClosed kind.name.toList := by
  cases kind <;> decide

theorem FieldType.isClosed_name (type : FieldType) : IsClosed type.name.toList := by
  cases type <;> decide

/-! ## Arguments -/

namespace Argument

/-- The value of an argument as it is printed. -/
def printedValue (a : Argument) : List Char :=
  match a.raw with
  | none => []
  | some raw => '(' :: (quoteChars raw.toList ++ [')'])

theorem toList_text (a : Argument) : a.text.toList = a.kind.name.toList ++ a.printedValue := by
  unfold text printedValue
  cases a.raw with
  | none => simp
  | some raw => simp [quoteValue]

theorem isClosed_text (a : Argument) : IsClosed a.text.toList := by
  rw [toList_text, isClosed_append_iff (ArgumentKind.isClosed_name a.kind)]
  unfold printedValue
  cases a.raw with
  | none => exact isClosed_nil
  | some raw =>
    have hopen : IsClosed ['('] := by decide
    have hclose : IsClosed [')'] := by decide
    exact (isClosed_append_iff hopen _).2
      ((isClosed_append_iff (isClosed_quoteChars _) _).2 hclose)

end Argument

/-- The name of an argument ends where its value starts, or where the argument ends. -/
theorem identifier?_text (a : Argument) {c : Char} (hc : c = ',' ∨ c = ')') (rest : List Char) :
    identifier? (a.text.toList ++ c :: rest) =
      some (a.kind.name.toList, a.printedValue ++ c :: rest) := by
  rw [Argument.toList_text, List.append_assoc]
  refine identifier?_append a.kind.identifier?_name fun d more hd => ?_
  unfold Argument.printedValue at hd
  cases hraw : a.raw with
  | none =>
    rw [hraw] at hd
    obtain ⟨rfl, -⟩ := List.cons.inj hd
    rcases hc with rfl | rfl <;> decide
  | some raw =>
    rw [hraw] at hd
    obtain ⟨rfl, -⟩ := List.cons.inj hd
    decide

theorem readArgumentValue_printedValue (stop : Nat) (a : Argument) {c : Char}
    (hc : c = ',' ∨ c = ')') (rest : List Char) :
    readArgumentValue stop (a.printedValue ++ c :: rest) = .ok (a.raw, c :: rest) := by
  unfold Argument.printedValue
  cases a.raw with
  | none =>
    have hblank : trimStart (c :: rest) = c :: rest := by
      rcases hc with rfl | rfl <;> exact trimStart_cons_of_not_blank (by decide)
    unfold readArgumentValue
    rw [List.nil_append, hblank]
    rcases hc with rfl | rfl <;> rfl
  | some raw =>
    have hopen : trimStart ('(' :: (quoteChars raw.toList ++ ')' :: c :: rest)) =
        '(' :: (quoteChars raw.toList ++ ')' :: c :: rest) :=
      trimStart_cons_of_not_blank (by decide)
    have hclose : trimStart (')' :: c :: rest) = ')' :: c :: rest :=
      trimStart_cons_of_not_blank (by decide)
    unfold readArgumentValue
    simp only [List.cons_append, List.append_assoc, List.nil_append, hopen,
      readValue_quoteChars, bind, Except.bind, hclose, String.ofList_toList]

/-- A printed argument is read back up to the comma or the parenthesis behind it. -/
theorem readArgument_text (stop : Nat) (a : Argument) {c : Char} (hc : c = ',' ∨ c = ')')
    (rest : List Char) :
    ∃ position, readArgument stop (a.text.toList ++ c :: rest) =
      .ok (⟨a.kind.name, a.raw, position⟩, c :: rest) := by
  have hstart : trimStart (a.text.toList ++ c :: rest) = a.text.toList ++ c :: rest := by
    rw [Argument.toList_text]
    cases a.kind <;> exact trimStart_cons_of_not_blank (by decide)
  have hname := identifier?_text a hc rest
  have hvalue := readArgumentValue_printedValue stop a hc rest
  unfold readArgument
  simp only [hstart, hname, hvalue, bind, Except.bind, String.ofList_toList]
  exact ⟨_, rfl⟩

/-- The space behind a comma is passed over. -/
theorem readArgument_space (stop : Nat) (cs : List Char) :
    readArgument stop (' ' :: cs) = readArgument stop cs := rfl

theorem readArgumentsWithin_space (fuel stop : Nat) (cs : List Char) :
    readArgumentsWithin (fuel + 1) stop (' ' :: cs) = readArgumentsWithin (fuel + 1) stop cs := by
  unfold readArgumentsWithin
  rw [readArgument_space]

theorem toList_commaJoined_cons (first second : String) (more : List String) :
    (commaJoined (first :: second :: more)).toList =
      first.toList ++ ',' :: ' ' :: (commaJoined (second :: more)).toList := by
  unfold commaJoined
  rw [String.intercalate_cons_cons]
  simp

/-- Printed arguments start with a letter. -/
theorem exists_cons_commaJoined (a : Argument) (more : List Argument) :
    ∃ c cs, (commaJoined ((a :: more).map (·.text))).toList = c :: cs ∧
      isBlank c = false ∧ c ≠ ')' := by
  have hname : ∃ c cs, a.kind.name.toList = c :: cs ∧ isBlank c = false ∧ c ≠ ')' := by
    cases a.kind <;> exact ⟨_, _, rfl, by decide, by decide⟩
  obtain ⟨c, cs, hcs, hc⟩ := hname
  cases more with
  | nil =>
    refine ⟨c, cs ++ a.printedValue, ?_, hc⟩
    rw [List.map_cons, List.map_nil, commaJoined, String.intercalate_singleton,
      Argument.toList_text, hcs, List.cons_append]
  | cons b more =>
    refine ⟨c, cs ++ (a.printedValue ++ ',' :: ' ' ::
      (commaJoined ((b :: more).map (·.text))).toList), ?_, hc⟩
    simp only [List.map_cons, toList_commaJoined_cons, Argument.toList_text, hcs, List.cons_append,
      List.append_assoc]

theorem length_le_commaJoined (a : Argument) (more : List Argument) :
    more.length ≤ (commaJoined ((a :: more).map (·.text))).toList.length := by
  induction more generalizing a with
  | nil => exact Nat.zero_le _
  | cons b more ih =>
    have hrest := ih b
    simp only [List.map_cons, toList_commaJoined_cons, List.length_append, List.length_cons]
      at hrest ⊢
    omega

/-- What the names and values of arguments are in a declaration as written. -/
def Argument.written (a : Argument) : String × Option String := (a.kind.name, a.raw)

/-- The name and the value of an argument as it was read. -/
def RawArgument.written (a : RawArgument) : String × Option String := (a.name, a.value)

/-- Printed arguments are read back one by one. -/
theorem readArgumentsWithin_printed (stop : Nat) (a : Argument) (more : List Argument) (fuel : Nat)
    (hfuel : more.length < fuel) (rest : List Char) :
    ∃ raws, readArgumentsWithin fuel stop
        ((commaJoined ((a :: more).map (·.text))).toList ++ ')' :: rest) = .ok (raws, rest) ∧
      raws.map RawArgument.written = (a :: more).map Argument.written := by
  induction more generalizing a fuel with
  | nil =>
    obtain ⟨fuel, rfl⟩ := Nat.exists_eq_succ_of_ne_zero (Nat.ne_of_gt (Nat.zero_lt_of_lt hfuel))
    obtain ⟨position, hread⟩ := readArgument_text stop a (.inr rfl) rest
    have hclose : trimStart (')' :: rest) = ')' :: rest := trimStart_cons_of_not_blank (by decide)
    refine ⟨[⟨a.kind.name, a.raw, position⟩], ?_, rfl⟩
    unfold readArgumentsWithin
    simp only [commaJoined, List.map_cons, List.map_nil, String.intercalate_singleton, hread, bind,
      Except.bind, hclose]
  | cons b more ih =>
    -- The reader skips the space behind the comma only when it reads the next argument, which takes
    -- fuel of its own.
    obtain ⟨fuel, rfl⟩ := Nat.exists_eq_succ_of_ne_zero (Nat.ne_of_gt (Nat.zero_lt_of_lt hfuel))
    have hmore := Nat.lt_of_succ_lt_succ hfuel
    obtain ⟨fuel, rfl⟩ := Nat.exists_eq_succ_of_ne_zero (Nat.ne_of_gt (Nat.zero_lt_of_lt hmore))
    obtain ⟨raws, hrest, hwritten⟩ := ih b (fuel + 1) hmore
    have htext : (commaJoined ((a :: b :: more).map (·.text))).toList ++ ')' :: rest =
        a.text.toList ++ ',' ::
          (' ' :: ((commaJoined ((b :: more).map (·.text))).toList ++ ')' :: rest)) := by
      simp only [List.map_cons, toList_commaJoined_cons, List.append_assoc, List.cons_append]
    obtain ⟨position, hread⟩ := readArgument_text stop a (.inl rfl)
      (' ' :: ((commaJoined ((b :: more).map (·.text))).toList ++ ')' :: rest))
    refine ⟨⟨a.kind.name, a.raw, position⟩ :: raws, ?_, ?_⟩
    · have hcomma (cs : List Char) : trimStart (',' :: cs) = ',' :: cs :=
        trimStart_cons_of_not_blank (by decide)
      have hspace : readArgumentsWithin (fuel + 1) stop
          (' ' :: ((commaJoined ((b :: more).map (·.text))).toList ++ ')' :: rest)) =
            .ok (raws, rest) := by
        rw [readArgumentsWithin_space, hrest]
      rw [htext]
      unfold readArgumentsWithin
      simp only [hread, bind, Except.bind, hcomma, hspace]
    · rw [List.map_cons, hwritten]
      rfl

/-- A declaration's arguments as they are printed. -/
def Declaration.printedArguments (d : Declaration) : List Char :=
  if d.arguments.isEmpty then []
  else '(' :: ((commaJoined (d.arguments.map (·.text))).toList ++ [')'])

theorem isClosed_commaJoined (arguments : List Argument) :
    IsClosed (commaJoined (arguments.map (·.text))).toList := by
  induction arguments with
  | nil => exact isClosed_nil
  | cons a more ih =>
    cases more with
    | nil =>
      rw [List.map_cons, List.map_nil, commaJoined, String.intercalate_singleton]
      exact a.isClosed_text
    | cons b more =>
      have hcomma : IsClosed [',', ' '] := by decide
      rw [List.map_cons, List.map_cons, toList_commaJoined_cons,
        isClosed_append_iff a.isClosed_text]
      exact (isClosed_append_iff hcomma _).2 ih

theorem Declaration.isClosed_printedArguments (d : Declaration) : IsClosed d.printedArguments := by
  unfold printedArguments
  split
  · exact isClosed_nil
  · have hopen : IsClosed ['('] := by decide
    have hclose : IsClosed [')'] := by decide
    exact (isClosed_append_iff hopen _).2
      ((isClosed_append_iff (isClosed_commaJoined d.arguments) _).2 hclose)

/-- The arguments of a printed declaration are read back; behind them stands the end of the body or
the colon of the target. -/
theorem readArgumentGroup_printed (stop : Nat) (d : Declaration) {rest : List Char}
    (hrest : rest = [] ∨ ∃ more, rest = ':' :: more) :
    ∃ raws, readArgumentGroup stop (d.printedArguments ++ rest) = .ok (raws, rest) ∧
      raws.map RawArgument.written = d.arguments.map Argument.written := by
  unfold Declaration.printedArguments
  cases hargs : d.arguments with
  | nil =>
    refine ⟨[], ?_, rfl⟩
    have hcolon (cs : List Char) : trimStart (':' :: cs) = ':' :: cs :=
      trimStart_cons_of_not_blank (by decide)
    unfold readArgumentGroup
    rcases hrest with rfl | ⟨more, rfl⟩
    · rfl
    · simp only [List.isEmpty_nil, if_true, List.nil_append, hcolon]
      rfl
  | cons a more =>
    have hopen (cs : List Char) : trimStart ('(' :: cs) = '(' :: cs :=
      trimStart_cons_of_not_blank (by decide)
    have hlength : more.length <
        ((commaJoined ((a :: more).map (·.text))).toList ++ ')' :: rest).length + 1 := by
      have hle := length_le_commaJoined a more
      rw [List.length_append]
      omega
    obtain ⟨raws, hread, hwritten⟩ := readArgumentsWithin_printed stop a more _ hlength rest
    refine ⟨raws, ?_, hwritten⟩
    obtain ⟨c, cs, htext, hblank, hclose⟩ := exists_cons_commaJoined a more
    have hstart : trimStart ((commaJoined ((a :: more).map (·.text))).toList ++ ')' :: rest) =
        (commaJoined ((a :: more).map (·.text))).toList ++ ')' :: rest := by
      rw [htext, List.cons_append]
      exact trimStart_cons_of_not_blank hblank
    unfold readArgumentGroup
    simp only [List.isEmpty_cons, Bool.false_eq_true, if_false, List.cons_append,
      List.append_assoc, List.nil_append, hopen]
    -- A closing parenthesis at once would mean that there are no arguments.
    unfold readArguments
    rw [hstart]
    split
    · next heq =>
      rw [htext, List.cons_append] at heq
      obtain ⟨rfl, -⟩ := List.cons.inj heq
      exact absurd rfl hclose
    · exact hread

end BoundFields
