import BoundFields.Proofs.Declaration.Arguments

/-!
# Values as they are printed

Two readers meet a printed value, and neither knows of the other: the scan for the end of a bracket
group runs over it first, character by character, and the reader of arguments takes the value out of
the group later. To the first of them a printed value is nothing at all, and the second gets the
value that was printed (`isTransparent_quoteValue`), whatever the value is.

Quoting puts a backslash in front of every backslash and every quote, which is one pass here and
the same as two replacements in this order (`escapeQuoted_eq_replace`).
-/

set_option autoImplicit false

namespace BoundFields

open Text

/-! ## Escapes -/

/-- Every occurrence of a character replaced by a text. -/
def replaceChar (old : Char) (new : List Char) (cs : List Char) : List Char :=
  cs.flatMap fun c => if c = old then new else [c]

theorem replaceChar_cons_self (old : Char) (new cs : List Char) :
    replaceChar old new (old :: cs) = new ++ replaceChar old new cs := by
  simp [replaceChar]

theorem replaceChar_cons_of_ne {old c : Char} (h : c ≠ old) (new cs : List Char) :
    replaceChar old new (c :: cs) = c :: replaceChar old new cs := by
  simp [replaceChar, h]

/-- Backslashes are escaped first: the ones that come with the quotes are not escaped again. -/
theorem escapeQuoted_eq_replace (raw : List Char) :
    escapeQuoted raw = replaceChar '"' ['\\', '"'] (replaceChar '\\' ['\\', '\\'] raw) := by
  have hne : '\\' ≠ '"' := by decide
  induction raw with
  | nil => rfl
  | cons c cs ih =>
    by_cases hbackslash : c = '\\'
    · subst hbackslash
      rw [replaceChar_cons_self, List.cons_append, replaceChar_cons_of_ne hne, List.cons_append,
        replaceChar_cons_of_ne hne, List.nil_append, ← ih]
      rfl
    · rw [replaceChar_cons_of_ne hbackslash]
      by_cases hquote : c = '"'
      · subst hquote
        rw [replaceChar_cons_self, ← ih]
        rfl
      · rw [replaceChar_cons_of_ne hquote, ← ih]
        simp [escapeQuoted, hquote, hbackslash]

-- The other order escapes the escapes.
example : replaceChar '\\' ['\\', '\\'] (replaceChar '"' ['\\', '"'] ['"']) ≠
    escapeQuoted ['"'] := by decide

/-! ## The two readers -/

/-- A value that is read back from its printed form, and whose printed form the search for the end
of a bracket group does not notice. -/
structure IsTransparent (value : String) : Prop where
  /-- The value is read up to the parenthesis behind it. -/
  value_read : ∀ (stop : Nat) (rest : List Char),
    readValue stop ((quoteValue value).toList ++ ')' :: rest) = .ok (value, ')' :: rest)
  /-- Between parentheses it is the value of an argument. -/
  argument_read : ∀ (stop : Nat) (rest : List Char),
    readArgumentValue stop ('(' :: ((quoteValue value).toList ++ ')' :: rest)) =
      .ok (some value, rest)
  /-- Whatever is open in front of it is open behind it, and no quote is. -/
  scanned : ∀ depth : Nat,
    (BracketState.plain depth).scan (quoteValue value).toList = some (.plain depth)
  /-- The group ends where it would end without it. -/
  passed : ∀ (depth : Nat) (rest : List Char),
    (BracketState.plain depth).splitGroup ((quoteValue value).toList ++ rest) =
      ((BracketState.plain depth).splitGroup rest).map fun (inner, behind) =>
        ((quoteValue value).toList ++ inner, behind)

theorem isTransparent_quoteValue (value : String) : IsTransparent value := by
  have hchars : (quoteValue value).toList = quoteChars value.toList := by simp [quoteValue]
  have hread (stop : Nat) (rest : List Char) :
      readValue stop ((quoteValue value).toList ++ ')' :: rest) = .ok (value, ')' :: rest) := by
    rw [hchars, readValue_quoteChars, String.ofList_toList]
  have hscan (depth : Nat) :
      (BracketState.plain depth).scan (quoteValue value).toList = some (.plain depth) := by
    rw [hchars]
    exact BracketState.scan_quoteChars depth value.toList
  refine ⟨hread, ?_, hscan, ?_⟩
  · intro stop rest
    have hopen : trimStart ('(' :: ((quoteValue value).toList ++ ')' :: rest)) =
        '(' :: ((quoteValue value).toList ++ ')' :: rest) :=
      trimStart_cons_of_not_blank (by decide)
    have hclose : trimStart (')' :: rest) = ')' :: rest :=
      trimStart_cons_of_not_blank (by decide)
    exact (Form.readArgumentValue_of_open hopen).2 ⟨value, _, hread stop rest, hclose, rfl⟩
  · intro depth rest
    exact BracketState.splitGroup_append (hscan depth) rest

end BoundFields
